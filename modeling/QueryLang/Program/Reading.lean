import QueryLang.Program.Basic
import QueryLang.Syntax.View

/-!
# Reading programs from trees

Each node is read through the view of its kind. A node of a kind that has no place in a program
is a fault, and so is a node that lacks a part. Reading goes down at most as many levels as the
tree has nodes.
-/

namespace QueryLang

/-- How many levels below a root expression may lie. Operators in a row count one level each. -/
def maxExpressionDepth : Nat := 500

/-- Where a node stands. -/
def Site.ofNode (tree : SyntaxTree) (node : NodeId) : Checked Site := do
  return ⟨node, tree.location (← tree.span node)⟩

/-- The name that a token stands for. -/
def Identifier.ofToken (tree : SyntaxTree) (id : TokenId) : Checked Identifier := do
  let token ← tree.token id
  return ⟨if token.isMissing then none else token.value, tree.location token.span⟩

/-- The name inside a node. -/
def Identifier.ofNode (tree : SyntaxTree) (node : NodeId) : Checked Identifier := do
  Identifier.ofToken tree (← IdentifierNameView.read tree node).identifier

/-- The value of a literal. -/
def Constant.ofNode (tree : SyntaxTree) (node : NodeId) : Checked Constant := do
  let text ← tree.tokenText (← LiteralView.read tree node).token
  match ← tree.kind node with
  | .numericLiteralExpression => return .int (numberValue text.toList)
  | .stringLiteralExpression => return .string (String.ofList (unquote text.toList))
  | .trueLiteralExpression => return .bool true
  | _ => return .bool false

mutual

/-- Reads an expression that is nested at most `levels` deep. -/
def readExpr (tree : SyntaxTree) : (levels : Nat) → NodeId → Checked Expr
  | 0, _ => .error .outOfRange
  | levels + 1, node => do
    let kind ← tree.kind node
    let site ← Site.ofNode tree node
    match kind with
    | .identifierName => return .name site (← Identifier.ofNode tree node)
    | .numericLiteralExpression | .stringLiteralExpression | .trueLiteralExpression
    | .falseLiteralExpression => return .literal site (← Constant.ofNode tree node)
    | .parenthesizedExpression =>
      let view ← WrappedExpressionView.read tree node
      return .parenthesized site (← readExpr tree levels view.expression)
    | .memberAccessExpression =>
      let view ← MemberAccessView.read tree node
      let receiver ← readExpr tree levels view.expression
      return .memberAccess site receiver (← Identifier.ofNode tree view.name)
    | .invocationExpression => readCall tree levels site
    | .binaryExpression =>
      let view ← BinaryView.read tree node
      let left ← readExpr tree levels view.left
      let right ← readExpr tree levels view.right
      let token ← tree.token view.operator
      return .binary site ⟨token.kind, tree.location token.span⟩ left right
    | .queryExpression => readQuery tree levels site
    | _ => .error (.notAnExpression kind)

/-- Reads a call. What is called decides which kind of call it is. -/
def readCall (tree : SyntaxTree) : (levels : Nat) → Site → Checked Expr
  | 0, _ => .error .outOfRange
  | levels + 1, site => do
    let view ← InvocationView.read tree site.node
    match ← tree.kind view.expression with
    | .memberAccessExpression =>
      let access ← MemberAccessView.read tree view.expression
      let receiver ← readExpr tree levels access.expression
      let arguments ← view.arguments.mapM (readExpr tree levels)
      return .memberCall site receiver (← Identifier.ofNode tree access.name) arguments
    | .identifierName =>
      let arguments ← view.arguments.mapM (readExpr tree levels)
      return .namedCall site (← Identifier.ofNode tree view.expression) arguments
    | _ =>
      let callee ← readExpr tree levels view.expression
      let arguments ← view.arguments.mapM (readExpr tree levels)
      return .valueCall site callee (← tree.nodeText view.expression) arguments

/-- Reads a query. -/
def readQuery (tree : SyntaxTree) : (levels : Nat) → Site → Checked Expr
  | 0, _ => .error .outOfRange
  | levels + 1, site => do
    let view ← QueryView.read tree site.node
    let body ← QueryBodyView.read tree view.body
    let clauses ← (view.fromClause :: body.clauses).mapM (readClause tree levels)
    let ending ← match body.selectOrGroup with
      | some clause => readEnding tree levels clause
      | none => pure .absent
    let conclusion ← match body.conclusion with
      | some clause => readConclusion tree levels clause
      | none => pure .absent
    return .query site clauses ending conclusion

/-- Reads a clause of a query before its last. -/
def readClause (tree : SyntaxTree) : (levels : Nat) → NodeId → Checked Clause
  | 0, _ => .error .outOfRange
  | levels + 1, node => do
    let kind ← tree.kind node
    let site ← Site.ofNode tree node
    match kind with
    | .fromClause =>
      let view ← FromClauseView.read tree node
      let source ← readExpr tree levels view.expression
      return .fromClause site (← Identifier.ofToken tree view.identifier) source
    | .whereClause =>
      let view ← WrappedExpressionView.read tree node
      return .whereClause site (← readExpr tree levels view.expression)
    | .letClause =>
      let view ← LetClauseView.read tree node
      let value ← readExpr tree levels view.expression
      return .letClause site (← Identifier.ofToken tree view.identifier) value
    | _ => .error (.notAQueryBodyClause kind)

/-- Reads the last clause of a query. -/
def readEnding (tree : SyntaxTree) : (levels : Nat) → NodeId → Checked QueryEnding
  | 0, _ => .error .outOfRange
  | levels + 1, node => do
    let site ← Site.ofNode tree node
    if (← tree.kind node) = .groupClause then
      let view ← GroupClauseView.read tree node
      let element ← readExpr tree levels view.element
      return .groupClause site element (← readExpr tree levels view.key)
    else
      let view ← WrappedExpressionView.read tree node
      return .selectClause site (← readExpr tree levels view.expression)

/-- Reads the conclusion of a query. -/
def readConclusion (tree : SyntaxTree) : (levels : Nat) → NodeId → Checked Conclusion
  | 0, _ => .error .outOfRange
  | levels + 1, node => do
    let site ← Site.ofNode tree node
    let view ← QueryConclusionView.read tree node
    let body ← readRoot tree levels view.expression
    return .present site (← Identifier.ofToken tree view.identifier) body

/-- Reads the expression of a statement or of a conclusion, unless it is nested too deep. -/
def readRoot (tree : SyntaxTree) : (levels : Nat) → NodeId → Checked RootExpr
  | 0, _ => .error .outOfRange
  | levels + 1, node => do
    if tree.exceedsDepth node maxExpressionDepth then
      let site ← Site.ofNode tree node
      match ← tree.firstToken? node with
      | some token => return .tooDeep site (← tree.tokenLocation token)
      | none => return .tooDeep site site.location
    else
      return .expression (← readExpr tree levels node)

end

/-- Enough levels for whatever a tree holds: no node takes more than two. -/
def readingLevels (tree : SyntaxTree) : Nat := 2 * tree.nodes.size + 2

/-- The expression at a node. -/
def Expr.ofNode (tree : SyntaxTree) (node : NodeId) : Checked Expr :=
  readExpr tree (readingLevels tree) node

/-- The expression of a statement or of a conclusion at a node. -/
def RootExpr.ofNode (tree : SyntaxTree) (node : NodeId) : Checked RootExpr :=
  readRoot tree (readingLevels tree) node

/-- The conclusion of a query at a node. -/
def Conclusion.ofNode (tree : SyntaxTree) (node : NodeId) : Checked Conclusion :=
  readConclusion tree (readingLevels tree) node

mutual

/-- Reads a statement that is nested at most `levels` deep. -/
def readStatement (tree : SyntaxTree) : (levels : Nat) → NodeId → Checked Statement
  | 0, _ => .error .outOfRange
  | levels + 1, node => do
    let kind ← tree.kind node
    let site ← Site.ofNode tree node
    match kind with
    | .localDeclarationStatement =>
      let view ← LocalDeclarationView.read tree node
      let initializer ← RootExpr.ofNode tree view.initializer
      return .localDeclaration site (← Identifier.ofToken tree view.identifier) initializer
    | .block => return .block site (← readBlock tree levels node).statements
    | .expressionStatement =>
      let view ← WrappedExpressionView.read tree node
      return .expression site (← RootExpr.ofNode tree view.expression)
    | .returnStatement =>
      let view ← ReturnStatementView.read tree node
      return .returnValue site (← view.expression.mapM (RootExpr.ofNode tree))
    | .yieldReturnStatement =>
      let view ← ReturnStatementView.read tree node
      return .yieldReturn site (← view.expression.mapM (RootExpr.ofNode tree))
    | .yieldBreakStatement => return .yieldBreak site
    | .doStatement =>
      let view ← DoStatementView.read tree node
      let body ← readBlock tree levels view.body
      return .doWhile site body.site body.statements (← RootExpr.ofNode tree view.condition)
    | _ => .error (.notAStatement kind)

/-- Reads a block. -/
def readBlock (tree : SyntaxTree) : (levels : Nat) → NodeId → Checked StatementList
  | 0, _ => .error .outOfRange
  | levels + 1, node => do
    let site ← Site.ofNode tree node
    let view ← BlockView.read tree node
    return ⟨site, ← view.statements.mapM (readStatement tree levels)⟩

end

/-- The block at a node. -/
def StatementList.ofNode (tree : SyntaxTree) (node : NodeId) : Checked StatementList :=
  readBlock tree (readingLevels tree) node

/-- The statements of a whole file. -/
def StatementList.ofTree (tree : SyntaxTree) : Checked StatementList := do
  let site ← Site.ofNode tree SyntaxTree.root
  let view ← CompilationUnitView.read tree SyntaxTree.root
  return ⟨site, ← view.statements.mapM (readStatement tree (readingLevels tree))⟩

end QueryLang
