import QueryLang.Proofs.Syntax.Viewing
import QueryLang.Program.Reading

/-!
# Programs and their trees

What it means that a part of a program is what a tree says at the site of the part. This is the
relation that reading establishes, without the levels that bound reading and without the order in
which it looks at things.
-/

namespace QueryLang

namespace SyntaxTree

/-- A node has a kind and these child nodes. -/
structure BranchAt (tree : SyntaxTree) (node : NodeId) (kind : Kind) (children : List NodeId) :
    Prop where
  kind_eq : tree.kind node = .ok kind
  children_eq : tree.childNodes node = .ok children

/-- A node has a token for an identifier. The identifier is absent only from damaged source. -/
structure DeclaresAt (tree : SyntaxTree) (damaged : Prop) (node : NodeId)
    (identifier : Identifier) : Prop where
  token : ∃ id token, tree.childToken? node .identifierToken = .ok (some id) ∧
    tree.token id = .ok token ∧ identifier.location = tree.location token.span ∧
    identifier.name = if token.isMissing then none else token.value
  present : identifier.name = none → damaged

/-- A node is a name for an identifier. -/
structure NameAt (tree : SyntaxTree) (damaged : Prop) (node : NodeId)
    (identifier : Identifier) : Prop where
  branch : tree.BranchAt node .identifierName []
  declares : tree.DeclaresAt damaged node identifier

/-- A node that, where it is called, says by a name what to call. -/
def NamesCallee (tree : SyntaxTree) (node : NodeId) : Prop :=
  tree.kind node = .ok .memberAccessExpression ∨ tree.kind node = .ok .identifierName

theorem not_namesCallee {tree : SyntaxTree} {node : NodeId} {kind : Kind}
    (kindEq : tree.kind node = .ok kind) (notMember : kind ≠ .memberAccessExpression)
    (notName : kind ≠ .identifierName) : ¬tree.NamesCallee node := by
  rintro (isMember | isName)
  · rw [kindEq] at isMember
    exact notMember (Except.ok.inj isMember)
  · rw [kindEq] at isName
    exact notName (Except.ok.inj isName)

end SyntaxTree

/-- Whether nodes of a kind are expressions. -/
def Kind.isExpression : Kind → Bool
  | .identifierName | .numericLiteralExpression | .stringLiteralExpression
  | .trueLiteralExpression | .falseLiteralExpression | .parenthesizedExpression
  | .memberAccessExpression | .invocationExpression | .binaryExpression | .queryExpression => true
  | _ => false

theorem Kind.isExpression_of_literalToken? {kind token : Kind}
    (isLiteral : kind.literalToken? = some token) : kind.isExpression = true := by
  unfold Kind.literalToken? at isLiteral
  split at isLiteral
  all_goals first
    | rfl
    | cases isLiteral

/-- The node of a clause before the last of a query. -/
def Clause.node : Clause → NodeId
  | .fromClause site _ _ | .whereClause site _ | .letClause site _ _ => site.node

/-- The node of the last clause of a query, if it has one. -/
def QueryEnding.nodes : QueryEnding → List NodeId
  | .absent => []
  | .selectClause site _ | .groupClause site _ _ => [site.node]

/-- The node of a conclusion, if there is one. -/
def Conclusion.nodes : Conclusion → List NodeId
  | .absent => []
  | .present site _ _ => [site.node]

mutual

/-- An expression is what the tree says at its site. -/
def Expr.At (tree : SyntaxTree) (damaged : Prop) : Expr → Prop
  | .name site identifier => tree.NameAt damaged site.node identifier
  | .literal site _ => ∃ kind, kind.literalToken?.isSome ∧ tree.BranchAt site.node kind []
  | .parenthesized site inner =>
    tree.BranchAt site.node .parenthesizedExpression [inner.site.node] ∧ inner.At tree damaged
  | .memberAccess site receiver member => ∃ name,
    tree.BranchAt site.node .memberAccessExpression [receiver.site.node, name] ∧
      tree.NameAt damaged name member ∧ receiver.At tree damaged
  | .memberCall site receiver member arguments => ∃ callee name list,
    tree.BranchAt site.node .invocationExpression [callee, list] ∧
      tree.BranchAt callee .memberAccessExpression [receiver.site.node, name] ∧
      tree.NameAt damaged name member ∧
      tree.BranchAt list .argumentList (arguments.map fun argument => argument.site.node) ∧
      receiver.At tree damaged ∧ Expr.AllAt tree damaged arguments
  | .namedCall site callee arguments => ∃ name list,
    tree.BranchAt site.node .invocationExpression [name, list] ∧
      tree.NameAt damaged name callee ∧
      tree.BranchAt list .argumentList (arguments.map fun argument => argument.site.node) ∧
      Expr.AllAt tree damaged arguments
  | .valueCall site callee _ arguments => ∃ list,
    tree.BranchAt site.node .invocationExpression [callee.site.node, list] ∧
      ¬tree.NamesCallee callee.site.node ∧
      tree.BranchAt list .argumentList (arguments.map fun argument => argument.site.node) ∧
      callee.At tree damaged ∧ Expr.AllAt tree damaged arguments
  | .binary site _ left right =>
    tree.BranchAt site.node .binaryExpression [left.site.node, right.site.node] ∧
      left.At tree damaged ∧ right.At tree damaged
  | .query site clauses ending conclusion => ∃ first rest body,
    clauses = first :: rest ∧ tree.BranchAt site.node .queryExpression [first.node, body] ∧
      tree.BranchAt body .queryBody
        (rest.map Clause.node ++ (ending.nodes ++ conclusion.nodes)) ∧
      Clause.AllAt tree damaged clauses ∧ ending.At tree damaged ∧ conclusion.At tree damaged

/-- Expressions are what the tree says at their sites. -/
def Expr.AllAt (tree : SyntaxTree) (damaged : Prop) : List Expr → Prop
  | [] => True
  | expr :: rest => expr.At tree damaged ∧ Expr.AllAt tree damaged rest

/-- A clause is what the tree says at its site. -/
def Clause.At (tree : SyntaxTree) (damaged : Prop) : Clause → Prop
  | .fromClause site identifier source =>
    tree.BranchAt site.node .fromClause [source.site.node] ∧
      tree.DeclaresAt damaged site.node identifier ∧ source.At tree damaged
  | .whereClause site condition =>
    tree.BranchAt site.node .whereClause [condition.site.node] ∧ condition.At tree damaged
  | .letClause site identifier value =>
    tree.BranchAt site.node .letClause [value.site.node] ∧
      tree.DeclaresAt damaged site.node identifier ∧ value.At tree damaged

/-- Clauses are what the tree says at their sites. -/
def Clause.AllAt (tree : SyntaxTree) (damaged : Prop) : List Clause → Prop
  | [] => True
  | clause :: rest => clause.At tree damaged ∧ Clause.AllAt tree damaged rest

/-- The last clause of a query is what the tree says at its site. -/
def QueryEnding.At (tree : SyntaxTree) (damaged : Prop) : QueryEnding → Prop
  | .absent => False
  | .selectClause site selected =>
    tree.BranchAt site.node .selectClause [selected.site.node] ∧ selected.At tree damaged
  | .groupClause site element key =>
    tree.BranchAt site.node .groupClause [element.site.node, key.site.node] ∧
      element.At tree damaged ∧ key.At tree damaged

/-- The conclusion of a query is what the tree says at its site. -/
def Conclusion.At (tree : SyntaxTree) (damaged : Prop) : Conclusion → Prop
  | .absent => True
  | .present site identifier body =>
    tree.BranchAt site.node .queryConclusion [body.site.node] ∧
      tree.DeclaresAt damaged site.node identifier ∧ body.At tree damaged

/-- A root expression is what the tree says at its site. Of one that is nested too deep it is only
known that it is, that it is an expression, and more than a name. -/
def RootExpr.At (tree : SyntaxTree) (damaged : Prop) : RootExpr → Prop
  | .tooDeep site _ => tree.exceedsDepth site.node maxExpressionDepth = true ∧ ∃ kind,
    tree.kind site.node = .ok kind ∧ kind.isExpression = true ∧ kind ≠ .identifierName
  | .expression expr => expr.At tree damaged

end

mutual

/-- A statement is what the tree says at its site. -/
def Statement.At (tree : SyntaxTree) (damaged : Prop) : Statement → Prop
  | .localDeclaration site identifier initializer =>
    tree.BranchAt site.node .localDeclarationStatement [initializer.site.node] ∧
      tree.DeclaresAt damaged site.node identifier ∧ initializer.At tree damaged
  | .expression site value =>
    tree.BranchAt site.node .expressionStatement [value.site.node] ∧ value.At tree damaged
  | .returnValue site none => tree.BranchAt site.node .returnStatement []
  | .returnValue site (some value) =>
    tree.BranchAt site.node .returnStatement [value.site.node] ∧ value.At tree damaged
  | .yieldReturn _ none => False
  | .yieldReturn site (some value) =>
    tree.BranchAt site.node .yieldReturnStatement [value.site.node] ∧ value.At tree damaged
  | .yieldBreak site => tree.BranchAt site.node .yieldBreakStatement []
  | .doWhile site bodySite body condition =>
    tree.BranchAt site.node .doStatement [bodySite.node, condition.site.node] ∧
      tree.BranchAt bodySite.node .block (body.map fun statement => statement.site.node) ∧
      Statement.AllAt tree damaged body ∧ condition.At tree damaged
  | .block site statements =>
    tree.BranchAt site.node .block (statements.map fun statement => statement.site.node) ∧
      Statement.AllAt tree damaged statements

/-- Statements are what the tree says at their sites. -/
def Statement.AllAt (tree : SyntaxTree) (damaged : Prop) : List Statement → Prop
  | [] => True
  | statement :: rest => statement.At tree damaged ∧ Statement.AllAt tree damaged rest

end

end QueryLang
