import QueryLang.Syntax.Tree

/-!
# Views of nodes

A view names the parts of a node by their role: the operands and the operator of a binary
expression, the identifier of a declaration, and so on. Reading a view fails when the node lacks
a part that the view has; the parts are looked for in the order in which the view lists them.

Each view has the node kinds that it `Accepts`. `View.read` reads whatever kind the node has.
-/

namespace QueryLang

namespace SyntaxTree

/-- The child token of a kind, which the node must have. -/
def requireToken (tree : SyntaxTree) (id : NodeId) (kind : Kind) : Checked TokenId := do
  match ← tree.childToken? id kind with
  | some token => return token
  | none => .error (.malformed (← tree.kind id) (.token kind))

/-- The child node with a number, which the node must have. -/
def requireChild (tree : SyntaxTree) (id : NodeId) (index : Nat) : Checked NodeId := do
  match ← tree.childNode? id index with
  | some child => return child
  | none => .error (.malformed (← tree.kind id) (.childNode index))

end SyntaxTree

/-- A whole file: its statements. -/
structure CompilationUnitView where
  node : NodeId
  statements : List NodeId

/-- `{ statements }`. -/
structure BlockView where
  node : NodeId
  openBrace : TokenId
  statements : List NodeId
  closeBrace : TokenId

/-- `var identifier = initializer;`. -/
structure LocalDeclarationView where
  node : NodeId
  identifier : TokenId
  initializer : NodeId
  semicolon : TokenId

/-- `return expression?;`, `yield return expression;` and `yield break;`. -/
structure ReturnStatementView where
  node : NodeId
  yieldKeyword : Option TokenId
  keyword : TokenId
  expression : Option NodeId

/-- `do body while (condition);`. -/
structure DoStatementView where
  node : NodeId
  doKeyword : TokenId
  body : NodeId
  condition : NodeId

/-- A node around one expression: an expression statement, parentheses, `where` and `select`. -/
structure WrappedExpressionView where
  node : NodeId
  expression : NodeId

/-- A name used as an expression. -/
structure IdentifierNameView where
  node : NodeId
  identifier : TokenId

/-- A literal. -/
structure LiteralView where
  node : NodeId
  token : TokenId

/-- `expression.name`. -/
structure MemberAccessView where
  node : NodeId
  expression : NodeId
  dot : TokenId
  name : NodeId

/-- `expression(arguments)`. -/
structure InvocationView where
  node : NodeId
  expression : NodeId
  arguments : List NodeId

/-- `left operator right`. -/
structure BinaryView where
  node : NodeId
  left : NodeId
  operator : TokenId
  right : NodeId

/-- A query: its first `from` clause and the rest of it. -/
structure QueryView where
  node : NodeId
  fromClause : NodeId
  body : NodeId

/-- The clauses of a query after the first, the clause that ends it, and its conclusion. -/
structure QueryBodyView where
  node : NodeId
  clauses : List NodeId
  selectOrGroup : Option NodeId
  conclusion : Option NodeId

/-- `from identifier in expression`. -/
structure FromClauseView where
  node : NodeId
  identifier : TokenId
  expression : NodeId

/-- `let identifier = expression`. -/
structure LetClauseView where
  node : NodeId
  identifier : TokenId
  expression : NodeId

/-- `group element by key`. -/
structure GroupClauseView where
  node : NodeId
  element : NodeId
  byKeyword : TokenId
  key : NodeId

/-- `yield into identifier do expression`: the identifier stands for the result of the clauses
before it, and can be used in the expression. -/
structure QueryConclusionView where
  node : NodeId
  yieldKeyword : TokenId
  intoKeyword : TokenId
  identifier : TokenId
  doKeyword : TokenId
  expression : NodeId

namespace CompilationUnitView

/-- Reads a file out of a node. -/
def read (tree : SyntaxTree) (node : NodeId) : Checked CompilationUnitView := do
  return { node, statements := ← tree.childNodes node }

end CompilationUnitView

namespace BlockView

/-- Reads a block out of a node. -/
def read (tree : SyntaxTree) (node : NodeId) : Checked BlockView := do
  let openBrace ← tree.requireToken node .openBraceToken
  let statements ← tree.childNodes node
  let closeBrace ← tree.requireToken node .closeBraceToken
  return { node, openBrace, statements, closeBrace }

end BlockView

namespace LocalDeclarationView

/-- Reads a local declaration out of a node. -/
def read (tree : SyntaxTree) (node : NodeId) : Checked LocalDeclarationView := do
  let identifier ← tree.requireToken node .identifierToken
  let initializer ← tree.requireChild node 0
  let semicolon ← tree.requireToken node .semicolonToken
  return { node, identifier, initializer, semicolon }

end LocalDeclarationView

namespace ReturnStatementView

/-- Reads a `return` or `yield` statement out of a node. -/
def read (tree : SyntaxTree) (node : NodeId) : Checked ReturnStatementView := do
  let kind ← tree.kind node
  let yieldKeyword ← tree.childToken? node .yieldKeyword
  let keyword ← tree.requireToken node
    (if kind = .yieldBreakStatement then .breakKeyword else .returnKeyword)
  let expression ← tree.childNode? node 0
  return { node, yieldKeyword, keyword, expression }

end ReturnStatementView

namespace DoStatementView

/-- Reads a `do` statement out of a node. -/
def read (tree : SyntaxTree) (node : NodeId) : Checked DoStatementView := do
  let doKeyword ← tree.requireToken node .doKeyword
  let body ← tree.requireChild node 0
  let condition ← tree.requireChild node 1
  return { node, doKeyword, body, condition }

end DoStatementView

namespace WrappedExpressionView

/-- Reads the expression that a node wraps. -/
def read (tree : SyntaxTree) (node : NodeId) : Checked WrappedExpressionView := do
  return { node, expression := ← tree.requireChild node 0 }

end WrappedExpressionView

namespace IdentifierNameView

/-- Reads a name out of a node. -/
def read (tree : SyntaxTree) (node : NodeId) : Checked IdentifierNameView := do
  return { node, identifier := ← tree.requireToken node .identifierToken }

end IdentifierNameView

namespace LiteralView

/-- Reads a literal out of a node. -/
def read (tree : SyntaxTree) (node : NodeId) : Checked LiteralView := do
  match (← tree.childTokens node).head? with
  | some token => return { node, token }
  | none => .error (.malformed (← tree.kind node) .anyToken)

end LiteralView

namespace MemberAccessView

/-- Reads a member access out of a node. -/
def read (tree : SyntaxTree) (node : NodeId) : Checked MemberAccessView := do
  let expression ← tree.requireChild node 0
  let dot ← tree.requireToken node .dotToken
  let name ← tree.requireChild node 1
  return { node, expression, dot, name }

end MemberAccessView

namespace InvocationView

/-- Reads a call out of a node. The argument list is looked for first. -/
def read (tree : SyntaxTree) (node : NodeId) : Checked InvocationView := do
  let argumentList ← tree.requireChild node 1
  let expression ← tree.requireChild node 0
  let arguments ← tree.childNodes argumentList
  return { node, expression, arguments }

end InvocationView

namespace BinaryView

/-- Reads a binary expression out of a node. The operator is looked for first. -/
def read (tree : SyntaxTree) (node : NodeId) : Checked BinaryView := do
  let some operator := (← tree.childTokens node).head?
    | .error (.malformed .binaryExpression .operator)
  let left ← tree.requireChild node 0
  let right ← tree.requireChild node 1
  return { node, left, operator, right }

end BinaryView

namespace QueryView

/-- Reads a query out of a node. -/
def read (tree : SyntaxTree) (node : NodeId) : Checked QueryView := do
  let fromClause ← tree.requireChild node 0
  let body ← tree.requireChild node 1
  return { node, fromClause, body }

end QueryView

namespace QueryBodyView

/-- Puts a child of a query body into the role that its kind gives it. The last clause of a role
counts. -/
def addChild (tree : SyntaxTree) (view : QueryBodyView) (child : NodeId) :
    Checked QueryBodyView := do
  match ← tree.kind child with
  | .selectClause | .groupClause => return { view with selectOrGroup := some child }
  | .queryConclusion => return { view with conclusion := some child }
  | _ => return { view with clauses := view.clauses ++ [child] }

/-- Reads a query body out of a node. -/
def read (tree : SyntaxTree) (node : NodeId) : Checked QueryBodyView := do
  (← tree.childNodes node).foldlM (addChild tree) ⟨node, [], none, none⟩

end QueryBodyView

namespace FromClauseView

/-- Reads a `from` clause out of a node. -/
def read (tree : SyntaxTree) (node : NodeId) : Checked FromClauseView := do
  let identifier ← tree.requireToken node .identifierToken
  let expression ← tree.requireChild node 0
  return { node, identifier, expression }

end FromClauseView

namespace LetClauseView

/-- Reads a `let` clause out of a node. -/
def read (tree : SyntaxTree) (node : NodeId) : Checked LetClauseView := do
  let identifier ← tree.requireToken node .identifierToken
  let expression ← tree.requireChild node 0
  return { node, identifier, expression }

end LetClauseView

namespace GroupClauseView

/-- Reads a `group` clause out of a node. -/
def read (tree : SyntaxTree) (node : NodeId) : Checked GroupClauseView := do
  let element ← tree.requireChild node 0
  let byKeyword ← tree.requireToken node .byKeyword
  let key ← tree.requireChild node 1
  return { node, element, byKeyword, key }

end GroupClauseView

namespace QueryConclusionView

/-- Reads a query conclusion out of a node. -/
def read (tree : SyntaxTree) (node : NodeId) : Checked QueryConclusionView := do
  let yieldKeyword ← tree.requireToken node .yieldKeyword
  let intoKeyword ← tree.requireToken node .intoKeyword
  let identifier ← tree.requireToken node .identifierToken
  let doKeyword ← tree.requireToken node .doKeyword
  let expression ← tree.requireChild node 0
  return { node, yieldKeyword, intoKeyword, identifier, doKeyword, expression }

end QueryConclusionView

/-- The views that there are. -/
inductive View
  | compilationUnit
  | block
  | localDeclaration
  | returnStatement
  | doStatement
  | wrappedExpression
  | identifierName
  | literal
  | memberAccess
  | invocation
  | binary
  | query
  | queryBody
  | fromClause
  | letClause
  | groupClause
  | queryConclusion
deriving DecidableEq, Inhabited

/-- The value of a part of a view: one index, one that may be absent, or several. -/
inductive ViewPart
  | one (id : Nat)
  | optional (id : Option Nat)
  | many (ids : List Nat)
deriving DecidableEq, Inhabited

namespace View

/-- All views. -/
def all : List View :=
  [compilationUnit, block, localDeclaration, returnStatement, doStatement, wrappedExpression,
   identifierName, literal, memberAccess, invocation, binary, query, queryBody, fromClause,
   letClause, groupClause, queryConclusion]

/-- The name of a view as dumps write it. -/
def name : View → String
  | compilationUnit => "CompilationUnit"
  | block => "Block"
  | localDeclaration => "LocalDeclaration"
  | returnStatement => "ReturnStatement"
  | doStatement => "DoStatement"
  | wrappedExpression => "WrappedExpression"
  | identifierName => "IdentifierName"
  | literal => "Literal"
  | memberAccess => "MemberAccess"
  | invocation => "Invocation"
  | binary => "Binary"
  | query => "Query"
  | queryBody => "QueryBody"
  | fromClause => "From"
  | letClause => "Let"
  | groupClause => "Group"
  | queryConclusion => "QueryConclusion"

/-- The view with a name. -/
def ofName? (text : String) : Option View := all.find? (·.name == text)

/-- Whether nodes of a kind can be seen through a view. -/
def accepts : View → Kind → Bool
  | compilationUnit, .compilationUnit => true
  | block, .block => true
  | localDeclaration, .localDeclarationStatement => true
  | returnStatement, .returnStatement => true
  | returnStatement, .yieldReturnStatement => true
  | returnStatement, .yieldBreakStatement => true
  | doStatement, .doStatement => true
  | wrappedExpression, .expressionStatement => true
  | wrappedExpression, .parenthesizedExpression => true
  | wrappedExpression, .whereClause => true
  | wrappedExpression, .selectClause => true
  | identifierName, .identifierName => true
  | literal, .numericLiteralExpression => true
  | literal, .stringLiteralExpression => true
  | literal, .trueLiteralExpression => true
  | literal, .falseLiteralExpression => true
  | memberAccess, .memberAccessExpression => true
  | invocation, .invocationExpression => true
  | binary, .binaryExpression => true
  | query, .queryExpression => true
  | queryBody, .queryBody => true
  | fromClause, .fromClause => true
  | letClause, .letClause => true
  | groupClause, .groupClause => true
  | queryConclusion, .queryConclusion => true
  | _, _ => false

/-- The parts of a node seen through a view, by name. -/
def read (view : View) (tree : SyntaxTree) (node : NodeId) :
    Checked (List (String × ViewPart)) := do
  let parts ← match view with
    | compilationUnit => do
      let unit ← CompilationUnitView.read tree node
      pure [("statements", .many unit.statements)]
    | block => do
      let block ← BlockView.read tree node
      pure [("open", .one block.openBrace), ("statements", .many block.statements),
        ("close", .one block.closeBrace)]
    | localDeclaration => do
      let declaration ← LocalDeclarationView.read tree node
      pure [("identifier", .one declaration.identifier),
        ("initializer", .one declaration.initializer), ("semicolon", .one declaration.semicolon)]
    | returnStatement => do
      let statement ← ReturnStatementView.read tree node
      pure [("yield", .optional statement.yieldKeyword), ("keyword", .one statement.keyword),
        ("expression", .optional statement.expression)]
    | doStatement => do
      let statement ← DoStatementView.read tree node
      pure [("do", .one statement.doKeyword), ("body", .one statement.body),
        ("condition", .one statement.condition)]
    | wrappedExpression => do
      let wrapped ← WrappedExpressionView.read tree node
      pure [("expression", .one wrapped.expression)]
    | identifierName => do
      let name ← IdentifierNameView.read tree node
      pure [("identifier", .one name.identifier)]
    | literal => do
      let literal ← LiteralView.read tree node
      pure [("token", .one literal.token)]
    | memberAccess => do
      let access ← MemberAccessView.read tree node
      pure [("expression", .one access.expression), ("dot", .one access.dot),
        ("name", .one access.name)]
    | invocation => do
      let call ← InvocationView.read tree node
      pure [("expression", .one call.expression), ("arguments", .many call.arguments)]
    | binary => do
      let binary ← BinaryView.read tree node
      pure [("left", .one binary.left), ("operator", .one binary.operator),
        ("right", .one binary.right)]
    | query => do
      let query ← QueryView.read tree node
      pure [("from", .one query.fromClause), ("body", .one query.body)]
    | queryBody => do
      let body ← QueryBodyView.read tree node
      pure [("clauses", .many body.clauses), ("select_or_group", .optional body.selectOrGroup),
        ("conclusion", .optional body.conclusion)]
    | fromClause => do
      let clause ← FromClauseView.read tree node
      pure [("identifier", .one clause.identifier), ("expression", .one clause.expression)]
    | letClause => do
      let clause ← LetClauseView.read tree node
      pure [("identifier", .one clause.identifier), ("expression", .one clause.expression)]
    | groupClause => do
      let clause ← GroupClauseView.read tree node
      pure [("group", .one clause.element), ("by_keyword", .one clause.byKeyword),
        ("by", .one clause.key)]
    | queryConclusion => do
      let conclusion ← QueryConclusionView.read tree node
      pure [("yield", .one conclusion.yieldKeyword), ("into", .one conclusion.intoKeyword),
        ("identifier", .one conclusion.identifier), ("do", .one conclusion.doKeyword),
        ("expression", .one conclusion.expression)]
  return ("node", .one node) :: parts

/-- The parts of a node, if its kind can be seen through the view. -/
def cast? (view : View) (tree : SyntaxTree) (node : NodeId) :
    Checked (Option (List (String × ViewPart))) := do
  if view.accepts (← tree.kind node) then
    return some (← view.read tree node)
  else
    return none

end View

end QueryLang
