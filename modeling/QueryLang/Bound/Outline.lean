import QueryLang.Bound.Basic

/-!
# Outlines of bound trees

An outline shows a bound tree as rows: one row for each part, in the order in which the parts are
met from the root, with the depth of the part and what is known about it.
-/

namespace QueryLang

/-- What a row says about a part, under a key. -/
inductive Detail
  | symbol (symbol : Option Symbol)
  | type (type : Option TypeId)
  | constant (value : Constant)
  | text (text : String)
  | flag (value : Bool)
  | reference (reference : ParameterReference)
deriving Inhabited

/-- One part of a bound tree. -/
structure OutlineRow where
  depth : Nat
  label : String
  node : NodeId
  details : List (String × Detail)
deriving Inhabited

/-- A row for an expression of a type. -/
def OutlineRow.ofExpr (depth : Nat) (label : String) (expr : BoundExpr)
    (details : List (String × Detail)) : OutlineRow :=
  ⟨depth, label, expr.node, ("t", .type expr.type) :: details⟩

/-- A row for a clause that declares a variable, which has its own type. -/
def OutlineRow.ofDeclaration (depth : Nat) (label : String) (node : NodeId)
    (symbol : Option Symbol) (details : List (String × Detail)) : OutlineRow :=
  ⟨depth, label, node, ("s", .symbol symbol) :: ("t", .type (symbol.bind Symbol.type?)) :: details⟩

/-- A row for a statement. -/
def OutlineRow.ofStatement (depth : Nat) (label : String) (statement : BoundStatement)
    (details : List (String × Detail)) : OutlineRow :=
  ⟨depth, label, statement.node, ("terminal", .flag statement.isTerminal) :: details⟩

mutual

/-- The rows of an expression. -/
def BoundExpr.outline (depth : Nat) (expr : BoundExpr) : List OutlineRow :=
  match expr with
  | .literal _ value => [.ofExpr depth "Literal" expr [("value", .constant value)]]
  | .localVariable _ symbol _ => [.ofExpr depth "Local" expr [("s", .symbol symbol)]]
  | .field _ symbol _ => [.ofExpr depth "Field" expr [("s", .symbol symbol)]]
  | .rangeVariable _ symbol _ => [.ofExpr depth "RangeVariable" expr [("s", .symbol symbol)]]
  | .parameter reference =>
    [.ofExpr depth "Parameter" expr
      [("s", .symbol reference.parameter), ("generated", .flag reference.isGenerated)]]
  | .conclusionVariable symbol reference =>
    [.ofExpr depth "QueryConclusionVariable" expr
      [("s", .symbol symbol), ("parameter", .reference reference)]]
  | .memberAccess _ receiver member _ =>
    .ofExpr depth "MemberAccess" expr [("member", .text member)] ::
      receiver.outline (depth + 1)
  | .memberCall _ receiver method arguments _ =>
    .ofExpr depth "Call" expr [("method", .text method), ("receiver", .flag true)] ::
      (receiver.outline (depth + 1) ++ outlineAll (depth + 1) arguments)
  | .namedCall _ method arguments _ =>
    .ofExpr depth "Call" expr [("method", .text method), ("receiver", .flag false)] ::
      outlineAll (depth + 1) arguments
  | .binary _ operator left right _ =>
    .ofExpr depth "Binary" expr [("op", .text operator.displayText)] ::
      (left.outline (depth + 1) ++ right.outline (depth + 1))
  | .query _ clauses conclusion _ =>
    .ofExpr depth "Query" expr [("s", .symbol conclusion.symbol?)] ::
      (outlineClauses (depth + 1) clauses ++ conclusion.outline (depth + 1))
  | .bad _ children => .ofExpr depth "Bad" expr [] :: outlineAll (depth + 1) children

/-- The rows of several expressions. -/
def outlineAll (depth : Nat) : List BoundExpr → List OutlineRow
  | [] => []
  | expr :: rest => expr.outline depth ++ outlineAll depth rest

/-- The rows of a clause. -/
def BoundClause.outline (depth : Nat) : BoundClause → List OutlineRow
  | .fromClause node symbol source =>
    .ofDeclaration depth "From" node symbol [] :: source.outline (depth + 1)
  | .whereClause node condition => ⟨depth, "Where", node, []⟩ :: condition.outline (depth + 1)
  | .letClause node symbol value =>
    .ofDeclaration depth "Let" node symbol [] :: value.outline (depth + 1)
  | .selectClause node selected => ⟨depth, "Select", node, []⟩ :: selected.outline (depth + 1)
  | .groupClause node element key =>
    ⟨depth, "Group", node, []⟩ :: (element.outline (depth + 1) ++ key.outline (depth + 1))

/-- The rows of several clauses. -/
def outlineClauses (depth : Nat) : List BoundClause → List OutlineRow
  | [] => []
  | clause :: rest => clause.outline depth ++ outlineClauses depth rest

/-- The rows of a conclusion and its body. -/
def BoundConclusion.outline (depth : Nat) : BoundConclusion → List OutlineRow
  | .absent => []
  | .present node _ type _ bodyNode value _ =>
    ⟨depth, "Conclusion", node, [("bound", .flag true), ("t", .type type)]⟩ ::
      ⟨depth + 1, "Block", bodyNode, []⟩ ::
      .ofStatement (depth + 2) "Return" (.returnValue bodyNode (some value) true)
        [("generated", .flag true)] ::
      value.outline (depth + 3)

end

mutual

/-- The rows of a statement. -/
def BoundStatement.outline (depth : Nat) (statement : BoundStatement) : List OutlineRow :=
  match statement with
  | .localDeclaration node symbol initializer =>
    .ofDeclaration depth "LocalDeclaration" node symbol [("terminal", .flag false)] ::
      initializer.outline (depth + 1)
  | .expression _ value =>
    .ofStatement depth "ExpressionStatement" statement [] :: value.outline (depth + 1)
  | .returnValue _ value isGenerated =>
    .ofStatement depth "Return" statement [("generated", .flag isGenerated)] ::
      (match value with
        | some value => value.outline (depth + 1)
        | none => [])
  | .yieldReturn _ value =>
    .ofStatement depth "YieldReturn" statement [] :: value.outline (depth + 1)
  | .yieldBreak _ => [.ofStatement depth "YieldBreak" statement []]
  | .doWhile _ bodyNode body condition =>
    .ofStatement depth "Do" statement [] :: ⟨depth + 1, "Block", bodyNode, []⟩ ::
      (outlineStatements (depth + 2) body ++ condition.outline (depth + 1))
  | .block node statements =>
    ⟨depth, "Block", node, []⟩ :: outlineStatements (depth + 1) statements

/-- The rows of several statements. -/
def outlineStatements (depth : Nat) : List BoundStatement → List OutlineRow
  | [] => []
  | statement :: rest => statement.outline depth ++ outlineStatements depth rest

end

/-- The rows of a block. -/
def BoundBlock.outline (block : BoundBlock) : List OutlineRow :=
  ⟨0, "Block", block.node, []⟩ :: outlineStatements 1 block.statements

end QueryLang
