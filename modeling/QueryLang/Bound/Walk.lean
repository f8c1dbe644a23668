import QueryLang.Bound.Basic

/-!
# Walking bound trees

`BoundBlock.walk` lists every part of a bound tree in the order in which it is met from the root:
a part comes before what is inside it, and the body of a conclusion after the clauses of its
query.
-/

namespace QueryLang

/-- A part of a bound tree. -/
inductive BoundPart
  | block (node : NodeId)
  | statement (statement : BoundStatement)
  | expression (expr : BoundExpr)
deriving Inhabited

mutual

/-- The parts of an expression. -/
def BoundExpr.walk (expr : BoundExpr) : List BoundPart :=
  .expression expr ::
    match expr with
    | .memberAccess _ receiver _ _ => receiver.walk
    | .memberCall _ receiver _ arguments _ => receiver.walk ++ walkAll arguments
    | .namedCall _ _ arguments _ => walkAll arguments
    | .binary _ _ left right _ => left.walk ++ right.walk
    | .query _ clauses conclusion _ => walkClauses clauses ++ conclusion.walk
    | .bad _ children => walkAll children
    | .literal _ _ | .localVariable _ _ _ | .field _ _ _ | .rangeVariable _ _ _ | .parameter _
    | .conclusionVariable _ _ => []

/-- The parts of several expressions. -/
def walkAll : List BoundExpr → List BoundPart
  | [] => []
  | expr :: rest => expr.walk ++ walkAll rest

/-- The parts of a clause. -/
def BoundClause.walk : BoundClause → List BoundPart
  | .fromClause _ _ expr | .whereClause _ expr | .letClause _ _ expr | .selectClause _ expr =>
    expr.walk
  | .groupClause _ element key => element.walk ++ key.walk

/-- The parts of several clauses. -/
def walkClauses : List BoundClause → List BoundPart
  | [] => []
  | clause :: rest => clause.walk ++ walkClauses rest

/-- The parts of the body of a conclusion. -/
def BoundConclusion.walk : BoundConclusion → List BoundPart
  | .absent => []
  | .present _ _ _ _ bodyNode value _ =>
    .block bodyNode :: .statement (.returnValue bodyNode (some value) true) :: value.walk

end

mutual

/-- The parts of a statement. -/
def BoundStatement.walk (statement : BoundStatement) : List BoundPart :=
  .statement statement ::
    match statement with
    | .localDeclaration _ _ value | .expression _ value | .returnValue _ (some value) _
    | .yieldReturn _ value => value.walk
    | .returnValue _ none _ | .yieldBreak _ => []
    | .doWhile _ bodyNode body condition =>
      .block bodyNode :: (walkStatements body ++ condition.walk)
    | .block node statements => .block node :: walkStatements statements

/-- The parts of several statements. -/
def walkStatements : List BoundStatement → List BoundPart
  | [] => []
  | statement :: rest => statement.walk ++ walkStatements rest

end

/-- The parts of a block. -/
def BoundBlock.walk (block : BoundBlock) : List BoundPart :=
  .block block.node :: walkStatements block.statements

mutual

/-- The expressions that stand directly in a statement. -/
def BoundStatement.roots : BoundStatement → List BoundExpr
  | .localDeclaration _ _ value | .expression _ value | .returnValue _ (some value) _
  | .yieldReturn _ value => [value]
  | .returnValue _ none _ | .yieldBreak _ => []
  | .doWhile _ _ body condition => rootsOfStatements body ++ [condition]
  | .block _ statements => rootsOfStatements statements

/-- The expressions that stand directly in one of several statements. -/
def rootsOfStatements : List BoundStatement → List BoundExpr
  | [] => []
  | statement :: rest => statement.roots ++ rootsOfStatements rest

end

/-- The expressions that stand directly in the statements of a block. -/
def BoundBlock.roots (block : BoundBlock) : List BoundExpr :=
  rootsOfStatements block.statements

/-- The letter of a part's kind with the part's node. -/
def BoundPart.label : BoundPart → String
  | block node => s!"B{node}"
  | statement inner => s!"S{inner.node}"
  | expression inner => s!"E{inner.node}"

end QueryLang
