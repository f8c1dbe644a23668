import QueryLang.Diagnostic.Basic
import QueryLang.Program.Basic
import QueryLang.Symbol.Basic

/-!
# Bound trees

The result of binding: expressions whose names are resolved to symbols and whose types are known.
A part that could not be bound is `bad`. Its type is the error type, and what could be bound
inside it is kept.

The body of a query conclusion is a lambda whose one parameter carries the result of the clauses.
Its body is a block that returns one expression.
-/

namespace QueryLang

/-- A reference to a parameter. It is generated when the source does not name the parameter. -/
structure ParameterReference where
  node : NodeId
  parameter : Symbol
  type : TypeId
  isGenerated : Bool
deriving Inhabited

mutual

/-- A bound expression. -/
inductive BoundExpr
  | literal (node : NodeId) (value : Constant)
  | localVariable (node : NodeId) (symbol : Symbol) (type : TypeId)
  | field (node : NodeId) (symbol : Symbol) (type : TypeId)
  | rangeVariable (node : NodeId) (symbol : Symbol) (type : TypeId)
  | parameter (reference : ParameterReference)
  /-- The variable of a conclusion, whose value the parameter carries. -/
  | conclusionVariable (symbol : Symbol) (reference : ParameterReference)
  | memberAccess (node : NodeId) (receiver : BoundExpr) (member : String) (type : TypeId)
  | memberCall (node : NodeId) (receiver : BoundExpr) (method : String)
      (arguments : List BoundExpr) (type : TypeId)
  | namedCall (node : NodeId) (method : String) (arguments : List BoundExpr) (type : TypeId)
  | binary (node : NodeId) (operator : Kind) (left right : BoundExpr) (type : TypeId)
  | query (node : NodeId) (clauses : List BoundClause) (conclusion : BoundConclusion)
      (type : TypeId)
  | bad (node : NodeId) (children : List BoundExpr)

/-- A bound clause of a query. -/
inductive BoundClause
  | fromClause (node : NodeId) (symbol : Option Symbol) (source : BoundExpr)
  | whereClause (node : NodeId) (condition : BoundExpr)
  | letClause (node : NodeId) (symbol : Option Symbol) (value : BoundExpr)
  | selectClause (node : NodeId) (selected : BoundExpr)
  | groupClause (node : NodeId) (element key : BoundExpr)

/-- The bound conclusion of a query. `type` is the type of the variable, and `value` what the
body returns. -/
inductive BoundConclusion
  | absent
  | present (node : NodeId) (symbol : Symbol) (type : TypeId) (lambda : Symbol)
      (bodyNode : NodeId) (value : BoundExpr) (diagnostics : Diagnostics)

end

deriving instance Inhabited for BoundExpr, BoundClause, BoundConclusion

namespace BoundExpr

/-- The node that an expression was bound from. -/
def node : BoundExpr → NodeId
  | literal node _ | localVariable node _ _ | field node _ _ | rangeVariable node _ _
  | memberAccess node _ _ _ | memberCall node _ _ _ _ | namedCall node _ _ _
  | binary node _ _ _ _ | query node _ _ _ | bad node _ => node
  | parameter reference | conclusionVariable _ reference => reference.node

/-- The type of an expression. -/
def type : BoundExpr → TypeId
  | literal _ value => value.type
  | localVariable _ _ type | field _ _ type | rangeVariable _ _ type | memberAccess _ _ _ type
  | memberCall _ _ _ _ type | namedCall _ _ _ type | binary _ _ _ _ type | query _ _ _ type =>
    type
  | parameter reference | conclusionVariable _ reference => reference.type
  | bad _ _ => .error

/-- The symbol that a name stands for. -/
def symbol? : BoundExpr → Option Symbol
  | localVariable _ symbol _ | field _ symbol _ | rangeVariable _ symbol _
  | conclusionVariable symbol _ => some symbol
  | parameter reference => some reference.parameter
  | _ => none

end BoundExpr

namespace BoundClause

/-- The variable that a clause declares. -/
def symbol? : BoundClause → Option Symbol
  | fromClause _ symbol _ | letClause _ symbol _ => symbol
  | whereClause _ _ | selectClause _ _ | groupClause _ _ _ => none

end BoundClause

namespace BoundConclusion

/-- The variable that a conclusion declares. -/
def symbol? : BoundConclusion → Option Symbol
  | absent => none
  | present _ symbol _ _ _ _ _ => some symbol

end BoundConclusion

/-- A bound statement. A `return` is generated when the source does not write it. -/
inductive BoundStatement
  | localDeclaration (node : NodeId) (symbol : Option Symbol) (initializer : BoundExpr)
  | expression (node : NodeId) (value : BoundExpr)
  | returnValue (node : NodeId) (value : Option BoundExpr) (isGenerated : Bool)
  | yieldReturn (node : NodeId) (value : BoundExpr)
  | yieldBreak (node : NodeId)
  | doWhile (node : NodeId) (bodyNode : NodeId) (body : List BoundStatement)
      (condition : BoundExpr)
  | block (node : NodeId) (statements : List BoundStatement)
deriving Inhabited

namespace BoundStatement

/-- The node that a statement was bound from. -/
def node : BoundStatement → NodeId
  | localDeclaration node _ _ | expression node _ | returnValue node _ _ | yieldReturn node _
  | yieldBreak node | doWhile node _ _ _ | block node _ => node

/-- Whether control never reaches the statement after this one. -/
def isTerminal : BoundStatement → Bool
  | returnValue _ _ _ | yieldBreak _ => true
  | localDeclaration _ _ _ | expression _ _ | yieldReturn _ _ | doWhile _ _ _ _ | block _ _ =>
    false

end BoundStatement

/-- A bound list of statements, with the node around them. -/
structure BoundBlock where
  node : NodeId
  statements : List BoundStatement
deriving Inhabited

namespace BoundBlock

/-- The block that returns one expression, as the body of a lambda. -/
def returning (node : NodeId) (value : BoundExpr) : BoundBlock :=
  ⟨node, [.returnValue node (some value) true]⟩

end BoundBlock

/-- A bound lambda: its symbol, its body, and what binding the body reported. -/
structure BoundLambda where
  symbol : Symbol
  body : BoundBlock
  diagnostics : Diagnostics
deriving Inhabited

end QueryLang
