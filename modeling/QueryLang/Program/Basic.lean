import QueryLang.Constant
import QueryLang.Syntax.Tree

/-!
# Programs

What a file says, once the details of its syntax tree are left out: statements, expressions,
queries and the conclusions of queries. Every part knows its `Site`, the node that it was read
from. Binding works on programs and does not look at trees.

A `RootExpr` is the expression of a statement or of a conclusion. Below its root an expression
may be nested only so deep; one that goes deeper is not read, and only its place is kept.
-/

namespace QueryLang

/-- Where a part of a program comes from. -/
structure Site where
  node : NodeId
  location : Location
deriving DecidableEq, Inhabited

/-- A name in the source. It is absent where the source should have one and has not. -/
structure Identifier where
  name : Option String
  location : Location
deriving DecidableEq, Inhabited

/-- The operator of a binary expression. -/
structure Operator where
  kind : Kind
  location : Location
deriving DecidableEq, Inhabited

mutual

/-- An expression. -/
inductive Expr
  | name (site : Site) (identifier : Identifier)
  | literal (site : Site) (value : Constant)
  | parenthesized (site : Site) (inner : Expr)
  | memberAccess (site : Site) (receiver : Expr) (member : Identifier)
  /-- A call of a member of the receiver. -/
  | memberCall (site : Site) (receiver : Expr) (member : Identifier) (arguments : List Expr)
  /-- A call of something that is named. -/
  | namedCall (site : Site) (callee : Identifier) (arguments : List Expr)
  /-- A call of an expression that is neither a member nor a name. The text is the callee's. -/
  | valueCall (site : Site) (callee : Expr) (calleeText : String) (arguments : List Expr)
  | binary (site : Site) (operator : Operator) (left right : Expr)
  | query (site : Site) (clauses : List Clause) (ending : QueryEnding) (conclusion : Conclusion)

/-- A clause of a query before its last. -/
inductive Clause
  | fromClause (site : Site) (identifier : Identifier) (source : Expr)
  | whereClause (site : Site) (condition : Expr)
  | letClause (site : Site) (identifier : Identifier) (value : Expr)

/-- The last clause of a query, which says what the query consists of. -/
inductive QueryEnding
  | absent
  | selectClause (site : Site) (selected : Expr)
  | groupClause (site : Site) (element key : Expr)

/-- What is done with the result of a query's clauses, in terms of a name for it. -/
inductive Conclusion
  | absent
  | present (site : Site) (identifier : Identifier) (body : RootExpr)

/-- The expression of a statement or of a conclusion. -/
inductive RootExpr
  /-- An expression nested too deep, with the place where to say so. -/
  | tooDeep (site : Site) (reported : Location)
  | expression (expr : Expr)

end

deriving instance Inhabited for Expr, Clause, QueryEnding, Conclusion, RootExpr

namespace Expr

/-- Where an expression comes from. -/
def site : Expr → Site
  | name site _ | literal site _ | parenthesized site _ | memberAccess site _ _
  | memberCall site _ _ _ | namedCall site _ _ | valueCall site _ _ _ | binary site _ _ _
  | query site _ _ _ => site

/-- Where the expression inside all parentheses comes from. -/
def innerSite : Expr → Site
  | parenthesized _ inner => inner.innerSite
  | expr => expr.site

end Expr

namespace RootExpr

/-- Where an expression comes from. -/
def site : RootExpr → Site
  | tooDeep site _ => site
  | expression expr => expr.site

end RootExpr

/-- A statement. -/
inductive Statement
  | localDeclaration (site : Site) (identifier : Identifier) (initializer : RootExpr)
  | expression (site : Site) (value : RootExpr)
  | returnValue (site : Site) (value : Option RootExpr)
  | yieldReturn (site : Site) (value : Option RootExpr)
  | yieldBreak (site : Site)
  | doWhile (site : Site) (bodySite : Site) (body : List Statement) (condition : RootExpr)
  | block (site : Site) (statements : List Statement)
deriving Inhabited

namespace Statement

/-- Where a statement comes from. -/
def site : Statement → Site
  | localDeclaration site _ _ | expression site _ | returnValue site _ | yieldReturn site _
  | yieldBreak site | doWhile site _ _ _ | block site _ => site

end Statement

/-- A list of statements with the node around them: a block, or a whole file. -/
structure StatementList where
  site : Site
  statements : List Statement
deriving Inhabited

end QueryLang
