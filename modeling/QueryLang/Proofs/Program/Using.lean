import QueryLang.Binding.Basic
import QueryLang.Program.Basic

/-!
# Where names are used

The names that a program uses as values, and those that it calls, in the order in which binding
comes to them. Each use knows the names of the file's variables that are in scope there. A `var`
statement brings its local into scope for the statements after it, a `from` or `let` clause its
variable for the clauses after it, and a conclusion its variable for its body, where none of the
variables of the query are in scope.
-/

namespace QueryLang

/-- A name that is used as a value or called, with the names that are in scope there, innermost
first. -/
structure NameUse where
  name : String
  location : Location
  isCalled : Bool
  inScope : List String
deriving DecidableEq

namespace NameUse

/-- Neither the file nor the host declares the name. -/
def isUndeclared (globals : List Symbol) (use : NameUse) : Bool :=
  !use.inScope.contains use.name && !globals.any (·.name == use.name)

/-- The symbols of the host that are good answers to the use. -/
def hostAnswers (globals : List Symbol) (use : NameUse) : List Symbol :=
  globals.filter fun symbol => symbol.name == use.name &&
    if use.isCalled then symbol.kind.isInvocable else !symbol.kind.isTypeLike

/-- The host has several good answers, and the file has none: a variable of the file is a good
answer unless it is called. -/
def isAmbiguous (globals : List Symbol) (use : NameUse) : Bool :=
  (use.isCalled || !use.inScope.contains use.name) && 1 < (use.hostAnswers globals).length

/-- What is reported about a name that does not exist. -/
def report (use : NameUse) : Diagnostic :=
  .located use.location .undeclaredName [use.name]

end NameUse

/-- The use of an identifier: none if it is missing. -/
def Identifier.uses (identifier : Identifier) (isCalled : Bool) (inScope : List String) :
    List NameUse :=
  identifier.name.toList.map fun name => ⟨name, identifier.location, isCalled, inScope⟩

/-- The name of the variable that a clause declares. -/
def Clause.declares : Clause → List String
  | .fromClause _ identifier _ | .letClause _ identifier _ => identifier.name.toList
  | .whereClause _ _ => []

/-- The names in scope after clauses. -/
def Clause.namesAfter (inScope : List String) (clauses : List Clause) : List String :=
  clauses.foldl (fun names clause => clause.declares ++ names) inScope

mutual

/-- The names that an expression uses. A callee is looked up after the arguments. -/
def Expr.uses (inScope : List String) : Expr → List NameUse
  | .name _ identifier => identifier.uses false inScope
  | .literal _ _ => []
  | .parenthesized _ inner => inner.uses inScope
  | .memberAccess _ receiver _ => receiver.uses inScope
  | .memberCall _ receiver _ arguments =>
    receiver.uses inScope ++ Expr.allUses inScope arguments
  | .namedCall _ callee arguments => Expr.allUses inScope arguments ++ callee.uses true inScope
  | .valueCall _ callee _ arguments => callee.uses inScope ++ Expr.allUses inScope arguments
  | .binary _ _ left right => left.uses inScope ++ right.uses inScope
  | .query _ clauses ending conclusion =>
    Clause.allUses inScope clauses ++ ending.uses (Clause.namesAfter inScope clauses) ++
      conclusion.uses inScope

/-- The names that expressions use. -/
def Expr.allUses (inScope : List String) : List Expr → List NameUse
  | [] => []
  | expr :: rest => expr.uses inScope ++ Expr.allUses inScope rest

/-- The names that a clause uses. -/
def Clause.uses (inScope : List String) : Clause → List NameUse
  | .fromClause _ _ value | .whereClause _ value | .letClause _ _ value => value.uses inScope

/-- The names that clauses use. -/
def Clause.allUses (inScope : List String) : List Clause → List NameUse
  | [] => []
  | clause :: rest => clause.uses inScope ++ Clause.allUses (clause.declares ++ inScope) rest

/-- The names that the last clause of a query uses. -/
def QueryEnding.uses (inScope : List String) : QueryEnding → List NameUse
  | .absent => []
  | .selectClause _ selected => selected.uses inScope
  | .groupClause _ element key => element.uses inScope ++ key.uses inScope

/-- The names that a conclusion uses. One whose variable has no name is passed over. -/
def Conclusion.uses (inScope : List String) : Conclusion → List NameUse
  | .absent => []
  | .present _ identifier body =>
    match identifier.name with
    | none => []
    | some name => body.uses (name :: inScope)

/-- The names that a root expression uses. One that is nested too deep is passed over. -/
def RootExpr.uses (inScope : List String) : RootExpr → List NameUse
  | .tooDeep _ _ => []
  | .expression expr => expr.uses inScope

end

/-- The name of the local that a statement declares. -/
def Statement.declares : Statement → List String
  | .localDeclaration _ identifier _ => identifier.name.toList
  | _ => []

mutual

/-- The names that a statement uses. -/
def Statement.uses (inScope : List String) : Statement → List NameUse
  | .localDeclaration _ _ value | .expression _ value | .returnValue _ (some value)
  | .yieldReturn _ (some value) => value.uses inScope
  | .returnValue _ none | .yieldReturn _ none | .yieldBreak _ => []
  | .doWhile _ _ body condition => Statement.allUses inScope body ++ condition.uses inScope
  | .block _ statements => Statement.allUses inScope statements

/-- The names that statements use. -/
def Statement.allUses (inScope : List String) : List Statement → List NameUse
  | [] => []
  | statement :: rest =>
    statement.uses inScope ++ Statement.allUses (statement.declares ++ inScope) rest

end

/-- The names that a list of statements uses where only the host's symbols are in scope. -/
def StatementList.uses (list : StatementList) : List NameUse :=
  Statement.allUses [] list.statements

end QueryLang
