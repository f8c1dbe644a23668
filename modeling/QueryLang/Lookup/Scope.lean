import QueryLang.Lookup.Result
import QueryLang.Lookup.VisibleNames

/-!
# Scopes

A scope is what one construct makes visible: the host's symbols, the locals of a `var` statement,
the variable of a `from` or `let` clause, or the variable of a query conclusion. Scopes are
looked through from the innermost outwards. The first that has a good answer decides; otherwise
the best answer counts, and of equally good ones the innermost.
-/

namespace QueryLang

/-- The scope of a conclusion's body: the variable, its type, and the lambda whose parameter
carries its value. -/
structure ConclusionScope where
  symbol : Symbol
  type : TypeId
  lambda : Symbol
  symbol_kind : symbol.kind = .queryConclusionVariable
  lambda_kind : lambda.kind = .lambda

namespace ConclusionScope

/-- The scope of a conclusion with a variable and a lambda. -/
def ofSymbols (symbol : Symbol) (type : TypeId) (lambda : Symbol) : Checked ConclusionScope :=
  if symbol_kind : symbol.kind = .queryConclusionVariable then
    if lambda_kind : lambda.kind = .lambda then
      .ok { symbol, type, lambda, symbol_kind, lambda_kind }
    else
      .error .scopeNeedsLambda
  else
    .error .scopeNeedsConclusionVariable

/-- The parameter that carries the value of a variable: the only one of its name. -/
def parameterOf (scope : ConclusionScope) (symbol : Symbol) : Checked Symbol :=
  match scope.lambda.parameters.filter (·.name == symbol.name) with
  | [parameter] => .ok parameter
  | others => .error (.conclusionParameterCount symbol.text others.length)

end ConclusionScope

/-- What one construct makes visible. -/
inductive Scope
  /-- The symbols of the host, in the order in which they were added. -/
  | global (symbols : List Symbol)
  /-- Locals, no two of one name. -/
  | locals (symbols : List Symbol)
  /-- The variable of a `from` or `let` clause. -/
  | rangeVariable (symbol : Symbol) (kind : symbol.kind = .rangeVariable)
  /-- The variable of a query conclusion. -/
  | conclusion (scope : ConclusionScope)

namespace Scope

/-- The scope of a list of locals. Of several with one name the last counts. -/
def ofLocals (symbols : List Symbol) : Scope :=
  locals (symbols.foldl
    (fun kept symbol => kept.filter (·.name != symbol.name) ++ [symbol]) [])

/-- The scope of a range variable. -/
def ofRangeVariable (symbol : Symbol) : Checked Scope :=
  if kind : symbol.kind = .rangeVariable then
    .ok (rangeVariable symbol kind)
  else
    .error .notARangeVariable

/-- The word for a scope. -/
def describe : Scope → String
  | global _ => "global"
  | locals _ => "locals"
  | rangeVariable _ _ => "range variable"
  | conclusion _ => "query conclusion parameters"

/-- The symbols that a scope declares. -/
def symbols : Scope → List Symbol
  | global symbols | locals symbols => symbols
  | rangeVariable symbol _ => [symbol]
  | conclusion scope => [scope.symbol]

/-- Whether a scope has anything to say to a lookup with these options. -/
def answers (options : LookupOptions) : Scope → Bool
  | global _ | conclusion _ => !options.namespaceAliasesOnly
  | locals _ | rangeVariable _ _ => options.admitsMembers

/-- Adds a scope's candidates for a name to a result. The scope of a conclusion insists that the
result is clear. -/
def lookupInto (scope : Scope) (result : LookupResult) (name : String) (arity : Nat)
    (options : LookupOptions) : Checked LookupResult :=
  let merged :=
    if scope.answers options then
      (scope.symbols.filter (·.name == name)).foldl
        (fun result symbol => result.mergeEqual (.ofSymbol symbol arity options)) result
    else
      result
  match scope with
  | conclusion _ => if result.isClear then .ok merged else .error .lookupNotCleared
  | global _ | locals _ | rangeVariable _ _ => .ok merged

/-- What a scope on its own answers to a lookup. -/
def lookup (scope : Scope) (name : String) (arity : Nat) (options : LookupOptions) :
    Checked LookupResult :=
  scope.lookupInto .clear name arity options

/-- Adds the names that a scope makes visible. The host's symbols are picked one by one; the
other scopes show their variables or nothing. -/
def addNames (options : LookupOptions) (names : VisibleNames) (scope : Scope) : VisibleNames :=
  let shown := match scope with
    | global symbols => symbols.filter options.lists
    | _ => if options.admitsMembers then scope.symbols else []
  shown.foldl (fun names symbol => names.add symbol.text 0) names

/-- Looks a name up through scopes, innermost first, starting from the result of scopes further
in. -/
def lookupFrom (name : String) (arity : Nat) (options : LookupOptions) :
    LookupResult → List Scope → Checked LookupResult
  | result, [] => .ok result
  | result, scope :: outer => do
    let merged := result.mergePrioritized (← scope.lookup name arity options)
    if merged.isViable then
      return merged
    else
      lookupFrom name arity options merged outer

/-- Looks a name up through scopes, innermost first. -/
def lookupThrough (scopes : List Scope) (name : String) (arity : Nat) (options : LookupOptions) :
    Checked LookupResult :=
  lookupFrom name arity options .clear scopes

/-- The names visible through scopes, those of the innermost first. -/
def visibleNames (scopes : List Scope) (options : LookupOptions) : VisibleNames :=
  scopes.foldl (addNames options) .empty

end Scope

end QueryLang
