import QueryLang.Bound.Basic
import QueryLang.Diagnostic.Catalog
import QueryLang.Lookup.Scope
import QueryLang.Symbol.Equality

/-!
# Binding

A `Binder` is a point of the program from which names are looked up: the scopes that are visible
there, and the symbol that contains what is declared there. `Binding` is what a step of binding
may do: add types, number new symbols, and report.

Lookups that fail are reported in the words that their result calls for.
-/

namespace QueryLang

/-- What binding changes as it goes along. -/
structure BindingState where
  types : TypeTable
  /-- The number of the next symbol. -/
  nextSymbol : Nat
  diagnostics : Diagnostics
deriving Inhabited

/-- A step of binding. What it changed before a fault stays changed. -/
abbrev Binding (α : Type) := ExceptT Fault (StateM BindingState) α

namespace Binding

/-- Reports at a place. -/
def report (location : Location) (message : DiagnosticMessage) (arguments : List String) :
    Binding Unit :=
  modify fun state =>
    { state with
      diagnostics := state.diagnostics ++ [.located location message arguments] }

/-- A number for a new symbol. -/
def freshId : Binding Nat :=
  modifyGet fun state => (state.nextSymbol, { state with nextSymbol := state.nextSymbol + 1 })

/-- The type of sequences of a type. -/
def sequenceType (element : TypeId) : Binding TypeId :=
  modifyGet fun state =>
    let (type, types) := state.types.sequence element
    (type, { state with types })

/-- The type of sequences with a key. -/
def groupingType (key element : TypeId) : Binding TypeId :=
  modifyGet fun state =>
    let (type, types) := state.types.grouping key element
    (type, { state with types })

/-- The text of a type. -/
def displayType (type : TypeId) : Binding String := do
  (← get).types.display type

/-- The member of a type with a name. -/
def member? (type : TypeId) (name : String) : Binding (Option Member) := do
  (← get).types.member? type name

/-- Does a step whose reports are collected apart. They are handed back, and reported as well,
after all that was reported before. -/
def collecting (step : Binding α) : Binding (α × Diagnostics) := do
  let before := (← get).diagnostics
  modify fun state => { state with diagnostics := [] }
  let value ← step
  let reported := (← get).diagnostics
  modify fun state => { state with diagnostics := before ++ reported }
  return (value, reported)

end Binding

/-- A point of the program from which names are looked up. Once a request is cancelled, queries
are no longer bound. -/
structure Binder where
  scopes : List Scope
  container : Symbol
  isCancelled : Bool
deriving Inhabited

namespace Binder

/-- The binder inside one more scope. -/
def push (binder : Binder) (scope : Scope) : Binder :=
  { binder with scopes := scope :: binder.scopes }

/-- The binder inside the body of a conclusion. What is declared there is contained in the
lambda. -/
def pushConclusion (binder : Binder) (scope : ConclusionScope) : Binder :=
  { binder with scopes := .conclusion scope :: binder.scopes, container := scope.lambda }

/-- Looks a name up. -/
def lookup (binder : Binder) (name : String) (arity : Nat) (options : LookupOptions) :
    Checked LookupResult :=
  Scope.lookupThrough binder.scopes name arity options

/-- The words for the scopes, innermost first. -/
def describe (binder : Binder) : String :=
  let words := binder.scopes.map fun scope => s!"\"{scope.describe}\""
  "[" ++ ", ".intercalate words ++ "]"

/-- Every name that is visible. -/
def visibleNames (binder : Binder) (options : LookupOptions) : VisibleNames :=
  Scope.visibleNames binder.scopes options

end Binder

namespace LookupResult

/-- The good answer, if there is exactly one. -/
def answer? (result : LookupResult) : Option Symbol :=
  if result.isViable then result.single? else none

/-- Reports why a lookup of a name gave no single good answer. -/
def reportFailure (result : LookupResult) (name : String) (location : Location) :
    Binding Unit :=
  match result.error with
  | none => Binding.report location .undeclaredName [name]
  | some .notInvocable => Binding.report location .notInvocable [name]
  | some (.wrongArity kind) => Binding.report location .notGeneric [name, kind.displayName]
  | some (.wrongKind found needed) =>
    Binding.report location .usedLike [name, found.displayName, needed]

end LookupResult

/-- A reference to the variable of a conclusion, as the parameter that carries its value. The
scope that introduced the variable knows the parameter. -/
def conclusionReference? (node : NodeId) (symbol : Symbol) :
    List Scope → Checked (Option BoundExpr)
  | [] => .ok none
  | .conclusion scope :: outer =>
    if symbol.sameSymbol scope.symbol then do
      let parameter ← scope.parameterOf symbol
      return some (.conclusionVariable scope.symbol ⟨node, parameter, scope.type, true⟩)
    else
      conclusionReference? node symbol outer
  | _ :: outer => conclusionReference? node symbol outer

/-- The type of an operator's result, if it takes operands of these types. -/
def operatorType? (operator : Kind) (left right : TypeId) : Option TypeId :=
  let bothInt := left == .int && right == .int
  match operator with
  | .plusToken =>
    if bothInt then some .int
    else if left == .string || right == .string then some .string
    else none
  | .minusToken | .asteriskToken | .slashToken => if bothInt then some .int else none
  | .lessThanToken | .greaterThanToken | .lessThanEqualsToken | .greaterThanEqualsToken =>
    if bothInt then some .bool else none
  | .equalsEqualsToken | .exclamationEqualsToken => if left == right then some .bool else none
  | .ampersandAmpersandToken | .barBarToken =>
    if left == .bool && right == .bool then some .bool else none
  | _ => none

end QueryLang
