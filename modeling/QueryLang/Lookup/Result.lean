import QueryLang.Lookup.Options

/-!
# Lookup results

A lookup judges each candidate. The verdict says how good an answer the candidate is, and, if it
is no good one, why. A result collects the candidates that share the best verdict so far.
-/

namespace QueryLang

/-- How good an answer is, from worst to best. -/
inductive Viability
  | empty
  | wrongArity
  | notInvocable
  | notAValue
  | viable
deriving DecidableEq, Inhabited

namespace Viability

/-- All grades, from worst to best. -/
def all : List Viability := [empty, wrongArity, notInvocable, notAValue, viable]

/-- The name of a grade as dumps write it. -/
def name : Viability → String
  | empty => "Empty"
  | wrongArity => "WrongArity"
  | notInvocable => "NotInvocable"
  | notAValue => "NotAValue"
  | viable => "Viable"

/-- The grade with a name. -/
def ofName? (text : String) : Option Viability := all.find? (·.name == text)

/-- How many grades are worse. -/
def rank : Viability → Nat
  | empty => 0
  | wrongArity => 1
  | notInvocable => 2
  | notAValue => 3
  | viable => 4

end Viability

/-- Why a symbol is no good answer. -/
inductive LookupError
  /-- The symbol takes no type arguments. -/
  | wrongArity (kind : SymbolKind)
  /-- The symbol cannot be called. -/
  | notInvocable
  /-- The symbol is of one kind, and the context needs another. -/
  | wrongKind (found : SymbolKind) (needed : String)
deriving DecidableEq

/-- The verdict on one candidate. -/
structure Verdict where
  viability : Viability
  symbol : Option Symbol
  error : Option LookupError
deriving DecidableEq

namespace Verdict

/-- A good answer. -/
def viable (symbol : Symbol) : Verdict := ⟨.viable, some symbol, none⟩

/-- No answer at all. -/
def empty : Verdict := ⟨.empty, none, none⟩

/-- An answer that is no good, with the reason. -/
def rejected (viability : Viability) (symbol : Symbol) (error : LookupError) : Verdict :=
  ⟨viability, some symbol, some error⟩

/-- The verdict on a symbol for a lookup with a number of type arguments. -/
def ofSymbol (symbol : Symbol) (arity : Nat) (options : LookupOptions) : Verdict :=
  let kind := symbol.kind
  if options.labelsOnly then
    if kind = .label then viable symbol else empty
  else if options.namespacesOrTypesOnly && !kind.isTypeLike then
    rejected .notAValue symbol (.wrongKind kind "type")
  else if arity ≠ 0 && kind ≠ .method && kind ≠ .namedType then
    rejected .wrongArity symbol (.wrongArity kind)
  else if options.mustBeInvocable && !kind.isInvocable then
    rejected .notInvocable symbol .notInvocable
  else if options.mustNotBeMethod && kind = .method then
    rejected .notAValue symbol (.wrongKind kind "variable")
  else if kind.isTypeLike && !options.namespacesOrTypesOnly then
    rejected .notAValue symbol (.wrongKind kind "variable")
  else
    viable symbol

end Verdict

/-- The best candidates so far, and why they are no good if they are not. -/
structure LookupResult where
  viability : Viability
  symbols : List Symbol
  error : Option LookupError
deriving DecidableEq

namespace LookupResult

/-- The result before any candidate. -/
def clear : LookupResult := ⟨.empty, [], none⟩

/-- Whether nothing was found yet. -/
def isClear (result : LookupResult) : Bool :=
  result.viability == .empty && result.symbols.isEmpty && result.error.isNone

/-- Whether a good answer was found. -/
def isViable (result : LookupResult) : Bool := result.viability == .viable

/-- The symbol found, if there is exactly one. -/
def single? (result : LookupResult) : Option Symbol :=
  match result.symbols with
  | [symbol] => some symbol
  | _ => none

/-- Adds a candidate of the same scope. A better one takes the place of the others, an equally
good one joins them. -/
def mergeEqual (result : LookupResult) (verdict : Verdict) : LookupResult :=
  if result.viability.rank < verdict.viability.rank then
    ⟨verdict.viability, verdict.symbol.toList, verdict.error⟩
  else if verdict.viability = result.viability && verdict.viability ≠ .empty then
    { result with symbols := result.symbols ++ verdict.symbol.toList }
  else
    result

/-- Adds the result of an outer scope, which counts only when it is better. -/
def mergePrioritized (result outer : LookupResult) : LookupResult :=
  if result.viability.rank < outer.viability.rank then outer else result

end LookupResult

end QueryLang
