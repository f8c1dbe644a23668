import QueryLang.Proofs.Checked
import QueryLang.Binding.Basic

/-!
# What lookups find

A lookup never fails, whatever the scopes: each scope starts from a clear result. A good answer
comes from one of the scopes, has the name that was asked for, and is a good answer by itself.
-/

namespace QueryLang

/-- The kinds of symbols that a host declares. -/
def HostKinds (globals : List Symbol) : Prop :=
  ∀ symbol ∈ globals, symbol.kind = .method ∨ symbol.kind = .namedType ∨ symbol.kind = .field

/-- What a lookup puts together from candidates: they all have the viability of the result. -/
def LookupResult.MadeOf (result : LookupResult) (arity : Nat) (options : LookupOptions)
    (candidate : Symbol → Prop) : Prop :=
  ∀ symbol ∈ result.symbols, candidate symbol ∧
    (Verdict.ofSymbol symbol arity options).viability = result.viability

namespace Verdict

variable {symbol : Symbol} {arity : Nat} {options : LookupOptions}

theorem symbol_ofSymbol : ∀ other ∈ (ofSymbol symbol arity options).symbol, other = symbol := by
  unfold ofSymbol viable rejected empty
  dsimp only
  split_ifs <;> simp

/-- What is a good answer where something has to be invoked can be invoked. -/
theorem isInvocable_of_viable
    (isViable : (ofSymbol symbol arity .invocable).viability = .viable) :
    symbol.kind.isInvocable = true := by
  by_contra notInvocable
  rw [Bool.not_eq_true] at notInvocable
  revert isViable
  unfold ofSymbol viable rejected empty
  simp only [notInvocable, LookupOptions.invocable, LookupOptions.unrestricted]
  split_ifs <;> simp_all

end Verdict

namespace LookupResult

variable {result outer : LookupResult} {arity : Nat} {options : LookupOptions}
  {candidate : Symbol → Prop}

theorem madeOf_clear : clear.MadeOf arity options candidate := by
  intro symbol member
  cases member

theorem MadeOf.mergeEqual (madeOf : result.MadeOf arity options candidate) {symbol : Symbol}
    (isCandidate : candidate symbol) :
    (result.mergeEqual (.ofSymbol symbol arity options)).MadeOf arity options candidate := by
  rw [LookupResult.mergeEqual]
  split
  · intro other member
    have same := Verdict.symbol_ofSymbol other (Option.mem_toList.mp member)
    subst same
    exact ⟨isCandidate, rfl⟩
  · split
    · next asGood =>
        have sameViability := (Bool.and_eq_true_iff.mp asGood).1
        rw [decide_eq_true_eq] at sameViability
        intro other member
        rcases List.mem_append.mp member with old | new
        · exact madeOf other old
        · have same := Verdict.symbol_ofSymbol other (Option.mem_toList.mp new)
          subst same
          exact ⟨isCandidate, sameViability⟩
    · exact madeOf

theorem MadeOf.mergePrioritized (madeOf : result.MadeOf arity options candidate)
    (outerMadeOf : outer.MadeOf arity options candidate) :
    (result.mergePrioritized outer).MadeOf arity options candidate := by
  rw [LookupResult.mergePrioritized]
  split
  · exact outerMadeOf
  · exact madeOf

/-- A good answer is a candidate, and good by itself. -/
theorem MadeOf.answer (madeOf : result.MadeOf arity options candidate) {symbol : Symbol}
    (isAnswer : result.answer? = some symbol) :
    candidate symbol ∧ (Verdict.ofSymbol symbol arity options).viability = .viable := by
  unfold answer? isViable single? at isAnswer
  split at isAnswer
  · next isViable =>
      split at isAnswer
      · next symbols =>
          cases isAnswer
          rcases madeOf symbol (by simp [symbols]) with ⟨isCandidate, viability⟩
          exact ⟨isCandidate, viability.trans (by simpa using isViable)⟩
      · cases isAnswer
  · cases isAnswer

end LookupResult

namespace Scope

variable {scope : Scope} {scopes : List Scope} {name : String} {arity : Nat}
  {options : LookupOptions}

/-- A symbol of one of the scopes, by its name. -/
def IsCandidate (scopes : List Scope) (name : String) (symbol : Symbol) : Prop :=
  symbol.name = name ∧ ∃ scope ∈ scopes, symbol ∈ scope.symbols

/-- The candidates of one scope, gathered. -/
def gathered (scope : Scope) (name : String) (arity : Nat) (options : LookupOptions) :
    LookupResult :=
  if scope.answers options then
    (scope.symbols.filter (·.name == name)).foldl
      (fun result symbol => result.mergeEqual (.ofSymbol symbol arity options)) .clear
  else
    .clear

theorem lookup_eq_ok :
    scope.lookup name arity options = .ok (scope.gathered name arity options) := by
  cases scope <;> rfl

theorem madeOf_gathered :
    (scope.gathered name arity options).MadeOf arity options (IsCandidate [scope] name) := by
  rw [gathered]
  split
  · have all : ∀ symbol ∈ scope.symbols.filter (·.name == name),
        IsCandidate [scope] name symbol := by
      intro symbol member
      rcases List.mem_filter.mp member with ⟨inScope, sameName⟩
      exact ⟨by simpa using sameName, scope, List.mem_singleton_self scope, inScope⟩
    generalize scope.symbols.filter (·.name == name) = candidates at all
    have madeOf : LookupResult.clear.MadeOf arity options (IsCandidate [scope] name) :=
      LookupResult.madeOf_clear
    generalize LookupResult.clear = result at madeOf
    induction candidates generalizing result with
    | nil => exact madeOf
    | cons symbol rest ih =>
        rw [List.forall_mem_cons] at all
        exact ih all.2 _ (madeOf.mergeEqual all.1)
  · exact LookupResult.madeOf_clear

theorem lookupFrom_gives {result : LookupResult} {all : List Scope}
    (part : ∀ scope ∈ scopes, scope ∈ all)
    (madeOf : result.MadeOf arity options (IsCandidate all name)) :
    (lookupFrom name arity options result scopes).Gives fun result =>
      result.MadeOf arity options (IsCandidate all name) := by
  induction scopes generalizing result with
  | nil => exact .ok madeOf
  | cons scope outer ih =>
      rw [List.forall_mem_cons] at part
      have own : (scope.gathered name arity options).MadeOf arity options
          (IsCandidate all name) := by
        intro symbol member
        rcases madeOf_gathered symbol member with ⟨⟨sameName, own, isOwn, inScope⟩, viability⟩
        rw [List.mem_singleton.mp isOwn] at inScope
        exact ⟨⟨sameName, scope, part.1, inScope⟩, viability⟩
      rw [lookupFrom, lookup_eq_ok, Checked.ok_bind]
      dsimp only
      split
      · exact .pure (madeOf.mergePrioritized own)
      · exact ih part.2 (madeOf.mergePrioritized own)

/-- A lookup finds candidates of the scopes. -/
theorem lookupThrough_gives : (lookupThrough scopes name arity options).Gives fun result =>
    result.MadeOf arity options (IsCandidate scopes name) :=
  lookupFrom_gives (fun _ => id) LookupResult.madeOf_clear

end Scope

end QueryLang
