import Mathlib.Data.List.Basic
import QueryLang.Proofs.Lookup.Scope

/-!
# Which scope decides a lookup

Within a scope, the candidates of the best grade count, in the order of their declaration. Between
scopes, the innermost of those with the best result counts. Since nothing is better than a good
answer, a lookup that stops at the first scope with one finds what a lookup through all scopes
finds.
-/

namespace QueryLang

namespace Viability

theorem rank_injective {left right : Viability} (same : left.rank = right.rank) :
    left = right := by
  cases left <;> cases right <;> simp_all [rank]

theorem rank_le_viable (viability : Viability) : viability.rank ≤ viable.rank := by
  cases viability <;> simp [rank]

end Viability

theorem Verdict.symbol_eq_some {symbol : Symbol} {arity : Nat} {options : LookupOptions}
    (notEmpty : (ofSymbol symbol arity options).viability ≠ .empty) :
    (ofSymbol symbol arity options).symbol = some symbol := by
  revert notEmpty
  unfold ofSymbol viable rejected empty
  dsimp only
  split_ifs <;> simp

namespace LookupResult

/-- What candidates amount to: the best grade among them, the candidates of that grade in order,
and what is wrong with the first of those. -/
structure IsBestOf (result : LookupResult) (candidates : List Symbol) (arity : Nat)
    (options : LookupOptions) : Prop where
  best : ∀ symbol ∈ candidates,
    (Verdict.ofSymbol symbol arity options).viability.rank ≤ result.viability.rank
  clear_of_empty : result.viability = .empty → result = .clear
  symbols_eq : result.viability ≠ .empty → result.symbols = candidates.filter fun symbol =>
    (Verdict.ofSymbol symbol arity options).viability = result.viability
  first : result.viability ≠ .empty → ∃ symbol rest, result.symbols = symbol :: rest ∧
    result.error = (Verdict.ofSymbol symbol arity options).error

variable {result : LookupResult} {candidates : List Symbol} {symbol : Symbol} {arity : Nat}
  {options : LookupOptions}

theorem isBestOf_nil : clear.IsBestOf [] arity options where
  best := by simp
  clear_of_empty _ := rfl
  symbols_eq notEmpty := absurd rfl notEmpty
  first notEmpty := absurd rfl notEmpty

namespace IsBestOf

/-- A candidate that is better than all before stands alone. -/
theorem replaced (isBest : result.IsBestOf candidates arity options)
    (better : result.viability.rank < (Verdict.ofSymbol symbol arity options).viability.rank) :
    IsBestOf ⟨(Verdict.ofSymbol symbol arity options).viability, [symbol],
      (Verdict.ofSymbol symbol arity options).error⟩ (candidates ++ [symbol]) arity options := by
  have worse : ∀ other ∈ candidates, (Verdict.ofSymbol other arity options).viability.rank <
      (Verdict.ofSymbol symbol arity options).viability.rank := by
    intro other member
    have atMost := isBest.best other member
    omega
  constructor
  · rw [List.forall_mem_append, List.forall_mem_singleton]
    exact ⟨fun other member => Nat.le_of_lt (worse other member), Nat.le_refl _⟩
  · intro isEmpty
    dsimp only at isEmpty
    simp [isEmpty, Viability.rank] at better
  · intro _
    have noneBefore : candidates.filter (fun other =>
        (Verdict.ofSymbol other arity options).viability =
          (Verdict.ofSymbol symbol arity options).viability) = [] := by
      apply List.filter_eq_nil_iff.mpr
      intro other member isSame
      have isWorse := worse other member
      rw [decide_eq_true_eq.mp isSame] at isWorse
      omega
    simp [noneBefore]
  · intro _
    exact ⟨symbol, [], rfl, rfl⟩

/-- A candidate that is as good as the best joins them. -/
theorem joined (isBest : result.IsBestOf candidates arity options)
    (same : (Verdict.ofSymbol symbol arity options).viability = result.viability)
    (notEmpty : result.viability ≠ .empty) :
    IsBestOf { result with symbols := result.symbols ++ [symbol] } (candidates ++ [symbol]) arity
      options := by
  constructor
  · rw [List.forall_mem_append, List.forall_mem_singleton]
    exact ⟨isBest.best, Nat.le_of_eq (congrArg Viability.rank same)⟩
  · intro isEmpty
    exact absurd isEmpty notEmpty
  · intro _
    simp [isBest.symbols_eq notEmpty, same]
  · intro _
    rcases isBest.first notEmpty with ⟨first, rest, symbols, error⟩
    exact ⟨first, rest ++ [symbol], by simp [symbols], error⟩

/-- A candidate that is worse than the best, or no answer at all, is passed over. -/
theorem passed (isBest : result.IsBestOf candidates arity options)
    (noBetter : (Verdict.ofSymbol symbol arity options).viability.rank ≤ result.viability.rank)
    (different : result.viability ≠ .empty →
      (Verdict.ofSymbol symbol arity options).viability ≠ result.viability) :
    result.IsBestOf (candidates ++ [symbol]) arity options := by
  constructor
  · rw [List.forall_mem_append, List.forall_mem_singleton]
    exact ⟨isBest.best, noBetter⟩
  · exact isBest.clear_of_empty
  · intro notEmpty
    simp [isBest.symbols_eq notEmpty, different notEmpty]
  · exact isBest.first

theorem mergeEqual (isBest : result.IsBestOf candidates arity options) (symbol : Symbol) :
    (result.mergeEqual (.ofSymbol symbol arity options)).IsBestOf (candidates ++ [symbol]) arity
      options := by
  rw [LookupResult.mergeEqual]
  split
  · next better =>
    have notEmpty : (Verdict.ofSymbol symbol arity options).viability ≠ .empty := by
      intro isEmpty
      simp [isEmpty, Viability.rank] at better
    rw [Verdict.symbol_eq_some notEmpty]
    exact isBest.replaced better
  · next notBetter =>
    split
    · next asGood =>
      simp only [ne_eq, Bool.and_eq_true, decide_eq_true_eq] at asGood
      rcases asGood with ⟨same, notEmpty⟩
      rw [Verdict.symbol_eq_some notEmpty]
      exact isBest.joined same (same ▸ notEmpty)
    · next notAsGood =>
      apply isBest.passed (Nat.le_of_not_lt notBetter)
      intro notEmpty same
      apply notAsGood
      simp [same, notEmpty]

theorem foldl {seen : List Symbol} (isBest : result.IsBestOf seen arity options)
    (symbols : List Symbol) :
    (symbols.foldl (fun result symbol => result.mergeEqual (.ofSymbol symbol arity options))
      result).IsBestOf (seen ++ symbols) arity options := by
  induction symbols generalizing result seen with
  | nil => simpa using isBest
  | cons symbol rest ih => simpa using ih (isBest.mergeEqual symbol)

end IsBestOf

end LookupResult

namespace Scope

variable {name : String} {arity : Nat} {options : LookupOptions}

/-- The symbols of a scope that a lookup judges, in the order in which the scope declares them. -/
def candidates (scope : Scope) (name : String) (options : LookupOptions) : List Symbol :=
  if scope.answers options then scope.symbols.filter (·.name == name) else []

/-- A lookup that asks every scope, whatever the scopes further in have answered. -/
def lookupThroughout (scopes : List Scope) (name : String) (arity : Nat)
    (options : LookupOptions) : Checked LookupResult :=
  scopes.foldlM
    (fun result scope => return result.mergePrioritized (← scope.lookup name arity options))
    .clear

/-- The scope between those further in and those further out decides a lookup: those further in
answer worse, and those further out no better. -/
structure Decides (inner : List Scope) (scope : Scope) (outer : List Scope) (name : String)
    (arity : Nat) (options : LookupOptions) (result : LookupResult) : Prop where
  lookup_eq : scope.lookup name arity options = .ok result
  inner_worse : ∀ other ∈ inner, ∃ own, other.lookup name arity options = .ok own ∧
    own.viability.rank < result.viability.rank
  outer_no_better : ∀ other ∈ outer, ∃ own, other.lookup name arity options = .ok own ∧
    own.viability.rank ≤ result.viability.rank

theorem isBestOf_gathered (scope : Scope) : (scope.gathered name arity options).IsBestOf
    (scope.candidates name options) arity options := by
  unfold gathered candidates
  split
  · exact LookupResult.isBestOf_nil.foldl _
  · exact LookupResult.isBestOf_nil

/-- The results of the scopes, merged into a result from scopes further in. -/
def mergedFrom (name : String) (arity : Nat) (options : LookupOptions) (result : LookupResult)
    (scopes : List Scope) : LookupResult :=
  scopes.foldl (fun result scope => result.mergePrioritized (scope.gathered name arity options))
    result

theorem mergedFrom_eq_self {scopes : List Scope} {result : LookupResult}
    (noBetter : ∀ scope ∈ scopes,
      (scope.gathered name arity options).viability.rank ≤ result.viability.rank) :
    mergedFrom name arity options result scopes = result := by
  induction scopes with
  | nil => rfl
  | cons scope outer ih =>
      rw [List.forall_mem_cons] at noBetter
      have kept : result.mergePrioritized (scope.gathered name arity options) = result := by
        rw [LookupResult.mergePrioritized, if_neg (by omega)]
      rw [mergedFrom, List.foldl_cons, kept]
      exact ih noBetter.2

theorem mergedFrom_viable {result : LookupResult} (viable : result.viability = .viable)
    (scopes : List Scope) : mergedFrom name arity options result scopes = result := by
  apply mergedFrom_eq_self
  intro scope _
  rw [viable]
  exact Viability.rank_le_viable _

/-- A lookup can stop at a good answer, because no scope further out has a better one. -/
theorem lookupFrom_eq_ok (result : LookupResult) (scopes : List Scope) :
    lookupFrom name arity options result scopes =
      .ok (mergedFrom name arity options result scopes) := by
  induction scopes generalizing result with
  | nil => rfl
  | cons scope outer ih =>
      rw [lookupFrom, lookup_eq_ok, Checked.ok_bind]
      dsimp only
      rw [mergedFrom, List.foldl_cons]
      split
      · next isViable =>
        have viable : (result.mergePrioritized (scope.gathered name arity options)).viability =
            .viable := by
          simpa [LookupResult.isViable] using isViable
        exact congrArg Except.ok (mergedFrom_viable viable outer).symm
      · exact ih _

theorem lookupThroughout_eq_ok (scopes : List Scope) :
    lookupThroughout scopes name arity options =
      .ok (mergedFrom name arity options .clear scopes) := by
  unfold lookupThroughout
  generalize LookupResult.clear = result
  induction scopes generalizing result with
  | nil => rfl
  | cons scope outer ih =>
      rw [List.foldlM_cons, lookup_eq_ok]
      exact ih _

/-- Merging the results of scopes keeps a result that none of them betters. Otherwise one of the
scopes decides. -/
theorem mergedFrom_decided (name : String) (arity : Nat) (options : LookupOptions)
    (result : LookupResult) (scopes : List Scope) :
    (mergedFrom name arity options result scopes = result ∧ ∀ scope ∈ scopes,
      (scope.gathered name arity options).viability.rank ≤ result.viability.rank) ∨
    (result.viability.rank <
        (mergedFrom name arity options result scopes).viability.rank ∧
      ∃ inner scope outer, scopes = inner ++ scope :: outer ∧
        Decides inner scope outer name arity options
          (mergedFrom name arity options result scopes)) := by
  induction scopes generalizing result with
  | nil => simp [mergedFrom]
  | cons scope outer ih =>
      rw [mergedFrom, List.foldl_cons]
      by_cases better :
          result.viability.rank < (scope.gathered name arity options).viability.rank
      · have replaced : result.mergePrioritized (scope.gathered name arity options) =
            scope.gathered name arity options := if_pos better
        rw [replaced]
        right
        rcases ih (scope.gathered name arity options) with ⟨stays, noBetter⟩ |
          ⟨evenBetter, inner, decider, further, rfl, decides⟩
        · rw [mergedFrom] at stays
          rw [stays]
          refine ⟨better, [], scope, outer, rfl, lookup_eq_ok, by simp, ?_⟩
          intro other member
          exact ⟨_, lookup_eq_ok, noBetter other member⟩
        · refine ⟨Nat.lt_trans better evenBetter, scope :: inner, decider, further, rfl,
            decides.lookup_eq, ?_, decides.outer_no_better⟩
          rw [List.forall_mem_cons]
          exact ⟨⟨_, lookup_eq_ok, evenBetter⟩, decides.inner_worse⟩
      · have kept : result.mergePrioritized (scope.gathered name arity options) = result :=
          if_neg better
        rw [kept]
        rcases ih result with ⟨stays, noBetter⟩ |
          ⟨evenBetter, inner, decider, further, rfl, decides⟩
        · left
          refine ⟨stays, ?_⟩
          rw [List.forall_mem_cons]
          exact ⟨by omega, noBetter⟩
        · right
          refine ⟨evenBetter, scope :: inner, decider, further, rfl, decides.lookup_eq, ?_,
            decides.outer_no_better⟩
          rw [List.forall_mem_cons]
          exact ⟨⟨_, lookup_eq_ok, Nat.lt_of_le_of_lt (by omega) evenBetter⟩, decides.inner_worse⟩

end Scope

/-- A lookup gives the result of the innermost scope whose own result is the best: the candidates
of the best grade in order, with what is wrong with the first of them. If no scope has a
candidate of any grade, it gives a clear result. A lookup that asks every scope gives the same. -/
theorem Binder.lookup_decided (binder : Binder) (name : String) (arity : Nat)
    (options : LookupOptions) :
    ∃ result, binder.lookup name arity options = .ok result ∧
      Scope.lookupThroughout binder.scopes name arity options = .ok result ∧
      ((result = .clear ∧ ∀ scope ∈ binder.scopes, ∃ own,
          scope.lookup name arity options = .ok own ∧ own.viability = .empty) ∨
        (result.viability ≠ .empty ∧ ∃ inner scope outer,
          binder.scopes = inner ++ scope :: outer ∧
          Scope.Decides inner scope outer name arity options result ∧
          result.IsBestOf (scope.candidates name options) arity options)) := by
  refine ⟨_, Scope.lookupFrom_eq_ok .clear binder.scopes, Scope.lookupThroughout_eq_ok _, ?_⟩
  rcases Scope.mergedFrom_decided name arity options .clear binder.scopes with
    ⟨stays, noBetter⟩ | ⟨better, inner, scope, outer, split, decides⟩
  · left
    refine ⟨stays, ?_⟩
    intro scope member
    refine ⟨_, Scope.lookup_eq_ok, Viability.rank_injective ?_⟩
    exact Nat.le_zero.mp (noBetter scope member)
  · right
    refine ⟨?_, inner, scope, outer, split, decides, ?_⟩
    · intro isEmpty
      rw [isEmpty] at better
      exact absurd better (Nat.lt_irrefl _)
    · have own := decides.lookup_eq
      rw [Scope.lookup_eq_ok, Except.ok.injEq] at own
      rw [← own]
      exact Scope.isBestOf_gathered scope

end QueryLang
