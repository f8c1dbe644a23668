import QueryLang.Proofs.Lookup.Listing

/-!
# Lookups that fail without a reason

A lookup gives no single good answer, and no reason for that either, in two cases: no scope
declares the name, or the innermost scope with a good answer has several.
-/

namespace QueryLang

theorem Verdict.error_eq_none_iff {symbol : Symbol} {arity : Nat} {options : LookupOptions}
    (notEmpty : (ofSymbol symbol arity options).viability ≠ .empty) :
    (ofSymbol symbol arity options).error = none ↔
      (ofSymbol symbol arity options).viability = .viable := by
  revert notEmpty
  unfold ofSymbol viable rejected empty
  dsimp only
  split_ifs <;> simp

namespace Scope

variable {scope : Scope} {scopes inner outer : List Scope} {name : String} {options : LookupOptions}

/-- A scope declares a name. -/
def Declares (scope : Scope) (name : String) : Prop :=
  ∃ symbol ∈ scope.symbols, symbol.name = name

/-- The symbols of a scope that are good answers to a lookup. -/
def goodAnswers (scope : Scope) (name : String) (options : LookupOptions) : List Symbol :=
  scope.symbols.filter fun symbol =>
    symbol.name == name && (Verdict.ofSymbol symbol 0 options).viability == .viable

/-- The good answers of the innermost scope that has any. -/
def firstGoodAnswers (name : String) (options : LookupOptions) : List Scope → List Symbol
  | [] => []
  | scope :: outer =>
    match scope.goodAnswers name options with
    | [] => firstGoodAnswers name options outer
    | symbol :: rest => symbol :: rest

theorem firstGoodAnswers_of_none
    (none : ∀ scope ∈ inner, scope.goodAnswers name options = []) :
    firstGoodAnswers name options (inner ++ outer) = firstGoodAnswers name options outer := by
  induction inner with
  | nil => rfl
  | cons scope rest ih =>
      rw [List.forall_mem_cons] at none
      rw [List.cons_append, firstGoodAnswers, none.1]
      exact ih none.2

theorem firstGoodAnswers_of_some (some : scope.goodAnswers name options ≠ []) :
    firstGoodAnswers name options (scope :: outer) = scope.goodAnswers name options := by
  rw [firstGoodAnswers]
  cases found : scope.goodAnswers name options with
  | nil => exact absurd found some
  | cons symbol rest => rfl

theorem goodAnswers_eq_filter (admits : options.admitsMembers = true) :
    scope.goodAnswers name options = (scope.candidates name options).filter fun symbol =>
      (Verdict.ofSymbol symbol 0 options).viability = .viable := by
  rw [candidates_of_admits admits, List.filter_filter, goodAnswers]
  congr 1
  funext symbol
  rw [Bool.and_comm, Bool.beq_eq_decide_eq]

/-- A scope whose result is no good answer has none. -/
theorem goodAnswers_eq_nil (admits : options.admitsMembers = true)
    (worse : (scope.gathered name 0 options).viability.rank < Viability.viable.rank) :
    scope.goodAnswers name options = [] := by
  rw [goodAnswers_eq_filter admits, List.filter_eq_nil_iff]
  intro symbol isCandidate isViable
  have reached : Viability.viable.rank ≤ (scope.gathered name 0 options).viability.rank := by
    refine (le_rank_gathered (by decide)).mpr ⟨symbol, isCandidate, ?_⟩
    exact Nat.le_of_eq (congrArg Viability.rank (of_decide_eq_true isViable).symm)
  omega

/-- A scope whose result is no answer at all does not declare the name. -/
theorem not_declares (admits : options.admitsMembers = true)
    (nothing : (scope.gathered name 0 options).viability.rank = 0) : ¬scope.Declares name := by
  rintro ⟨symbol, member, isNamed⟩
  have isCandidate : symbol ∈ scope.candidates name options := by
    rw [candidates_of_admits admits, List.mem_filter, beq_iff_eq]
    exact ⟨member, isNamed⟩
  have reached : 1 ≤ (scope.gathered name 0 options).viability.rank :=
    (le_rank_gathered Nat.one_pos).mpr
      ⟨symbol, isCandidate, Viability.ne_empty_iff.mp (Verdict.viability_ne_empty admits)⟩
  omega

/-- A scope that has an answer has a candidate of that grade first. -/
theorem exists_first (notEmpty : (scope.gathered name 0 options).viability ≠ .empty) :
    ∃ symbol rest, (scope.gathered name 0 options).symbols = symbol :: rest ∧
      (scope.gathered name 0 options).error = (Verdict.ofSymbol symbol 0 options).error ∧
      symbol ∈ scope.candidates name options ∧
      (Verdict.ofSymbol symbol 0 options).viability =
        (scope.gathered name 0 options).viability := by
  have isBest :
      (scope.gathered name 0 options).IsBestOf (scope.candidates name options) 0 options :=
    isBestOf_gathered scope
  rcases isBest.first notEmpty with ⟨symbol, rest, symbolsEq, errorEq⟩
  have isFirst : symbol ∈ (scope.gathered name 0 options).symbols := by simp [symbolsEq]
  rw [isBest.symbols_eq notEmpty, List.mem_filter, decide_eq_true_eq] at isFirst
  exact ⟨symbol, rest, symbolsEq, errorEq, isFirst⟩

theorem declares_of_candidate (admits : options.admitsMembers = true) {symbol : Symbol}
    (isCandidate : symbol ∈ scope.candidates name options) : scope.Declares name := by
  rw [candidates_of_admits admits, List.mem_filter, beq_iff_eq] at isCandidate
  exact ⟨symbol, isCandidate⟩

/-- The good answers of a scope that has any are what it answers. -/
theorem symbols_gathered (admits : options.admitsMembers = true)
    (isViable : (scope.gathered name 0 options).viability = .viable) :
    (scope.gathered name 0 options).symbols = scope.goodAnswers name options := by
  have isBest :
      (scope.gathered name 0 options).IsBestOf (scope.candidates name options) 0 options :=
    isBestOf_gathered scope
  have notEmpty : (scope.gathered name 0 options).viability ≠ .empty := by simp [isViable]
  rw [isBest.symbols_eq notEmpty, isViable, goodAnswers_eq_filter admits]

/-- The answer of a scope is neither a single good one nor comes with a reason, if it is several
good ones. -/
theorem gathered_fails_iff (admits : options.admitsMembers = true)
    (notEmpty : (scope.gathered name 0 options).viability ≠ .empty) :
    ((scope.gathered name 0 options).answer? = none ∧
        (scope.gathered name 0 options).error = none) ↔
      (scope.gathered name 0 options).viability = .viable ∧
        1 < (scope.goodAnswers name options).length := by
  rcases exists_first notEmpty with ⟨symbol, rest, symbolsEq, errorEq, _, sameGrade⟩
  have noReason_iff := Verdict.error_eq_none_iff (sameGrade ▸ notEmpty)
  rw [← errorEq, sameGrade] at noReason_iff
  rw [noReason_iff, and_comm]
  refine and_congr_right fun isViable => ?_
  rw [← symbols_gathered admits isViable, LookupResult.answer?, LookupResult.isViable, isViable,
    LookupResult.single?, symbolsEq]
  cases rest <;> simp

/-- When a lookup gives neither a single good answer nor a reason. -/
theorem fails_iff (admits : options.admitsMembers = true) {result : LookupResult}
    (found : lookupThrough scopes name 0 options = .ok result) :
    (result.answer? = none ∧ result.error = none) ↔
      (∀ scope ∈ scopes, ¬scope.Declares name) ∨
        1 < (firstGoodAnswers name options scopes).length := by
  cases (lookupFrom_eq_ok .clear scopes).symm.trans found
  rcases mergedFrom_decided name 0 options .clear scopes with
    ⟨stays, noBetter⟩ | ⟨better, inner, scope, outer, rfl, decides⟩
  · rw [stays]
    refine iff_of_true ⟨rfl, rfl⟩ (.inl fun scope member => ?_)
    exact not_declares admits (Nat.le_zero.mp (noBetter scope member))
  · generalize mergedFrom name 0 options .clear (inner ++ scope :: outer) = result
      at better decides
    have own := decides.lookup_eq
    rw [lookup_eq_ok, Except.ok.injEq] at own
    subst own
    have notEmpty : (scope.gathered name 0 options).viability ≠ .empty := by
      apply Viability.ne_empty_iff.mpr
      exact better
    have declares : ∃ other ∈ inner ++ scope :: outer, other.Declares name := by
      rcases exists_first notEmpty with ⟨symbol, _, _, _, isCandidate, _⟩
      exact ⟨scope, by simp, declares_of_candidate admits isCandidate⟩
    have worse {other : Scope} (member : other ∈ inner) :
        (other.gathered name 0 options).viability.rank <
          (scope.gathered name 0 options).viability.rank := by
      rcases decides.inner_worse other member with ⟨_, found, isWorse⟩
      cases lookup_eq_ok.symm.trans found
      exact isWorse
    have noBetter {other : Scope} (member : other ∈ outer) :
        (other.gathered name 0 options).viability.rank ≤
          (scope.gathered name 0 options).viability.rank := by
      rcases decides.outer_no_better other member with ⟨_, found, isNoBetter⟩
      cases lookup_eq_ok.symm.trans found
      exact isNoBetter
    rw [gathered_fails_iff admits notEmpty,
      or_iff_right fun nowhere => declares.elim fun other own => nowhere other own.1 own.2]
    by_cases isViable : (scope.gathered name 0 options).viability = .viable
    · -- No scope further in has a good answer.
      have none : ∀ other ∈ inner, other.goodAnswers name options = [] := fun other member =>
        goodAnswers_eq_nil admits (isViable ▸ worse member)
      have some : scope.goodAnswers name options ≠ [] := by
        rcases exists_first notEmpty with ⟨symbol, rest, symbolsEq, _⟩
        rw [← symbols_gathered admits isViable, symbolsEq]
        exact List.cons_ne_nil symbol rest
      rw [firstGoodAnswers_of_none none, firstGoodAnswers_of_some some]
      exact and_iff_right isViable
    · have below : (scope.gathered name 0 options).viability.rank < Viability.viable.rank := by
        have atMost := Viability.rank_le_viable (scope.gathered name 0 options).viability
        have different := mt Viability.rank_injective isViable
        omega
      have none : ∀ other ∈ inner ++ scope :: outer, other.goodAnswers name options = [] := by
        intro other member
        apply goodAnswers_eq_nil admits
        rw [List.mem_append, List.mem_cons] at member
        rcases member with isInner | rfl | isOuter
        · exact Nat.lt_trans (worse isInner) below
        · exact below
        · exact Nat.lt_of_le_of_lt (noBetter isOuter) below
      rw [← List.append_nil (inner ++ scope :: outer), firstGoodAnswers_of_none none]
      exact iff_of_false (fun fails => isViable fails.1) (Nat.not_lt_zero 1)

end Scope

end QueryLang
