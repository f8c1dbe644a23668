import Mathlib.Data.List.Nodup
import QueryLang.Proofs.Lookup.Deciding

/-!
# Completion lists what lookups find

Completion goes through the scopes for the names that each of them shows, and a lookup goes
through them for the candidates of one name. The two pick by the options in places of their own,
and still agree: a name is listed just where a lookup of it, with the same options, finds something
to go by. A lookup passes over scopes further out and completion does not, but the grade that a
lookup ends with is the best of all candidates, wherever they are.
-/

namespace QueryLang

namespace LookupOptions

/-- Only types, and what contains types. -/
def onlyTypes : LookupOptions := { unrestricted with namespacesOrTypesOnly := true }

/-- Only labels. -/
def onlyLabels : LookupOptions := { unrestricted with labelsOnly := true }

/-- Only namespace aliases. -/
def onlyAliases : LookupOptions := { unrestricted with namespaceAliasesOnly := true }

end LookupOptions

namespace VisibleNames

variable {names : VisibleNames} {name other : String} {arity otherArity : Nat}

theorem contains_iff : names.contains name arity = true ↔ (name, arity) ∈ names.entries := by
  simp [contains]

theorem mem_add : (other, otherArity) ∈ (names.add name arity).entries ↔
    (other, otherArity) ∈ names.entries ∨ (other, otherArity) = (name, arity) := by
  unfold add
  split
  · next listed =>
    constructor
    · exact Or.inl
    · rintro (old | new)
      · exact old
      · rw [new]
        exact contains_iff.mp listed
  · rw [List.mem_append, List.mem_singleton]

theorem nodup_add (once : names.entries.Nodup) : (names.add name arity).entries.Nodup := by
  unfold add
  split
  · exact once
  · next new =>
    rw [contains_iff] at new
    apply List.Nodup.append once (List.nodup_singleton _)
    simpa using new

end VisibleNames

namespace Verdict

variable {symbol : Symbol} {arity : Nat} {options : LookupOptions}

/-- Without a restriction to one kind of name, everything is some answer. -/
theorem viability_ne_empty (admits : options.admitsMembers = true) :
    (ofSymbol symbol arity options).viability ≠ .empty := by
  have noLabels : options.labelsOnly = false := by
    simp_all [LookupOptions.admitsMembers]
  unfold ofSymbol viable rejected
  rw [noLabels, if_neg Bool.false_ne_true]
  split_ifs <;> simp

theorem viable_iff_isTypeLike :
    (ofSymbol symbol 0 .onlyTypes).viability = .viable ↔ symbol.kind.isTypeLike = true := by
  unfold ofSymbol viable rejected LookupOptions.onlyTypes
  by_cases isType : symbol.kind.isTypeLike = true <;> simp [LookupOptions.unrestricted, isType]

theorem viable_iff_label :
    (ofSymbol symbol arity .onlyLabels).viability = .viable ↔ symbol.kind = .label := by
  unfold ofSymbol viable empty LookupOptions.onlyLabels
  by_cases isLabel : symbol.kind = .label <;> simp [isLabel]

end Verdict

namespace Viability

theorem ne_empty_iff {viability : Viability} : viability ≠ .empty ↔ 1 ≤ viability.rank := by
  cases viability <;> simp [rank]

theorem eq_viable_iff {viability : Viability} : viability = .viable ↔ 4 ≤ viability.rank := by
  cases viability <;> simp [rank]

end Viability

namespace Scope

variable {scope : Scope} {scopes : List Scope} {name : String} {arity grade : Nat}
  {options : LookupOptions} {names : VisibleNames}

/-- The symbols of a scope whose names completion lists. -/
def shown (scope : Scope) (options : LookupOptions) : List Symbol :=
  match scope with
  | global symbols => symbols.filter options.lists
  | _ => if options.admitsMembers then scope.symbols else []

theorem addNames_eq : scope.addNames options names =
    (scope.shown options).foldl (fun names symbol => names.add symbol.text 0) names := by
  cases scope <;> rfl

theorem mem_foldl_add (symbols : List Symbol) :
    (name, 0) ∈ (symbols.foldl (fun names symbol => names.add symbol.text 0) names).entries ↔
      (name, 0) ∈ names.entries ∨ ∃ symbol ∈ symbols, symbol.text = name := by
  induction symbols generalizing names with
  | nil => simp
  | cons symbol rest ih =>
      rw [List.foldl_cons, ih, VisibleNames.mem_add]
      simp [or_assoc, eq_comm]

theorem nodup_foldl_add (once : names.entries.Nodup) (symbols : List Symbol) :
    (symbols.foldl (fun names symbol => names.add symbol.text 0) names).entries.Nodup := by
  induction symbols generalizing names with
  | nil => exact once
  | cons symbol rest ih => exact ih (VisibleNames.nodup_add once)

/-- A name is listed where one of the scopes shows a symbol that is called so. -/
theorem mem_visibleNames : (name, 0) ∈ (visibleNames scopes options).entries ↔
    ∃ scope ∈ scopes, ∃ symbol ∈ scope.shown options, symbol.text = name := by
  have through (names : VisibleNames) :
      (name, 0) ∈ (scopes.foldl (addNames options) names).entries ↔
        (name, 0) ∈ names.entries ∨
          ∃ scope ∈ scopes, ∃ symbol ∈ scope.shown options, symbol.text = name := by
    induction scopes generalizing names with
    | nil => simp
    | cons scope outer ih =>
        rw [List.foldl_cons, ih, addNames_eq, mem_foldl_add]
        simp [or_assoc]
  rw [visibleNames, through]
  simp [VisibleNames.empty]

theorem nodup_visibleNames : (visibleNames scopes options).entries.Nodup := by
  have through (names : VisibleNames) (once : names.entries.Nodup) :
      (scopes.foldl (addNames options) names).entries.Nodup := by
    induction scopes generalizing names with
    | nil => exact once
    | cons scope outer ih =>
        apply ih
        rw [addNames_eq]
        exact nodup_foldl_add once _
  exact through .empty List.nodup_nil

/-- The candidates of a scope reach a grade together if one of them does. -/
theorem le_rank_gathered (positive : 0 < grade) :
    grade ≤ (scope.gathered name arity options).viability.rank ↔
      ∃ symbol ∈ scope.candidates name options,
        grade ≤ (Verdict.ofSymbol symbol arity options).viability.rank := by
  have isBest : (scope.gathered name arity options).IsBestOf (scope.candidates name options) arity
      options := isBestOf_gathered scope
  constructor
  · intro reached
    have notEmpty : (scope.gathered name arity options).viability ≠ .empty := by
      apply Viability.ne_empty_iff.mpr
      omega
    rcases isBest.first notEmpty with ⟨symbol, rest, symbols, -⟩
    have isBestSymbol : symbol ∈ (scope.gathered name arity options).symbols := by simp [symbols]
    rw [isBest.symbols_eq notEmpty, List.mem_filter, decide_eq_true_eq] at isBestSymbol
    exact ⟨symbol, isBestSymbol.1, isBestSymbol.2 ▸ reached⟩
  · rintro ⟨symbol, isCandidate, reached⟩
    exact Nat.le_trans reached (isBest.best symbol isCandidate)

/-- A lookup through scopes reaches a grade if a candidate of one of them does: what is further
in, and worse, does not stand in the way. -/
theorem le_rank_mergedFrom (positive : 0 < grade) :
    grade ≤ (mergedFrom name arity options .clear scopes).viability.rank ↔
      ∃ scope ∈ scopes, ∃ symbol ∈ scope.candidates name options,
        grade ≤ (Verdict.ofSymbol symbol arity options).viability.rank := by
  have scopewise : grade ≤ (mergedFrom name arity options .clear scopes).viability.rank ↔
      ∃ scope ∈ scopes, grade ≤ (scope.gathered name arity options).viability.rank := by
    rcases mergedFrom_decided name arity options .clear scopes with
      ⟨stays, noBetter⟩ | ⟨-, inner, decider, outer, rfl, decides⟩
    · rw [stays]
      constructor
      · intro reached
        exact absurd (Nat.lt_of_lt_of_le positive reached) (Nat.lt_irrefl 0)
      · rintro ⟨scope, member, reached⟩
        exact Nat.le_trans reached (noBetter scope member)
    · have own := decides.lookup_eq
      rw [lookup_eq_ok, Except.ok.injEq] at own
      constructor
      · intro reached
        exact ⟨decider, by simp, own ▸ reached⟩
      · rintro ⟨scope, member, reached⟩
        apply Nat.le_trans reached
        rw [List.mem_append, List.mem_cons] at member
        rcases member with isInner | rfl | isOuter
        · rcases decides.inner_worse scope isInner with ⟨_, found, worse⟩
          cases lookup_eq_ok.symm.trans found
          exact Nat.le_of_lt worse
        · exact Nat.le_of_eq (congrArg (·.viability.rank) own)
        · rcases decides.outer_no_better scope isOuter with ⟨_, found, noBetter⟩
          cases lookup_eq_ok.symm.trans found
          exact noBetter
  simp only [scopewise, le_rank_gathered positive]

/-- Without a restriction to one kind of name, every scope answers. -/
theorem candidates_of_admits (admits : options.admitsMembers = true) :
    scope.candidates name options = scope.symbols.filter (·.name == name) := by
  have answers : scope.answers options = true := by
    cases scope <;> simp_all [answers, LookupOptions.admitsMembers]
  rw [candidates, if_pos answers]

/-- Without a restriction to one kind of name, a scope shows a name if it has a candidate for
it. -/
theorem shown_iff_candidate (named : ∀ symbol ∈ scope.symbols, symbol.name = symbol.text)
    (admits : options.admitsMembers = true) :
    (∃ symbol ∈ scope.shown options, symbol.text = name) ↔
      ∃ symbol ∈ scope.candidates name options,
        1 ≤ (Verdict.ofSymbol symbol 0 options).viability.rank := by
  have graded (symbol : Symbol) : 1 ≤ (Verdict.ofSymbol symbol 0 options).viability.rank :=
    Viability.ne_empty_iff.mp (Verdict.viability_ne_empty admits)
  have all : scope.shown options = scope.symbols := by
    cases scope <;> simp [shown, symbols, admits, LookupOptions.lists]
  rw [all, candidates_of_admits admits]
  constructor
  · rintro ⟨symbol, member, called⟩
    refine ⟨symbol, List.mem_filter.mpr ⟨member, ?_⟩, graded symbol⟩
    simpa using (named symbol member).trans called
  · rintro ⟨symbol, member, -⟩
    rw [List.mem_filter, beq_iff_eq] at member
    exact ⟨symbol, member.1, (named symbol member.1).symm.trans member.2⟩

/-- Where the host's symbols are picked just when they are good answers, and no other scope has
any, a scope shows a name if it has a good answer for it. -/
theorem shown_iff_viable (named : ∀ symbol ∈ scope.symbols, symbol.name = symbol.text)
    (aliases : options.namespaceAliasesOnly = false) (restricts : options.admitsMembers = false)
    (picked : ∀ symbol, options.lists symbol = true ↔
      (Verdict.ofSymbol symbol 0 options).viability = .viable)
    (noVariable : ∀ symbol : Symbol, symbol.kind = .queryConclusionVariable →
      (Verdict.ofSymbol symbol 0 options).viability ≠ .viable) :
    (∃ symbol ∈ scope.shown options, symbol.text = name) ↔
      ∃ symbol ∈ scope.candidates name options,
        4 ≤ (Verdict.ofSymbol symbol 0 options).viability.rank := by
  simp only [← Viability.eq_viable_iff]
  cases scope with
  | global symbols =>
      have answers : (global symbols).answers options = true := by simp [answers, aliases]
      rw [candidates, if_pos answers]
      constructor
      · rintro ⟨symbol, member, called⟩
        rw [shown, List.mem_filter, picked] at member
        refine ⟨symbol, List.mem_filter.mpr ⟨member.1, ?_⟩, member.2⟩
        simpa using (named symbol member.1).trans called
      · rintro ⟨symbol, member, isViable⟩
        rw [List.mem_filter, beq_iff_eq] at member
        refine ⟨symbol, ?_, (named symbol member.1).symm.trans member.2⟩
        rw [shown, List.mem_filter, picked]
        exact ⟨member.1, isViable⟩
  | locals symbols => simp [shown, candidates, answers, restricts]
  | rangeVariable symbol kind => simp [shown, candidates, answers, restricts]
  | conclusion body =>
      have notViable := noVariable body.symbol body.symbol_kind
      simp [shown, candidates, answers, restricts, aliases, symbols, notViable]

/-- No scope answers a lookup of namespace aliases, or shows a name for it. -/
theorem aliases_silent (scope : Scope) : scope.shown .onlyAliases = [] ∧
    ∀ name arity, scope.gathered name arity .onlyAliases = .clear := by
  constructor
  · cases scope with
    | global symbols =>
        apply List.filter_eq_nil_iff.mpr
        intro symbol _
        exact Bool.false_ne_true
    | locals _ | rangeVariable _ _ | conclusion _ => rfl
  · intro name arity
    cases scope <;> rfl

end Scope

/-- Completion and lookups agree, from any point of a program where symbols are called by the name
by which they are looked up. No name is listed twice. Without a restriction to one kind of name, a
name is listed if a lookup of it finds anything at all; with one to types, or to labels, if it
finds a good answer; and with one to namespace aliases nothing is listed and nothing found. -/
theorem Binder.listed_iff_found (binder : Binder)
    (named : ∀ scope ∈ binder.scopes, ∀ symbol ∈ scope.symbols, symbol.name = symbol.text)
    (options : LookupOptions) (name : String) :
    (binder.visibleNames options).entries.count (name, 0) ≤ 1 ∧
      ∃ result, binder.lookup name 0 options = .ok result ∧
        (options.admitsMembers = true →
          ((binder.visibleNames options).contains name 0 = true ↔ result.viability ≠ .empty)) ∧
        (options = .onlyTypes ∨ options = .onlyLabels →
          ((binder.visibleNames options).contains name 0 = true ↔ result.isViable = true)) ∧
        (options = .onlyAliases → binder.visibleNames options = .empty ∧
          ∀ other arity, binder.lookup other arity options = .ok .clear) := by
  refine ⟨List.nodup_iff_count_le_one.mp Scope.nodup_visibleNames _, _,
    Scope.lookupFrom_eq_ok .clear binder.scopes, ?_, ?_, ?_⟩
  · intro admits
    rw [VisibleNames.contains_iff, visibleNames, Scope.mem_visibleNames, Viability.ne_empty_iff,
      Scope.le_rank_mergedFrom Nat.one_pos]
    refine exists_congr fun scope => and_congr_right fun member => ?_
    exact Scope.shown_iff_candidate (named scope member) admits
  · intro restricted
    rw [VisibleNames.contains_iff, visibleNames, Scope.mem_visibleNames, LookupResult.isViable,
      beq_iff_eq, Viability.eq_viable_iff, Scope.le_rank_mergedFrom (by omega)]
    refine exists_congr fun scope => and_congr_right fun member => ?_
    rcases restricted with rfl | rfl
    · apply Scope.shown_iff_viable (named scope member) rfl rfl
      · intro symbol
        rw [Verdict.viable_iff_isTypeLike]
        simp [LookupOptions.lists, LookupOptions.admitsMembers, LookupOptions.onlyTypes,
          LookupOptions.unrestricted]
      · intro symbol isVariable
        rw [ne_eq, Verdict.viable_iff_isTypeLike, isVariable]
        decide
    · apply Scope.shown_iff_viable (named scope member) rfl rfl
      · intro symbol
        rw [Verdict.viable_iff_label]
        simp [LookupOptions.lists, LookupOptions.admitsMembers, LookupOptions.onlyLabels,
          LookupOptions.unrestricted]
      · intro symbol isVariable
        rw [ne_eq, Verdict.viable_iff_label, isVariable]
        decide
  · rintro rfl
    constructor
    · -- Every scope leaves the names as they were, so the fold ends where it starts.
      unfold visibleNames Scope.visibleNames
      induction binder.scopes with
      | nil => rfl
      | cons scope outer ih =>
          rw [List.foldl_cons, Scope.addNames_eq, (Scope.aliases_silent scope).1]
          exact ih
    · intro other arity
      refine (Scope.lookupFrom_eq_ok .clear binder.scopes).trans (congrArg Except.ok ?_)
      apply Scope.mergedFrom_eq_self
      intro scope _
      exact Nat.le_of_eq (by rw [(Scope.aliases_silent scope).2])

/-- A local does not hide a type of its name from what asks for types. -/
theorem Binder.listed_iff_found_hidden :
    let binder : Binder :=
      ⟨[.locals [.plain 1 "T" none [] (.localVariable .int)], .global [.ofType 0 "T" none .string]],
        default, false⟩
    binder.visibleNames .onlyTypes = ⟨[("T", 0)]⟩ ∧
      ∃ result, binder.lookup "T" 0 .onlyTypes = .ok result ∧ result.isViable = true := by
  intro binder
  rcases binder.listed_iff_found (by decide) .onlyTypes "T" with
    ⟨-, result, found, -, restricted, -⟩
  have listed : binder.visibleNames .onlyTypes = ⟨[("T", 0)]⟩ := by decide
  refine ⟨listed, result, found, (restricted (Or.inl rfl)).mp ?_⟩
  rw [listed]
  rfl

end QueryLang
