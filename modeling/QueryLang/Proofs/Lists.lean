import Mathlib.Data.List.Forall2
import Mathlib.Data.List.Nodup
import Mathlib.Data.List.Sort

/-!
# Lists

Facts about lists of any elements that the theory of the language uses.
-/

namespace QueryLang

variable {α β : Type}

/-! ### Finding and keeping elements -/

theorem mem_of_lookup_eq_some [BEq α] [LawfulBEq α] {entries : List (α × β)} {key : α}
    {value : β} (found : entries.lookup key = some value) : (key, value) ∈ entries := by
  rcases List.lookup_eq_some_iff.mp found with ⟨before, after, entriesEq, _⟩
  simp [entriesEq]

/-- The last number below a bound that has a property. -/
theorem find?_reverse_range_eq_some {holds : Nat → Bool} {bound found : Nat} :
    (List.range bound).reverse.find? holds = some found ↔
      holds found = true ∧ found < bound ∧
        ∀ other, found < other → other < bound → holds other = false := by
  induction bound with
  | zero => simp
  | succ bound ih =>
      rw [List.range_succ, List.reverse_append, List.reverse_singleton, List.singleton_append]
      cases last : holds bound with
      | true =>
          rw [List.find?_cons_of_pos last, Option.some.injEq]
          constructor
          · rintro rfl
            exact ⟨last, Nat.lt_succ_self _, by omega⟩
          · rintro ⟨_, below, noneAfter⟩
            by_contra other
            have absent := noneAfter bound (by omega) (Nat.lt_succ_self _)
            rw [last] at absent
            cases absent
      | false =>
          rw [List.find?_cons_of_neg (by simp [last]), ih]
          constructor
          · rintro ⟨isHeld, below, noneAfter⟩
            refine ⟨isHeld, Nat.lt_succ_of_lt below, ?_⟩
            intro other after inRange
            rcases Nat.lt_succ_iff_lt_or_eq.mp inRange with isBelow | rfl
            · exact noneAfter other after isBelow
            · exact last
          · rintro ⟨isHeld, below, noneAfter⟩
            have notLast : found ≠ bound := by
              rintro rfl
              rw [last] at isHeld
              cases isHeld
            refine ⟨isHeld, by omega, ?_⟩
            intro other after isBelow
            exact noneAfter other after (Nat.lt_succ_of_lt isBelow)

theorem filter_notMem_middle [BEq α] [LawfulBEq α] {front values back : List α}
    (distinct : (front ++ (values ++ back)).Nodup) :
    (front ++ (values ++ back)).filter (· ∉ values) = front ++ back := by
  obtain ⟨_, distinctBehind, apartFront⟩ := List.nodup_append.mp distinct
  obtain ⟨_, _, apart⟩ := List.nodup_append.mp distinctBehind
  have frontKept : front.filter (· ∉ values) = front := by
    refine List.filter_eq_self.mpr fun value isFront => ?_
    exact decide_eq_true fun isValue =>
      apartFront value isFront value (List.mem_append_left _ isValue) rfl
  have backKept : back.filter (· ∉ values) = back := by
    refine List.filter_eq_self.mpr fun value isBack => ?_
    exact decide_eq_true fun isValue => apart value isValue value isBack rfl
  have noneLeft : values.filter (· ∉ values) = [] :=
    List.filter_eq_nil_iff.mpr fun value isValue => by simpa using isValue
  rw [List.filter_append, List.filter_append, frontKept, noneLeft, backKept, List.nil_append]

theorem eq_nil_of_append_singleton {lefts rights front : List α} {last : α}
    (same : lefts ++ last :: rights = front ++ [last]) (fresh : last ∉ front) : rights = [] := by
  rcases List.eq_nil_or_concat rights with rfl | ⟨more, final, rfl⟩
  · rfl
  · rw [List.concat_eq_append, ← List.cons_append, ← List.append_assoc] at same
    rw [← (List.append_inj' same rfl).1] at fresh
    exact absurd (by simp) fresh

/-! ### Changing one element -/

theorem modify_length_append (before after : List α) (value : α) (change : α → α) :
    (before ++ value :: after).modify before.length change =
      before ++ change value :: after := by
  simp [List.modify_eq_take_cons_drop]

theorem modify_append_cons {before after : List α} {value : α} {index : Nat}
    (atIndex : index = before.length) (change : α → α) :
    (before ++ value :: after).modify index change = before ++ change value :: after := by
  rw [atIndex, modify_length_append]

theorem extract_append_extract (front values back : List α) :
    (front ++ (values ++ back)).toArray.extract 0 front.length ++
        (front ++ (values ++ back)).toArray.extract (front.length + values.length) =
      (front ++ back).toArray := by
  have noFront : front.drop (front.length + values.length) = [] :=
    List.drop_eq_nil_of_le (Nat.le_add_right _ _)
  have enough : back.length ≤
      front.length + (values.length + back.length) - (front.length + values.length) := by omega
  rw [← Array.toList_inj]
  simp [List.drop_append, noFront, List.take_of_length_le enough]

/-! ### Lists that are related entry by entry -/

theorem exists_forall₂ {alike : α → α → Prop} {list : List α}
    (total : ∀ item ∈ list, ∃ other, alike item other) :
    ∃ others, List.Forall₂ alike list others := by
  induction list with
  | nil => exact ⟨[], .nil⟩
  | cons item rest ih =>
      rw [List.forall_mem_cons] at total
      rcases total with ⟨⟨other, first⟩, others⟩
      rcases ih others with ⟨rest', alike⟩
      exact ⟨other :: rest', .cons first alike⟩

theorem exists_split_of_forall₂ {relation : α → β → Prop} {lefts : List α}
    {rights : List β} (related : List.Forall₂ relation lefts rights) {left : α}
    (member : left ∈ lefts) :
    ∃ before right after, rights = before ++ right :: after ∧ relation left right := by
  induction related with
  | nil => cases member
  | @cons first firstRight _ others head _ ih =>
    rcases List.mem_cons.mp member with rfl | later
    · exact ⟨[], firstRight, others, rfl, head⟩
    · obtain ⟨before, right, after, rfl, isRelated⟩ := ih later
      exact ⟨firstRight :: before, right, after, rfl, isRelated⟩

/-- What is related to the elements of a list can be told apart as the elements can. -/
theorem exists_filter_of_forall₂ {relation : α → β → Prop} {lefts : List α}
    {rights : List β} (related : List.Forall₂ relation lefts rights) (holds : α → Bool) :
    ∃ yes no, List.Forall₂ relation (lefts.filter holds) yes ∧
      List.Forall₂ relation (lefts.filter (!holds ·)) no ∧ rights.Perm (yes ++ no) := by
  induction related with
  | nil => exact ⟨[], [], .nil, .nil, .nil⟩
  | @cons left right lefts rights head _ ih =>
    obtain ⟨yes, no, isYes, isNo, perm⟩ := ih
    cases isLeft : holds left with
    | true =>
      refine ⟨right :: yes, no, ?_, ?_, perm.cons right⟩
      · simpa [isLeft] using ⟨head, isYes⟩
      · simpa [isLeft] using isNo
    | false =>
      refine ⟨yes, right :: no, ?_, ?_, (perm.cons right).trans List.perm_middle.symm⟩
      · simpa [isLeft] using isYes
      · simpa [isLeft] using ⟨head, isNo⟩

/-! ### Lists without repetitions -/

end QueryLang
