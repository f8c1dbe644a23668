import QueryLang.Halving
import QueryLang.Proofs.Checked

/-!
# What halving finds

Halving finds an index of its range or the one behind it. Where the condition holds up to some index
and fails from there on, it finds this index.
-/

namespace QueryLang

/-- Halving finds an index in the range, or the one after it. -/
theorem partitionIndexFrom_gives {before : Nat → Checked Bool} {steps base size bound : Nat}
    (answers : ∀ id < bound, ∃ answer, before id = .ok answer) (nonempty : 0 < size)
    (within : base + size ≤ bound) :
    (partitionIndexFrom before steps base size).Gives (· ≤ bound) := by
  induction steps generalizing base size with
  | zero => exact .ok (by omega)
  | succ steps ih =>
      rw [partitionIndexFrom]
      split
      · rcases answers (base + size / 2) (by omega) with ⟨answer, answerEq⟩
        simp only [answerEq, Checked.ok_bind]
        split
        · exact ih (by omega) (by omega)
        · exact ih (by omega) (by omega)
      · rcases answers base (by omega) with ⟨answer, answerEq⟩
        simp only [answerEq, Checked.ok_bind]
        split
        · exact .pure (by omega)
        · exact .pure (by omega)

/-- Halving finds where a condition stops to hold that holds of all indices before some index and of
none from there on. -/
theorem partitionIndexFrom_eq {before : Nat → Checked Bool} {holds : Nat → Bool} {bound : Nat}
    (answers : ∀ id < bound, before id = .ok (holds id))
    (downward : ∀ id later, id ≤ later → later < bound → holds later = true → holds id = true)
    {steps base size : Nat} (nonempty : 0 < size) (enough : size ≤ steps)
    (within : base + size ≤ bound) (holdBefore : ∀ id < base, holds id = true)
    (noneAfter : ∀ id < bound, base + size ≤ id → holds id = false) :
    ∃ index ≤ bound, partitionIndexFrom before steps base size = .ok index ∧
      ∀ id < bound, holds id = true ↔ id < index := by
  induction steps generalizing base size with
  | zero => omega
  | succ steps ih =>
      rw [partitionIndexFrom]
      split
      · next isLarge =>
          have middleInRange : base + size / 2 < bound := by omega
          simp only [answers _ middleInRange, Checked.ok_bind]
          split
          · next middleHolds =>
              refine ih (by omega) (by omega) (by omega) (fun id isBefore => ?_) ?_
              · exact downward id _ (Nat.le_of_lt isBefore) middleInRange middleHolds
              · exact fun id inRange isAfter => noneAfter id inRange (by omega)
          · next middleFails =>
              refine ih (by omega) (by omega) (by omega) holdBefore fun id inRange isAfter => ?_
              refine Bool.eq_false_iff.mpr fun idHolds => middleFails ?_
              exact downward _ id (by omega) inRange idHolds
      · have isLast : base + 1 = base + size := by omega
        simp only [answers base (by omega), Checked.ok_bind]
        cases baseHolds : holds base with
        | true =>
            refine ⟨base + 1, by omega, rfl, fun id inRange => ⟨?_, fun isBefore => ?_⟩⟩
            · intro idHolds
              by_contra isAfter
              rw [noneAfter id inRange (by omega)] at idHolds
              cases idHolds
            · rcases Nat.lt_succ_iff_lt_or_eq.mp isBefore with isBefore | rfl
              · exact holdBefore id isBefore
              · exact baseHolds
        | false =>
            refine ⟨base, by omega, rfl, fun id inRange => ⟨fun idHolds => ?_, holdBefore id⟩⟩
            by_contra isAfter
            rw [downward base id (by omega) inRange idHolds] at baseHolds
            cases baseHolds

/-- Halving the indices below a size finds how many of them come before the boundary. -/
theorem partitionIndex_eq {before : Nat → Checked Bool} {holds : Nat → Bool} {size : Nat}
    (answers : ∀ id < size, before id = .ok (holds id))
    (downward : ∀ id later, id ≤ later → later < size → holds later = true → holds id = true)
    (nonempty : 0 < size) :
    ∃ index ≤ size, partitionIndex before size = .ok index ∧
      ∀ id < size, holds id = true ↔ id < index :=
  partitionIndexFrom_eq answers downward nonempty (Nat.le_refl _) (by omega)
    (fun id isBefore => absurd isBefore (Nat.not_lt_zero id)) (fun id _ _ => by omega)

end QueryLang
