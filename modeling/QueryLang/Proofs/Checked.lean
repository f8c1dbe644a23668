import Mathlib.Data.List.Forall2
import QueryLang.Fault

/-!
# Results that a fault can stop

How to take apart a composed operation that gave a result, and how to put one together.
-/

namespace QueryLang

namespace Checked

variable {α β : Type}

/-- A composed operation gives a result when its first part gives one from which the second gives
it. -/
theorem bind_eq_ok_iff {first : Checked α} {second : α → Checked β} {result : β} :
    first >>= second = .ok result ↔ ∃ value, first = .ok value ∧ second value = .ok result := by
  cases first with
  | error fault => simp [bind, Except.bind]
  | ok value => simp [bind, Except.bind]

theorem pure_eq_ok_iff {value result : α} :
    (pure value : Checked α) = .ok result ↔ value = result := by
  simp [pure, Except.pure]

@[simp]
theorem ok_bind (value : α) (second : α → Checked β) :
    ((.ok value : Checked α) >>= second) = second value :=
  rfl

theorem exists_ok_of_isOk {problem : Type} {operation : Except problem α}
    (isOk : operation.isOk = true) : ∃ result, operation = .ok result := by
  cases operation with
  | error problem => cases isOk
  | ok result => exact ⟨result, rfl⟩

theorem eq_ok_of_toOption {problem : Type} {operation : Except problem α} {result : α}
    (isResult : operation.toOption = some result) : operation = .ok result := by
  cases operation with
  | error problem => cases isResult
  | ok other =>
    cases isResult
    rfl

theorem exists_ok_of_any {problem : Type} {operation : Except problem α} {good : α → Bool}
    (isGood : operation.toOption.any good = true) :
    ∃ result, operation = .ok result ∧ good result = true := by
  cases operation with
  | error problem => cases isGood
  | ok result => exact ⟨result, rfl, isGood⟩

/-- An operation gives a result, and a good one. -/
def Gives (operation : Checked α) (good : α → Prop) : Prop :=
  ∃ result, operation = .ok result ∧ good result

namespace Gives

theorem ok {value : α} {good : α → Prop} (isGood : good value) : Gives (.ok value) good :=
  ⟨value, rfl, isGood⟩

theorem pure {value : α} {good : α → Prop} (isGood : good value) : Gives (pure value) good :=
  ⟨value, rfl, isGood⟩

theorem bind {first : Checked α} {second : α → Checked β} {middle : α → Prop} {good : β → Prop}
    (gives : first.Gives middle) (next : ∀ value, middle value → (second value).Gives good) :
    (first >>= second).Gives good := by
  rcases gives with ⟨value, rfl, isMiddle⟩
  exact next value isMiddle

theorem mono {operation : Checked α} {good better : α → Prop} (gives : operation.Gives good)
    (implies : ∀ value, good value → better value) : operation.Gives better := by
  rcases gives with ⟨value, rfl, isGood⟩
  exact ⟨value, rfl, implies value isGood⟩

/-- An operation on every element of a list gives the results in order. -/
theorem mapM {operation : α → Checked β} {good : α → β → Prop} {values : List α}
    (gives : ∀ value ∈ values, (operation value).Gives (good value)) :
    (values.mapM operation).Gives (List.Forall₂ good values) := by
  induction values with
  | nil => exact .pure .nil
  | cons value rest ih =>
      rw [List.mapM_cons]
      refine (gives value (List.mem_cons_self ..)).bind fun result isGood => ?_
      refine (ih fun value member => gives value (List.mem_cons_of_mem _ member)).bind ?_
      intro results areGood
      exact .pure (.cons isGood areGood)

theorem mapM_some {operation : α → Checked β} {good : β → Prop} {value : α}
    (gives : (operation value).Gives good) :
    ((some value).mapM operation).Gives fun found => ∃ result, found = some result ∧
      good result := by
  rcases gives with ⟨result, resultEq, isGood⟩
  refine ⟨some result, ?_, result, rfl, isGood⟩
  rw [Option.mapM_some, resultEq]
  rfl

end Gives

/-- Whatever result an operation gives is a good one. -/
def Yields (operation : Checked α) (good : α → Prop) : Prop :=
  ∀ result, operation = .ok result → good result

namespace Yields

variable {good better : β → Prop}

theorem error (fault : Fault) : Yields (.error fault) good := by
  rintro _ ⟨⟩

theorem pure {value : β} (isGood : good value) : Yields (pure value) good := by
  rintro _ ⟨⟩
  exact isGood

theorem bind {first : Checked α} {second : α → Checked β} {middle : α → Prop}
    (yields : first.Yields middle) (next : ∀ value, middle value → (second value).Yields good) :
    (first >>= second).Yields good := by
  intro result isResult
  rcases bind_eq_ok_iff.mp isResult with ⟨value, isValue, isSecond⟩
  exact next value (yields value isValue) result isSecond

/-- What the first part gives does not matter. -/
theorem next {first : Checked α} {second : α → Checked β}
    (yields : ∀ value, (second value).Yields good) : (first >>= second).Yields good :=
  bind (fun _ _ => trivial) fun value _ => yields value

theorem mono {operation : Checked β} (yields : operation.Yields good)
    (implies : ∀ value, good value → better value) : operation.Yields better :=
  fun result isResult => implies result (yields result isResult)

/-- An operation on every element of a list gives good results only. -/
theorem mapM {operation : α → Checked β} {values : List α}
    (yields : ∀ value, (operation value).Yields good) :
    (values.mapM operation).Yields fun results => ∀ result ∈ results, good result := by
  induction values with
  | nil => exact .pure (by simp)
  | cons value rest ih =>
      rw [List.mapM_cons]
      refine (yields value).bind fun result isGood => ?_
      refine ih.bind fun results areGood => .pure ?_
      exact List.forall_mem_cons.mpr ⟨isGood, areGood⟩

/-- An operation on what may be there gives a good result if it was there. -/
theorem mapM_option {operation : α → Checked β} {value : Option α}
    (yields : ∀ value, (operation value).Yields good) :
    (value.mapM operation).Yields fun found => ∀ result ∈ found, good result := by
  cases value with
  | none => exact .pure (by simp)
  | some value =>
      rw [Option.mapM_some]
      intro found isFound
      rcases bind_eq_ok_iff.mp isFound with ⟨result, isResult, foundEq⟩
      cases foundEq
      simpa using yields value result isResult

end Yields

end Checked

end QueryLang
