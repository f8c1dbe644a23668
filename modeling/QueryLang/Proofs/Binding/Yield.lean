import QueryLang.Proofs.Binding.Step

/-!
# What the results of binding are like

`Yields` says what holds of the result of a step, if the step gives one. It does not speak of the
types, the reports and the numbers that a step needs on its way.
-/

namespace QueryLang

namespace Binding

variable {α β : Type}

/-- Whatever result a step gives is a good one. -/
def Yields (step : Binding α) (good : α → Prop) : Prop :=
  ∀ state value after, ExceptT.run step state = (.ok value, after) → good value

theorem run_bind_of_error {first : Binding α} {second : α → Binding β} {state after : BindingState}
    {fault : Fault} (ran : ExceptT.run first state = (.error fault, after)) :
    ExceptT.run (first >>= second) state = (.error fault, after) := by
  simp only [ExceptT.run_bind]
  show (StateT.bind _ _) state = _
  unfold StateT.bind
  rw [ran]
  rfl

theorem run_bind_eq_ok {first : Binding α} {second : α → Binding β} {state after : BindingState}
    {value : β} (ran : ExceptT.run (first >>= second) state = (.ok value, after)) :
    ∃ middle between, ExceptT.run first state = (.ok middle, between) ∧
      ExceptT.run (second middle) between = (.ok value, after) := by
  cases firstEq : ExceptT.run first state with
  | mk result between =>
      cases result with
      | error fault =>
          rw [run_bind_of_error firstEq] at ran
          cases ran
      | ok middle =>
          rw [run_bind_of_ok firstEq] at ran
          exact ⟨middle, between, rfl, ran⟩

/-- What a step whose reports are collected apart has done. -/
theorem run_collecting_eq_ok {step : Binding α} {state last : BindingState}
    {result : α × Diagnostics}
    (ran : ExceptT.run (collecting step) state = (.ok result, last)) :
    ∃ value after, ExceptT.run step { state with diagnostics := [] } = (.ok value, after) ∧
      result = (value, after.diagnostics) ∧
      last = { after with diagnostics := state.diagnostics ++ after.diagnostics } := by
  have ranStep : ExceptT.run (do
      let value ← step
      let reported := (← get).diagnostics
      modify fun after => { after with diagnostics := state.diagnostics ++ reported }
      return (value, reported) : Binding (α × Diagnostics))
      { state with diagnostics := [] } = (.ok result, last) := ran
  rcases run_bind_eq_ok ranStep with ⟨value, after, ranFirst, ranRest⟩
  cases ranRest
  exact ⟨value, after, ranFirst, rfl, rfl⟩

namespace Yields

variable {good : β → Prop} {middle : α → Prop}

theorem anyResult {step : Binding α} : step.Yields fun _ => True :=
  fun _ _ _ _ => trivial

theorem pure {value : β} (isGood : good value) : Yields (pure value) good := by
  intro state result after ran
  cases ran
  exact isGood

theorem bind {first : Binding α} {second : α → Binding β} (yields : first.Yields middle)
    (next : ∀ value, middle value → (second value).Yields good) :
    (first >>= second).Yields good := by
  intro state result after ran
  rcases run_bind_eq_ok ran with ⟨value, between, ranFirst, ranSecond⟩
  exact next value (yields state value between ranFirst) between result after ranSecond

/-- What the first step gives does not matter. -/
theorem next {first : Binding α} {second : α → Binding β}
    (yields : ∀ value, (second value).Yields good) : (first >>= second).Yields good :=
  bind anyResult fun value _ => yields value

theorem bind_lift {operation : Checked α} {second : α → Binding β}
    (next : ∀ value, operation = .ok value → (second value).Yields good) :
    ((liftM operation : Binding α) >>= second).Yields good := by
  cases operation with
  | error fault =>
      intro state result after ran
      cases ran
  | ok value => exact next value rfl

theorem mono {step : Binding α} {better : α → Prop} (yields : step.Yields middle)
    (implies : ∀ value, middle value → better value) : step.Yields better :=
  fun state value after ran => implies value (yields state value after ran)

theorem and {step : Binding α} {better : α → Prop} (yields : step.Yields middle)
    (yieldsBetter : step.Yields better) :
    step.Yields fun value => middle value ∧ better value :=
  fun state value after ran => ⟨yields state value after ran, yieldsBetter state value after ran⟩

theorem collecting {step : Binding α} (yields : step.Yields middle) :
    (Binding.collecting step).Yields fun result => middle result.1 := by
  unfold Binding.collecting
  refine Yields.next fun before => ?_
  refine Yields.next fun _ => ?_
  refine yields.bind fun value isGood => ?_
  refine Yields.next fun reported => ?_
  refine Yields.next fun _ => ?_
  exact .pure isGood

end Yields

end Binding

end QueryLang
