import QueryLang.Binding.Basic
import QueryLang.Proofs.Type.Table

/-!
# Steps of binding

`Keeps` is what is proved about a step: it gives a result, reports only after what was reported
before, adds only structural types, and its result is good. How good a result is depends on
whether all is `calm`. An error that a step reports ends the calm, so a result that is good only
in the calm needs no excuse other than the error that was reported.
-/

namespace QueryLang

/-- How a table and the calm may change. -/
structure TypeTable.Advance (table : TypeTable) (calm : Prop) (later : TypeTable)
    (calmer : Prop) : Prop where
  implies : calmer → calm
  grows : table.Extends later
  sound : later.Sound

namespace TypeTable.Advance

variable {table later last : TypeTable} {calm calmer calmest : Prop} {type : Nat}

theorem refl (sound : table.Sound) : table.Advance calm table calm :=
  ⟨id, .refl table, sound⟩

theorem trans (first : table.Advance calm later calmer)
    (second : later.Advance calmer last calmest) : table.Advance calm last calmest :=
  ⟨fun isCalm => first.implies (second.implies isCalm), first.grows.trans second.grows,
    second.sound⟩

theorem has (advance : table.Advance calm later calmer) (has : table.Has calm type) :
    later.Has calmer type :=
  (advance.grows.has has).mono advance.implies

theorem ready (advance : table.Advance calm later calmer) (ready : table.Ready calm) :
    later.Ready calmer :=
  (advance.grows.ready ready advance.sound).mono advance.implies

end TypeTable.Advance

namespace Binding

variable {α β : Type} {state : BindingState} {calm : Prop}

theorem run_bind_of_ok {first : Binding α} {second : α → Binding β} {value : α}
    {after : BindingState} (ran : ExceptT.run first state = (.ok value, after)) :
    ExceptT.run (first >>= second) state = ExceptT.run (second value) after := by
  simp only [ExceptT.run_bind]
  show (StateT.bind _ _) state = _
  unfold StateT.bind
  rw [ran]
  rfl

theorem run_collecting_of_ok {step : Binding α} {value : α} {after : BindingState}
    (state : BindingState)
    (ran : ExceptT.run step { state with diagnostics := [] } = (.ok value, after)) :
    ExceptT.run (collecting step) state = (.ok (value, after.diagnostics),
      { after with diagnostics := state.diagnostics ++ after.diagnostics }) := by
  have ranStep : ExceptT.run (collecting step) state =
      ExceptT.run (do
        let value ← step
        let reported := (← get).diagnostics
        modify fun after => { after with diagnostics := state.diagnostics ++ reported }
        return (value, reported) : Binding (α × Diagnostics))
        { state with diagnostics := [] } := rfl
  rw [ranStep, run_bind_of_ok ran]
  rfl

/-- A step gives a good result, and what it changes can be relied on. -/
def Keeps (step : Binding α) (state : BindingState) (calm : Prop)
    (good : Prop → TypeTable → α → Prop) : Prop :=
  ∃ value after reported, ExceptT.run step state = (.ok value, after) ∧
    after.diagnostics = state.diagnostics ++ reported ∧
    state.types.Advance calm after.types (calm ∧ Diagnostics.hasErrors reported = false) ∧
    good (calm ∧ Diagnostics.hasErrors reported = false) after.types value

theorem noErrors_append (left right : Diagnostics) :
    Diagnostics.hasErrors (left ++ right) = false ↔
      Diagnostics.hasErrors left = false ∧ Diagnostics.hasErrors right = false := by
  simp [Diagnostics.hasErrors]

namespace Keeps

variable {good : Prop → TypeTable → β → Prop} {middle : Prop → TypeTable → α → Prop}

/-- A step that changes nothing keeps the calm. -/
theorem unchanged {step : Binding β} {value : β}
    (ran : ExceptT.run step state = (.ok value, state)) (sound : state.types.Sound)
    (isGood : good calm state.types value) : step.Keeps state calm good := by
  have sameCalm : (calm ∧ Diagnostics.hasErrors [] = false) = calm := by
    simp [Diagnostics.hasErrors]
  refine ⟨value, state, [], ran, by simp, ?_, ?_⟩
  · rw [sameCalm]
    exact .refl sound
  · rw [sameCalm]
    exact isGood

theorem pure {value : β} (sound : state.types.Sound) (isGood : good calm state.types value) :
    Keeps (pure value) state calm good :=
  unchanged rfl sound isGood

theorem bind {first : Binding α} {second : α → Binding β} (keeps : first.Keeps state calm middle)
    (next : ∀ value (after : BindingState) calmer,
      state.types.Advance calm after.types calmer → middle calmer after.types value →
        (second value).Keeps after calmer good) :
    (first >>= second).Keeps state calm good := by
  rcases keeps with ⟨value, between, firstReported, ran, reports, advance, isMiddle⟩
  rcases next value between _ advance isMiddle with
    ⟨result, after, reported, ranNext, reportsNext, advanceNext, isGood⟩
  have sameCalm : (calm ∧ Diagnostics.hasErrors (firstReported ++ reported) = false) =
      ((calm ∧ Diagnostics.hasErrors firstReported = false) ∧
        Diagnostics.hasErrors reported = false) := by
    rw [noErrors_append, and_assoc]
  refine ⟨result, after, firstReported ++ reported, ?_, ?_, ?_, ?_⟩
  · rw [run_bind_of_ok ran, ranNext]
  · rw [reportsNext, reports, List.append_assoc]
  · rw [sameCalm]
    exact advance.trans advanceNext
  · rw [sameCalm]
    exact isGood

theorem bind_lift {operation : Checked α} {second : α → Binding β} {result : α → Prop}
    (gives : operation.Gives result)
    (next : ∀ value, result value → (second value).Keeps state calm good) :
    ((liftM operation : Binding α) >>= second).Keeps state calm good := by
  rcases gives with ⟨value, rfl, isResult⟩
  exact next value isResult

theorem bind_get {second : BindingState → Binding β} (next : (second state).Keeps state calm good) :
    ((get : Binding BindingState) >>= second).Keeps state calm good :=
  next

theorem mono {step : Binding α} {better : Prop → TypeTable → α → Prop}
    (keeps : step.Keeps state calm middle)
    (implies : ∀ calmer table value, state.types.Advance calm table calmer →
      middle calmer table value → better calmer table value) :
    step.Keeps state calm better := by
  rcases keeps with ⟨value, after, reported, ran, reports, advance, isMiddle⟩
  exact ⟨value, after, reported, ran, reports, advance, implies _ _ _ advance isMiddle⟩

/-- Reports that are collected apart are reported all the same. -/
theorem collecting {step : Binding α}
    (keeps : step.Keeps { state with diagnostics := [] } calm middle) :
    (Binding.collecting step).Keeps state calm fun calmer table result =>
      middle calmer table result.1 := by
  rcases keeps with ⟨value, after, reported, ran, reports, advance, isMiddle⟩
  rw [List.nil_append] at reports
  refine ⟨_, _, reported, run_collecting_of_ok state ran, ?_, advance, isMiddle⟩
  rw [reports]

end Keeps

/-! ### The steps there are -/

/-- An error that is reported ends the calm. -/
theorem report_keeps {location : Location} {message : DiagnosticMessage}
    {arguments : List String} (sound : state.types.Sound) (isError : message.category = .error) :
    (report location message arguments).Keeps state calm fun calmer _ _ => ¬calmer := by
  refine ⟨(), _, [.located location message arguments], rfl, rfl, ?_, ?_⟩
  · exact ⟨And.left, .refl _, sound⟩
  · simp [Diagnostics.hasErrors, Diagnostic.isError, Diagnostic.located, Diagnostic.ofMessage,
      isError]

theorem report_advances {location : Location} {message : DiagnosticMessage}
    {arguments : List String} (sound : state.types.Sound) :
    (report location message arguments).Keeps state calm fun _ _ _ => True :=
  ⟨(), _, [.located location message arguments], rfl, rfl, ⟨And.left, .refl _, sound⟩, trivial⟩

theorem freshId_keeps (sound : state.types.Sound) :
    freshId.Keeps state calm fun _ _ _ => True :=
  ⟨_, _, [], rfl, (List.append_nil _).symm, ⟨And.left, .refl _, sound⟩, trivial⟩

theorem sequenceType_keeps {element : Nat} (sound : state.types.Sound)
    (has : state.types.Has calm element) :
    (sequenceType element).Keeps state calm fun calmer table type => table.Has calmer type := by
  rcases TypeTable.sequence_spec sound has.1 with ⟨grows, isSound, _⟩
  refine ⟨_, _, [], rfl, (List.append_nil _).symm, ⟨And.left, grows, isSound⟩, ?_⟩
  exact (TypeTable.sequence_has sound has).mono And.left

theorem groupingType_keeps {key element : Nat} (sound : state.types.Sound)
    (keyHas : state.types.Has calm key) (has : state.types.Has calm element) :
    (groupingType key element).Keeps state calm fun calmer table type =>
      table.Has calmer type := by
  rcases TypeTable.grouping_spec sound keyHas.1 has.1 with ⟨grows, isSound, _⟩
  refine ⟨_, _, [], rfl, (List.append_nil _).symm, ⟨And.left, grows, isSound⟩, ?_⟩
  exact (TypeTable.grouping_has sound keyHas has).mono And.left

theorem displayType_keeps {type : Nat} (sound : state.types.Sound)
    (inRange : type < state.types.size) :
    (displayType type).Keeps state calm fun _ _ _ => True := by
  rcases sound.display_gives inRange with ⟨text, textEq, _⟩
  have ran : ExceptT.run (displayType type) state = (.ok text, state) := by
    rw [displayType]
    show (state.types.display type, state) = _
    rw [textEq]
  exact Keeps.unchanged ran sound trivial

theorem member?_keeps {type : Nat} (ready : state.types.Ready calm)
    (has : state.types.Has calm type) (name : String) :
    (member? type name).Keeps state calm fun calmer table found =>
      ∀ member ∈ found, table.Has calmer member.type := by
  rcases ready.member?_gives has name with ⟨found, foundEq, isGood⟩
  refine Keeps.unchanged ?_ ready.sound isGood
  rw [member?]
  show (state.types.member? type name, state) = _
  rw [foundEq]

end Binding

end QueryLang
