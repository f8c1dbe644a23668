import QueryLang.Proofs.Binding.Yield
import QueryLang.Proofs.Diagnostic.Sorting
import QueryLang.Proofs.Lookup.Matching
import QueryLang.Proofs.Type.Matching

/-!
# Steps that agree

A file can be bound from states that differ: in the types that other files added, and in the numbers
that new symbols get. `Binding.Agree` is what is proved about two such runs: as long as both give a
result, the same is reported in both, and the results are alike for the types that match by then and
the numbers that were given out by then. What is reported always has one of the places that the
file has.
-/

namespace QueryLang

/-- The binders differ in the numbers of symbols and in the indices of types only. -/
structure Binder.Alike (types : TypeId → TypeId → Prop) (ids : Nat → Nat → Prop)
    (binder other : Binder) : Prop where
  scopes : List.Forall₂ (Scope.Alike types ids) binder.scopes other.scopes
  container : binder.container.Alike types ids other.container
  isCancelled : binder.isCancelled = other.isCancelled

/-- The states have aligned types and the same reports, all of them at such places, and new symbols
get numbers that belong together. -/
structure BindingState.Alike (objects : TypeId → TypeId → Prop) (ids : Nat → Nat → Prop)
    (places : Location → Prop) (state other : BindingState) : Prop where
  types : state.types.Aligned other.types objects
  unique : Relator.BiUnique ids
  fresh : ∀ count, ids (state.nextSymbol + count) (other.nextSymbol + count)
  diagnostics : state.diagnostics = other.diagnostics
  placed : ∀ diagnostic ∈ state.diagnostics, diagnostic.Placed places

/-- The types of one state that are types of the other. -/
abbrev BindingState.Matches (objects : TypeId → TypeId → Prop) (state other : BindingState) :
    TypeId → TypeId → Prop :=
  state.types.Matches other.types objects

/-- Numbers that belong together and are below limits. -/
structure NumbersBelow (ids : Nat → Nat → Prop) (limit otherLimit number other : Nat) : Prop where
  belong : ids number other
  isBelow : number < limit
  otherIsBelow : other < otherLimit

/-- Numbers that were given out have one partner, like all numbers. -/
theorem NumbersBelow.biUnique {ids : Nat → Nat → Prop} {limit otherLimit : Nat}
    (unique : Relator.BiUnique ids) : Relator.BiUnique (NumbersBelow ids limit otherLimit) :=
  ⟨fun _ _ _ first second => unique.1 first.belong second.belong,
    fun _ _ _ first second => unique.2 first.belong second.belong⟩

/-- The numbers of symbols that belong together, as far as both states gave them out. -/
abbrev BindingState.Numbers (ids : Nat → Nat → Prop) (state other : BindingState) :
    Nat → Nat → Prop :=
  NumbersBelow ids state.nextSymbol other.nextSymbol

/-- The state comes after another one: it has the types of that state, and its new symbols get
numbers that are no smaller. -/
structure BindingState.Precedes (state after : BindingState) : Prop where
  types : state.types.Extends after.types
  nextSymbol : state.nextSymbol ≤ after.nextSymbol

theorem BindingState.Precedes.refl (state : BindingState) : state.Precedes state :=
  ⟨.refl _, Nat.le_refl _⟩

theorem BindingState.Precedes.trans {state after last : BindingState}
    (first : state.Precedes after) (second : after.Precedes last) : state.Precedes last :=
  ⟨first.types.trans second.types, Nat.le_trans first.nextSymbol second.nextSymbol⟩

/-- Two states come after two others. -/
structure BindingState.Follow (state other after otherAfter : BindingState) : Prop where
  left : state.Precedes after
  right : other.Precedes otherAfter

namespace BindingState.Follow

variable {state other after otherAfter last otherLast : BindingState}

theorem refl (state other : BindingState) : Follow state other state other :=
  ⟨.refl _, .refl _⟩

theorem trans (first : Follow state other after otherAfter)
    (second : Follow after otherAfter last otherLast) : Follow state other last otherLast :=
  ⟨first.left.trans second.left, first.right.trans second.right⟩

/-- Types that matched still match. -/
theorem matches_mono (follow : Follow state other after otherAfter)
    {objects : TypeId → TypeId → Prop} (type otherType : TypeId)
    (matching : state.Matches objects other type otherType) :
    after.Matches objects otherAfter type otherType :=
  matching.mono follow.left.types follow.right.types

/-- Numbers that were given out still are. -/
theorem numbers_mono (follow : Follow state other after otherAfter) {ids : Nat → Nat → Prop}
    (number otherNumber : Nat) (numbers : state.Numbers ids other number otherNumber) :
    after.Numbers ids otherAfter number otherNumber :=
  ⟨numbers.belong, Nat.lt_of_lt_of_le numbers.isBelow follow.left.nextSymbol,
    Nat.lt_of_lt_of_le numbers.otherIsBelow follow.right.nextSymbol⟩

end BindingState.Follow

/-- States that are alike stay so when their reports are set aside. -/
theorem BindingState.Alike.silent {objects : TypeId → TypeId → Prop} {ids : Nat → Nat → Prop}
    {places : Location → Prop} {state other : BindingState}
    (alike : state.Alike objects ids places other) :
    Alike objects ids places { state with diagnostics := [] } { other with diagnostics := [] } :=
  ⟨alike.types, alike.unique, alike.fresh, rfl, List.forall_mem_nil _⟩

theorem Binder.Alike.mono {types weaker : TypeId → TypeId → Prop}
    {ids weakerIds : Nat → Nat → Prop} {binder other : Binder}
    (alike : binder.Alike types ids other)
    (implies : ∀ type other, types type other → weaker type other)
    (impliesIds : ∀ number other, ids number other → weakerIds number other) :
    binder.Alike weaker weakerIds other :=
  ⟨alike.scopes.imp fun _ _ => Scope.Alike.mono implies impliesIds,
    alike.container.mono implies impliesIds, alike.isCancelled⟩

namespace Binding

variable {α β γ δ : Type}

variable {objects : TypeId → TypeId → Prop} {ids : Nat → Nat → Prop}
  {places : Location → Prop} {state other : BindingState}

/-- If both steps give a result, they lead to states that are alike, and the results are what they
should be for the types that match by then and the numbers that were given out by then. -/
def Agree (objects : TypeId → TypeId → Prop) (ids : Nat → Nat → Prop) (places : Location → Prop)
    (left : Binding α) (right : Binding β) (state other : BindingState)
    (good : (TypeId → TypeId → Prop) → (Nat → Nat → Prop) → α → β → Prop) : Prop :=
  ∀ value after otherValue otherAfter, ExceptT.run left state = (.ok value, after) →
    ExceptT.run right other = (.ok otherValue, otherAfter) →
      after.Alike objects ids places otherAfter ∧ state.Follow other after otherAfter ∧
        good (after.Matches objects otherAfter) (after.Numbers ids otherAfter) value otherValue

namespace Agree

variable {good : (TypeId → TypeId → Prop) → (Nat → Nat → Prop) → γ → δ → Prop}
  {middle : (TypeId → TypeId → Prop) → (Nat → Nat → Prop) → α → β → Prop}

theorem pure (alike : state.Alike objects ids places other) {value : γ} {otherValue : δ}
    (isGood : good (state.Matches objects other) (state.Numbers ids other) value otherValue) :
    Agree objects ids places (pure value) (pure otherValue) state other good := by
  intro result after otherResult otherAfter ran otherRan
  cases ran
  cases otherRan
  exact ⟨alike, .refl _ _, isGood⟩

theorem bind {left : Binding α} {right : Binding β} {next : α → Binding γ}
    {otherNext : β → Binding δ} (agree : Agree objects ids places left right state other middle)
    (rest : ∀ value otherValue after otherAfter, after.Alike objects ids places otherAfter →
      state.Follow other after otherAfter →
      middle (after.Matches objects otherAfter) (after.Numbers ids otherAfter) value otherValue →
        Agree objects ids places (next value) (otherNext otherValue) after otherAfter good) :
    Agree objects ids places (left >>= next) (right >>= otherNext) state other good := by
  intro result last otherResult otherLast ran otherRan
  rcases run_bind_eq_ok ran with ⟨value, after, ranFirst, ranNext⟩
  rcases run_bind_eq_ok otherRan with ⟨otherValue, otherAfter, otherFirst, otherSecond⟩
  rcases agree value after otherValue otherAfter ranFirst otherFirst with ⟨alike, follow, isMiddle⟩
  rcases rest value otherValue after otherAfter alike follow isMiddle result last otherResult
    otherLast ranNext otherSecond with ⟨lastAlike, further, isGood⟩
  exact ⟨lastAlike, follow.trans further, isGood⟩

/-- Operations that look at the state only. -/
theorem bind_lift {operation : Checked α} {otherOperation : Checked β} {next : α → Binding γ}
    {otherNext : β → Binding δ}
    (rest : ∀ value otherValue, operation = .ok value → otherOperation = .ok otherValue →
      Agree objects ids places (next value) (otherNext otherValue) state other good) :
    Agree objects ids places ((liftM operation : Binding α) >>= next)
      ((liftM otherOperation : Binding β) >>= otherNext) state other good := by
  cases operation with
  | error fault =>
      intro result after otherResult otherAfter ran otherRan
      cases ran
  | ok value =>
      cases otherOperation with
      | error fault =>
          intro result after otherResult otherAfter ran otherRan
          cases otherRan
      | ok otherValue => exact rest value otherValue rfl rfl

theorem bind_get {next : BindingState → Binding γ} {otherNext : BindingState → Binding δ}
    (agree : Agree objects ids places (next state) (otherNext other) state other good) :
    Agree objects ids places ((get : Binding BindingState) >>= next)
      ((get : Binding BindingState) >>= otherNext) state other good :=
  agree

theorem lift {operation : Checked γ} {otherOperation : Checked δ}
    (alike : state.Alike objects ids places other)
    (isGood : ∀ value otherValue, operation = .ok value → otherOperation = .ok otherValue →
      good (state.Matches objects other) (state.Numbers ids other) value otherValue) :
    Agree objects ids places (liftM operation : Binding γ) (liftM otherOperation : Binding δ) state
      other good := by
  intro value after otherValue otherAfter ran otherRan
  cases operation with
  | error fault => cases ran
  | ok own =>
      cases otherOperation with
      | error fault => cases otherRan
      | ok otherOwn =>
          cases ran
          cases otherRan
          exact ⟨alike, .refl _ _, isGood _ _ rfl rfl⟩

theorem mono {left : Binding γ} {right : Binding δ}
    {better : (TypeId → TypeId → Prop) → (Nat → Nat → Prop) → γ → δ → Prop}
    (agree : Agree objects ids places left right state other good)
    (implies : ∀ types numbers value otherValue, good types numbers value otherValue →
      better types numbers value otherValue) :
    Agree objects ids places left right state other better := by
  intro value after otherValue otherAfter ran otherRan
  rcases agree value after otherValue otherAfter ran otherRan with ⟨alike, follow, isGood⟩
  exact ⟨alike, follow, implies _ _ _ _ isGood⟩

end Agree

/-! ### The steps there are -/

variable (alike : state.Alike objects ids places other)

include alike

theorem report_agrees {location : Location} (isPlace : places location)
    (message : DiagnosticMessage) (arguments : List String) :
    Agree objects ids places (report location message arguments)
      (report location message arguments) state other fun _ _ _ _ => True := by
  intro value after otherValue otherAfter ran otherRan
  cases ran
  cases otherRan
  refine ⟨⟨alike.types, alike.unique, alike.fresh, ?_, ?_⟩,
    ⟨⟨.refl _, Nat.le_refl _⟩, ⟨.refl _, Nat.le_refl _⟩⟩, trivial⟩
  · dsimp only
    rw [alike.diagnostics]
  · refine List.forall_mem_append.mpr ⟨alike.placed, List.forall_mem_singleton.mpr ?_⟩
    exact ⟨location, rfl, isPlace⟩

/-- What may be reported on the way is reported on both sides or on neither. -/
theorem report_if_agrees {condition : Prop} [Decidable condition] {location : Location}
    (isPlace : places location) {message : DiagnosticMessage} {arguments : List String}
    {next : PUnit → Binding γ} {otherNext : PUnit → Binding δ}
    {good : (TypeId → TypeId → Prop) → (Nat → Nat → Prop) → γ → δ → Prop}
    (rest : ∀ after otherAfter, after.Alike objects ids places otherAfter →
      state.Follow other after otherAfter →
        Agree objects ids places (next ⟨⟩) (otherNext ⟨⟩) after otherAfter good) :
    Agree objects ids places
      (if condition then report location message arguments >>= next else next ⟨⟩)
      (if condition then report location message arguments >>= otherNext else otherNext ⟨⟩)
      state other good := by
  split
  · exact (report_agrees alike isPlace _ _).bind fun _ _ after otherAfter reported follow _ =>
      rest after otherAfter reported follow
  · exact rest state other alike (.refl state other)

theorem freshId_agrees :
    Agree objects ids places freshId freshId state other fun _ numbers id otherId =>
      numbers id otherId := by
  intro value after otherValue otherAfter ran otherRan
  cases ran
  cases otherRan
  refine ⟨⟨alike.types, alike.unique, fun count => ?_, alike.diagnostics, alike.placed⟩,
    ⟨⟨.refl _, Nat.le_succ _⟩, ⟨.refl _, Nat.le_succ _⟩⟩,
    ⟨alike.fresh 0, Nat.lt_succ_self _, Nat.lt_succ_self _⟩⟩
  have further := alike.fresh (count + 1)
  rwa [Nat.add_comm count 1, ← Nat.add_assoc, ← Nat.add_assoc] at further

theorem sequenceType_agrees {element otherElement : TypeId}
    (matching : state.Matches objects other element otherElement) :
    Agree objects ids places (sequenceType element) (sequenceType otherElement) state other
      fun types _ type otherType => types type otherType := by
  intro value after otherValue otherAfter ran otherRan
  cases ran
  cases otherRan
  rcases alike.types.lt_size matching with ⟨inLeft, inRight⟩
  rcases alike.types.sequence matching with ⟨aligned, sequences⟩
  exact ⟨⟨aligned, alike.unique, alike.fresh, alike.diagnostics, alike.placed⟩,
    ⟨⟨(TypeTable.sequence_spec alike.types.leftSound inLeft).1, Nat.le_refl _⟩,
      ⟨(TypeTable.sequence_spec alike.types.rightSound inRight).1, Nat.le_refl _⟩⟩, sequences⟩

theorem groupingType_agrees {key otherKey element otherElement : TypeId}
    (keys : state.Matches objects other key otherKey)
    (matching : state.Matches objects other element otherElement) :
    Agree objects ids places (groupingType key element) (groupingType otherKey otherElement) state
      other fun types _ type otherType => types type otherType := by
  intro value after otherValue otherAfter ran otherRan
  cases ran
  cases otherRan
  rcases alike.types.lt_size keys with ⟨keyInLeft, keyInRight⟩
  rcases alike.types.lt_size matching with ⟨inLeft, inRight⟩
  rcases alike.types.grouping keys matching with ⟨aligned, groupings⟩
  exact ⟨⟨aligned, alike.unique, alike.fresh, alike.diagnostics, alike.placed⟩,
    ⟨⟨(TypeTable.grouping_spec alike.types.leftSound keyInLeft inLeft).1, Nat.le_refl _⟩,
      ⟨(TypeTable.grouping_spec alike.types.rightSound keyInRight inRight).1, Nat.le_refl _⟩⟩,
    groupings⟩

theorem displayType_agrees {type otherType : TypeId}
    (matching : state.Matches objects other type otherType) :
    Agree objects ids places (displayType type) (displayType otherType) state other
      fun _ _ text otherText => text = otherText := by
  refine Agree.bind_get (Agree.lift alike ?_)
  exact fun _ _ isText isOther => alike.types.display_eq matching isText isOther

theorem element?_agrees {type otherType : TypeId}
    (matching : state.Matches objects other type otherType) :
    Agree objects ids places (do (← get).types.element? type : Binding (Option TypeId))
      (do (← get).types.element? otherType) state other fun types _ => Option.Rel types := by
  refine Agree.bind_get (Agree.lift alike ?_)
  exact fun _ _ isFound isOther => alike.types.element?_alike matching isFound isOther

theorem member?_agrees {type otherType : TypeId}
    (matching : state.Matches objects other type otherType) (name : String) :
    Agree objects ids places (member? type name) (member? otherType name) state other
      fun types _ found otherFound => Option.Rel (Member.Alike types) found otherFound := by
  refine Agree.bind_get (Agree.lift alike ?_)
  exact fun _ _ isFound isOther => alike.types.member?_alike matching isFound isOther

/-- Reports that are collected apart are the same as well. -/
theorem collecting_agrees {left : Binding α} {right : Binding β}
    {good : (TypeId → TypeId → Prop) → (Nat → Nat → Prop) → α → β → Prop}
    (agree : Agree objects ids places left right { state with diagnostics := [] }
      { other with diagnostics := [] } good) :
    Agree objects ids places (collecting left) (collecting right) state other
      fun types numbers result otherResult => good types numbers result.1 otherResult.1 ∧
        result.2 = otherResult.2 ∧ ∀ diagnostic ∈ result.2, diagnostic.Placed places := by
  intro result last otherResult otherLast ran otherRan
  rcases run_collecting_eq_ok ran with ⟨value, after, ranStep, rfl, rfl⟩
  rcases run_collecting_eq_ok otherRan with ⟨otherValue, otherAfter, otherStep, rfl, rfl⟩
  rcases agree value after otherValue otherAfter ranStep otherStep with
    ⟨afterAlike, follow, isGood⟩
  refine ⟨⟨afterAlike.types, afterAlike.unique, afterAlike.fresh, ?_, ?_⟩,
    ⟨⟨follow.left.types, follow.left.nextSymbol⟩, ⟨follow.right.types, follow.right.nextSymbol⟩⟩,
    isGood, afterAlike.diagnostics, afterAlike.placed⟩
  · dsimp only
    rw [alike.diagnostics, afterAlike.diagnostics]
  · exact List.forall_mem_append.mpr ⟨alike.placed, afterAlike.placed⟩

end Binding

end QueryLang
