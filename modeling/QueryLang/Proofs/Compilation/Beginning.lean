import QueryLang.Proofs.Binding.StatementAgreeing
import QueryLang.Proofs.Compilation.SetUp
import QueryLang.Proofs.Syntax.Reporting

/-!
# What files begin with

Every file sees the same types and globals, whatever other files were bound before it. Binding those
only added structural types and used up numbers, so a file is bound from a state that is like the
one in which no file was bound, and the same is reported.
-/

namespace QueryLang

/-- Data are alike themselves if their types match themselves, unless they are those of a lambda. -/
theorem SymbolData.alike_self {types : TypeId → TypeId → Prop} {ids : Nat → Nat → Prop}
    {data : SymbolData} (matching : ∀ type ∈ data.types, types type type)
    (notLambda : data.kind ≠ .lambda) : data.Alike types ids data := by
  cases data with
  | «namespace» => exact .namespace
  | namedType type => exact .namedType (matching type (List.mem_singleton_self type))
  | method type parameters =>
      rcases List.forall_mem_cons.mp matching with ⟨own, others⟩
      exact .method own (List.forall₂_same.mpr others)
  | field type => exact .field (matching type (List.mem_singleton_self type))
  | property type => exact .property (matching type (List.mem_singleton_self type))
  | parameter type ordinal refKind =>
      exact .parameter (matching type (List.mem_singleton_self type)) ordinal refKind
  | lambda parameters => exact absurd rfl notLambda
  | localVariable type => exact .localVariable (matching type (List.mem_singleton_self type))
  | label => exact .label
  | rangeVariable type => exact .rangeVariable (matching type (List.mem_singleton_self type))
  | queryConclusionVariable => exact .queryConclusionVariable

/-! ### Numbers -/

/-- Numbers that belong together: below a limit each belongs to itself, and the numbers from `left`
on belong to those from `right` on. -/
def SameNumber (limit left right : Nat) (number other : Nat) : Prop :=
  number = other ∧ number < limit ∨ ∃ count, number = left + count ∧ other = right + count

theorem SameNumber.biUnique {limit left right : Nat} (leftAbove : limit ≤ left)
    (rightAbove : limit ≤ right) : Relator.BiUnique (SameNumber limit left right) := by
  constructor
  · rintro number other last (⟨rfl, isBelow⟩ | ⟨count, rfl, rfl⟩)
      (⟨rfl, below⟩ | ⟨further, rfl, same⟩)
    all_goals omega
  · rintro number other last (⟨rfl, isBelow⟩ | ⟨count, rfl, rfl⟩)
      (⟨rfl, below⟩ | ⟨further, same, rfl⟩)
    all_goals omega

/-! ### Files -/

/-- The nodes and tokens of a well-formed tree are in its file, between characters of its text. -/
theorem SyntaxTree.WellFormed.placed {tree : SyntaxTree} {damaged : Prop}
    (wellFormed : tree.WellFormed damaged) :
    tree.Placed (Location.InText tree.file tree.text) where
  node := by
    intro id span isSpan
    rw [SyntaxTree.span, SyntaxTree.node] at isSpan
    split at isSpan
    · next node found =>
        cases isSpan
        exact ⟨rfl, wellFormed.node_within found⟩
    · cases isSpan
  token := by
    intro id token isToken
    rw [SyntaxTree.token] at isToken
    split at isToken
    · next found =>
        cases isToken
        exact ⟨rfl, wellFormed.token_within found⟩
    · cases isToken

/-- Binding a file from states that are alike gives the same reports, at places of its tree, and
bound files that are alike. -/
theorem SemanticModel.bind_agrees {objects : TypeId → TypeId → Prop} {ids : Nat → Nat → Prop}
    {places : Location → Prop} {state other : BindingState} {model : SemanticModel}
    (unbound : model.bound = none) (arePlaces : model.tree.Placed places)
    (alike : state.Alike objects ids places other)
    (binders : model.binder.Alike (state.Matches objects other) (state.Numbers ids other)
      model.binder)
    (isCancelled : Bool) :
    Binding.Agree objects ids places (model.bind isCancelled) (model.bind isCancelled) state other
      fun types numbers result otherResult => result.1.Alike types numbers otherResult.1 ∧
        ∀ diagnostic ∈ result.1.diagnostics, diagnostic.Placed places := by
  have inner : ({ model.binder with isCancelled } : Binder).Alike (state.Matches objects other)
      (state.Numbers ids other) { model.binder with isCancelled } :=
    ⟨binders.scopes, binders.container, rfl⟩
  rw [SemanticModel.bind, unbound]
  refine .bind_get ?_
  refine (Binding.collecting_agrees alike
    (bindFile_agrees ⟨alike.silent, inner⟩ arePlaces)).bind ?_
  rintro ⟨block, reported⟩ ⟨otherBlock, otherReported⟩ after otherAfter collected follow
    ⟨blocks, same, placed⟩ result last otherResult otherLast ran otherRan
  cases ran
  cases otherRan
  exact ⟨⟨collected.types, collected.unique, collected.fresh, alike.diagnostics, alike.placed⟩,
    ⟨⟨.refl _, Nat.le_refl _⟩, ⟨.refl _, Nat.le_refl _⟩⟩, ⟨blocks, same⟩, placed⟩

theorem CompilerOptions.resolve_interned {types : TypeTable} (interned : types.Interned)
    (sound : types.Sound) (globals : List (String × String)) :
    (resolve types globals).2.Interned := by
  induction globals generalizing types with
  | nil => exact interned
  | cons entry rest ih =>
      have looked := interned.lookupNamed sound entry.2
      have stillSound := (sound.lookupNamed sound.named_has entry.2).2.1
      rw [resolve]
      split
      · next extended found => rwa [found] at looked
      · next type extended found =>
          rw [found] at looked stillSound
          exact ih looked stillSound

namespace Compilation

variable {base later left right : Compilation}

/-- What the host gave to a compilation has its own types and numbers. -/
structure Hosted (compilation : Compilation) : Prop where
  interned : compilation.types.Interned
  numbers : 0 < compilation.nextSymbol
  program : ∃ type, type < compilation.types.size ∧
    compilation.program = .ofType 0 "Program" none type
  main : compilation.entryPoint ∈ compilation.globals
  globals : ∀ symbol ∈ compilation.globals, symbol.declaration.id < compilation.nextSymbol ∧
    symbol.containers = [compilation.program.declaration]

namespace Hosted

theorem grow (hosted : base.Hosted) {types : TypeTable} {nextSymbol : Nat}
    (interned : types.Interned) (grows : ∀ type, type < base.types.size → type < types.size)
    (further : base.nextSymbol ≤ nextSymbol) : Hosted { base with types, nextSymbol } where
  interned := interned
  numbers := Nat.lt_of_lt_of_le hosted.numbers further
  program := by
    rcases hosted.program with ⟨type, inRange, isProgram⟩
    exact ⟨type, grows type inRange, isProgram⟩
  main := hosted.main
  globals := fun symbol isGlobal =>
    ⟨Nat.lt_of_lt_of_le (hosted.globals symbol isGlobal).1 further,
      (hosted.globals symbol isGlobal).2⟩

/-- A new global has the next number. -/
theorem addGlobal (hosted : base.Hosted) {symbol : Symbol}
    (isNext : symbol.declaration.id = base.nextSymbol)
    (inProgram : symbol.containers = [base.program.declaration]) :
    Hosted { base with
      nextSymbol := base.nextSymbol + 1, globals := base.globals ++ [symbol] } where
  interned := hosted.interned
  numbers := Nat.succ_pos _
  program := hosted.program
  main := List.mem_append_left _ hosted.main
  globals := by
    refine List.forall_mem_append.mpr ⟨fun own isGlobal => ?_, ?_⟩
    · exact ⟨Nat.lt_succ_of_lt (hosted.globals own isGlobal).1, (hosted.globals own isGlobal).2⟩
    · exact List.forall_mem_singleton.mpr ⟨isNext ▸ Nat.lt_succ_self _, inProgram⟩

theorem chain_program (hosted : base.Hosted) (declaration : Declaration) :
    (Symbol.inside (some base.program) declaration).containers = [base.program.declaration] := by
  rcases hosted.program with ⟨type, _, isProgram⟩
  rw [isProgram]
  rfl

theorem declareGlobal (hosted : base.Hosted) (name : String) (type : TypeId) :
    (base.declareGlobal name type).Hosted :=
  hosted.addGlobal rfl (hosted.chain_program _)

theorem declareObject (hosted : base.Hosted) (name : String) (members : Members) :
    Hosted { base with types := (base.types.declareObject name members).2 } :=
  hosted.grow (hosted.interned.declareObject name members)
    (fun type inRange => by
      rw [TypeTable.declareObject, TypeTable.size]
      exact Nat.lt_of_lt_of_eq (Nat.lt_succ_of_lt inRange) TypeTable.size_push.symm)
    (Nat.le_refl _)

theorem declareType (hosted : base.Hosted) (name : String) (members : Members) :
    (base.declareType name members).2.Hosted :=
  (hosted.declareObject name members).addGlobal rfl (hosted.chain_program _)

theorem declareGlobals (hosted : base.Hosted) (globals : List (String × TypeId)) :
    Hosted (globals.foldl (fun compilation (name, type) => compilation.declareGlobal name type)
      base) := by
  induction globals generalizing base with
  | nil => exact hosted
  | cons entry rest ih => exact ih (hosted.declareGlobal entry.1 entry.2)

theorem ofOptions {options : CompilerOptions} (made : Compilation.ofOptions options = .ok base) :
    base.Hosted := by
  rcases ofOptions_eq_ok made with
    ⟨resolved, start, _, startTypes, nextSymbol, program, entryPoint, globals, rfl⟩
  rcases initial_types_gives with ⟨initialSound, named, _⟩
  have grows := (CompilerOptions.resolve_gives initialSound named options.globals).1
  have interned := CompilerOptions.resolve_interned
    (TypeTable.initial_interned.declareObject "Program" []) initialSound options.globals
  rw [← startTypes] at grows interned
  refine declareGlobals ⟨interned, ?_, ⟨_, grows.lt_size (by decide), program⟩, ?_, ?_⟩ resolved
  · rw [nextSymbol]
    decide
  · rw [globals]
    exact List.mem_singleton_self _
  · rw [globals, List.forall_mem_singleton, entryPoint, nextSymbol, program]
    exact ⟨by decide, rfl⟩

end Hosted

/-! ### Compilations in which files were bound -/

/-- The nodes and tokens of a file are in its text, as the reports on its syntax are. -/
theorem modelOf_placed {file : FileId} {source : SourceFile} {model : SemanticModel}
    (isModel : base.modelOf file source = .ok model) :
    model.tree.Placed (Location.InText file source.text.chars) ∧
      ∀ diagnostic ∈ model.parseDiagnostics,
        diagnostic.Placed (Location.InText file source.text.chars) := by
  have wellFormed := (modelOf_gives isModel).2.2
  rcases Checked.bind_eq_ok_iff.mp isModel with ⟨parsed, isParsed, isPure⟩
  cases isPure
  rcases parseText_placed file source.name source.text base.features parsed isParsed with
    ⟨sameFile, sameText, placed⟩
  have treePlaced := wellFormed.placed
  rw [sameFile, sameText] at treePlaced
  exact ⟨treePlaced, placed⟩

/-- A compilation in which more files were bound. -/
structure Later (base later : Compilation) : Prop where
  types : base.types.Extends later.types
  sound : later.types.Sound
  interned : later.types.Interned
  nextSymbol : base.nextSymbol ≤ later.nextSymbol
  rest : later = { base with types := later.types, nextSymbol := later.nextSymbol }

theorem Later.trans {last : Compilation} (first : Later base later) (second : Later later last) :
    Later base last where
  types := first.types.trans second.types
  sound := second.sound
  interned := second.interned
  nextSymbol := Nat.le_trans first.nextSymbol second.nextSymbol
  rest := by rw [second.rest, first.rest]

theorem Later.modelOf_eq (fromBase : Later base later) (file : FileId) (source : SourceFile) :
    later.modelOf file source = base.modelOf file source := by
  rw [fromBase.rest]
  rfl

/-- A compilation in which files can be bound. -/
structure Settled (compilation : Compilation) : Prop where
  sound : compilation.Sound
  hosted : compilation.Hosted
  provides : compilation.Provides (· < compilation.types.size)

/-- The numbers that belong together in two compilations that come from a third one. -/
abbrev Numbers (base left right : Compilation) : Nat → Nat → Prop :=
  SameNumber base.nextSymbol left.nextSymbol right.nextSymbol

namespace Settled

variable (settled : base.Settled)

include settled

theorem later_self : Later base base :=
  ⟨.refl _, settled.sound.types, settled.hosted.interned, Nat.le_refl _, rfl⟩

section Beginning

variable (fromLeft : Later base left) (fromRight : Later base right)

include fromLeft fromRight

theorem beginning_alike (places : Location → Prop) :
    left.beginning.Alike base.types.SameObject (Numbers base left right) places
      right.beginning where
  types := TypeTable.aligned_self settled.sound.types settled.hosted.interned fromLeft.types
    fromRight.types settled.provides.members fromLeft.sound fromRight.sound fromLeft.interned
    fromRight.interned
  unique := SameNumber.biUnique fromLeft.nextSymbol fromRight.nextSymbol
  fresh := fun count => .inr ⟨count, rfl, rfl⟩
  diagnostics := rfl
  placed := List.forall_mem_nil _

theorem global_alike {symbol : Symbol} (isGlobal : symbol ∈ base.globals) :
    symbol.Alike (left.types.Matches right.types base.types.SameObject)
      (left.beginning.Numbers (Numbers base left right) right.beginning) symbol := by
  have matchesSelf {type : Nat} (inRange : type < base.types.size) :
      left.types.Matches right.types base.types.SameObject type type :=
    TypeTable.matches_self settled.sound.types settled.hosted.interned fromLeft.types
      fromRight.types inRange
  have ownNumber {number : Nat} (isBelow : number < base.nextSymbol) :
      left.beginning.Numbers (Numbers base left right) right.beginning number number :=
    ⟨.inl ⟨rfl, isBelow⟩, Nat.lt_of_lt_of_le isBelow fromLeft.nextSymbol,
      Nat.lt_of_lt_of_le isBelow fromRight.nextSymbol⟩
  rcases settled.hosted.globals symbol isGlobal with ⟨isBelow, inProgram⟩
  refine ⟨⟨ownNumber isBelow, rfl, rfl, rfl, rfl, ?_⟩, ?_⟩
  · exact SymbolData.alike_self (fun type member =>
      matchesSelf (settled.provides.globals symbol isGlobal type member))
      (settled.sound.noLambdas symbol isGlobal)
  · rcases settled.hosted.program with ⟨type, inRange, isProgram⟩
    rw [inProgram, isProgram]
    exact .cons ⟨ownNumber settled.hosted.numbers, rfl, rfl, rfl, rfl,
      .namedType (matchesSelf inRange)⟩ .nil

/-- Names of the host stand for the same in both compilations. -/
theorem rootBinder_alike :
    base.rootBinder.Alike (left.beginning.Matches base.types.SameObject right.beginning)
      (left.beginning.Numbers (Numbers base left right) right.beginning) base.rootBinder :=
  ⟨.cons (.global (List.forall₂_same.mpr fun _ => settled.global_alike fromLeft fromRight)) .nil,
    settled.global_alike fromLeft fromRight settled.hosted.main, rfl⟩

end Beginning

/-- Files can still be bound once others were. -/
theorem of_later (fromBase : Later base later) : later.Settled := by
  have inRange {type : TypeId} (issued : type < base.types.size) : type < later.types.size :=
    fromBase.types.lt_size issued
  have members : base.types.MemberTypes (· < later.types.size) :=
    (settled.provides.mono fun _ => inRange).members
  have grown := settled.hosted.grow fromBase.interned (fun _ => inRange) fromBase.nextSymbol
  rw [← fromBase.rest] at grown
  have sameGlobals : later.globals = base.globals := by rw [fromBase.rest]
  refine ⟨⟨fromBase.sound, sameGlobals ▸ settled.sound.kinds⟩, grown, ?_,
    fromBase.types.memberTypes @members⟩
  intro symbol isGlobal type member
  rw [sameGlobals] at isGlobal
  exact inRange (settled.provides.globals symbol isGlobal type member)

/-- A file is bound whatever files were bound before, and the bound file can be relied on. -/
theorem runs_bind (fromBase : Later base later) {file : FileId} {source : SourceFile}
    {model : SemanticModel} (isModel : base.modelOf file source = .ok model) :
    ∃ (unit : BoundUnit) (after : Compilation),
      later.run (model.bind false) =
        (.ok ((unit, { model with bound := some unit }), []), after) ∧
      unit.Reliable model.tree after.types False := by
  have grown := settled.of_later fromBase
  rcases modelOf_gives isModel with ⟨unbound, isRoot, wellFormed⟩
  have footing : Footing (model.parseDiagnostics.hasErrors = true) later.rootBinder later.types
      False :=
    footing_of_provides grown.sound.types grown.sound.noLambdas grown.provides.has False.elim
  have sameRoot : later.rootBinder = base.rootBinder := by rw [fromBase.rest]; rfl
  rw [sameRoot, ← isRoot] at footing
  rcases run_bind_gives unbound wellFormed footing with ⟨unit, after, ran, _, _, outcome⟩
  have reliable := reliable_of_outcome outcome
  rw [false_and] at reliable
  exact ⟨unit, after, ran, reliable⟩

/-- In two compilations in which others were bound before, a file gives the same reports and bound
files that are alike. -/
theorem bind_alike (fromLeft : Later base left) (fromRight : Later base right) {file : FileId}
    {source : SourceFile} {model : SemanticModel} (isModel : base.modelOf file source = .ok model) :
    ∃ (unit other : BoundUnit) (leftAfter rightAfter : Compilation),
      left.run (model.bind false) =
        (.ok ((unit, { model with bound := some unit }), []), leftAfter) ∧
      right.run (model.bind false) =
        (.ok ((other, { model with bound := some other }), []), rightAfter) ∧
      unit.Alike (leftAfter.types.Matches rightAfter.types base.types.SameObject)
        (leftAfter.beginning.Numbers (Numbers base left right) rightAfter.beginning) other ∧
      (∀ diagnostic ∈ unit.diagnostics,
        diagnostic.Placed (Location.InText file source.text.chars)) ∧
      Later left leftAfter ∧ Later right rightAfter := by
  rcases settled.runs_bind fromLeft isModel with ⟨unit, leftAfter, ran, _⟩
  rcases settled.runs_bind fromRight isModel with ⟨other, rightAfter, otherRan, _⟩
  -- both runs begin from states that are alike, so they agree step by step
  rcases modelOf_gives isModel with ⟨unbound, isRoot, _⟩
  have binders := settled.rootBinder_alike fromLeft fromRight
  rw [← isRoot] at binders
  rcases run_eq_ok ran with ⟨state, ranState, rfl⟩
  rcases run_eq_ok otherRan with ⟨otherState, otherRanState, rfl⟩
  rcases SemanticModel.bind_agrees unbound (modelOf_placed isModel).1
    (settled.beginning_alike fromLeft fromRight _) binders false _ _ _ _ ranState
    otherRanState with ⟨alike, follow, units, placed⟩
  exact ⟨unit, other, _, _, ran, otherRan, units, placed,
    ⟨follow.left.types, alike.types.leftSound, alike.types.leftInterned, follow.left.nextSymbol,
      rfl⟩,
    ⟨follow.right.types, alike.types.rightSound, alike.types.rightInterned,
      follow.right.nextSymbol, rfl⟩⟩

/-- A file that is bound in a compilation from which others were bound before gives the reports that
it gives without them. -/
theorem bind_later (fromBase : Later base later) {file : FileId} {source : SourceFile}
    {model : SemanticModel} (isModel : base.modelOf file source = .ok model) :
    ∃ (unit own : BoundUnit) (after ownAfter : Compilation),
      later.run (model.bind false) = (.ok ((unit, { model with bound := some unit }), []), after) ∧
      base.run (model.bind false) =
        (.ok ((own, { model with bound := some own }), []), ownAfter) ∧
      unit.diagnostics = own.diagnostics ∧
      (∀ diagnostic ∈ unit.diagnostics,
        diagnostic.Placed (Location.InText file source.text.chars)) ∧ Later base after := by
  rcases settled.bind_alike fromBase settled.later_self isModel with
    ⟨unit, own, after, ownAfter, ran, ownRan, units, placed, further, _⟩
  exact ⟨unit, own, after, ownAfter, ran, ownRan, units.diagnostics, placed,
    fromBase.trans further⟩

end Settled

theorem SetUp.hosted {compilation : Compilation} (setUp : compilation.SetUp) :
    compilation.Hosted := by
  induction setUp with
  | ofOptions made => exact .ofOptions made
  | declareType _ name members ih => exact ih.declareType name members
  | declareGlobal _ name type ih => exact ih.declareGlobal name type
  | enable _ features ih => exact ⟨ih.interned, ih.numbers, ih.program, ih.main, ih.globals⟩
  | addSource _ name text ih => exact ⟨ih.interned, ih.numbers, ih.program, ih.main, ih.globals⟩
  | declareObject _ name members ih => exact ih.declareObject name members
  | sequence setUp issued ih =>
      have grows := (TypeTable.sequence_spec setUp.sound.types issued).1
      exact ih.grow (ih.interned.intern setUp.sound.types _) (fun _ => grows.lt_size)
        (Nat.le_refl _)
  | grouping setUp keyIssued issued ih =>
      have grows := (TypeTable.grouping_spec setUp.sound.types keyIssued issued).1
      exact ih.grow (ih.interned.intern setUp.sound.types _) (fun _ => grows.lt_size)
        (Nat.le_refl _)
  | lookupNamed setUp text ih =>
      have grows := (setUp.sound.types.lookupNamed setUp.sound.types.named_has text).1
      exact ih.grow (ih.interned.lookupNamed setUp.sound.types text) (fun _ => grows.lt_size)
        (Nat.le_refl _)
  | @bind compilation _ _ _ setUp provides isModel isCancelled ih =>
      have settled : compilation.Settled := ⟨setUp.sound, ih, provides⟩
      cases isCancelled with
      | true => rwa [run_bind_cancelled (modelOf_gives isModel).1]
      | false =>
          rcases settled.bind_later settled.later_self isModel with
            ⟨unit, _, after, _, ran, _, _, _, fromBase⟩
          rw [ran]
          dsimp only
          rw [fromBase.rest]
          exact ih.grow fromBase.interned (fun _ => fromBase.types.lt_size) fromBase.nextSymbol

end Compilation

end QueryLang
