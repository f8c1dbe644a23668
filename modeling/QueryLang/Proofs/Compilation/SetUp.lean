import QueryLang.Compilation.Basic
import QueryLang.Proofs.Compilation.Model
import QueryLang.Proofs.Diagnostic.Sorting

/-!
# Compilations that a host sets up

A host starts from options, declares types and globals, adds files, and may have files bound in
between. Whatever it does, the table of types stays sound, as long as structural types are made of
types that the table has.
-/

namespace QueryLang

/-- The parts of a block that is bound well can be relied on. -/
theorem reliable_of_outcome {tree : SyntaxTree} {damaged calm : Prop} {table : TypeTable}
    {unit : BoundUnit} (outcome : BoundBlock.Outcome tree damaged calm table unit.block) :
    unit.Reliable tree table calm := by
  refine List.forall_mem_cons.mpr ⟨trivial, ?_⟩
  exact BoundStatement.AllReliable.walk outcome.reliable

namespace CompilerOptions

theorem resolve_gives {types : TypeTable} {calm : Prop} (sound : types.Sound)
    (named : ∀ entry ∈ types.names, types.Has calm entry.2) (globals : List (String × String)) :
    types.Extends (resolve types globals).2 ∧ (resolve types globals).2.Sound ∧
      ∀ resolved, (resolve types globals).1 = .ok resolved →
        ∀ entry ∈ resolved, (resolve types globals).2.Has calm entry.2 := by
  induction globals generalizing types with
  | nil =>
      refine ⟨.refl types, sound, ?_⟩
      rintro _ ⟨⟩
      simp
  | cons entry rest ih =>
      have looked := sound.lookupNamed named entry.2
      rw [resolve]
      split
      · next extended found =>
          rw [found] at looked
          refine ⟨looked.1, looked.2.1, ?_⟩
          rintro _ ⟨⟩
      · next type extended found =>
          rw [found] at looked
          rcases looked with ⟨extends', extendedSound, typeHas⟩
          have namedHas : ∀ entry ∈ extended.names, extended.Has calm entry.2 := by
            rw [extends'.names]
            exact fun entry member => extends'.has (named entry member)
          rcases ih extendedSound namedHas with ⟨further, restSound, restHas⟩
          refine ⟨extends'.trans further, restSound, fun resolved isResolved => ?_⟩
          dsimp only at isResolved ⊢
          cases restEq : (resolve extended rest).1 with
          | error problem =>
              rw [restEq] at isResolved
              cases isResolved
          | ok others =>
              rw [restEq] at isResolved
              cases isResolved
              exact List.forall_mem_cons.mpr ⟨further.has (typeHas type rfl), restHas others restEq⟩

end CompilerOptions

namespace Compilation

/-- The types of everything that the host gives to its files satisfy a condition. -/
structure Provides (compilation : Compilation) (condition : TypeId → Prop) : Prop where
  globals : ∀ symbol ∈ compilation.globals, ∀ type ∈ symbol.data.types, condition type
  members : compilation.types.MemberTypes condition

theorem Provides.mono {compilation : Compilation} {condition weaker : TypeId → Prop}
    (provides : compilation.Provides condition) (implies : ∀ type, condition type → weaker type) :
    compilation.Provides weaker :=
  ⟨fun symbol inGlobals type member => implies type (provides.globals symbol inGlobals type member),
    fun isKind entry member => implies entry.2.type (provides.members isKind entry member)⟩

theorem Provides.has {compilation : Compilation}
    (provides : compilation.Provides (· < compilation.types.size)) :
    compilation.Provides (compilation.types.Has False) :=
  provides.mono fun _ inRange => ⟨inRange, False.elim⟩

/-- The binder of a file can be relied on like what the host gives. -/
theorem footing_of_provides {compilation : Compilation} {calm damaged : Prop}
    (sound : compilation.types.Sound)
    (noLambdas : ∀ symbol ∈ compilation.globals, symbol.kind ≠ .lambda)
    (provides : compilation.Provides (compilation.types.Has calm)) (whole : calm → ¬damaged) :
    Footing damaged compilation.rootBinder compilation.types calm := by
  refine ⟨⟨sound, provides.members⟩, ⟨rfl, ?_⟩, whole⟩
  intro scope member
  rw [List.mem_singleton.mp member]
  exact fun symbol inGlobals => ⟨provides.globals symbol inGlobals, noLambdas symbol inGlobals⟩

/-- The state in which binding a file begins. -/
def beginning (compilation : Compilation) : BindingState :=
  ⟨compilation.types, compilation.nextSymbol, []⟩

theorem run_eq_ok {α : Type} {compilation after : Compilation} {step : Binding α} {value : α}
    {reported : Diagnostics} (ran : compilation.run step = (.ok (value, reported), after)) :
    ∃ state, ExceptT.run step compilation.beginning = (.ok value, state) ∧
      after = { compilation with types := state.types, nextSymbol := state.nextSymbol } := by
  unfold Compilation.run at ran
  cases stepEq : ExceptT.run step ⟨compilation.types, compilation.nextSymbol, []⟩ with
  | mk result state =>
      rw [stepEq] at ran
      cases result with
      | error fault => cases ran
      | ok own =>
          cases ran
          exact ⟨state, stepEq, rfl⟩

/-- What binding a file adds to a compilation, and the bound file. -/
theorem run_bind_gives {compilation : Compilation} {model : SemanticModel} {calm damaged : Prop}
    (unbound : model.bound = none) (wellFormed : model.tree.WellFormed damaged)
    (footing : Footing damaged model.binder compilation.types calm) :
    ∃ (unit : BoundUnit) (after : Compilation),
      compilation.run (model.bind false) =
        (.ok ((unit, { model with bound := some unit }), []), after) ∧
      after.globals = compilation.globals ∧
      compilation.types.Advance calm after.types
        (calm ∧ Diagnostics.hasErrors unit.diagnostics = false) ∧
      BoundBlock.Outcome model.tree damaged (calm ∧ Diagnostics.hasErrors unit.diagnostics = false)
        after.types unit.block := by
  let start : BindingState := ⟨compilation.types, compilation.nextSymbol, []⟩
  have live : Footing damaged { model.binder with isCancelled := false } start.types calm :=
    ⟨footing.ready, ⟨rfl, footing.binder.scopes⟩, footing.whole⟩
  rcases bindFile_keeps wellFormed live with
    ⟨block, after, reported, ran, reports, advance, outcome⟩
  have isReported : after.diagnostics = reported := reports
  have collected := Binding.run_collecting_of_ok start ran
  refine ⟨⟨block, reported⟩, { compilation with
    types := after.types, nextSymbol := after.nextSymbol }, ?_, rfl, advance, outcome⟩
  have ranBind : ExceptT.run (model.bind false) start = (.ok (⟨block, reported⟩,
      { model with bound := some ⟨block, reported⟩ }), { after with diagnostics := [] }) := by
    rw [SemanticModel.bind, unbound]
    show ExceptT.run (Binding.collecting (bindFile
      { model.binder with isCancelled := false } model.tree) >>= _) start = _
    refine (Binding.run_bind_of_ok collected).trans ?_
    rw [← isReported]
    rfl
  rw [Compilation.run, ranBind]
  rfl

/-- What a host can have done to a compilation. Types are made of types that were issued before,
and files are bound once the types of all globals and members are there. -/
inductive SetUp : Compilation → Prop
  | ofOptions {options compilation} (made : Compilation.ofOptions options = .ok compilation) :
      SetUp compilation
  | declareType {compilation} (setUp : SetUp compilation) (name : String) (members : Members) :
      SetUp (compilation.declareType name members).2
  | declareGlobal {compilation} (setUp : SetUp compilation) (name : String) (type : TypeId) :
      SetUp (compilation.declareGlobal name type)
  | enable {compilation} (setUp : SetUp compilation) (features : Features) :
      SetUp { compilation with features }
  | addSource {compilation} (setUp : SetUp compilation) (name : String) (text : SourceText) :
      SetUp (compilation.addSource name text)
  | declareObject {compilation} (setUp : SetUp compilation) (name : String) (members : Members) :
      SetUp { compilation with types := (compilation.types.declareObject name members).2 }
  | sequence {compilation} (setUp : SetUp compilation) {element : TypeId}
      (issued : element < compilation.types.size) :
      SetUp { compilation with types := (compilation.types.sequence element).2 }
  | grouping {compilation} (setUp : SetUp compilation) {key element : TypeId}
      (keyIssued : key < compilation.types.size) (issued : element < compilation.types.size) :
      SetUp { compilation with types := (compilation.types.grouping key element).2 }
  | lookupNamed {compilation} (setUp : SetUp compilation) (text : String) :
      SetUp { compilation with types := (compilation.types.lookupNamed text).2 }
  | bind {compilation file source model} (setUp : SetUp compilation)
      (provides : compilation.Provides (· < compilation.types.size))
      (isModel : compilation.modelOf file source = .ok model) (isCancelled : Bool) :
      SetUp (compilation.run (model.bind isCancelled)).2

/-- What holds of every compilation that was set up. -/
structure Sound (compilation : Compilation) : Prop where
  types : compilation.types.Sound
  kinds : HostKinds compilation.globals

theorem Sound.noLambdas {compilation : Compilation} (sound : compilation.Sound) :
    ∀ symbol ∈ compilation.globals, symbol.kind ≠ .lambda := by
  intro symbol isGlobal
  rcases sound.kinds symbol isGlobal with isKind | isKind | isKind
  · simp [isKind]
  · simp [isKind]
  · simp [isKind]

theorem Sound.addGlobal {compilation : Compilation} (sound : compilation.Sound) {symbol : Symbol}
    {types : TypeTable} {nextSymbol : Nat} (typesSound : types.Sound)
    (isKind : symbol.kind = .method ∨ symbol.kind = .namedType ∨ symbol.kind = .field) :
    Sound { compilation with types, nextSymbol, globals := compilation.globals ++ [symbol] } :=
  ⟨typesSound, List.forall_mem_append.mpr ⟨sound.kinds, by simpa using isKind⟩⟩

theorem Sound.declareGlobal {compilation : Compilation} (sound : compilation.Sound)
    (name : String) (type : TypeId) : (compilation.declareGlobal name type).Sound :=
  sound.addGlobal sound.types (.inr (.inr rfl))

theorem Sound.declareType {compilation : Compilation} (sound : compilation.Sound)
    (name : String) (members : Members) : (compilation.declareType name members).2.Sound :=
  sound.addGlobal (sound.types.declareObject name members) (.inr (.inl rfl))

theorem Provides.declareGlobal {compilation : Compilation} {condition : TypeId → Prop}
    (provides : compilation.Provides condition) (name : String) {type : TypeId}
    (holds : condition type) : (compilation.declareGlobal name type).Provides condition := by
  refine ⟨List.forall_mem_append.mpr ⟨provides.globals, ?_⟩, provides.members⟩
  intro symbol isNew own isOwn
  cases List.mem_singleton.mp isNew
  cases List.mem_singleton.mp isOwn
  exact holds

/-- The types with which a compilation begins. -/
theorem initial_types_gives :
    let types := (TypeTable.initial.declareObject "Program" []).2
    types.Sound ∧ (∀ entry ∈ types.names, types.Has True entry.2) ∧
      types.MemberTypes (types.Has True) := by
  have sound := TypeTable.initial_sound.declareObject "Program" []
  refine ⟨sound, ?_, ?_⟩
  · refine List.forall_mem_cons.mpr ⟨⟨by decide, fun _ => .object rfl⟩, ?_⟩
    simpa [TypeTable.initial] using ⟨sound.int_has, sound.string_has, sound.bool_has⟩
  · intro type name members isKind entry member
    have isListed := Array.mem_of_getElem? isKind
    simp only [TypeTable.declareObject, TypeTable.push, TypeTable.initial, Array.mem_push,
      List.mem_toArray, List.mem_cons, List.not_mem_nil, or_false, reduceCtorEq, false_or,
      TypeKind.object.injEq] at isListed
    rw [isListed.2] at member
    cases member

theorem declareGlobals_gives {compilation : Compilation} (sound : compilation.Sound)
    {condition : TypeId → Prop} (provides : compilation.Provides condition)
    {globals : List (String × TypeId)} (hold : ∀ entry ∈ globals, condition entry.2) :
    let declared := globals.foldl
      (fun compilation (name, type) => compilation.declareGlobal name type) compilation
    declared.types = compilation.types ∧ declared.Sound ∧ declared.Provides condition := by
  induction globals generalizing compilation with
  | nil => exact ⟨rfl, sound, provides⟩
  | cons entry rest ih =>
      rcases List.forall_mem_cons.mp hold with ⟨holds, restHold⟩
      exact ih (sound.declareGlobal entry.1 entry.2) (provides.declareGlobal entry.1 holds) restHold

/-- A compilation begins with the types that its globals need and with the method `Main`, and then
the globals are declared. -/
theorem ofOptions_eq_ok {options : CompilerOptions} {compilation : Compilation}
    (made : ofOptions options = .ok compilation) :
    let programType := TypeTable.initial.declareObject "Program" []
    let resolution := CompilerOptions.resolve programType.2 options.globals
    ∃ resolved start, resolution.1 = .ok resolved ∧ start.types = resolution.2 ∧
      start.nextSymbol = 2 ∧ start.program = .ofType 0 "Program" none programType.1 ∧
      start.entryPoint = .inside (some start.program)
        { id := 1, name := "Main", locations := [], accessibility := .public
          modifiers := [.static], data := .method .int [] } ∧
      start.globals = [start.entryPoint] ∧
      compilation = resolved.foldl
        (fun compilation (name, type) => compilation.declareGlobal name type) start := by
  unfold ofOptions at made
  cases featuresEq : options.languageFeatures with
  | error problem =>
      rw [featuresEq] at made
      cases made
  | ok features =>
      rw [featuresEq] at made
      cases resolvedEq : (CompilerOptions.resolve (TypeTable.initial.declareObject "Program" []).2
          options.globals).1 with
      | error problem =>
          simp only [CompilerOptions.resolveGlobals, resolvedEq] at made
          cases made
      | ok resolved =>
          simp only [CompilerOptions.resolveGlobals, resolvedEq] at made
          cases made
          exact ⟨resolved, _, resolvedEq, rfl, rfl, rfl, rfl, rfl, rfl⟩

/-- What options alone give: no global of theirs has the error type in its type. -/
theorem ofOptions_gives {options : CompilerOptions} {compilation : Compilation}
    (made : ofOptions options = .ok compilation) :
    compilation.Sound ∧ compilation.Provides (compilation.types.Has True) := by
  rcases initial_types_gives with ⟨initialSound, named, members⟩
  rcases CompilerOptions.resolve_gives initialSound named options.globals with
    ⟨extends', typesSound, resolvedHave⟩
  rcases ofOptions_eq_ok made with
    ⟨resolved, start, isResolved, startTypes, _, _, entryPoint, globals, rfl⟩
  have isMain : ∀ symbol ∈ start.globals, symbol.data = .method .int [] := by
    rw [globals, List.forall_mem_singleton, entryPoint]
    rfl
  rw [← startTypes] at extends' typesSound resolvedHave
  have startSound : start.Sound := by
    refine ⟨typesSound, fun symbol member => ?_⟩
    rw [Symbol.kind, Declaration.kind, ← Symbol.data, isMain symbol member]
    exact .inl rfl
  have startProvides : start.Provides (start.types.Has True) := by
    refine ⟨fun symbol member type isOwn => ?_, extends'.memberTypes fun isKind entry member =>
      extends'.has (members isKind entry member)⟩
    rw [isMain symbol member] at isOwn
    rw [List.mem_singleton.mp isOwn]
    exact typesSound.int_has
  rcases declareGlobals_gives startSound startProvides (resolvedHave resolved isResolved) with
    ⟨sameTypes, sound, provides⟩
  rw [sameTypes]
  exact ⟨sound, provides⟩

/-- The model of a file is new, and its tree is well formed. -/
theorem modelOf_gives {compilation : Compilation} {file : FileId} {source : SourceFile}
    {model : SemanticModel} (isModel : compilation.modelOf file source = .ok model) :
    model.bound = none ∧ model.binder = compilation.rootBinder ∧
      model.tree.WellFormed (Diagnostics.hasErrors model.parseDiagnostics = true) := by
  rcases Checked.bind_eq_ok_iff.mp isModel with ⟨parsed, isParsed, isPure⟩
  rcases exists_scanned_of_parseText isParsed with ⟨scanned, scans, rfl⟩
  cases isPure
  refine ⟨rfl, rfl, ?_⟩
  rw [Diagnostics.hasErrors_sorted]
  exact wellFormed_of_scanText scans

/-- The model of a file whose text can be scanned. -/
theorem modelOf_eq (compilation : Compilation) {file : FileId} {source : SourceFile}
    {scanned : ScannedText} (scans : scanText file source.text = .ok scanned) :
    compilation.modelOf file source = .ok {
      tree := (parseTokens file compilation.features scanned).shape.toTree file source.name
        source.text compilation.features
      parseDiagnostics :=
        Diagnostics.sorted (parseTokens file compilation.features scanned).diagnostics
      binder := compilation.rootBinder
      bound := none } := by
  rw [modelOf, parseText_eq_ok scans]
  rfl

theorem modelOf_eq_ok (compilation : Compilation) {file : FileId} {source : SourceFile}
    {scanned : ScannedText} (scans : scanText file source.text = .ok scanned) :
    ∃ model, compilation.modelOf file source = .ok model :=
  ⟨_, modelOf_eq compilation scans⟩

theorem run_bind_cancelled {compilation : Compilation} {model : SemanticModel}
    (unbound : model.bound = none) : (compilation.run (model.bind true)).2 = compilation := by
  rw [SemanticModel.bind, unbound]
  rfl

/-- Whatever a host does, the compilation stays sound. -/
theorem SetUp.sound {compilation : Compilation} (setUp : compilation.SetUp) :
    compilation.Sound := by
  induction setUp with
  | ofOptions made => exact (ofOptions_gives made).1
  | declareType _ name members ih => exact ih.declareType name members
  | declareGlobal _ name type ih => exact ih.declareGlobal name type
  | enable _ features ih => exact ⟨ih.types, ih.kinds⟩
  | addSource _ name text ih => exact ⟨ih.types, ih.kinds⟩
  | declareObject _ name members ih => exact ⟨ih.types.declareObject name members, ih.kinds⟩
  | sequence _ issued ih =>
      exact ⟨(TypeTable.sequence_spec ih.types issued).2.1, ih.kinds⟩
  | grouping _ keyIssued issued ih =>
      exact ⟨(TypeTable.grouping_spec ih.types keyIssued issued).2.1, ih.kinds⟩
  | lookupNamed _ text ih =>
      exact ⟨(ih.types.lookupNamed ih.types.named_has text).2.1, ih.kinds⟩
  | @bind compilation _ _ _ _ provides isModel isCancelled ih =>
      rcases modelOf_gives isModel with ⟨unbound, isRoot, wellFormed⟩
      cases isCancelled with
      | true => rwa [run_bind_cancelled unbound]
      | false =>
          rcases run_bind_gives unbound wellFormed (isRoot ▸ footing_of_provides ih.types
            ih.noLambdas provides.has False.elim) with
              ⟨unit, after, ran, sameGlobals, advance, _⟩
          rw [ran]
          exact ⟨advance.sound, sameGlobals ▸ ih.kinds⟩

/-- A file that was parsed is bound. -/
theorem SetUp.runs_bind {compilation : Compilation} (setUp : compilation.SetUp)
    (provides : compilation.Provides (· < compilation.types.size)) {file : FileId}
    {source : SourceFile} {model : SemanticModel}
    (isModel : compilation.modelOf file source = .ok model) :
    ∃ unit bound after, compilation.run (model.bind false) = (.ok ((unit, bound), []), after) := by
  rcases modelOf_gives isModel with ⟨unbound, isRoot, wellFormed⟩
  have footing : Footing (model.parseDiagnostics.hasErrors = true) compilation.rootBinder
      compilation.types False :=
    footing_of_provides setUp.sound.types setUp.sound.noLambdas provides.has False.elim
  rw [← isRoot] at footing
  rcases run_bind_gives unbound wellFormed footing with ⟨unit, after, ran, _⟩
  exact ⟨unit, _, after, ran⟩

/-- A file whose text can be scanned is bound. -/
theorem SetUp.runs {compilation : Compilation} (setUp : compilation.SetUp)
    (provides : compilation.Provides (· < compilation.types.size)) {file : FileId}
    {source : SourceFile} {scanned : ScannedText}
    (scans : scanText file source.text = .ok scanned) :
    ∃ model unit bound after, compilation.modelOf file source = .ok model ∧
      compilation.run (model.bind false) = (.ok ((unit, bound), []), after) := by
  rcases modelOf_eq_ok compilation scans with ⟨model, isModel⟩
  rcases setUp.runs_bind provides isModel with ⟨unit, bound, after, ran⟩
  exact ⟨model, unit, bound, after, isModel, ran⟩

end Compilation

end QueryLang
