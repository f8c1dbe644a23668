import QueryLang.Proofs.Binding.StatementResolving
import QueryLang.Proofs.Compilation.SetUp

/-!
# Names are resolved lexically

Every name of a file that is bound as a value stands for the variable of the innermost declaration
of that name which the tree makes visible there. Only where there is none, the host decides.
-/

namespace QueryLang

/-- What a step yields holds of what running it on a compilation gives. -/
theorem Binding.Yields.of_run {α : Type} {step : Binding α} {good : α → Prop}
    (yields : step.Yields good) {compilation after : Compilation} {value : α}
    {reported : Diagnostics}
    (ran : compilation.run step = (.ok (value, reported), after)) : good value := by
  rcases Compilation.run_eq_ok ran with ⟨state, ranStep, _⟩
  exact yields _ _ _ ranStep

theorem SemanticModel.bind_resolves {model : SemanticModel} {damaged : Prop}
    {globals : List Symbol} (kinds : HostKinds globals) (unbound : model.bound = none)
    (wellFormed : model.tree.WellFormed damaged) (isCancelled : Bool) :
    (model.bind isCancelled).Yields fun result =>
      Resolves model.tree globals model.binder.scopes [] result.1.parts := by
  rw [SemanticModel.bind, unbound]
  refine .next fun before => ?_
  refine (Binding.Yields.collecting (bindFile_resolves kinds wellFormed)).bind ?_
  rintro ⟨block, diagnostics⟩ resolves
  exact .next fun _ => .pure resolves

namespace Compilation

/-- In every file that is bound, every name that is bound as a value, and is there, stands for what
the tree makes visible. -/
theorem SetUp.resolves_lexically {compilation after : Compilation} (setUp : compilation.SetUp)
    {file : FileId} {source : SourceFile} {model bound : SemanticModel} {unit : BoundUnit}
    {isCancelled : Bool} {reported : Diagnostics}
    (isModel : compilation.modelOf file source = .ok model)
    (ran : compilation.run (model.bind isCancelled) = (.ok ((unit, bound), reported), after))
    {expr : BoundExpr} (isPart : .expression expr ∈ unit.parts)
    (isName : model.tree.kind expr.node = .ok .identifierName) {name : String}
    (names : model.tree.Names expr.node name) :
    ∃ visible, (∀ other, model.tree.VisibleAt expr.node other ↔ other = visible) ∧
      ResolvesTo model.tree (declarationSites unit.parts) compilation.globals visible name
        expr.symbol? := by
  rcases modelOf_gives isModel with ⟨unbound, isRoot, wellFormed⟩
  have resolves := SemanticModel.bind_resolves setUp.sound.kinds unbound wellFormed isCancelled
  have partsResolve := resolves.of_run ran
  rw [isRoot] at partsResolve
  rcases partsResolve (declarationSites unit.parts) .host (List.Subset.refl _) _ isPart isName name
    names with ⟨visible, sees, resolved⟩
  refine ⟨visible, fun other => ⟨fun seesOther => sees.unique wellFormed seesOther, ?_⟩, resolved⟩
  rintro rfl
  exact sees

/-- Whether a part is an expression that the source spells as a name. -/
def isNameAt (tree : SyntaxTree) (name : String) : BoundPart → Bool
  | .expression expr =>
    tree.kind expr.node matches .ok .identifierName && tree.nameAt? expr.node == some name
  | .block _ | .statement _ => false

/-- A name in the body of a conclusion. -/
theorem resolves_lexically_conclusion :
    let text := "var n = 1; from m in numbers where m > n select m yield into r do n;"
    ∃ compilation model unit bound after expr,
      ofOptions ⟨["queryConclusions"], none, [("numbers", "seq<int>")], by decide⟩ =
        .ok compilation ∧
      compilation.modelOf 0 ⟨"main", ⟨text.toList, by decide +kernel⟩⟩ = .ok model ∧
      compilation.run (model.bind false) = (.ok ((unit, bound), []), after) ∧
      .expression expr ∈ unit.parts ∧ model.tree.kind expr.node = .ok .identifierName ∧
      model.tree.Names expr.node "n" ∧
      ∃ visible, (∀ other, model.tree.VisibleAt expr.node other ↔ other = visible) ∧
        ResolvesTo model.tree (declarationSites unit.parts) compilation.globals visible "n"
          expr.symbol? := by
  intro text
  let source : SourceFile := ⟨"main", ⟨text.toList, by decide +kernel⟩⟩
  have isMade :
      (ofOptions ⟨["queryConclusions"], none, [("numbers", "seq<int>")], by decide⟩).isOk := by
    decide +kernel
  have isScanned : (scanText 0 source.text).isOk := by decide +kernel
  have hasName :
      ∀ compilation ∈
        (ofOptions ⟨["queryConclusions"], none, [("numbers", "seq<int>")], by decide⟩).toOption,
      ∀ model ∈ (compilation.modelOf 0 source).toOption,
      ∀ bound ∈ (compilation.run (model.bind false)).1.toOption,
        bound.1.1.parts.any (isNameAt model.tree "n") = true := by
    decide +kernel
  rcases Checked.exists_ok_of_isOk isMade with ⟨compilation, made⟩
  rcases Checked.exists_ok_of_isOk isScanned with ⟨scanned, scans⟩
  have provides := (ofOptions_gives made).2.mono fun _ has => has.1
  rcases SetUp.runs (.ofOptions made) provides scans with ⟨model, unit, bound, after, isModel, ran⟩
  rcases List.any_eq_true.mp (hasName compilation (by rw [made]; rfl) model (by rw [isModel]; rfl)
    ((unit, bound), []) (by rw [ran]; rfl)) with ⟨part, isPart, partIsN⟩
  cases part with
  | block node | statement inner => cases partIsN
  | expression expr =>
      rcases Bool.and_eq_true_iff.mp partIsN with ⟨isKind, isN⟩
      have isName : model.tree.kind expr.node = .ok .identifierName := by
        split at isKind
        · assumption
        · cases isKind
      have names : model.tree.Names expr.node "n" := eq_of_beq isN
      exact ⟨compilation, model, unit, bound, after, expr, made, isModel, ran, isPart, isName,
        names, SetUp.resolves_lexically (.ofOptions made) isModel ran isPart isName names⟩

end Compilation

end QueryLang
