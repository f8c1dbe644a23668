import QueryLang.Proofs.Compilation.SetUp
import QueryLang.Proofs.Program.Concluding

/-!
# No error is silent

A file about which no error was reported was bound as a whole: there is nothing bad in it, nothing
in it has the error type, and all its conclusions have their lambdas. Whatever the binder left out
without a word was reported by the parser, or before.
-/

namespace QueryLang

/-- Nothing in a bound file stands for something that went wrong. -/
structure BoundUnit.Faultless (unit : BoundUnit) (tree : SyntaxTree) : Prop where
  noBad : ∀ node children, .expression (.bad node children) ∉ unit.parts
  expressions : ∀ expr, .expression expr ∈ unit.parts → expr.type ≠ .error
  declarations : ∀ symbol ∈ unit.declarations, unit.symbolType? symbol ≠ some .error
  lambdas : ∀ node, tree.kind node = .ok .queryConclusion → (unit.lambdaAt? node).isSome

variable {tree : SyntaxTree} {table : TypeTable} {damaged calm : Prop} {unit : BoundUnit}

theorem TypeTable.Has.ne_error {type : TypeId} (has : table.Has calm type) (sound : table.Sound)
    (isCalm : calm) : type ≠ .error := by
  intro isError
  exact has.not_calm sound (by simp [TypeId.isError, isError]) isCalm

theorem BoundUnit.lambdaAt?_isSome {node : NodeId} (isListed : node ∈ lambdaNodes unit.parts) :
    (unit.lambdaAt? node).isSome := by
  rcases List.mem_filterMap.mp isListed with ⟨part, inUnit, isPart⟩
  rcases Option.map_eq_some_iff.mp isPart with ⟨lambda, isLambda, rfl⟩
  refine List.find?_isSome.mpr ⟨lambda, List.mem_filterMap.mpr ⟨part, inUnit, isLambda⟩, ?_⟩
  simp

/-- While all is calm, the conclusions that are bound are all that the tree has. -/
theorem BoundBlock.Outcome.lambdas {block : BoundBlock}
    (outcome : BoundBlock.Outcome tree damaged calm table block)
    (wellFormed : tree.WellFormed damaged) (isCalm : calm) {node : NodeId}
    (isConclusion : tree.kind node = .ok .queryConclusion) : node ∈ lambdaNodes block.walk := by
  rcases outcome.concludes isCalm with ⟨list, isRoot, isAt, concludes⟩
  rcases SyntaxTree.node_eq_ok isConclusion with ⟨_, found, _⟩
  have below := wellFormed.reachable node (Array.getElem?_eq_some_iff.mp found).1
  rw [← isRoot] at below
  rcases isAt.branch.below_child below isConclusion (by decide) with ⟨top, isTop, inTop⟩
  exact Statement.mem_of_allConclude isConclusion list.statements concludes isAt.statements
    isTop inTop

/-- A file that is bound well while all is calm is bound as a whole. -/
theorem BoundBlock.Outcome.faultless
    (outcome : BoundBlock.Outcome tree damaged calm table unit.block) (sound : table.Sound)
    (wellFormed : tree.WellFormed damaged) (isCalm : calm) : unit.Faultless tree := by
  have reliable := reliable_of_outcome outcome
  refine ⟨?_, ?_, ?_, ?_⟩
  · intro node children isPart
    exact (reliable _ isPart).1 isCalm
  · intro expr isPart
    have exprReliable : expr.Reliable tree table calm := reliable _ isPart
    exact (exprReliable.type_has sound).ne_error sound isCalm
  · intro symbol isDeclared isError
    have has := reliable.symbolType (reliable.declaration symbol isDeclared) .error isError
    exact has.ne_error sound isCalm rfl
  · intro node isConclusion
    exact BoundUnit.lambdaAt?_isSome (outcome.lambdas wellFormed isCalm isConclusion)

namespace Compilation

theorem hasErrors_diagnostics (model : SemanticModel) (unit : BoundUnit) :
    (model.diagnostics unit).hasErrors =
      (model.parseDiagnostics.hasErrors || unit.diagnostics.hasErrors) := by
  rw [SemanticModel.diagnostics, Diagnostics.hasErrors_sorted]
  exact List.any_append

/-- If the error type occurs nowhere in what the host gives, then a file about which neither the
parser nor the binder reports an error is bound as a whole. -/
theorem SetUp.errors_reported {compilation : Compilation} (setUp : compilation.SetUp)
    (provides : compilation.Provides compilation.types.ErrorFree) {file : FileId}
    {source : SourceFile} {scanned : ScannedText}
    (scans : scanText file source.text = .ok scanned) :
    ∃ model unit bound after, compilation.modelOf file source = .ok model ∧
      compilation.run (model.bind false) = (.ok ((unit, bound), []), after) ∧
      ((model.diagnostics unit).hasErrors = false → unit.Faultless model.tree) := by
  rcases modelOf_eq_ok compilation scans with ⟨model, isModel⟩
  rcases modelOf_gives isModel with ⟨unbound, isRoot, wellFormed⟩
  have sound := setUp.sound
  let damaged : Prop := model.parseDiagnostics.hasErrors = true
  have has : compilation.Provides (compilation.types.Has ¬damaged) :=
    provides.mono fun _ errorFree => ⟨errorFree.lt_size, fun _ => errorFree⟩
  have footing : Footing damaged model.binder compilation.types ¬damaged := by
    rw [isRoot]
    exact footing_of_provides sound.types sound.noLambdas has id
  rcases run_bind_gives unbound wellFormed footing with ⟨unit, after, ran, _, advance, outcome⟩
  refine ⟨model, unit, _, after, isModel, ran, fun noErrors => ?_⟩
  rw [hasErrors_diagnostics] at noErrors
  rcases Bool.or_eq_false_iff.mp noErrors with ⟨noParseErrors, noBindErrors⟩
  have whole : ¬damaged := by simp [damaged, noParseErrors]
  exact outcome.faultless advance.sound wellFormed ⟨whole, noBindErrors⟩

/-- A query with a conclusion that uses its variable is bound as a whole. -/
theorem errors_reported_conclusion :
    let text := "from n in numbers select n yield into m do m.First();"
    ∃ compilation model unit bound after,
      ofOptions ⟨["queryConclusions"], none, [("numbers", "seq<int>")], by decide⟩ =
        .ok compilation ∧
      compilation.modelOf 0 ⟨"main", ⟨text.toList, by decide +kernel⟩⟩ = .ok model ∧
      compilation.run (model.bind false) = (.ok ((unit, bound), []), after) ∧
      (model.diagnostics unit).hasErrors = false ∧ unit.Faultless model.tree := by
  intro text
  let source : SourceFile := ⟨"main", ⟨text.toList, by decide +kernel⟩⟩
  have isMade :
      (ofOptions ⟨["queryConclusions"], none, [("numbers", "seq<int>")], by decide⟩).isOk := by
    decide +kernel
  have isScanned : (scanText 0 source.text).isOk := by decide +kernel
  have isClean :
      ∀ compilation ∈
        (ofOptions ⟨["queryConclusions"], none, [("numbers", "seq<int>")], by decide⟩).toOption,
      ∀ scanned ∈ (scanText 0 source.text).toOption,
      ∀ model ∈ (compilation.modelOf 0 source).toOption,
      ∀ bound ∈ (compilation.run (model.bind false)).1.toOption,
        (parseTokens 0 compilation.features scanned).diagnostics.hasErrors = false ∧
          bound.1.1.diagnostics.hasErrors = false := by
    decide +kernel
  rcases Checked.exists_ok_of_isOk isMade with ⟨compilation, made⟩
  rcases Checked.exists_ok_of_isOk isScanned with ⟨scanned, scans⟩
  have provides := (ofOptions_gives made).2.mono fun _ has => has.2 trivial
  rcases SetUp.errors_reported (.ofOptions made) provides scans with
    ⟨model, unit, bound, after, isModel, ran, faultless⟩
  have noErrors : (model.diagnostics unit).hasErrors = false := by
    rcases isClean compilation (by rw [made]; rfl) scanned (by rw [scans]; rfl) model
      (by rw [isModel]; rfl) ((unit, bound), []) (by rw [ran]; rfl) with ⟨isParsed, isBound⟩
    cases (modelOf_eq compilation scans).symm.trans isModel
    rw [hasErrors_diagnostics, Diagnostics.hasErrors_sorted, isParsed, isBound]
    rfl
  exact ⟨compilation, model, unit, bound, after, made, isModel, ran, noErrors, faultless noErrors⟩

end Compilation

end QueryLang
