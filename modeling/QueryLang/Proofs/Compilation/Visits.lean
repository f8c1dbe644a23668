import QueryLang.Proofs.Binding.Visiting
import QueryLang.Proofs.Compilation.Names

/-!
# Every expression is visited once

The bound form of a file has an expression for every expression of the file that is to be bound,
and no more than one.
-/

namespace QueryLang

theorem SemanticModel.bind_covers {model : SemanticModel} {damaged : Prop}
    (unbound : model.bound = none) (wellFormed : model.tree.WellFormed damaged)
    (shallow : model.tree.Shallow) :
    (model.bind false).Yields fun result =>
      model.tree.Covers SyntaxTree.root (expressionNodes result.1.parts) := by
  rw [SemanticModel.bind, unbound]
  refine .next fun before => ?_
  refine (Binding.Yields.collecting (bindFile_covers wellFormed shallow rfl)).bind ?_
  rintro ⟨block, diagnostics⟩ covers
  exact .next fun _ => .pure covers

namespace Compilation

/-- A file without an expression that is nested too deep is bound, and then the expressions of its
bound form come from different nodes: from all expressions of the tree but the ones that are passed
over. -/
theorem SetUp.visits_once {compilation : Compilation} (setUp : compilation.SetUp)
    (provides : compilation.Provides (· < compilation.types.size)) {file : FileId}
    {source : SourceFile} {model : SemanticModel}
    (isModel : compilation.modelOf file source = .ok model) (shallow : model.tree.Shallow) :
    ∃ unit bound after,
      compilation.run (model.bind false) = (.ok ((unit, bound), []), after) ∧
      (expressionNodes unit.parts).Nodup ∧
      ∀ node, node ∈ expressionNodes unit.parts ↔
        model.tree.IsExpression node ∧ ¬model.tree.PassedOver node := by
  rcases setUp.runs_bind provides isModel with ⟨unit, bound, after, ran⟩
  rcases modelOf_gives isModel with ⟨unbound, _, wellFormed⟩
  have covers := (SemanticModel.bind_covers unbound wellFormed shallow).of_run ran
  exact ⟨unit, bound, after, ran, covers.nodup, covers.mem_root_iff wellFormed⟩

/-- A file with parentheses, a call of a member, and conclusions with a name and without one. -/
theorem visits_once_conclusions :
    let text := "var n = (1) + numbers.Count(); " ++
      "from m in numbers select m yield into r do r.First; " ++
      "from m in numbers select m yield into do m;"
    ∃ compilation model,
      ofOptions ⟨["queryConclusions"], none, [("numbers", "seq<int>")], by decide⟩ =
        .ok compilation ∧
      compilation.modelOf 0 ⟨"main", ⟨text.toList, by decide +kernel⟩⟩ = .ok model ∧
      model.tree.Shallow ∧
      ∃ unit bound after,
        compilation.run (model.bind false) = (.ok ((unit, bound), []), after) ∧
        (expressionNodes unit.parts).Nodup ∧
        ∀ node, node ∈ expressionNodes unit.parts ↔
          model.tree.IsExpression node ∧ ¬model.tree.PassedOver node := by
  intro text
  let source : SourceFile := ⟨"main", ⟨text.toList, by decide +kernel⟩⟩
  have isMade :
      (ofOptions ⟨["queryConclusions"], none, [("numbers", "seq<int>")], by decide⟩).isOk := by
    decide +kernel
  have isScanned : (scanText 0 source.text).isOk := by decide +kernel
  have isShallow :
      ∀ compilation ∈
        (ofOptions ⟨["queryConclusions"], none, [("numbers", "seq<int>")], by decide⟩).toOption,
      ∀ model ∈ (compilation.modelOf 0 source).toOption,
        model.tree.exceedsDepth SyntaxTree.root maxExpressionDepth = false := by
    decide +kernel
  rcases Checked.exists_ok_of_isOk isMade with ⟨compilation, made⟩
  rcases Checked.exists_ok_of_isOk isScanned with ⟨scanned, scans⟩
  have provides := (ofOptions_gives made).2.mono fun _ has => has.1
  rcases modelOf_eq_ok compilation scans with ⟨model, isModel⟩
  rcases modelOf_gives isModel with ⟨_, _, wellFormed⟩
  have shallow : model.tree.Shallow :=
    wellFormed.shallow (isShallow compilation (by rw [made]; rfl) model (by rw [isModel]; rfl))
  exact ⟨compilation, model, made, isModel, shallow,
    SetUp.visits_once (.ofOptions made) provides isModel shallow⟩

end Compilation

end QueryLang
