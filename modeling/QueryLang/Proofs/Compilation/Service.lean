import QueryLang.Proofs.Compilation.SetUp
import QueryLang.Proofs.Editor.Keywords
import QueryLang.Proofs.Syntax.Ids

/-!
# Every file is served

Once a text can be scanned, nothing that an editor asks about the file ends in a fault: parsing and
binding keep every shape and every index that the answers rely on, however damaged the text is. All
that can be in the way is the number of tokens. Every question about a position starts from the
token there, and in a tree with too many of them the search for it fails at the end of the file.
-/

namespace QueryLang

namespace Compilation

/-- A file is parsed and bound, and then every question about it has an answer: which token is at a
position, by an id of its own, which symbol stands there and what to show about it, where a symbol
stands, and which keywords can be typed. What was reported, and the lambda of a conclusion, need no
further steps. -/
def Serves (compilation : Compilation) (file : FileId) (source : SourceFile) : Prop :=
  ∃ model unit bound after, compilation.modelOf file source = .ok model ∧
    compilation.run (model.bind false) = (.ok ((unit, bound), []), after) ∧
    (∀ symbol, ∃ spans, bound.referenceSpans unit symbol = .ok spans) ∧
    ∀ position,
      (∃ id, bound.tree.findTokenId position = .ok id ∧ bound.tree.findToken position = .ok id) ∧
      (∃ symbol, bound.symbolAt? unit position = .ok symbol) ∧
      (∃ hover, bound.hover? unit after.types position = .ok hover) ∧
      (∃ highlights, bound.highlights unit position = .ok highlights) ∧
      ∃ keywords, bound.tree.recommendKeywords position = .ok keywords

/-- Every file whose text can be scanned is served, however damaged it is and whatever the host
gives, as long as the types of the globals and members are there, and the nodes and the tokens of
the file can be counted in 32 bits. -/
theorem SetUp.serves {compilation : Compilation} (setUp : compilation.SetUp)
    (provides : compilation.Provides (· < compilation.types.size)) {file : FileId}
    {source : SourceFile} {scanned : ScannedText}
    (scans : scanText file source.text = .ok scanned)
    (fits : ∀ model, compilation.modelOf file source = .ok model → model.tree.FitsIds) :
    compilation.Serves file source := by
  rcases modelOf_eq_ok compilation scans with ⟨model, isModel⟩
  rcases modelOf_gives isModel with ⟨unbound, isRoot, wellFormed⟩
  have sound := setUp.sound
  have footing : Footing (Diagnostics.hasErrors model.parseDiagnostics = true)
      compilation.rootBinder compilation.types False :=
    footing_of_provides sound.types sound.noLambdas provides.has False.elim
  rw [← isRoot] at footing
  rcases run_bind_gives unbound wellFormed footing with ⟨unit, after, ran, _, advance, outcome⟩
  have reliable := reliable_of_outcome outcome
  let bound : SemanticModel := { model with bound := some unit }
  refine ⟨model, unit, bound, after, isModel, ran, fun symbol => ?_, fun position => ?_⟩
  · rcases bound.referenceSpans_gives reliable symbol with ⟨spans, spansEq, _⟩
    exact ⟨spans, spansEq⟩
  · rcases wellFormed.findToken_gives position with ⟨id, idEq, _⟩
    have sameId := (wellFormed.findTokenId_eq (fits model isModel) position).trans idEq
    rcases bound.symbolAt?_gives position wellFormed reliable with ⟨symbol, symbolEq, _⟩
    rcases bound.hover?_gives position advance.sound wellFormed reliable with ⟨hover, hoverEq, _⟩
    rcases bound.highlights_gives position wellFormed reliable with
      ⟨highlights, highlightsEq, _⟩
    rcases wellFormed.recommendKeywords_gives position with ⟨keywords, keywordsEq, _⟩
    exact ⟨⟨id, sameId, idEq⟩, ⟨symbol, symbolEq⟩, ⟨hover, hoverEq⟩, ⟨highlights, highlightsEq⟩,
      keywords, keywordsEq⟩

/-- A conclusion whose body breaks off is served as well. -/
theorem serves_unfinished_conclusion :
    let text := "from n in numbers yield into m do \x7b m.First( "
    ∃ compilation,
      ofOptions ⟨["queryConclusions"], none, [("numbers", "seq<int>")], by decide⟩ =
        .ok compilation ∧
      (∀ model, compilation.modelOf 0 ⟨"main", ⟨text.toList, by decide +kernel⟩⟩ = .ok model →
        model.tree.FitsIds) ∧
      compilation.Serves 0 ⟨"main", ⟨text.toList, by decide +kernel⟩⟩ := by
  intro text
  let source : SourceFile := ⟨"main", ⟨text.toList, by decide +kernel⟩⟩
  have isMade :
      (ofOptions ⟨["queryConclusions"], none, [("numbers", "seq<int>")], by decide⟩).isOk := by
    decide +kernel
  have isScanned : (scanText 0 source.text).isOk := by decide +kernel
  have isSmall : ∀ compilation ∈
      (ofOptions ⟨["queryConclusions"], none, [("numbers", "seq<int>")], by decide⟩).toOption,
      ∀ model ∈ (compilation.modelOf 0 source).toOption, model.tree.FitsIds := by
    decide +kernel
  rcases Checked.exists_ok_of_isOk isMade with ⟨compilation, made⟩
  rcases Checked.exists_ok_of_isOk isScanned with ⟨scanned, scans⟩
  have provides := (ofOptions_gives made).2.mono fun _ has => has.1
  have fits : ∀ model, compilation.modelOf 0 source = .ok model → model.tree.FitsIds :=
    fun model isModel => isSmall compilation (by rw [made]; rfl) model (by rw [isModel]; rfl)
  exact ⟨compilation, made, fits, SetUp.serves (.ofOptions made) provides scans fits⟩

/-- In a file of close parentheses whose tokens are counted to zero, there is no answer to what is
at its end. -/
theorem modelOf_closeParens (compilation : Compilation) (source : SourceFile) {count : Nat}
    (isText : source.text.chars = List.replicate count ')')
    (isCut : positionLimit ∣ 3 * count + 1) (file : FileId) :
    ∃ scanned model, scanText file source.text = .ok scanned ∧
      compilation.modelOf file source = .ok model ∧ model.tree.tokens.size = 3 * count + 1 ∧
      ∀ position, count ≤ position →
        model.tree.findTokenId position = .error .positionOverflow := by
  rcases parseText_closeParens isText isCut file source.name compilation.features with
    ⟨parsed, isParsed, sizeEq, fails⟩
  rcases exists_scanned_of_parseText isParsed with ⟨scanned, scans, _⟩
  refine ⟨scanned, ⟨parsed.tree, parsed.diagnostics, compilation.rootBinder, none⟩, scans, ?_,
    sizeEq, fails⟩
  rw [modelOf, isParsed]
  rfl

/-- Three tokens for each of 1431655765 characters and one for the end of the file are as many as
there are numbers of 32 bits. -/
theorem serving_overflows :
    let text := List.replicate 1431655765 ')'
    ∃ (fits : byteLength text < positionLimit) (compilation : Compilation) (model : SemanticModel),
      ofOptions .default = .ok compilation ∧ (scanText 0 ⟨text, fits⟩).isOk ∧
      compilation.modelOf 0 ⟨"main", ⟨text, fits⟩⟩ = .ok model ∧
      model.tree.findTokenId 1431655765 = .error .positionOverflow := by
  intro text
  have fits : byteLength text < positionLimit := by
    rw [byteLength_replicate]
    decide
  have isMade : (ofOptions .default).isOk := by decide +kernel
  rcases Checked.exists_ok_of_isOk isMade with ⟨compilation, made⟩
  rcases modelOf_closeParens compilation ⟨"main", ⟨text, fits⟩⟩ rfl (by decide) 0 with
    ⟨scanned, model, scans, isModel, _, fails⟩
  exact ⟨fits, compilation, model, made, by rw [scans]; rfl, isModel, fails _ (Nat.le_refl _)⟩

end Compilation

end QueryLang
