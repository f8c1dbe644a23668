import QueryLang.Proofs.Binding.Lambdas
import QueryLang.Proofs.Compilation.SymbolAt
import QueryLang.Proofs.Syntax.Opening

/-!
# From symbols back to their nodes

Binding a file makes locals, variables of queries and of conclusions, and for each conclusion a
lambda with one parameter. From where a variable or a parameter is declared one gets back to its
node. The lambdas are the exception: a lambda is placed over the whole of its conclusion, so that it
starts at the keyword `yield`, which is no identifier.
-/

namespace QueryLang

theorem SemanticModel.bind_placed {model : SemanticModel} (unbound : model.bound = none)
    (isCancelled : Bool) :
    (model.bind isCancelled).Yields fun result => LambdasPlaced model.tree result.1.parts := by
  rw [SemanticModel.bind, unbound]
  refine .next fun before => (Binding.Yields.collecting bindFile_placed).bind ?_
  rintro ⟨block, diagnostics⟩ placed
  exact .next fun _ => .pure placed

namespace BoundUnit.IsOf

variable {unit : BoundUnit} {tree : SyntaxTree} {damaged : Prop} {globals : List Symbol}
  {file : ParseTree} {part : BoundPart} {conclusion : BoundConclusionLambda}
  (isOf : unit.IsOf tree damaged globals)

include isOf

/-- From a symbol one gets back to the node that declares it. -/
theorem site_declaringNode {node : NodeId} {symbol : Symbol}
    (isSite : (node, symbol) ∈ declarationSites unit.parts) :
    symbol.declaringNode? tree = .ok (some node) := by
  obtain ⟨id, token, own, _⟩ := isOf.site_identifier isSite
  have leads := (isOf.leadsBack ⟨node, own, isSite⟩).node
  rwa [own.parent_eq] at leads

section

variable (isPart : part ∈ unit.parts) (isLambda : conclusion ∈ part.lambda?)
  (placed : conclusion.IsPlaced tree)

include isPart isLambda placed

theorem conclusion_kind : tree.kind conclusion.node = .ok .queryConclusion := by
  have isSite : (conclusion.node, conclusion.parameter) ∈ declarationSites unit.parts :=
    List.mem_flatMap.mpr ⟨part, isPart, BoundPart.site_of_lambda isLambda⟩
  exact (isOf.places.declares _ isSite).conclusion.mpr placed.isVariable

/-- The parameter is declared where the conclusion's variable is. -/
theorem parameter_declaringNode {parameter : Symbol}
    (sameLocations : parameter.locations = conclusion.parameter.locations) :
    parameter.declaringNode? tree = .ok (some conclusion.node) := by
  have isSite : (conclusion.node, conclusion.parameter) ∈ declarationSites unit.parts :=
    List.mem_flatMap.mpr ⟨part, isPart, BoundPart.site_of_lambda isLambda⟩
  obtain ⟨id, token, own, location⟩ := isOf.site_identifier isSite
  have sameLocation : parameter.firstLocation? = conclusion.parameter.firstLocation? :=
    congrArg List.head? sameLocations
  have kindEq := isOf.conclusion_kind isPart isLambda placed
  rw [← own.parent_eq] at kindEq ⊢
  exact isOf.declaringNode?_eq own.isIdentifier (sameLocation.trans location) kindEq fun _ => rfl

/-- The lambda starts where the conclusion does, and that is at a keyword. -/
theorem lambda_declaringNode {broken : Prop} (shows : tree.Shows broken file)
    (starts : file.StartsConstructs) :
    ∃ span, tree.span conclusion.node = .ok span ∧
      conclusion.lambda.symbol.firstLocation? = some (tree.location span) ∧
      conclusion.lambda.symbol.declaringNode? tree = .error .declarationNotAnIdentifier := by
  obtain ⟨span, first, token, spanEq, isToken, isYield, isReal, startEq⟩ :=
    shows.conclusion_opens starts (isOf.conclusion_kind isPart isLambda placed)
  obtain ⟨own, ownEq, locations⟩ := placed.location
  cases spanEq.symm.trans ownEq
  have location : conclusion.lambda.symbol.firstLocation? = some (tree.location span) :=
    congrArg List.head? locations
  refine ⟨span, spanEq, location, ?_⟩
  have tokenEq : tree.token first = .ok token := by rw [SyntaxTree.token, isToken]
  have found : tree.findToken (tree.location span).start = .ok first := by
    rw [show (tree.location span).start = token.span.start from startEq]
    exact isOf.laidOut.findToken_start isOf.wellFormed isToken isReal
  rw [Symbol.declaringNode?, location]
  dsimp only
  rw [if_neg (by simp [SyntaxTree.location]), found, Checked.ok_bind, tokenEq, Checked.ok_bind,
    if_pos (by simp [isYield])]

end

end BoundUnit.IsOf

namespace Compilation

theorem modelOf_shows {compilation : Compilation} {file : FileId} {source : SourceFile}
    {model : SemanticModel} (isModel : compilation.modelOf file source = .ok model) :
    ∃ damaged shape, model.tree.Shows damaged shape ∧ shape.StartsConstructs ∧
      shape.Sourced := by
  obtain ⟨parsed, isParsed, isPure⟩ := Checked.bind_eq_ok_iff.mp isModel
  obtain ⟨scanned, scans, rfl⟩ := exists_scanned_of_parseText isParsed
  cases isPure
  have covers := scanText_covers scans
  exact ⟨_, _, SyntaxTree.shows_of_scanText scans, parseTokens_startsConstructs _ _ covers,
    parseTokens_sourced _ _ covers⟩

/-- In a file whose text can be scanned, every local and every variable of a query or of a
conclusion leads back to the node that declares it, and the one parameter of a conclusion's lambda
leads back to the conclusion. The lambda itself is placed over the conclusion, and from there one
fails to get back, as no identifier starts there. -/
theorem SetUp.symbols_leadBack {compilation : Compilation} (setUp : compilation.SetUp)
    (provides : compilation.Provides (· < compilation.types.size)) {file : FileId}
    {source : SourceFile} {scanned : ScannedText}
    (scans : scanText file source.text = .ok scanned) :
    ∃ model unit after, compilation.modelOf file source = .ok model ∧
      compilation.run (model.bind false) =
        (.ok ((unit, { model with bound := some unit }), []), after) ∧
      (∀ node symbol, (node, symbol) ∈ declarationSites unit.parts →
        symbol.declaringNode? model.tree = .ok (some node)) ∧
      ∀ part ∈ unit.parts, ∀ conclusion ∈ part.lambda?,
        (∃ parameter, conclusion.lambda.symbol.parameters = [parameter] ∧
          parameter.kind = .parameter ∧
          parameter.declaringNode? model.tree = .ok (some conclusion.node)) ∧
        ∃ span, model.tree.span conclusion.node = .ok span ∧
          conclusion.lambda.symbol.firstLocation? = some (model.tree.location span) ∧
          conclusion.lambda.symbol.declaringNode? model.tree =
            .error .declarationNotAnIdentifier := by
  have settled : compilation.Settled := ⟨setUp.sound, setUp.hosted, provides⟩
  obtain ⟨model, isModel⟩ := modelOf_eq_ok compilation scans
  obtain ⟨unit, after, ran, _⟩ := settled.runs_bind settled.later_self isModel
  have isOf := (setUp.bind_isOf isModel).of_run ran
  have placed := (SemanticModel.bind_placed (modelOf_gives isModel).1 false).of_run ran
  refine ⟨model, unit, after, isModel, ran, fun node symbol => isOf.site_declaringNode, ?_⟩
  intro part isPart conclusion isLambda
  have isPlaced := placed part isPart conclusion isLambda
  obtain ⟨parameter, only, sort, sameLocations⟩ := isPlaced.parameter
  obtain ⟨_, _, shows, starts, _⟩ := modelOf_shows isModel
  exact ⟨⟨parameter, only, sort,
    isOf.parameter_declaringNode isPart isLambda isPlaced sameLocations⟩,
    isOf.lambda_declaringNode isPart isLambda isPlaced shows starts⟩

/-- A file with a conclusion inside of another one, and with nested loops and blocks. -/
theorem symbols_leadBack_nested :
    let text := "do \x7b var x = 1; from n in numbers let m = n select m yield into r do " ++
      "from k in r select k yield into s do s; \x7d while true; var y = 2;"
    ∃ compilation model unit after,
      ofOptions ⟨["queryConclusions"], none, [("numbers", "seq<int>")], by decide⟩ =
        .ok compilation ∧
      compilation.modelOf 0 ⟨"main", ⟨text.toList, by decide +kernel⟩⟩ = .ok model ∧
      compilation.run (model.bind false) =
        (.ok ((unit, { model with bound := some unit }), []), after) ∧
      (∀ node symbol, (node, symbol) ∈ declarationSites unit.parts →
        symbol.declaringNode? model.tree = .ok (some node)) ∧
      (declarationSites unit.parts).length = 7 ∧
      ((unit.parts.filterMap BoundPart.lambda?).map fun conclusion =>
        conclusion.lambda.symbol.firstLocation?.map Location.start) = [some 53, some 90] ∧
      ∀ part ∈ unit.parts, ∀ conclusion ∈ part.lambda?,
        (∃ parameter, conclusion.lambda.symbol.parameters = [parameter] ∧
          parameter.declaringNode? model.tree = .ok (some conclusion.node)) ∧
        conclusion.lambda.symbol.declaringNode? model.tree =
          .error .declarationNotAnIdentifier := by
  intro text
  let source : SourceFile := ⟨"main", ⟨text.toList, by decide +kernel⟩⟩
  have isMade :
      (ofOptions ⟨["queryConclusions"], none, [("numbers", "seq<int>")], by decide⟩).isOk := by
    decide +kernel
  have isScanned : (scanText 0 source.text).isOk := by decide +kernel
  have counts :
      ∀ compilation ∈
        (ofOptions ⟨["queryConclusions"], none, [("numbers", "seq<int>")], by decide⟩).toOption,
      ∀ model ∈ (compilation.modelOf 0 source).toOption,
      ∀ bound ∈ (compilation.run (model.bind false)).1.toOption,
        (declarationSites bound.1.1.parts).length = 7 ∧
          ((bound.1.1.parts.filterMap BoundPart.lambda?).map fun conclusion =>
            conclusion.lambda.symbol.firstLocation?.map Location.start) =
              [some 53, some 90] := by
    decide +kernel
  obtain ⟨compilation, made⟩ := Checked.exists_ok_of_isOk isMade
  obtain ⟨scanned, scans⟩ := Checked.exists_ok_of_isOk isScanned
  have provides := (ofOptions_gives made).2.mono fun _ has => has.1
  obtain ⟨model, unit, after, isModel, ran, sites, lambdas⟩ :=
    SetUp.symbols_leadBack (.ofOptions made) provides scans
  obtain ⟨siteCount, starts⟩ := counts compilation (by rw [made]; rfl) model
    (by rw [isModel]; rfl) ((unit, { model with bound := some unit }), []) (by rw [ran]; rfl)
  refine ⟨compilation, model, unit, after, made, isModel, ran, sites, siteCount, starts, ?_⟩
  intro part isPart conclusion isLambda
  obtain ⟨⟨parameter, only, _, leadsBack⟩, _, _, _, fails⟩ :=
    lambdas part isPart conclusion isLambda
  exact ⟨⟨parameter, only, leadsBack⟩, fails⟩

/-- A lambda that has a place in the file, from which one does not get back to a node. -/
theorem lambda_leadsNowhere :
    let text := "from n in a select n yield into r do r;"
    ∃ compilation model unit bound after,
      ofOptions ⟨["queryConclusions"], none, [], by decide⟩ = .ok compilation ∧
      compilation.modelOf 0 ⟨"main", ⟨text.toList, by decide +kernel⟩⟩ = .ok model ∧
      compilation.run (model.bind false) = (.ok ((unit, bound), []), after) ∧
      ∃ part ∈ unit.parts, ∃ conclusion ∈ part.lambda?,
        conclusion.lambda.symbol.firstLocation? = some ⟨model.tree.file, ⟨21, 17⟩⟩ ∧
        ¬∃ node, conclusion.lambda.symbol.declaringNode? model.tree = .ok (some node) := by
  intro text
  let source : SourceFile := ⟨"main", ⟨text.toList, by decide +kernel⟩⟩
  have isMade : (ofOptions ⟨["queryConclusions"], none, [], by decide⟩).isOk := by decide +kernel
  have isScanned : (scanText 0 source.text).isOk := by decide +kernel
  have leadsNowhere :
      ∀ compilation ∈ (ofOptions ⟨["queryConclusions"], none, [], by decide⟩).toOption,
      ∀ model ∈ (compilation.modelOf 0 source).toOption,
      ∀ result ∈ (compilation.run (model.bind false)).1.toOption,
        ∃ part ∈ result.1.1.parts, ∃ conclusion ∈ part.lambda?,
          conclusion.lambda.symbol.firstLocation? = some ⟨model.tree.file, ⟨21, 17⟩⟩ ∧
            (conclusion.lambda.symbol.declaringNode? model.tree).isOk = false := by
    decide +kernel
  obtain ⟨compilation, made⟩ := Checked.exists_ok_of_isOk isMade
  obtain ⟨scanned, scans⟩ := Checked.exists_ok_of_isOk isScanned
  have provides := (ofOptions_gives made).2.mono fun _ has => has.1
  obtain ⟨model, unit, bound, after, isModel, ran⟩ := SetUp.runs (.ofOptions made) provides scans
  obtain ⟨part, isPart, conclusion, isLambda, location, fails⟩ := leadsNowhere compilation
    (by rw [made]; rfl) model (by rw [isModel]; rfl) ((unit, bound), []) (by rw [ran]; rfl)
  refine ⟨compilation, model, unit, bound, after, made, isModel, ran, part, isPart, conclusion,
    isLambda, location, ?_⟩
  rintro ⟨node, leadsBack⟩
  rw [leadsBack] at fails
  cases fails

end Compilation

end QueryLang
