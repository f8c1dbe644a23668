import QueryLang.Proofs.Syntax.Building
import QueryLang.Proofs.Syntax.ParserShape

/-!
# Parsed files

Whenever a text can be scanned, it can be parsed: the tokens are given a shape, and the shape is
numbered. The tree of the file is known from the shape alone.
-/

namespace QueryLang

/-- The tree of a file of some shape. -/
def ParseTree.toTree (shape : ParseTree) (file : FileId) (fileName : String)
    (source : SourceText) (features : Features) : SyntaxTree where
  file := file
  fileName := fileName
  text := source.chars
  features := features
  nodes := (shape.treeNodes .start none).toArray
  tokens := (shape.treeTokens .start SyntaxTree.root).toArray

variable {file : FileId} {fileName : String} {source : SourceText} {features : Features}
  {scanned : ScannedText}

/-- Parsing a text that can be scanned gives the tree of its shape. -/
theorem parseText_eq_ok (scans : scanText file source = .ok scanned) :
    parseText file fileName source features = .ok {
      tree := (parseTokens file features scanned).shape.toTree file fileName source features
      diagnostics := Diagnostics.sorted (parseTokens file features scanned).diagnostics } := by
  have covers := scanText_covers scans
  have faithful := parseTokens_faithful file features covers
  rcases faithful.isNode with ⟨children, shapeEq⟩
  have within : ∀ token ∈ ParseTree.tokensOfAll children, token.span.Within source.chars := by
    intro token member
    have inScanned : token ∈ scanned.tokens ++ [scanned.endOfFile] := by
      rw [← faithful.tokens, shapeEq]
      exact member
    have atStart : byteLength [] = 0 := rfl
    exact covers.tiled.within atStart token inScanned
  have built := ParseTree.build_root source.byteLength_lt .compilationUnit children within
  rw [parseText, scans, Checked.ok_bind]
  simp only [shapeEq, built, Checked.ok_bind]
  rfl

/-- A text that is parsed has been scanned. -/
theorem exists_scanned_of_parseText {parsed : ParsedFile}
    (isParsed : parseText file fileName source features = .ok parsed) :
    ∃ scanned, scanText file source = .ok scanned ∧ parsed = {
      tree := (parseTokens file features scanned).shape.toTree file fileName source features
      diagnostics := Diagnostics.sorted (parseTokens file features scanned).diagnostics } := by
  rcases Checked.bind_eq_ok_iff.mp isParsed with ⟨scanned, scans, _⟩
  rw [parseText_eq_ok scans, Except.ok.injEq] at isParsed
  exact ⟨scanned, scans, isParsed.symm⟩

end QueryLang
