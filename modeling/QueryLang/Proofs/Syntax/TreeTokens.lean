import QueryLang.Proofs.Syntax.Parsing

/-!
# The tokens of a parsed file

However damaged a file is, its tree has the tokens that were scanned, in their order and each of
them once. What recovery puts between them is marked as missing.
-/

namespace QueryLang

/-- What a scanned token is, and where. -/
def Token.placed (token : Token) : Kind × Span := (token.kind, token.span)

/-- What a token of a tree is, and where. -/
def TreeToken.placed (token : TreeToken) : Kind × Span := (token.kind, token.span)

/-- The tokens of a tree that stand in the source. -/
def SyntaxTree.realTokens (tree : SyntaxTree) : List TreeToken :=
  tree.tokens.toList.filter TreeToken.isReal

namespace ParseTree

mutual

/-- Numbering a piece of source leaves its tokens as they are. -/
theorem placed_treeTokens (place : Place) (parent : NodeId) (shape : ParseTree) :
    ((treeTokens place parent shape).filter TreeToken.isReal).map TreeToken.placed =
      shape.tokens.map Token.placed :=
  match shape with
  | .token _ | .missing _ => rfl
  | .node _ children => placed_treeTokensAll place.inside place.node children
  | .wrapped _ first rest => by
      rw [treeTokens, tokens, List.filter_append, List.map_append, List.map_append,
        placed_treeTokens place _ first, placed_treeTokensAll _ _ rest]

theorem placed_treeTokensAll (place : Place) (parent : NodeId) (shapes : List ParseTree) :
    ((treeTokensAll place parent shapes).filter TreeToken.isReal).map TreeToken.placed =
      (tokensOfAll shapes).map Token.placed :=
  match shapes with
  | [] => rfl
  | shape :: others => by
      rw [treeTokensAll, tokensOfAll, List.filter_append, List.map_append, List.map_append,
        placed_treeTokens place _ shape, placed_treeTokensAll _ _ others]

end

/-- A token that is the last piece is the last token. -/
theorem treeTokensAll_concat (place : Place) (parent : NodeId) (shapes : List ParseTree)
    (last : Token) :
    treeTokensAll place parent (shapes ++ [.token last]) =
      treeTokensAll place parent shapes ++
        [⟨last.kind, last.span, tokenValue last, false, parent⟩] := by
  induction shapes generalizing place with
  | nil => rfl
  | cons shape others ih =>
      rw [List.cons_append, treeTokensAll, treeTokensAll, ih, List.append_assoc]

end ParseTree

section Parsed

variable {file : FileId} {source : SourceText} {scanned : ScannedText}

/-- The source in a tree is that of its text. -/
theorem realTokens_eq (scans : scanText file source = .ok scanned) (fileName : String)
    (features : Features) :
    ((parseTokens file features scanned).shape.toTree file fileName source
      features).realTokens.map TreeToken.placed = scanned.allTokens.map Token.placed := by
  have placed := ParseTree.placed_treeTokens .start SyntaxTree.root
    (parseTokens file features scanned).shape
  rw [(parseTokens_faithful file features (scanText_covers scans)).tokens] at placed
  exact placed

/-- What stands in the source of a tree was scanned, and the other way round. -/
theorem mem_placed_iff (scans : scanText file source = .ok scanned) (fileName : String)
    (features : Features) {placed : Kind × Span} :
    placed ∈ scanned.allTokens.map Token.placed ↔ ∃ (id : Nat) (token : TreeToken),
      ((parseTokens file features scanned).shape.toTree file fileName source features).tokens[id]? =
        some token ∧ token.isMissing = false ∧ token.placed = placed := by
  rw [← realTokens_eq scans fileName features, List.mem_map]
  constructor
  · rintro ⟨token, member, rfl⟩
    obtain ⟨member, isReal⟩ := List.mem_filter.mp member
    obtain ⟨id, isToken⟩ := List.mem_iff_getElem?.mp member
    rw [Array.getElem?_toList] at isToken
    exact ⟨id, token, isToken, by simpa [TreeToken.isReal] using isReal, rfl⟩
  · rintro ⟨id, token, isToken, isReal, rfl⟩
    rw [← Array.getElem?_toList] at isToken
    refine ⟨token, List.mem_filter.mpr ⟨List.mem_of_getElem? isToken, ?_⟩, rfl⟩
    rw [TreeToken.isReal, isReal, Bool.not_false]

/-- The last token of a tree is the one that ends its file, and no other of its source does. -/
theorem tokens_toTree_concat (scans : scanText file source = .ok scanned) (fileName : String)
    (features : Features) :
    ∃ others last, ((parseTokens file features scanned).shape.toTree file fileName source
        features).tokens.toList = others ++ [last] ∧
      last.isMissing = false ∧ last.kind = .endOfFileToken ∧
      ∀ token ∈ others, token.isMissing = false → token.kind ≠ .endOfFileToken := by
  have covers := scanText_covers scans
  rcases parseTokens_last file features covers with ⟨pieces, shapeEq⟩
  have kept := (parseTokens_faithful file features covers).tokens
  rw [shapeEq, ParseTree.tokens, ParseTree.tokensOfAll_append] at kept
  have before : ParseTree.tokensOfAll pieces = scanned.tokens :=
    List.append_inj_left' kept rfl
  let others := ParseTree.treeTokensAll Place.start.inside SyntaxTree.root pieces
  let last : TreeToken := ⟨scanned.endOfFile.kind, scanned.endOfFile.span,
    ParseTree.tokenValue scanned.endOfFile, false, SyntaxTree.root⟩
  refine ⟨others, last, ?_, rfl, covers.tiled.endOfFile_kind, ?_⟩
  · rw [ParseTree.toTree, shapeEq]
    exact ParseTree.treeTokensAll_concat Place.start.inside SyntaxTree.root pieces _
  · intro token member isPresent isEnd
    have isReal : token.isReal = true := by rw [TreeToken.isReal, isPresent, Bool.not_false]
    have placed : token.placed ∈ (ParseTree.tokensOfAll pieces).map Token.placed := by
      rw [← ParseTree.placed_treeTokensAll]
      exact List.mem_map_of_mem (List.mem_filter.mpr ⟨member, isReal⟩)
    rw [before] at placed
    rcases List.mem_map.mp placed with ⟨own, isScanned, same⟩
    have sameKind : own.kind = token.kind := congrArg Prod.fst same
    exact covers.tiled.token_kind own isScanned (sameKind.trans isEnd)

/-- Parsing loses no token, repeats none and leaves their order as it is. The token that ends the
file stands at the end, and nowhere else. -/
theorem parseText_keeps_tokens (scans : scanText file source = .ok scanned) (fileName : String)
    (features : Features) :
    ∃ parsed, parseText file fileName source features = .ok parsed ∧
      parsed.tree.realTokens.map TreeToken.placed =
        (scanned.tokens ++ [scanned.endOfFile]).map Token.placed ∧
      ∃ others last, parsed.tree.tokens.toList = others ++ [last] ∧
        last.isMissing = false ∧ last.kind = .endOfFileToken ∧
        ∀ token ∈ others, token.isMissing = false → token.kind ≠ .endOfFileToken := by
  refine ⟨_, parseText_eq_ok scans, ?_, ?_⟩
  · exact realTokens_eq scans fileName features
  · exact tokens_toTree_concat scans fileName features

/-- Tokens that belong nowhere are kept, and missing ones are added. -/
theorem parseText_keeps_tokens_misplaced :
    let source : SourceText := ⟨"var = ) from ( \x7b \x7d \x7d do".toList, by decide +kernel⟩
    ∃ scanned, scanText 0 source = .ok scanned ∧
      ∃ parsed, parseText 0 "main" source .all = .ok parsed ∧
        parsed.tree.realTokens.map TreeToken.placed =
          (scanned.tokens ++ [scanned.endOfFile]).map Token.placed ∧
        ∃ others last, parsed.tree.tokens.toList = others ++ [last] ∧
          last.isMissing = false ∧ last.kind = .endOfFileToken ∧
          ∀ token ∈ others, token.isMissing = false → token.kind ≠ .endOfFileToken := by
  intro source
  have isScanned : (scanText 0 source).isOk := by decide +kernel
  rcases Checked.exists_ok_of_isOk isScanned with ⟨scanned, scans⟩
  exact ⟨scanned, scans, parseText_keeps_tokens scans "main" .all⟩

end Parsed

end QueryLang
