import QueryLang.Proofs.Syntax.Lexing
import QueryLang.Proofs.Syntax.Positions

/-!
# Ids of nodes and tokens

Nodes and tokens are numbered by their places in a tree, and their ids are these numbers cut to 32
bits. If their counts fit, a search that answers with ids finds the tokens that are there.

The counts need not fit: every missing token has its own id, so that a tree can have more tokens
than its text has characters. There is a text whose tokens are so many that their count is cut to
zero, and then no id is found for the end of the file.
-/

namespace QueryLang

namespace SyntaxTree

variable {tree : SyntaxTree} {damaged : Prop} {position : Nat}

/-- The nodes and the tokens of a tree are few enough to be counted in 32 bits. -/
structure FitsIds (tree : SyntaxTree) : Prop where
  nodes : tree.nodes.size < positionLimit
  tokens : tree.tokens.size < positionLimit

instance (tree : SyntaxTree) : Decidable tree.FitsIds :=
  decidable_of_iff (tree.nodes.size < positionLimit ∧ tree.tokens.size < positionLimit)
    ⟨fun fits => ⟨fits.1, fits.2⟩, fun fits => ⟨fits.nodes, fits.tokens⟩⟩

theorem FitsIds.endOfFileId_eq (fits : tree.FitsIds) : tree.endOfFileId = tree.endOfFileToken := by
  rw [endOfFileId, truncateToPosition, Nat.mod_eq_of_lt fits.tokens, subtractPositions,
    endOfFileToken]
  by_cases isEmpty : tree.tokens.size = 0
  · rw [if_pos isEmpty, if_neg (by omega)]
  · rw [if_neg isEmpty, if_pos (by omega)]

/-- No id is found for the last token if the count of the tokens is cut to zero. -/
theorem endOfFileId_eq_error (isCut : positionLimit ∣ tree.tokens.size) :
    tree.endOfFileId = .error .positionOverflow := by
  rw [endOfFileId, truncateToPosition, Nat.mod_eq_zero_of_dvd isCut]
  rfl

/-- Where the tokens can be counted, the id that is found is that of the token. -/
theorem WellFormed.findTokenId_eq (wellFormed : tree.WellFormed damaged) (fits : tree.FitsIds)
    (position : Nat) : tree.findTokenId position = tree.findToken position := by
  rcases wellFormed.tokenFrom?_gives position with ⟨found, foundEq, inRange⟩
  rw [findTokenId, findToken, foundEq, Checked.ok_bind, Checked.ok_bind]
  cases found with
  | none => exact fits.endOfFileId_eq
  | some id =>
      have hasId : id < positionLimit := Nat.lt_trans (inRange id rfl) fits.tokens
      exact congrArg Except.ok (Nat.mod_eq_of_lt hasId)

/-- From the end of the text on, the id of the last token is looked for. -/
theorem LaidOut.findTokenId_past (laidOut : tree.LaidOut) (wellFormed : tree.WellFormed damaged)
    (isPast : byteLength tree.text ≤ position) : tree.findTokenId position = tree.endOfFileId := by
  rcases laidOut.tokenFrom?_eq wellFormed position with ⟨found, foundEq, isAt, _⟩
  rw [findTokenId, foundEq, Checked.ok_bind]
  cases found with
  | none => rfl
  | some id =>
      rcases isAt id rfl with ⟨token, isAt, endsAfter⟩
      have inText := (wellFormed.token_within isAt.isToken).stop_boundary.le_byteLength
      omega

end SyntaxTree

/-! ### A text of close parentheses -/

theorem Lexed.closeParens (offset count : Nat) :
    ∃ lexemes, Lexed offset (List.replicate count ')') lexemes (offset + count) ∧
      lexemes.length = count ∧ ∀ entry ∈ lexemes, entry.2.kind = .closeParenToken := by
  induction count generalizing offset with
  | zero => exact ⟨[], .blanks offset 0, rfl, List.forall_mem_nil _⟩
  | succ count ih =>
      rcases ih (offset + 1) with ⟨lexemes, lexed, lengthEq, areClose⟩
      have noDouble : leadingDoubleKind? ')' (List.replicate count ')') = none := by
        cases count <;> rfl
      rw [Nat.add_assoc, Nat.add_comm 1 count] at lexed
      exact ⟨_, .single ⟨by decide, by simp⟩ noDouble rfl lexed, congrArg (· + 1) lengthEq,
        List.forall_mem_cons.mpr ⟨rfl, areClose⟩⟩

/-- Scanning such a text gives one token for each character. -/
theorem scanText_closeParens {source : SourceText} {count : Nat}
    (isText : source.chars = List.replicate count ')') (file : FileId) :
    ∃ scanned, scanText file source = .ok scanned ∧ scanned.tokens.length = count ∧
      (∀ token ∈ scanned.tokens, token.kind = .closeParenToken) ∧
      scanned.endOfFile.kind = .endOfFileToken := by
  rcases Lexed.closeParens 0 count with ⟨lexemes, lexed, lengthEq, areClose⟩
  rw [← isText] at lexed
  refine ⟨.ofLexemes file lexemes _, scanText_eq_ok_iff.mpr ⟨_, _, lexed, rfl⟩, ?_, ?_, rfl⟩
  · rw [ScannedText.ofLexemes, List.length_map, lengthEq]
  · exact List.forall_mem_map.mpr areClose

namespace Parser

/-- Where a close parenthesis stands, a statement without any token of the source is made up. -/
theorem statement_leads_closeParen {state : ParseState} {token : Token} {rest : List Token}
    (isRest : state.rest = token :: rest) (isClose : token.kind = .closeParenToken) :
    (statement nestingLimit).Leads state fun piece after =>
      piece.leafCount = 2 ∧ after.rest = state.rest ∧ after.endOfFile = state.endOfFile := by
  rcases state with ⟨file, features, _, endOfFile, lastEnd, diagnostics, reportedTooDeep⟩
  rcases token with ⟨kind, span, text⟩
  cases isRest
  cases isClose
  exact ⟨rfl, rfl, rfl⟩

/-- The parenthesis is consumed behind that statement. -/
theorem fileStatement_leads_closeParen {state : ParseState} {token : Token} {rest : List Token}
    (isRest : state.rest = token :: rest) (isClose : token.kind = .closeParenToken) :
    (fileStatement (statement nestingLimit)).Leads state fun pieces after =>
      pieces ≠ [] ∧ ParseTree.leafCountAll pieces = 3 ∧ after.rest = rest ∧
        after.endOfFile = state.endOfFile := by
  have isCurrent : state.current = .closeParenToken := by
    rw [ParseState.current_of_rest_cons isRest, isClose]
  rw [fileStatement, leads_bind, leads_current, isCurrent]
  dsimp only
  rw [recoveringStatement, leads_bind, leads_get]
  refine Leads.bind (statement_leads_closeParen isRest isClose) ?_
  rintro piece after ⟨leaves, sameRest, sameEnd⟩
  rw [leads_bind, leads_get, if_pos (congrArg List.length sameRest), leads_bind,
    leads_bump (sameRest.trans isRest), leads_pure]
  exact ⟨by simp, by simp [ParseTree.leafCountAll, ParseTree.leafCount, leaves], rfl, sameEnd⟩

/-- A file of close parentheses has three tokens for each, and one for its end. -/
theorem compilationUnit_leads_closeParens (state : ParseState)
    (areClose : ∀ token ∈ state.rest, token.kind = .closeParenToken)
    (isEnd : state.endOfFile.kind = .endOfFileToken) :
    compilationUnit.Leads state fun shape _ => shape.leafCount = 3 * state.rest.length + 1 := by
  have statements : (many (fileStatement (statement nestingLimit))).Leads state fun pieces after =>
      ParseTree.leafCountAll pieces = 3 * state.rest.length ∧ after.rest = [] := by
    refine many_leads (fun pieces after =>
      ParseTree.leafCountAll pieces + 3 * after.rest.length = 3 * state.rest.length ∧
        (∀ token ∈ after.rest, token.kind = .closeParenToken) ∧
        after.endOfFile = state.endOfFile) ?_ ⟨by simp [ParseTree.leafCountAll], areClose, rfl⟩
    rintro pieces state' ⟨count, areClose, sameEnd⟩
    cases isRest : state'.rest with
    | nil =>
        have isCurrent : state'.current = .endOfFileToken := by
          simp [ParseState.current, ParseState.currentToken, isRest, sameEnd, isEnd]
        rw [fileStatement, leads_bind, leads_current, isCurrent]
        exact .inl ⟨rfl, rfl, by simpa [isRest] using count, rfl⟩
    | cons token rest =>
        rw [isRest, List.forall_mem_cons] at areClose
        refine (fileStatement_leads_closeParen isRest areClose.1).mono ?_
        rintro new after ⟨notEmpty, leaves, rfl, sameEnd'⟩
        refine .inr ⟨notEmpty, by simp, ?_, areClose.2, sameEnd'.trans sameEnd⟩
        rw [isRest, List.length_cons] at count
        rw [ParseTree.leafCountAll_append]
        omega
  rw [compilationUnit, leads_bind]
  refine statements.mono fun pieces after parsed => ?_
  rw [leads_bind, bump, leads_bind, leads_get, parsed.2]
  simp [ParseTree.leafCount, ParseTree.leafCountAll_append, ParseTree.leafCountAll, parsed.1]

end Parser

/-- If the tokens of such a text are counted to zero, no id is found at its end. -/
theorem parseText_closeParens {source : SourceText} {count : Nat}
    (isText : source.chars = List.replicate count ')') (isCut : positionLimit ∣ 3 * count + 1)
    (file : FileId) (fileName : String) (features : Features) :
    ∃ parsed, parseText file fileName source features = .ok parsed ∧
      parsed.tree.tokens.size = 3 * count + 1 ∧
      ∀ position, count ≤ position →
        parsed.tree.findTokenId position = .error .positionOverflow := by
  rcases scanText_closeParens isText file with ⟨scanned, scans, lengthEq, areClose, isEnd⟩
  have leaves : (parseTokens file features scanned).shape.leafCount = 3 * count + 1 := by
    rw [← lengthEq]
    exact Parser.compilationUnit_leads_closeParens (.start file features scanned) areClose isEnd
  have sizeEq : ((parseTokens file features scanned).shape.toTree file fileName source
      features).tokens.size = 3 * count + 1 := by
    rw [ParseTree.toTree, List.size_toArray, ParseTree.length_treeTokens, leaves]
  refine ⟨_, parseText_eq_ok scans, sizeEq, fun position isPast => ?_⟩
  rw [(laidOut_of_scanText scans).findTokenId_past (wellFormed_of_scanText scans)]
  · exact SyntaxTree.endOfFileId_eq_error (sizeEq ▸ isCut)
  · have lengthEq : byteLength source.chars = count * 1 := by
      rw [isText, byteLength_replicate]
      rfl
    show byteLength source.chars ≤ position
    omega

end QueryLang
