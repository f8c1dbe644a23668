import QueryLang.Proofs.Checked
import QueryLang.Proofs.Text.Boundary
import QueryLang.Syntax.Token.Scanner

/-!
# What scanning gives

Scanning cuts a text into tokens, with trivia in between. `Tiled` says so about the tokens of a
text; where they start and end, and that only the last of them ends the file, follows from it.
-/

namespace QueryLang

theorem splitTrivia_append (inComment : Bool) (text : List Char) :
    (splitTrivia inComment text).1 ++ (splitTrivia inComment text).2 = text := by
  induction text generalizing inComment with
  | nil => rfl
  | cons char rest ih =>
      rw [splitTrivia]
      split
      · exact congrArg (char :: ·) (ih true)
      · split
        · exact congrArg (char :: ·) (ih false)
        · split
          · exact congrArg (char :: ·) (ih true)
          · rfl

theorem splitString_append (text : List Char) :
    (splitString text).2.1 ++ (splitString text).2.2 = text := by
  fun_induction splitString text with
  | case1 => rfl
  | case2 => rfl
  | case3 escaped rest ending chars after split ih =>
      rw [split] at ih
      simpa using ih
  | case4 char rest _ _ isQuote =>
      simp only [beq_iff_eq] at isQuote
      simp [isQuote]
  | case5 char rest _ _ _ isNewline => rfl
  | case6 char rest _ _ _ _ ending chars after split ih =>
      rw [split] at ih
      simpa using ih

theorem splitNumber_append (text : List Char) :
    (splitNumber text).1 ++ (splitNumber text).2 = text := by
  have whole := List.takeWhile_append_dropWhile (p := isAsciiDigit) (l := text)
  rw [splitNumber]
  split
  · next rest split =>
    rw [split] at whole
    dsimp only
    split
    · exact whole
    · have fraction := List.takeWhile_append_dropWhile (p := isAsciiDigit) (l := rest)
      simpa [fraction] using whole
  · next rest split => exact whole

theorem splitNumber_ne_nil {char : Char} (isDigit : isAsciiDigit char = true)
    (rest : List Char) : (splitNumber (char :: rest)).1 ≠ [] := by
  rw [splitNumber]
  split
  · dsimp only
    split <;> simp [isDigit]
  · simp [isDigit]

/-- What a lexeme takes off a text and what it leaves make up the text. -/
theorem splitLexeme_append (char : Char) (rest : List Char) :
    (splitLexeme char rest).chars ++ (splitLexeme char rest).rest = char :: rest := by
  unfold splitLexeme
  split
  · exact congrArg (char :: ·) (List.take_append_drop 1 rest)
  · split
    · rfl
    · split
      · have string := splitString_append rest
        split <;> · next split => rw [split] at string; exact congrArg (char :: ·) string
      · split
        · exact splitNumber_append (char :: rest)
        · split
          · exact congrArg (char :: ·) List.takeWhile_append_dropWhile
          · rfl

/-- The kinds that a lexeme of fixed spelling can have. -/
def Kind.IsSpelled (kind : Kind) : Prop := kind ≠ .endOfFileToken ∧ kind ≠ .unknown

theorem isSpelled_of_leadingDoubleKind? {char : Char} {rest : List Char} {kind : Kind}
    (found : leadingDoubleKind? char rest = some kind) : kind.IsSpelled := by
  unfold leadingDoubleKind? at found
  split at found
  · simp at found
  · unfold doubleCharacterKind? at found
    split at found <;> simp at found <;> subst found <;> exact ⟨by decide, by decide⟩

theorem isSpelled_of_singleCharacterKind? {char : Char} {kind : Kind}
    (found : singleCharacterKind? char = some kind) : kind.IsSpelled := by
  unfold singleCharacterKind? at found
  split at found <;> simp at found <;> subst found <;> exact ⟨by decide, by decide⟩

theorem isSpelled_of_ofKeyword? {text : String} {kind : Kind}
    (found : Kind.ofKeyword? text = some kind) : kind.IsSpelled := by
  have keyword := List.find?_some found
  constructor <;> rintro rfl <;> simp [Kind.keywordText?] at keyword

/-- What can be said of any lexeme: it is not empty, does not end the file, and is of unknown kind
only when it is a character that starts no token. -/
structure Lexeme.Proper (lexeme : Lexeme) : Prop where
  chars_ne_nil : lexeme.chars ≠ []
  kind_ne_endOfFile : lexeme.kind ≠ .endOfFileToken
  problem_of_unknown : lexeme.kind = .unknown →
    ∃ char, lexeme.problem = some (.unexpectedCharacter char)

theorem Lexeme.proper_of_isSpelled {lexeme : Lexeme} (notEmpty : lexeme.chars ≠ [])
    (spelled : lexeme.kind.IsSpelled) : lexeme.Proper :=
  ⟨notEmpty, spelled.1, fun isUnknown => absurd isUnknown spelled.2⟩

theorem splitLexeme_proper (char : Char) (rest : List Char) :
    (splitLexeme char rest).Proper := by
  unfold splitLexeme
  split
  · next kind found =>
    exact Lexeme.proper_of_isSpelled (by simp) (isSpelled_of_leadingDoubleKind? found)
  · split
    · next kind found =>
      exact Lexeme.proper_of_isSpelled (by simp) (isSpelled_of_singleCharacterKind? found)
    · split
      · split <;> exact Lexeme.proper_of_isSpelled (by simp) ⟨by simp, by simp⟩
      · split
        · next isDigit =>
          exact Lexeme.proper_of_isSpelled (splitNumber_ne_nil isDigit rest)
            ⟨by simp, by simp⟩
        · split
          · refine Lexeme.proper_of_isSpelled (by simp) ?_
            cases found : Kind.ofKeyword? (String.ofList
                (char :: rest.takeWhile isIdentifierPart)) with
            | none =>
                simp only [found]
                exact ⟨by decide, by decide⟩
            | some kind =>
                simp only [found]
                exact isSpelled_of_ofKeyword? found
          · exact ⟨by simp, by simp, fun _ => ⟨char, rfl⟩⟩

/-- A text consists of tokens with trivia between them, from an offset up to the token that ends
the file. -/
inductive Tiled : (offset : Nat) → List Char → List Token → Token → Prop
  | done {offset : Nat} {trivia : List Char} :
      Tiled offset trivia [] ⟨.endOfFileToken, .empty (offset + byteLength trivia), ""⟩
  | token {offset : Nat} {kind : Kind} {trivia lexeme rest : List Char} {tokens : List Token}
      {endOfFile : Token} (notEnd : kind ≠ .endOfFileToken) (notEmpty : lexeme ≠ [])
      (tiled : Tiled (offset + byteLength trivia + byteLength lexeme) rest tokens endOfFile) :
      Tiled offset (trivia ++ (lexeme ++ rest))
        (⟨kind, ⟨offset + byteLength trivia, byteLength lexeme⟩, String.ofList lexeme⟩ :: tokens)
        endOfFile

namespace Tiled

variable {offset : Nat} {chars : List Char} {tokens : List Token} {endOfFile : Token}

theorem endOfFile_kind (tiled : Tiled offset chars tokens endOfFile) :
    endOfFile.kind = .endOfFileToken := by
  induction tiled with
  | done => rfl
  | token _ _ _ ih => exact ih

theorem token_kind (tiled : Tiled offset chars tokens endOfFile) :
    ∀ token ∈ tokens, token.kind ≠ .endOfFileToken := by
  induction tiled with
  | done => simp
  | token notEnd _ _ ih =>
      intro token member
      rcases List.mem_cons.mp member with rfl | member
      · exact notEnd
      · exact ih token member

theorem offset_le_start (tiled : Tiled offset chars tokens endOfFile) :
    ∀ token ∈ tokens ++ [endOfFile], offset ≤ token.span.start := by
  induction tiled with
  | done =>
      intro token member
      simp only [List.nil_append, List.mem_singleton] at member
      subst member
      exact Nat.le_add_right _ _
  | token _ _ _ ih =>
      intro token member
      rw [List.cons_append, List.mem_cons] at member
      rcases member with rfl | member
      · exact Nat.le_add_right _ _
      · have further := ih token member
        omega

/-- No token starts before an earlier one ends. -/
theorem ordered (tiled : Tiled offset chars tokens endOfFile) :
    (tokens ++ [endOfFile]).Pairwise fun token later =>
      token.span.start + token.span.length ≤ later.span.start := by
  induction tiled with
  | done => exact List.pairwise_singleton _ _
  | token _ _ tiled ih => exact List.pairwise_cons.mpr ⟨tiled.offset_le_start, ih⟩

/-- The tokens of the end of a text start and end between its characters. -/
theorem within (tiled : Tiled offset chars tokens endOfFile) {before : List Char}
    (standing : byteLength before = offset) :
    ∀ token ∈ tokens ++ [endOfFile], token.span.Within (before ++ chars) := by
  induction tiled generalizing before with
  | @done offset trivia =>
      intro token member
      simp only [List.nil_append, List.mem_singleton] at member
      subst member
      exact .empty ⟨before ++ trivia, [], by simp, by simp [standing]⟩
  | @token offset kind trivia lexeme rest tokens endOfFile notEnd notEmpty tiled ih =>
      intro token member
      rw [List.cons_append, List.mem_cons] at member
      rcases member with rfl | member
      · constructor
        · exact ⟨before ++ trivia, lexeme ++ rest, by simp, by simp [standing]⟩
        · exact ⟨before ++ trivia ++ lexeme, rest, by simp, by simp [standing, Nat.add_assoc]⟩
      · have standing : byteLength (before ++ trivia ++ lexeme) =
            offset + byteLength trivia + byteLength lexeme := by
          simp [standing, Nat.add_assoc]
        simpa using ih standing token member

end Tiled

/-- What scanning a text gives: its tiles, and a report for every token of unknown kind. -/
structure ScannedText.Covers (scanned : ScannedText) (offset : Nat) (chars : List Char) :
    Prop where
  tiled : Tiled offset chars scanned.tokens scanned.endOfFile
  unknown_reported : ∀ token ∈ scanned.tokens, token.kind = .unknown →
    scanned.diagnostics.hasErrors = true

namespace Scanner

theorem covers_of_skipTrivia_eq_nil {scanner : Scanner} {diagnostics : Diagnostics}
    (atEnd : scanner.skipTrivia.rest = []) :
    ScannedText.Covers ⟨[], scanner.skipTrivia.endOfFile, diagnostics⟩ scanner.offset
      scanner.rest := by
  have whole := splitTrivia_append false scanner.rest
  have left : (splitTrivia false scanner.rest).2 = [] := atEnd
  rw [left, List.append_nil] at whole
  refine ⟨?_, by simp⟩
  have last : scanner.skipTrivia.endOfFile =
      ⟨.endOfFileToken, .empty (scanner.offset + byteLength scanner.rest), ""⟩ := by
    simp [endOfFile, skipTrivia, whole]
  rw [last]
  exact .done

/-- Taking a lexeme reports what is wrong with it. -/
theorem take_eq_ok {scanner : Scanner} {lexeme : Lexeme} {step : ScanStep}
    (taken : scanner.take lexeme = .ok step) :
    step.token =
        ⟨lexeme.kind, ⟨scanner.offset, byteLength lexeme.chars⟩, String.ofList lexeme.chars⟩ ∧
      step.after = ⟨scanner.file, lexeme.rest, scanner.offset + byteLength lexeme.chars⟩ ∧
      (∀ char, lexeme.problem = some (.unexpectedCharacter char) →
        step.diagnostics.hasErrors = true) := by
  rw [take] at taken
  cases reported : lexeme.problem with
  | none =>
      simp only [reported] at taken
      cases taken
      exact ⟨rfl, rfl, by simp⟩
  | some problem =>
      cases problem with
      | danglingEscape =>
          simp only [reported, LexicalProblem.report] at taken
          cases taken
      | unexpectedCharacter char =>
          simp only [reported, LexicalProblem.report] at taken
          cases taken
          exact ⟨rfl, rfl, fun _ _ => rfl⟩
      | newlineInConstant =>
          simp only [reported, LexicalProblem.report] at taken
          cases taken
          exact ⟨rfl, rfl, fun _ _ => rfl⟩

/-- Scanning up to the end covers what is left of the text. -/
theorem scanRest_covers {limit : Nat} {scanner : Scanner} {scanned : ScannedText}
    (enough : scanner.rest.length ≤ limit) (scans : scanner.scanRest limit = .ok scanned) :
    scanned.Covers scanner.offset scanner.rest := by
  induction limit generalizing scanner scanned with
  | zero =>
      cases scans
      refine covers_of_skipTrivia_eq_nil ?_
      have empty : scanner.rest = [] := List.eq_nil_of_length_eq_zero (by omega)
      simp [skipTrivia, empty, splitTrivia]
  | succ limit ih =>
      cases left : scanner.skipTrivia.rest with
      | nil =>
          rw [scanRest, scan, left] at scans
          cases scans
          exact covers_of_skipTrivia_eq_nil left
      | cons char rest =>
          rw [scanRest, scan, left] at scans
          rcases Checked.bind_eq_ok_iff.mp scans with ⟨step, taken, scans⟩
          rcases take_eq_ok taken with ⟨tokenEq, afterEq, reported⟩
          have proper := splitLexeme_proper char rest
          have notEnd : step.token.kind ≠ .endOfFileToken := by
            rw [tokenEq]
            exact proper.kind_ne_endOfFile
          rw [if_neg notEnd] at scans
          rcases Checked.bind_eq_ok_iff.mp scans with ⟨others, scansOthers, scans⟩
          rw [Checked.pure_eq_ok_iff] at scans
          have whole : (splitTrivia false scanner.rest).1 ++
              ((splitLexeme char rest).chars ++ (splitLexeme char rest).rest) = scanner.rest := by
            rw [splitLexeme_append, ← left]
            exact splitTrivia_append false scanner.rest
          have shorter : step.after.rest.length ≤ limit := by
            have positive := List.length_pos_iff.mpr proper.chars_ne_nil
            have lengths := congrArg List.length whole
            simp only [List.length_append] at lengths
            rw [afterEq]
            dsimp only
            omega
          have covers := ih shorter scansOthers
          rw [afterEq] at covers
          rw [← scans, ← whole, tokenEq]
          constructor
          · exact .token proper.kind_ne_endOfFile proper.chars_ne_nil covers.tiled
          · intro token member isUnknown
            simp only [Diagnostics.hasErrors, List.any_append, Bool.or_eq_true]
            rcases List.mem_cons.mp member with rfl | member
            · rcases proper.problem_of_unknown isUnknown with ⟨char, problem⟩
              exact .inl (reported char problem)
            · exact .inr (covers.unknown_reported token member isUnknown)

end Scanner

/-- Scanning a text covers it. -/
theorem scanText_covers {file : FileId} {source : SourceText} {scanned : ScannedText}
    (scans : scanText file source = .ok scanned) : scanned.Covers 0 source.chars :=
  by
  have enough : (Scanner.start file source).rest.length ≤ source.chars.length := Nat.le_refl _
  exact Scanner.scanRest_covers enough scans

end QueryLang
