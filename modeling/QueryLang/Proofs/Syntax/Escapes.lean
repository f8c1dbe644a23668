import QueryLang.Proofs.Syntax.Lexing

/-!
# Texts that break off in an escape

Scanning fails on one kind of text only: on one that breaks off in a string literal, right after a
backslash that should escape a further character. Wherever else scanning gets, it takes the next
token, and stays inside of the text.
-/

namespace QueryLang

/-- What can follow the opening quote of a string without closing it. A quote or a line feed has a
backslash in front, which takes it along. -/
inductive Unclosed : List Char → Prop
  | nothing : Unclosed []
  | plain {char : Char} {rest : List Char} (notQuote : char ≠ '"') (notBackslash : char ≠ '\\')
      (notNewline : char ≠ '\n') (unclosed : Unclosed rest) : Unclosed (char :: rest)
  | escaped {char : Char} {rest : List Char} (unclosed : Unclosed rest) :
      Unclosed ('\\' :: char :: rest)

/-- A string literal that is not closed may end with a backslash that has nothing to escape. -/
theorem unclosed_of_splitString {text chars rest : List Char}
    (split : splitString text = (.danglingEscape, chars, rest)) :
    ∃ inside, Unclosed inside ∧ text = inside ++ ['\\'] := by
  fun_induction splitString text generalizing chars rest with
  | case1 => cases split
  | case2 => exact ⟨[], .nothing, rfl⟩
  | case3 escaped text ending restChars restAfter splitRest ih =>
    cases split
    obtain ⟨inside, unclosed, rfl⟩ := ih splitRest
    exact ⟨'\\' :: escaped :: inside, .escaped unclosed, rfl⟩
  | case4 => cases split
  | case5 => cases split
  | case6 char text notDanglingEscape notEscape notQuote notNewline ending restChars restAfter
      splitRest ih =>
    cases split
    obtain ⟨inside, unclosed, rfl⟩ := ih splitRest
    have notQuote : char ≠ '"' := by simpa using notQuote
    have notNewline : char ≠ '\n' := by simpa using notNewline
    have notBackslash := ne_backslash notDanglingEscape notEscape
    exact ⟨char :: inside, .plain notQuote notBackslash notNewline unclosed, rfl⟩

/-- Such a literal is taken up to its end. -/
theorem Unclosed.splitString {inside : List Char} (unclosed : Unclosed inside) :
    QueryLang.splitString (inside ++ ['\\']) = (.danglingEscape, inside ++ ['\\'], []) := by
  induction unclosed with
  | nothing => rfl
  | plain notQuote notBackslash notNewline _ ih =>
    rw [List.cons_append, splitString_cons notBackslash notQuote notNewline ih]
  | escaped _ ih => rw [List.cons_append, List.cons_append, QueryLang.splitString, ih]

/-- Only a string literal can have a backslash that escapes nothing, -/
theorem unclosed_of_splitLexeme {char : Char} {rest : List Char}
    (dangling : (splitLexeme char rest).problem = some .danglingEscape) :
    ∃ inside, Unclosed inside ∧ char :: rest = '"' :: (inside ++ ['\\']) := by
  have taken := takenAs_splitLexeme char rest
  generalize splitLexeme char rest = lexeme at taken dangling
  cases taken with
  | @string ending chars after noSymbol isQuote split =>
    have isDangling : ending = .danglingEscape := by
      cases ending with
      | danglingEscape => rfl
      | _ => cases dangling
    subst isQuote isDangling
    obtain ⟨inside, unclosed, rfl⟩ := unclosed_of_splitString split
    exact ⟨inside, unclosed, rfl⟩
  | _ => cases dangling

/-- and has one if the text breaks off in it. -/
theorem Unclosed.problem_splitLexeme {inside : List Char}
    (unclosed : Unclosed inside) :
    (splitLexeme '"' (inside ++ ['\\'])).problem = some .danglingEscape := by
  have noSymbol : NoSymbol '"' (inside ++ ['\\']) := by
    constructor
    · cases inside <;> rfl
    · rfl
  rw [(TakenAs.string noSymbol rfl unclosed.splitString).eq_splitLexeme]
  rfl

namespace Scanner

variable {scanner last : Scanner} {step : ScanStep} {chars : List Char}

/-- One scanner gets to another by taking tokens. -/
inductive Reaches : Scanner → Scanner → Prop
  | here {scanner : Scanner} : Reaches scanner scanner
  | next {scanner last : Scanner} {step : ScanStep} (scans : scanner.scan = .ok step)
      (reaches : Reaches step.after last) : Reaches scanner last

/-- The next token is a string literal without a closing quote, and the last character of the text
is a backslash of it that no backslash in front escapes. -/
def BreaksOff (scanner : Scanner) : Prop :=
  ∃ inside, Unclosed inside ∧ scanner.skipTrivia.rest = '"' :: (inside ++ ['\\'])

/-- The scanner stands in a text, after what it has taken. -/
def StandsIn (chars : List Char) (scanner : Scanner) : Prop :=
  ∃ before, chars = before ++ scanner.rest ∧ byteLength before = scanner.offset

/-- A step takes a token of the text and passes over it, and stops only at the end of the text. -/
structure Advances (chars : List Char) (scanner : Scanner) (step : ScanStep) : Prop where
  standsIn : step.after.StandsIn chars
  within : step.token.span.Within chars
  begins : scanner.offset ≤ step.token.span.start
  stops : step.after.offset = step.token.span.start + step.token.span.length
  atEnd : step.token.kind = .endOfFileToken → step.after.rest = []
  further : step.token.kind ≠ .endOfFileToken → scanner.offset < step.after.offset ∧
    step.after.rest.length < scanner.rest.length

theorem breaksOff_iff {trivia rest : List Char} {char : Char}
    (split : splitTrivia false scanner.rest = (trivia, char :: rest)) :
    scanner.BreaksOff ↔ (splitLexeme char rest).problem = some .danglingEscape := by
  rw [BreaksOff, skipTrivia_eq split]
  constructor
  · rintro ⟨inside, unclosed, isRest⟩
    cases isRest
    exact unclosed.problem_splitLexeme
  · exact unclosed_of_splitLexeme

theorem take_dangling {lexeme : Lexeme} (dangling : lexeme.problem = some .danglingEscape) :
    scanner.take lexeme = .error .outOfRange := by
  rw [take, dangling]
  rfl

/-- At the end of the text a step stays there. -/
theorem advances_at_end {trivia : List Char} (standsIn : scanner.StandsIn chars)
    (split : splitTrivia false scanner.rest = (trivia, [])) :
    ∃ step, scanner.scan = .ok step ∧ scanner.Advances chars step := by
  obtain ⟨before, whole, standing⟩ := standsIn
  have isTrivia := splitTrivia_append false scanner.rest
  rw [split, List.append_nil] at isTrivia
  subst isTrivia
  have stops : byteLength chars = scanner.offset + byteLength scanner.rest := by
    rw [whole, byteLength_append, standing]
  refine ⟨_, scan_at_end split, ?_⟩
  exact {
    standsIn := ⟨chars, (List.append_nil _).symm, stops⟩
    within := .empty ⟨chars, [], by simp, stops⟩
    begins := Nat.le_add_right _ _
    stops := rfl
    atEnd := fun _ => rfl
    further := fun notEnd => absurd rfl notEnd }

/-- Before the end a step takes a token, unless it would need a character past the end. -/
theorem advances_before_end {trivia rest : List Char} {char : Char}
    (standsIn : scanner.StandsIn chars)
    (split : splitTrivia false scanner.rest = (trivia, char :: rest))
    (notDangling : (splitLexeme char rest).problem ≠ some .danglingEscape) :
    ∃ step, scanner.scan = .ok step ∧ scanner.Advances chars step := by
  obtain ⟨before, rfl, standing⟩ := standsIn
  have proper := splitLexeme_proper char rest
  have isLexeme := splitLexeme_append char rest
  have scans := scan_before_end split
  generalize splitLexeme char rest = lexeme at notDangling proper isLexeme scans
  have isRest : scanner.rest = trivia ++ (lexeme.chars ++ lexeme.rest) := by
    rw [isLexeme, ← splitTrivia_append false scanner.rest, split]
  have notEmpty : 0 < byteLength lexeme.chars := by
    refine Nat.pos_of_ne_zero fun isZero => proper.chars_ne_nil ?_
    exact eq_nil_of_byteLength_eq_zero isZero
  rw [take_eq_ok_iff.mpr ⟨notDangling, rfl⟩] at scans
  refine ⟨_, scans, ?_⟩
  exact {
    standsIn :=
      ⟨before ++ trivia ++ lexeme.chars, by simp [isRest], by simp [standing, Nat.add_assoc]⟩
    within := {
      start_boundary :=
        ⟨before ++ trivia, lexeme.chars ++ lexeme.rest, by simp [isRest],
          by simp [standing, Lexeme.token]⟩
      stop_boundary :=
        ⟨before ++ trivia ++ lexeme.chars, lexeme.rest, by simp [isRest],
          by simp [standing, Lexeme.token, Nat.add_assoc]⟩ }
    begins := Nat.le_add_right _ _
    stops := rfl
    atEnd := fun isEnd => absurd isEnd proper.kind_ne_endOfFile
    further := fun _ => by
      have positive := List.length_pos_iff.mpr proper.chars_ne_nil
      have lengths := congrArg List.length isRest
      simp only [List.length_append] at lengths
      dsimp only
      omega }

/-- A step of scanning takes the next token, unless the text breaks off in it. -/
theorem scan_cases (standsIn : scanner.StandsIn chars) :
    scanner.BreaksOff ∧ scanner.scan = .error .outOfRange ∨
      ¬ scanner.BreaksOff ∧ ∃ step, scanner.scan = .ok step ∧ scanner.Advances chars step := by
  generalize split : splitTrivia false scanner.rest = parts
  obtain ⟨trivia, rest⟩ := parts
  cases rest with
  | nil =>
    refine .inr ⟨?_, advances_at_end standsIn split⟩
    rintro ⟨inside, _, isRest⟩
    rw [skipTrivia_eq split] at isRest
    cases isRest
  | cons char rest =>
    rw [breaksOff_iff split]
    by_cases dangling : (splitLexeme char rest).problem = some .danglingEscape
    · refine .inl ⟨dangling, ?_⟩
      rw [scan_before_end split]
      exact take_dangling dangling
    · exact .inr ⟨dangling, advances_before_end standsIn split dangling⟩

theorem scan_eq_error (standsIn : scanner.StandsIn chars) (breaksOff : scanner.BreaksOff) :
    scanner.scan = .error .outOfRange := by
  rcases scan_cases standsIn with ⟨_, fails⟩ | ⟨notBroken, _⟩
  · exact fails
  · exact absurd breaksOff notBroken

theorem advances_of_scan (standsIn : scanner.StandsIn chars) (scans : scanner.scan = .ok step) :
    scanner.Advances chars step := by
  rcases scan_cases standsIn with ⟨_, fails⟩ | ⟨_, own, isOwn, advances⟩
  · rw [fails] at scans
    cases scans
  · rw [isOwn] at scans
    cases scans
    exact advances

theorem Reaches.standsIn (reaches : scanner.Reaches last) (standsIn : scanner.StandsIn chars) :
    last.StandsIn chars := by
  induction reaches with
  | here => exact standsIn
  | next scans _ ih => exact ih (advances_of_scan standsIn scans).standsIn

/-- From the end of the text nothing else is reached. -/
theorem Reaches.rest_eq_nil (reaches : scanner.Reaches last) (atEnd : scanner.rest = []) :
    last.rest = [] := by
  induction reaches with
  | here => exact atEnd
  | @next scanner last step scans _ ih =>
    have split : splitTrivia false scanner.rest = ([], []) := by rw [atEnd, splitTrivia]
    rw [scan_at_end split] at scans
    cases scans
    exact ih rfl

theorem not_breaksOff_of_rest_eq_nil (atEnd : scanner.rest = []) : ¬ scanner.BreaksOff := by
  rintro ⟨inside, _, isRest⟩
  rw [skipTrivia, atEnd, splitTrivia] at isRest
  cases isRest

/-- A text is not scanned past the place where it breaks off. -/
theorem Reaches.scanRest_eq_error {limit : Nat} (reaches : scanner.Reaches last)
    (standsIn : scanner.StandsIn chars) (breaksOff : last.BreaksOff)
    (enough : scanner.rest.length ≤ limit) : scanner.scanRest limit = .error .outOfRange := by
  induction reaches generalizing limit with
  | @here scanner =>
    cases limit with
    | zero =>
      have atEnd : scanner.rest = [] := List.eq_nil_of_length_eq_zero (by omega)
      exact absurd breaksOff (not_breaksOff_of_rest_eq_nil atEnd)
    | succ limit =>
      rw [scanRest, scan_eq_error standsIn breaksOff]
      rfl
  | @next scanner last step scans reaches ih =>
    have advances := advances_of_scan standsIn scans
    have notEnd : step.token.kind ≠ .endOfFileToken := fun isEnd =>
      not_breaksOff_of_rest_eq_nil (reaches.rest_eq_nil (advances.atEnd isEnd)) breaksOff
    have further := (advances.further notEnd).2
    cases limit with
    | zero => omega
    | succ limit =>
      have fails := ih advances.standsIn breaksOff (by omega : step.after.rest.length ≤ limit)
      rw [scanRest, scans, Checked.ok_bind, if_neg notEnd, fails]
      rfl

/-- A text that breaks off nowhere is scanned up to its end. -/
theorem exists_scanRest {limit : Nat} (standsIn : scanner.StandsIn chars)
    (notBroken : ∀ last, scanner.Reaches last → ¬ last.BreaksOff)
    (enough : scanner.rest.length ≤ limit) : ∃ scanned, scanner.scanRest limit = .ok scanned := by
  induction limit generalizing scanner with
  | zero => exact ⟨_, rfl⟩
  | succ limit ih =>
    rcases scan_cases standsIn with ⟨breaksOff, _⟩ | ⟨_, step, scans, advances⟩
    · exact absurd breaksOff (notBroken scanner .here)
    · rw [scanRest, scans, Checked.ok_bind]
      split
      · exact ⟨_, rfl⟩
      · next notEnd =>
        have further := (advances.further notEnd).2
        obtain ⟨scanned, scansRest⟩ := ih advances.standsIn
          (fun last reaches => notBroken last (.next scans reaches))
          (by omega : step.after.rest.length ≤ limit)
        rw [scansRest]
        exact ⟨_, rfl⟩

end Scanner

/-- Scanning the text from its start, a token is begun in which the text breaks off. -/
def SourceText.BreaksOff (source : SourceText) (file : FileId) : Prop :=
  ∃ scanner, (Scanner.start file source).Reaches scanner ∧ scanner.BreaksOff

theorem Scanner.start_standsIn (file : FileId) (source : SourceText) :
    (start file source).StandsIn source.chars :=
  ⟨[], rfl, rfl⟩

variable {file : FileId} {source : SourceText}

theorem scanText_of_breaksOff (breaksOff : source.BreaksOff file) :
    scanText file source = .error .outOfRange := by
  obtain ⟨scanner, reaches, breaksOff⟩ := breaksOff
  exact reaches.scanRest_eq_error (Scanner.start_standsIn file source) breaksOff (Nat.le_refl _)

theorem exists_scanText (notBroken : ¬ source.BreaksOff file) :
    ∃ scanned, scanText file source = .ok scanned :=
  Scanner.exists_scanRest (Scanner.start_standsIn file source)
    (fun scanner reaches breaksOff => notBroken ⟨scanner, reaches, breaksOff⟩) (Nat.le_refl _)

end QueryLang
