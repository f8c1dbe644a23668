import Mathlib.Data.List.Basic
import QueryLang.Proofs.Syntax.Scanning

/-!
# Lexemes in a text

`Lexed` says which lexemes a text has and at which offsets, and scanning a text gives their tokens
and reports. Taking a lexeme off looks a little past its end. `Echoes` says that a text goes on like
the one that was looked at, up to where it ends or has white space, and that is enough for the
lexeme to be taken off again.
-/

namespace QueryLang

/-! ### Characters -/

/-- The code points of white space. -/
def whiteSpaceCodePoints : List Nat :=
  List.range' 9 5 ++ [0x20, 0x85, 0xA0, 0x1680] ++ List.range' 0x2000 11 ++
    [0x2028, 0x2029, 0x202F, 0x205F, 0x3000]

theorem mem_whiteSpaceCodePoints {char : Char} (isSpace : isWhiteSpace char = true) :
    char.toNat ∈ whiteSpaceCodePoints := by
  simp only [isWhiteSpace, Bool.or_eq_true, Bool.and_eq_true, decide_eq_true_eq,
    beq_iff_eq] at isSpace
  simp only [whiteSpaceCodePoints, List.mem_append, List.mem_range'_1, List.mem_cons,
    List.not_mem_nil, or_false]
  omega

/-- A class of characters that has no white space in it. -/
def ExcludesSpace (holds : Char → Bool) : Prop :=
  ∀ char, isWhiteSpace char = true → holds char = false

theorem excludesSpace_isAsciiDigit : ExcludesSpace isAsciiDigit := by
  intro char isSpace
  have listed := mem_whiteSpaceCodePoints isSpace
  have outside : ∀ codePoint ∈ whiteSpaceCodePoints, ¬ (48 ≤ codePoint ∧ codePoint ≤ 57) := by
    decide
  have notDigit := outside _ listed
  simp only [isAsciiDigit, Bool.and_eq_false_iff, decide_eq_false_iff_not, Char.le_def,
    UInt32.le_iff_toNat_le]
  change ¬ 48 ≤ char.toNat ∨ ¬ char.toNat ≤ 57
  omega

theorem excludesSpace_isIdentifierPart : ExcludesSpace isIdentifierPart := by
  intro char isSpace
  have listed := mem_whiteSpaceCodePoints isSpace
  have outside : ∀ codePoint ∈ whiteSpaceCodePoints,
      xidStartRanges.holds codePoint = false ∧ xidContinueOnlyRanges.holds codePoint = false ∧
        ¬ (97 ≤ codePoint ∧ codePoint ≤ 122) ∧ ¬ (65 ≤ codePoint ∧ codePoint ≤ 90) ∧
        codePoint ≠ 95 := by
    decide +kernel
  obtain ⟨notStart, notContinue, notLower, notUpper, notUnderscore⟩ := outside _ listed
  have notLetter : isAsciiLetter char = false := by
    simp only [isAsciiLetter, Bool.or_eq_false_iff, Bool.and_eq_false_iff,
      decide_eq_false_iff_not, Char.le_def, UInt32.le_iff_toNat_le]
    change (¬ 97 ≤ char.toNat ∨ ¬ char.toNat ≤ 122) ∧ (¬ 65 ≤ char.toNat ∨ ¬ char.toNat ≤ 90)
    omega
  have notLine : (char == '_') = false := by
    simp only [beq_eq_false_iff_ne, ne_eq]
    rintro rfl
    exact notUnderscore rfl
  simp [isIdentifierPart, isIdentifierStart, notLetter, notLine, notStart, notContinue,
    excludesSpace_isAsciiDigit char isSpace]

/-! ### Texts that go on alike -/

/-- A text goes on like another up to where it ends or has white space. -/
inductive Echoes : (text other : List Char) → Prop
  | ends {text : List Char} : Echoes text []
  | space {text more : List Char} {char : Char} (isSpace : isWhiteSpace char = true) :
      Echoes text (char :: more)
  | same {text other : List Char} {char : Char} (echoes : Echoes text other) :
      Echoes (char :: text) (char :: other)

namespace Echoes

variable {text other : List Char}

theorem append (common : List Char) (echoes : Echoes text other) :
    Echoes (common ++ text) (common ++ other) := by
  induction common with
  | nil => exact echoes
  | cons char rest ih => exact .same ih

/-- Where a text does not go on with a character of a class, nor does what echoes it. -/
theorem takeWhile_eq_nil {holds : Char → Bool} (excludes : ExcludesSpace holds)
    (echoes : Echoes text other) (stops : text.takeWhile holds = []) :
    other.takeWhile holds = [] := by
  cases echoes with
  | ends => rfl
  | space isSpace => simp [excludes _ isSpace]
  | same echoes =>
    rw [List.takeWhile_cons] at stops ⊢
    split at stops
    · cases stops
    · next notHolds => rw [if_neg notHolds]

end Echoes

theorem takeWhile_dropWhile (holds : Char → Bool) (text : List Char) :
    (text.dropWhile holds).takeWhile holds = [] := by
  induction text with
  | nil => rfl
  | cons char rest ih =>
    rw [List.dropWhile_cons]
    split
    · exact ih
    · next notHolds => rw [List.takeWhile_cons, if_neg notHolds]

theorem holds_of_mem_takeWhile {holds : Char → Bool} {text : List Char} {char : Char}
    (member : char ∈ text.takeWhile holds) : holds char = true :=
  List.all_eq_true.mp List.all_takeWhile char member

/-- The characters of a class at the front of a text are taken off again. -/
theorem takeWhile_again {holds : Char → Bool} (excludes : ExcludesSpace holds)
    {text after : List Char} (echoes : Echoes (text.dropWhile holds) after) :
    (text.takeWhile holds ++ after).takeWhile holds = text.takeWhile holds ∧
      (text.takeWhile holds ++ after).dropWhile holds = after := by
  have taken : ∀ char ∈ text.takeWhile holds, holds char = true :=
    fun char member => holds_of_mem_takeWhile member
  have stops := echoes.takeWhile_eq_nil excludes (takeWhile_dropWhile holds text)
  constructor
  · rw [List.takeWhile_append_of_pos taken, stops, List.append_nil]
  · rw [List.dropWhile_append_of_pos taken]
    have whole := List.takeWhile_append_dropWhile (p := holds) (l := after)
    rwa [stops, List.nil_append] at whole

/-! ### Literals again -/

/-- A plain character only lengthens a string. -/
theorem splitString_cons {char : Char} {text chars rest : List Char} {ending : StringEnd}
    (notBackslash : char ≠ '\\') (notQuote : char ≠ '"') (notNewline : char ≠ '\n')
    (split : splitString text = (ending, chars, rest)) :
    splitString (char :: text) = (ending, char :: chars, rest) := by
  rw [splitString.eq_def]
  split
  · next impossible => cases impossible
  · next same => exact absurd (List.cons.inj same).1 notBackslash
  · next same => exact absurd (List.cons.inj same).1 notBackslash
  · next same =>
    cases same
    simp [notQuote, notNewline, split]

theorem ne_backslash {char : Char} {text : List Char}
    (notDanglingEscape : char = '\\' → text = [] → False)
    (notEscape : ∀ escaped more, char = '\\' → text = escaped :: more → False) :
    char ≠ '\\' := by
  intro isBackslash
  cases text with
  | nil => exact notDanglingEscape isBackslash rfl
  | cons escaped more => exact notEscape escaped more isBackslash rfl

/-- A string literal is taken off again, where one without closing quote still stands before a line
feed or the end. -/
theorem splitString_again {text chars rest after : List Char} {ending : StringEnd}
    (split : splitString text = (ending, chars, rest)) (notDangling : ending ≠ .danglingEscape)
    (ends : ending = .unterminated → after = [] ∨ ∃ more, after = '\n' :: more) :
    splitString (chars ++ after) = (ending, chars, after) := by
  have unterminated (isEnd : after = [] ∨ ∃ more, after = '\n' :: more) :
      splitString after = (.unterminated, [], after) := by
    rcases isEnd with rfl | ⟨more, rfl⟩
    · rfl
    · simp [splitString]
  fun_induction splitString text generalizing ending chars rest with
  | case1 =>
    cases split
    exact unterminated (ends rfl)
  | case2 =>
    cases split
    exact absurd rfl notDangling
  | case3 escaped text restEnding restChars restAfter splitRest ih =>
    cases split
    have again := ih splitRest notDangling ends
    simp [splitString, again]
  | case4 char text notDanglingEscape notEscape isQuote =>
    cases split
    simp [splitString]
  | case5 char text notDanglingEscape notEscape notQuote isNewline =>
    cases split
    exact unterminated (ends rfl)
  | case6 char text notDanglingEscape notEscape notQuote notNewline restEnding restChars restAfter
      splitRest ih =>
    cases split
    simp only [beq_iff_eq] at notQuote notNewline
    exact splitString_cons (ne_backslash notDanglingEscape notEscape) notQuote notNewline
      (ih splitRest notDangling ends)

theorem splitNumber_of_fraction {text rest : List Char}
    (point : text.dropWhile isAsciiDigit = '.' :: rest)
    (hasFraction : rest.takeWhile isAsciiDigit ≠ []) :
    splitNumber text = (text.takeWhile isAsciiDigit ++ '.' :: rest.takeWhile isAsciiDigit,
      rest.dropWhile isAsciiDigit) := by
  simp [splitNumber, point, hasFraction]

theorem splitNumber_of_no_fraction {text : List Char}
    (noFraction : ∀ rest, text.dropWhile isAsciiDigit = '.' :: rest →
      rest.takeWhile isAsciiDigit = []) :
    splitNumber text = (text.takeWhile isAsciiDigit, text.dropWhile isAsciiDigit) := by
  rw [splitNumber]
  split
  · next rest point => simp [noFraction rest point, point]
  · rfl

/-- A number is taken off again. -/
theorem splitNumber_again {text after : List Char} (echoes : Echoes (splitNumber text).2 after) :
    splitNumber ((splitNumber text).1 ++ after) = ((splitNumber text).1, after) := by
  by_cases hasFraction : ∃ rest, text.dropWhile isAsciiDigit = '.' :: rest ∧
      rest.takeWhile isAsciiDigit ≠ []
  · obtain ⟨rest, point, hasFraction⟩ := hasFraction
    rw [splitNumber_of_fraction point hasFraction] at echoes ⊢
    obtain ⟨fraction, left⟩ := takeWhile_again excludesSpace_isAsciiDigit echoes
    have digits : ∀ char ∈ text.takeWhile isAsciiDigit, isAsciiDigit char = true :=
      fun char member => holds_of_mem_takeWhile member
    have notDigit : isAsciiDigit '.' = false := by decide
    dsimp only
    rw [List.append_assoc, List.cons_append]
    generalize continued : rest.takeWhile isAsciiDigit ++ after = more at fraction left
    have whole : (text.takeWhile isAsciiDigit ++ '.' :: more).takeWhile isAsciiDigit =
        text.takeWhile isAsciiDigit := by
      simp [List.takeWhile_append_of_pos digits, notDigit]
    have pointAgain : (text.takeWhile isAsciiDigit ++ '.' :: more).dropWhile isAsciiDigit =
        '.' :: more := by
      simp [List.dropWhile_append_of_pos digits, notDigit]
    rw [splitNumber_of_fraction pointAgain (by rwa [fraction]), whole, fraction, left]
  · have noFraction : ∀ rest, text.dropWhile isAsciiDigit = '.' :: rest →
        rest.takeWhile isAsciiDigit = [] := by
      intro rest point
      by_contra digits
      exact hasFraction ⟨rest, point, digits⟩
    rw [splitNumber_of_no_fraction noFraction] at echoes ⊢
    obtain ⟨whole, left⟩ := takeWhile_again excludesSpace_isAsciiDigit echoes
    dsimp only at echoes ⊢
    -- A point that follows in the other text follows here, or it would be white space.
    rw [splitNumber_of_no_fraction, whole, left]
    intro rest point
    rw [left] at point
    subst point
    cases echoed : text.dropWhile isAsciiDigit with
    | nil =>
      rw [echoed] at echoes
      cases echoes with
      | space isSpace => cases isSpace
    | cons char more =>
      rw [echoed] at echoes
      cases echoes with
      | space isSpace => cases isSpace
      | same restEchoes =>
        exact restEchoes.takeWhile_eq_nil excludesSpace_isAsciiDigit (noFraction more echoed)

/-! ### Lexemes again -/

/-- What is wrong with a string literal that ends in some way. -/
def StringEnd.problem? : StringEnd → Option LexicalProblem
  | .closed => none
  | .unterminated => some .newlineInConstant
  | .danglingEscape => some .danglingEscape

/-- Neither a token of two characters nor one of one starts a text. -/
structure NoSymbol (char : Char) (rest : List Char) : Prop where
  noDouble : leadingDoubleKind? char rest = none
  noSingle : singleCharacterKind? char = none

/-- The ways to take a lexeme off a text. -/
inductive TakenAs (char : Char) (rest : List Char) : Lexeme → Prop
  | double {kind : Kind} {next : Char} {after : List Char} (isRest : rest = next :: after)
      (found : doubleCharacterKind? char next = some kind) :
      TakenAs char rest ⟨kind, [char, next], after, none⟩
  | single {kind : Kind} (noDouble : leadingDoubleKind? char rest = none)
      (found : singleCharacterKind? char = some kind) : TakenAs char rest ⟨kind, [char], rest, none⟩
  | string {ending : StringEnd} {chars after : List Char} (noSymbol : NoSymbol char rest)
      (isQuote : char = '"') (split : splitString rest = (ending, chars, after)) :
      TakenAs char rest ⟨.stringLiteralToken, char :: chars, after, ending.problem?⟩
  | number {chars after : List Char} (noSymbol : NoSymbol char rest) (notQuote : char ≠ '"')
      (isDigit : isAsciiDigit char = true)
      (split : splitNumber (char :: rest) = (char :: chars, after)) :
      TakenAs char rest ⟨.numericLiteralToken, char :: chars, after, none⟩
  | word {chars after : List Char} (noSymbol : NoSymbol char rest) (notQuote : char ≠ '"')
      (notDigit : isAsciiDigit char = false) (starts : isIdentifierStart char = true)
      (taken : rest.takeWhile isIdentifierPart = chars)
      (left : rest.dropWhile isIdentifierPart = after) :
      TakenAs char rest ⟨(Kind.ofKeyword? (String.ofList (char :: chars))).getD .identifierToken,
        char :: chars, after, none⟩
  | unknown (noSymbol : NoSymbol char rest) (notQuote : char ≠ '"')
      (notDigit : isAsciiDigit char = false) (startsNone : isIdentifierStart char = false) :
      TakenAs char rest ⟨.unknown, [char], rest, some (.unexpectedCharacter char)⟩

theorem splitNumber_starts {char : Char} (isDigit : isAsciiDigit char = true)
    (rest : List Char) : ∃ chars, (splitNumber (char :: rest)).1 = char :: chars := by
  rw [splitNumber]
  split
  · dsimp only
    split <;> simp [isDigit]
  · simp [isDigit]

/-- A lexeme is taken off in one of the ways, -/
theorem takenAs_splitLexeme (char : Char) (rest : List Char) :
    TakenAs char rest (splitLexeme char rest) := by
  unfold splitLexeme
  split
  · next kind isDouble =>
    cases rest with
    | nil => cases isDouble
    | cons next after => exact .double rfl isDouble
  · next noDouble =>
    split
    · next kind isSingle => exact .single noDouble isSingle
    · next noSingle =>
      have noSymbol : NoSymbol char rest := ⟨noDouble, noSingle⟩
      split
      · next isQuote =>
        have isQuote := eq_of_beq isQuote
        split <;> exact .string noSymbol isQuote ‹_›
      · next notQuote =>
        have notQuote : char ≠ '"' := by simpa using notQuote
        split
        · next isDigit =>
          obtain ⟨chars, starts⟩ := splitNumber_starts isDigit rest
          have split : splitNumber (char :: rest) =
              (char :: chars, (splitNumber (char :: rest)).2) := by rw [← starts]
          rw [split]
          exact .number noSymbol notQuote isDigit split
        · next notDigit =>
          simp only [Bool.not_eq_true] at notDigit
          split
          · next starts => exact .word noSymbol notQuote notDigit starts rfl rfl
          · next startsNone =>
            exact .unknown noSymbol notQuote notDigit (by simpa using startsNone)

/-- and there is only one way. -/
theorem TakenAs.eq_splitLexeme {char : Char} {rest : List Char} {lexeme : Lexeme}
    (taken : TakenAs char rest lexeme) : splitLexeme char rest = lexeme := by
  cases taken with
  | double isRest found =>
    subst isRest
    simp [splitLexeme, leadingDoubleKind?, found]
  | single noDouble found => simp [splitLexeme, noDouble, found]
  | @string ending chars after noSymbol isQuote split =>
    subst isQuote
    cases ending <;>
      simp [splitLexeme, noSymbol.noDouble, noSymbol.noSingle, split, StringEnd.problem?]
  | number noSymbol notQuote isDigit split =>
    simp [splitLexeme, noSymbol.noDouble, noSymbol.noSingle, notQuote, isDigit, split]
  | word noSymbol notQuote notDigit starts taken left =>
    simp [splitLexeme, noSymbol.noDouble, noSymbol.noSingle, notQuote, notDigit, starts, taken,
      left]
  | unknown noSymbol notQuote notDigit startsNone =>
    simp [splitLexeme, noSymbol.noDouble, noSymbol.noSingle, notQuote, notDigit, startsNone]

theorem doubleCharacterKind?_of_isWhiteSpace {char next : Char}
    (isSpace : isWhiteSpace next = true) : doubleCharacterKind? char next = none := by
  unfold doubleCharacterKind?
  split <;> first | rfl | exact absurd isSpace (by decide)

/-- No token of two characters starts where none did, in a text that echoes the one looked at. -/
theorem leadingDoubleKind?_eq_none {char : Char} {rest other : List Char}
    (echoes : Echoes rest other) (noDouble : leadingDoubleKind? char rest = none) :
    leadingDoubleKind? char other = none := by
  cases echoes with
  | ends => rfl
  | space isSpace => exact doubleCharacterKind?_of_isWhiteSpace isSpace
  | same _ => exact noDouble

theorem NoSymbol.echo {char : Char} {rest other : List Char} (noSymbol : NoSymbol char rest)
    (echoes : Echoes rest other) : NoSymbol char other :=
  ⟨leadingDoubleKind?_eq_none echoes noSymbol.noDouble, noSymbol.noSingle⟩

/-- A lexeme starts with the character at which it was found, and is followed by its rest. -/
theorem TakenAs.starts {char : Char} {rest : List Char} {lexeme : Lexeme}
    (taken : TakenAs char rest lexeme) :
    ∃ tail, lexeme.chars = char :: tail ∧ tail ++ lexeme.rest = rest := by
  have whole := splitLexeme_append char rest
  rw [taken.eq_splitLexeme] at whole
  have starts : ∃ tail, lexeme.chars = char :: tail := by
    cases taken <;> exact ⟨_, rfl⟩
  obtain ⟨tail, starts⟩ := starts
  rw [starts] at whole
  exact ⟨tail, starts, (List.cons.inj whole).2⟩

/-- A lexeme is taken off again from a text that echoes the one looked at. A string without closing
quote has to stand before a line feed or the end. -/
theorem TakenAs.again {char : Char} {rest tail after : List Char} {lexeme : Lexeme}
    (taken : TakenAs char rest lexeme) (starts : lexeme.chars = char :: tail)
    (whole : tail ++ lexeme.rest = rest) (notDangling : lexeme.problem ≠ some .danglingEscape)
    (echoes : Echoes lexeme.rest after)
    (ends : lexeme.problem = some .newlineInConstant →
      after = [] ∨ ∃ more, after = '\n' :: more) :
    TakenAs char (tail ++ after) { lexeme with rest := after } := by
  have restEchoes : Echoes rest (tail ++ after) := whole ▸ echoes.append tail
  cases taken with
  | double isRest found =>
    cases starts
    exact .double rfl found
  | single noDouble found =>
    cases starts
    exact .single (leadingDoubleKind?_eq_none restEchoes noDouble) found
  | string noSymbol isQuote split =>
    cases starts
    refine .string (noSymbol.echo restEchoes) isQuote (splitString_again split ?_ ?_)
    · rintro rfl
      exact notDangling rfl
    · rintro rfl
      exact ends rfl
  | number noSymbol notQuote isDigit split =>
    cases starts
    have echoes : Echoes (splitNumber (char :: rest)).2 after := by rwa [split]
    have again := splitNumber_again echoes
    rw [split] at again
    exact .number (noSymbol.echo restEchoes) notQuote isDigit again
  | word noSymbol notQuote notDigit isStart isTaken isLeft =>
    cases starts
    have echoes : Echoes (rest.dropWhile isIdentifierPart) after := by rwa [isLeft]
    obtain ⟨takenAgain, leftAgain⟩ := takeWhile_again excludesSpace_isIdentifierPart echoes
    rw [isTaken] at takenAgain leftAgain
    exact .word (noSymbol.echo restEchoes) notQuote notDigit isStart takenAgain leftAgain
  | unknown noSymbol notQuote notDigit startsNone =>
    cases starts
    exact .unknown (noSymbol.echo restEchoes) notQuote notDigit startsNone

/-! ### Texts -/

/-- No trivia starts with `char`. -/
structure NoTrivia (char : Char) (rest : List Char) : Prop where
  notSpace : isWhiteSpace char = false
  noComment : char = '/' → rest.head? ≠ some '/'

theorem NoTrivia.echo {char : Char} {rest other : List Char} (noTrivia : NoTrivia char rest)
    (echoes : Echoes rest other) : NoTrivia char other := by
  refine ⟨noTrivia.notSpace, fun slash => ?_⟩
  cases echoes with
  | ends => nofun
  | space isSpace =>
    rintro ⟨⟩
    exact absurd isSpace (by decide)
  | same _ => exact noTrivia.noComment slash

theorem splitTrivia_eq_nil {char : Char} {rest : List Char} (noTrivia : NoTrivia char rest) :
    splitTrivia false (char :: rest) = ([], char :: rest) := by
  have noComment : (char == '/' && rest.head? == some '/') = false := by
    rw [Bool.and_eq_false_iff]
    by_cases slash : char = '/'
    · exact .inr (by simpa using noTrivia.noComment slash)
    · exact .inl (by simpa using slash)
  simp [splitTrivia, noTrivia.notSpace, noComment]

/-- Splitting off trivia stops where none starts. -/
theorem noTrivia_of_splitTrivia {inComment : Bool} {text trivia rest : List Char} {char : Char}
    (split : splitTrivia inComment text = (trivia, char :: rest)) : NoTrivia char rest := by
  induction text generalizing inComment trivia with
  | nil => cases split
  | cons first more ih =>
    rw [splitTrivia] at split
    split at split
    · exact ih (Prod.ext rfl (Prod.mk.inj split).2)
    · split at split
      · exact ih (Prod.ext rfl (Prod.mk.inj split).2)
      · split at split
        · exact ih (Prod.ext rfl (Prod.mk.inj split).2)
        · next notSpace noComment =>
          cases split
          refine ⟨by simpa using notSpace, fun slash => ?_⟩
          simpa [slash] using noComment

/-- The lexemes of a text with their offsets, from the offset at which the text starts up to the
one at which it ends. -/
inductive Lexed : (offset : Nat) → List Char → List (Nat × Lexeme) → (stop : Nat) → Prop
  | done {offset : Nat} {text trivia : List Char} (atEnd : splitTrivia false text = (trivia, [])) :
      Lexed offset text [] (offset + byteLength trivia)
  | next {offset stop : Nat} {text trivia rest : List Char} {char : Char} {lexeme : Lexeme}
      {others : List (Nat × Lexeme)}
      (standing : splitTrivia false text = (trivia, char :: rest))
      (taken : TakenAs char rest lexeme) (notDangling : lexeme.problem ≠ some .danglingEscape)
      (lexed : Lexed (offset + byteLength trivia + byteLength lexeme.chars) lexeme.rest others
        stop) :
      Lexed offset text ((offset + byteLength trivia, lexeme) :: others) stop

/-- The token of a lexeme at an offset. -/
def Lexeme.token (offset : Nat) (lexeme : Lexeme) : Token :=
  ⟨lexeme.kind, ⟨offset, byteLength lexeme.chars⟩, String.ofList lexeme.chars⟩

/-- What scanning reports about a lexeme at an offset. -/
def Lexeme.reports (file : FileId) (offset : Nat) (lexeme : Lexeme) : Diagnostics :=
  match lexeme.problem with
  | some problem => (problem.report ⟨file, (lexeme.token offset).span⟩).toOption.toList
  | none => []

/-- What scanning a text gives that has some lexemes. -/
def ScannedText.ofLexemes (file : FileId) (lexemes : List (Nat × Lexeme)) (stop : Nat) :
    ScannedText where
  tokens := lexemes.map fun (offset, lexeme) => lexeme.token offset
  endOfFile := ⟨.endOfFileToken, .empty stop, ""⟩
  diagnostics := lexemes.flatMap fun (offset, lexeme) => lexeme.reports file offset

namespace Scanner

/-- Taking a lexeme gives its token and what is reported about it, unless it has an escape without
a character to escape. -/
theorem take_eq_ok_iff {scanner : Scanner} {lexeme : Lexeme} {step : ScanStep} :
    scanner.take lexeme = .ok step ↔ lexeme.problem ≠ some .danglingEscape ∧
      step = ⟨lexeme.token scanner.offset, lexeme.reports scanner.file scanner.offset,
        ⟨scanner.file, lexeme.rest, scanner.offset + byteLength lexeme.chars⟩⟩ := by
  rw [take, Lexeme.reports]
  cases lexeme.problem with
  | none =>
    simp only [Checked.ok_bind, Checked.pure_eq_ok_iff]
    exact ⟨fun same => ⟨by simp, same.symm⟩, fun same => same.2.symm⟩
  | some problem =>
    cases problem with
    | danglingEscape =>
      refine ⟨fun impossible => ?_, fun impossible => absurd rfl impossible.1⟩
      cases impossible
    | unexpectedCharacter char =>
      refine ⟨fun same => ⟨by simp, ?_⟩, fun same => ?_⟩
      · cases same
        rfl
      · rw [same.2]
        rfl
    | newlineInConstant =>
      refine ⟨fun same => ⟨by simp, ?_⟩, fun same => ?_⟩
      · cases same
        rfl
      · rw [same.2]
        rfl

theorem skipTrivia_eq {scanner : Scanner} {trivia rest : List Char}
    (split : splitTrivia false scanner.rest = (trivia, rest)) :
    scanner.skipTrivia = ⟨scanner.file, rest, scanner.offset + byteLength trivia⟩ := by
  rw [skipTrivia, split]

/-- At the end of the text, scanning gives the token that ends the file. -/
theorem scan_at_end {scanner : Scanner} {trivia : List Char}
    (split : splitTrivia false scanner.rest = (trivia, [])) :
    scanner.scan = .ok ⟨⟨.endOfFileToken, .empty (scanner.offset + byteLength trivia), ""⟩, [],
      ⟨scanner.file, [], scanner.offset + byteLength trivia⟩⟩ := by
  rw [scan, skipTrivia_eq split]
  rfl

/-- Before the end of the text, scanning takes the lexeme after the trivia. -/
theorem scan_before_end {scanner : Scanner} {trivia rest : List Char} {char : Char}
    (split : splitTrivia false scanner.rest = (trivia, char :: rest)) :
    scanner.scan = take ⟨scanner.file, char :: rest, scanner.offset + byteLength trivia⟩
      (splitLexeme char rest) := by
  rw [scan, skipTrivia_eq split]

/-- Scanning up to the end of the text gives its lexemes, if it has any. -/
theorem scanRest_eq_ok_iff {limit : Nat} {scanner : Scanner} {scanned : ScannedText}
    (enough : scanner.rest.length ≤ limit) :
    scanner.scanRest limit = .ok scanned ↔
      ∃ lexemes stop, Lexed scanner.offset scanner.rest lexemes stop ∧
        scanned = .ofLexemes scanner.file lexemes stop := by
  induction limit generalizing scanner scanned with
  | zero =>
    have empty : scanner.rest = [] := List.eq_nil_of_length_eq_zero (by omega)
    have split : splitTrivia false scanner.rest = ([], []) := by rw [empty]; rfl
    rw [scanRest, skipTrivia_eq split]
    constructor
    · rintro ⟨⟩
      exact ⟨[], _, .done split, rfl⟩
    · rintro ⟨lexemes, stop, lexed, rfl⟩
      cases lexed with
      | done atEnd =>
        rw [split] at atEnd
        cases atEnd
        rfl
      | next standing =>
        rw [split] at standing
        cases standing
  | succ limit ih =>
    rw [scanRest]
    rcases split : splitTrivia false scanner.rest with ⟨trivia, _ | ⟨char, rest⟩⟩
    · rw [scan_at_end split, Checked.ok_bind]
      constructor
      · rintro ⟨⟩
        exact ⟨[], _, .done split, rfl⟩
      · rintro ⟨lexemes, stop, lexed, rfl⟩
        cases lexed with
        | done atEnd =>
          rw [split] at atEnd
          cases atEnd
          rfl
        | next standing =>
          rw [split] at standing
          cases standing
    · have proper := splitLexeme_proper char rest
      have shorter : (splitLexeme char rest).rest.length ≤ limit := by
        have positive := List.length_pos_iff.mpr proper.chars_ne_nil
        have lengths := congrArg List.length (splitLexeme_append char rest)
        have whole := congrArg List.length (splitTrivia_append false scanner.rest)
        rw [split] at whole
        simp only [List.length_append, List.length_cons] at lengths whole
        omega
      rw [scan_before_end split, Checked.bind_eq_ok_iff]
      constructor
      · rintro ⟨step, taken, scans⟩
        obtain ⟨notDangling, rfl⟩ := take_eq_ok_iff.mp taken
        have notEnd : ((splitLexeme char rest).token (scanner.offset + byteLength trivia)).kind ≠
            .endOfFileToken := proper.kind_ne_endOfFile
        rw [if_neg notEnd] at scans
        obtain ⟨others, scansOthers, scans⟩ := Checked.bind_eq_ok_iff.mp scans
        obtain ⟨lexemes, stop, lexed, rfl⟩ := (ih shorter).mp scansOthers
        refine ⟨_, stop, .next split (takenAs_splitLexeme char rest) notDangling lexed, ?_⟩
        rw [← Checked.pure_eq_ok_iff.mp scans]
        rfl
      · rintro ⟨lexemes, stop, lexed, rfl⟩
        cases lexed with
        | done atEnd =>
          rw [split] at atEnd
          cases atEnd
        | @next _ _ _ _ _ _ _ others standing taken notDangling lexed =>
          rw [split] at standing
          cases standing
          cases taken.eq_splitLexeme
          refine ⟨_, take_eq_ok_iff.mpr ⟨notDangling, rfl⟩, ?_⟩
          have notEnd : ((splitLexeme char rest).token (scanner.offset + byteLength trivia)).kind ≠
              .endOfFileToken := proper.kind_ne_endOfFile
          rw [if_neg notEnd, (ih shorter).mpr ⟨others, stop, lexed, rfl⟩]
          rfl

end Scanner

/-- Scanning a text gives its lexemes, if it has any. -/
theorem scanText_eq_ok_iff {file : FileId} {source : SourceText} {scanned : ScannedText} :
    scanText file source = .ok scanned ↔
      ∃ lexemes stop, Lexed 0 source.chars lexemes stop ∧
        scanned = .ofLexemes file lexemes stop := by
  have enough : (Scanner.start file source).rest.length ≤ source.chars.length := Nat.le_refl _
  exact Scanner.scanRest_eq_ok_iff enough

namespace Lexed

variable {offset stop : Nat} {text : List Char} {lexemes : List (Nat × Lexeme)}

/-- White space in front of a text only moves it. -/
theorem space {char : Char} (isSpace : isWhiteSpace char = true)
    (lexed : Lexed (offset + char.utf8Size) text lexemes stop) :
    Lexed offset (char :: text) lexemes stop := by
  have split : splitTrivia false (char :: text) =
      (char :: (splitTrivia false text).1, (splitTrivia false text).2) := by
    simp [splitTrivia, isSpace]
  cases lexed with
  | @done _ _ trivia atEnd =>
    rw [atEnd] at split
    have moved : Lexed offset (char :: text) [] _ := .done split
    rwa [byteLength_cons, ← Nat.add_assoc] at moved
  | next standing taken notDangling lexed =>
    rw [standing] at split
    rw [Nat.add_assoc offset, ← byteLength_cons] at lexed ⊢
    exact .next split taken notDangling lexed

theorem blanks (offset count : Nat) :
    Lexed offset (List.replicate count ' ') [] (offset + count) := by
  induction count generalizing offset with
  | zero =>
    have nothing : splitTrivia false [] = ([], []) := rfl
    exact done nothing
  | succ count ih =>
    have behind := ih (offset + 1)
    rw [Nat.add_assoc, Nat.add_comm 1 count] at behind
    exact space (by decide) behind

/-- A character that is a token by itself in front of a text. -/
theorem single {char : Char} {kind : Kind} (noTrivia : NoTrivia char text)
    (noDouble : leadingDoubleKind? char text = none)
    (isSingle : singleCharacterKind? char = some kind)
    (lexed : Lexed (offset + char.utf8Size) text lexemes stop) :
    Lexed offset (char :: text) ((offset, ⟨kind, [char], text, none⟩) :: lexemes) stop :=
  .next (splitTrivia_eq_nil noTrivia) (.single noDouble isSingle) (by simp) lexed

/-- A lexeme of another text is taken off again where what follows echoes what followed it. -/
theorem again {char : Char} {rest after : List Char} {lexeme : Lexeme}
    (noTrivia : NoTrivia char rest) (taken : TakenAs char rest lexeme)
    (notDangling : lexeme.problem ≠ some .danglingEscape) (echoes : Echoes lexeme.rest after)
    (ends : lexeme.problem = some .newlineInConstant →
      after = [] ∨ ∃ more, after = '\n' :: more)
    (lexed : Lexed (offset + byteLength lexeme.chars) after lexemes stop) :
    Lexed offset (lexeme.chars ++ after) ((offset, { lexeme with rest := after }) :: lexemes)
      stop := by
  obtain ⟨tail, starts, whole⟩ := taken.starts
  have restEchoes : Echoes rest (tail ++ after) := whole ▸ echoes.append tail
  have standing : splitTrivia false (lexeme.chars ++ after) = ([], char :: (tail ++ after)) := by
    rw [starts]
    exact splitTrivia_eq_nil (noTrivia.echo restEchoes)
  exact .next standing (taken.again starts whole notDangling echoes ends) notDangling lexed

end Lexed

end QueryLang
