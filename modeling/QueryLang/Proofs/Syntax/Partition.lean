import QueryLang.Proofs.Syntax.Lexing

/-!
# The parts of a text

Scanning takes a text apart. Its tokens stand one after the other at their own characters, what is
left around them is white space and comments, and the reports are those that the tokens call for.
-/

namespace QueryLang

/-! ### Trivia -/

/-- White space and comments, where some text comes after them. A comment starts with two slashes
and goes on up to a line feed, which it does not include, or up to the end of the text. -/
inductive Trivia (after : List Char) : (trivia : List Char) → Prop
  | nothing : Trivia after []
  | space {char : Char} {more : List Char} (isSpace : isWhiteSpace char = true)
      (trivia : Trivia after more) : Trivia after (char :: more)
  | comment {line more : List Char} (inLine : '\n' ∉ line)
      (ends : more ++ after = [] ∨ ∃ rest, more ++ after = '\n' :: rest)
      (trivia : Trivia after more) : Trivia after ('/' :: '/' :: (line ++ more))

/-- What is left of a comment, and the trivia behind it. -/
def RestOfComment (after trivia : List Char) : Prop :=
  ∃ line more, trivia = line ++ more ∧ '\n' ∉ line ∧
    (more ++ after = [] ∨ ∃ rest, more ++ after = '\n' :: rest) ∧ Trivia after more

theorem RestOfComment.cons {after trivia : List Char} {char : Char} (notNewline : char ≠ '\n')
    (comment : RestOfComment after trivia) : RestOfComment after (char :: trivia) := by
  rcases comment with ⟨line, more, rfl, inLine, ends, trivia⟩
  refine ⟨char :: line, more, rfl, ?_, ends, trivia⟩
  exact List.not_mem_cons_of_ne_of_not_mem notNewline.symm inLine

/-- A slash starts a comment where another slash starts the rest of one. -/
theorem RestOfComment.trivia {after trivia : List Char}
    (comment : RestOfComment after ('/' :: trivia)) : Trivia after ('/' :: '/' :: trivia) := by
  rcases comment with ⟨_ | ⟨slash, line⟩, more, whole, inLine, ends, trivia⟩
  · rw [List.nil_append] at whole
    subst whole
    rcases ends with ⟨⟨⟩⟩ | ⟨_, ⟨⟩⟩
  · cases whole
    exact .comment (fun member => inLine (List.mem_cons_of_mem _ member)) ends trivia

/-- What is split off before a token is trivia, inside of a comment as well as outside. -/
theorem trivia_of_split {inComment : Bool} {text trivia rest : List Char}
    (split : splitTrivia inComment text = (trivia, rest)) :
    (inComment = true → RestOfComment rest trivia) ∧
      (inComment = false → Trivia rest trivia) := by
  induction text generalizing inComment trivia with
  | nil =>
    cases split
    exact ⟨fun _ => ⟨[], [], rfl, List.not_mem_nil, .inl rfl, .nothing⟩, fun _ => .nothing⟩
  | cons char text ih =>
    rw [splitTrivia] at split
    split at split
    · next goesOn =>
      cases split
      simp only [Bool.and_eq_true, bne_iff_ne, ne_eq] at goesOn
      refine ⟨fun _ => ((ih rfl).1 rfl).cons goesOn.2, fun outside => ?_⟩
      rw [goesOn.1] at outside
      cases outside
    · next ended =>
      -- Inside of a comment, only the line feed that ends it comes here.
      have isNewline (inside : inComment = true) : char = '\n' := by simpa [inside] using ended
      split at split
      · next isSpace =>
        cases split
        have trivia := Trivia.space isSpace ((ih rfl).2 rfl)
        refine ⟨fun inside => ?_, fun _ => trivia⟩
        cases isNewline inside
        exact ⟨[], _, rfl, List.not_mem_nil, .inr ⟨_, rfl⟩, trivia⟩
      · next notSpace =>
        have outside (inside : inComment = true) : False := by
          cases isNewline inside
          exact notSpace (by decide)
        refine ⟨fun inside => (outside inside).elim, fun _ => ?_⟩
        split at split
        · next startsComment =>
          cases split
          simp only [Bool.and_eq_true, beq_iff_eq, List.head?_eq_some_iff] at startsComment
          rcases startsComment with ⟨rfl, more, rfl⟩
          exact ((ih rfl).1 rfl).trivia
        · cases split
          exact .nothing

/-- Between two offsets of a text there is only trivia. -/
def TriviaBetween (text : List Char) (start stop : Nat) : Prop :=
  ∃ before trivia after, text = before ++ (trivia ++ after) ∧ byteLength before = start ∧
    byteLength before + byteLength trivia = stop ∧ Trivia after trivia

/-- The stretches around tokens: before the first, between any two, and after the last. -/
def stretchesAround (start stop : Nat) : List Token → List (Nat × Nat)
  | [] => [(start, stop)]
  | token :: rest =>
    (start, token.span.start) ::
      stretchesAround (token.span.start + token.span.length) stop rest

/-! ### Strings -/

/-- What can stand between the quotes of a string. A quote there has a backslash in front, which
takes it along. -/
inductive Quotable : List Char → Prop
  | nothing : Quotable []
  | plain {char : Char} {rest : List Char} (notQuote : char ≠ '"') (notBackslash : char ≠ '\\')
      (quotable : Quotable rest) : Quotable (char :: rest)
  | escaped {char : Char} {rest : List Char} (quotable : Quotable rest) :
      Quotable ('\\' :: char :: rest)

/-- The text of the token is a string in quotes. -/
def Token.HasClosingQuote (token : Token) : Prop :=
  ∃ inside, Quotable inside ∧ token.text.toList = '"' :: (inside ++ ['"'])

theorem Quotable.of_cons {char : Char} {rest : List Char} (notBackslash : char ≠ '\\')
    (quotable : Quotable (char :: rest)) : char ≠ '"' ∧ Quotable rest := by
  cases quotable with
  | plain notQuote _ quotable => exact ⟨notQuote, quotable⟩
  | escaped => exact absurd rfl notBackslash

theorem Quotable.of_escaped {char : Char} {rest : List Char}
    (quotable : Quotable ('\\' :: char :: rest)) : Quotable rest := by
  cases quotable with
  | plain _ notBackslash => exact absurd rfl notBackslash
  | escaped quotable => exact quotable

/-- A quote that ends a string is not inside of one. -/
theorem Quotable.not_quote {inside : List Char} (quotable : Quotable inside) :
    ¬ Quotable (inside ++ ['"']) := by
  intro other
  induction quotable with
  | nothing => exact (other.of_cons (by decide)).1 rfl
  | plain _ notBackslash _ ih => exact ih (other.of_cons notBackslash).2
  | escaped _ ih => exact ih other.of_escaped

/-- The rest of a string literal is something that can stand between quotes, and a quote if the
literal has one. -/
theorem quotable_of_split {text chars rest : List Char} {ending : StringEnd}
    (split : splitString text = (ending, chars, rest)) :
    (ending = .closed → ∃ inside, Quotable inside ∧ chars = inside ++ ['"']) ∧
      (ending = .unterminated → Quotable chars) := by
  fun_induction splitString text generalizing ending chars rest with
  | case1 =>
    cases split
    exact ⟨by simp, fun _ => .nothing⟩
  | case2 =>
    cases split
    exact ⟨by simp, by simp⟩
  | case3 escaped text restEnding restChars restAfter splitRest ih =>
    cases split
    refine ⟨fun isClosed => ?_, fun notClosed => .escaped ((ih splitRest).2 notClosed)⟩
    rcases (ih splitRest).1 isClosed with ⟨inside, quotable, rfl⟩
    exact ⟨'\\' :: escaped :: inside, .escaped quotable, rfl⟩
  | case4 =>
    cases split
    exact ⟨fun _ => ⟨[], .nothing, rfl⟩, by simp⟩
  | case5 =>
    cases split
    exact ⟨by simp, fun _ => .nothing⟩
  | case6 char text notDanglingEscape notEscape notQuote notNewline restEnding restChars restAfter
      splitRest ih =>
    cases split
    have notQuote : char ≠ '"' := by simpa using notQuote
    have notBackslash := ne_backslash notDanglingEscape notEscape
    refine ⟨fun isClosed => ?_, fun notClosed =>
      .plain notQuote notBackslash ((ih splitRest).2 notClosed)⟩
    rcases (ih splitRest).1 isClosed with ⟨inside, quotable, rfl⟩
    exact ⟨char :: inside, .plain notQuote notBackslash quotable, rfl⟩

/-! ### Reports -/

/-- The reports that a token calls for: one if it is of unknown kind, one if it is a string without
closing quote, and no other. -/
inductive LexicalReports (file : FileId) (token : Token) : Diagnostics → Prop
  | unexpected (isUnknown : token.kind = .unknown) :
      LexicalReports file token [.located ⟨file, token.span⟩ .unexpectedCharacter [token.text]]
  | unclosed (isString : token.kind = .stringLiteralToken) (isOpen : ¬ token.HasClosingQuote) :
      LexicalReports file token [.located ⟨file, token.span⟩ .newlineInConstant []]
  | nothing (isKnown : token.kind ≠ .unknown)
      (isClosed : token.kind = .stringLiteralToken → token.HasClosingQuote) :
      LexicalReports file token []

/-- A token that is no string and of a known kind calls for no report. -/
theorem LexicalReports.ordinary {file : FileId} {token : Token} (isKnown : token.kind ≠ .unknown)
    (noString : token.kind ≠ .stringLiteralToken) : LexicalReports file token [] :=
  .nothing isKnown fun isString => absurd isString noString

theorem ne_string_of_doubleCharacterKind? {char next : Char} {kind : Kind}
    (found : doubleCharacterKind? char next = some kind) : kind ≠ .stringLiteralToken := by
  rintro rfl
  unfold doubleCharacterKind? at found
  split at found <;> cases found

theorem ne_string_of_singleCharacterKind? {char : Char} {kind : Kind}
    (found : singleCharacterKind? char = some kind) : kind ≠ .stringLiteralToken := by
  rintro rfl
  unfold singleCharacterKind? at found
  split at found <;> cases found

/-- A word is of a known kind, and no string. -/
theorem ordinary_word (text : String) :
    (Kind.ofKeyword? text).getD .identifierToken ≠ .unknown ∧
      (Kind.ofKeyword? text).getD .identifierToken ≠ .stringLiteralToken := by
  cases found : Kind.ofKeyword? text with
  | none => exact ⟨by decide, by decide⟩
  | some kind =>
    refine ⟨(isSpelled_of_ofKeyword? found).2, ?_⟩
    rintro rfl
    have keyword := List.find?_some found
    simp [Kind.keywordText?] at keyword

/-- A lexeme is reported as its token calls for. -/
theorem TakenAs.lexicalReports {char : Char} {rest : List Char} {lexeme : Lexeme}
    (taken : TakenAs char rest lexeme) (notDangling : lexeme.problem ≠ some .danglingEscape)
    (file : FileId) (offset : Nat) :
    LexicalReports file (lexeme.token offset) (lexeme.reports file offset) := by
  cases taken with
  | @double kind next after isRest found =>
    have isLeading : leadingDoubleKind? char (next :: after) = some kind := found
    exact .ordinary (isSpelled_of_leadingDoubleKind? isLeading).2
      (ne_string_of_doubleCharacterKind? found)
  | single noDouble found =>
    exact .ordinary (isSpelled_of_singleCharacterKind? found).2
      (ne_string_of_singleCharacterKind? found)
  | @string ending chars after noSymbol isQuote split =>
    subst isQuote
    cases ending with
    | closed =>
      refine .nothing (by simp [Lexeme.token]) fun _ => ?_
      rcases (quotable_of_split split).1 rfl with ⟨inside, quotable, rfl⟩
      exact ⟨inside, quotable, String.toList_ofList⟩
    | unterminated =>
      refine .unclosed rfl ?_
      rintro ⟨inside, quotable, isText⟩
      have isText : '"' :: chars = '"' :: (inside ++ ['"']) := by
        rwa [Lexeme.token, String.toList_ofList] at isText
      cases isText
      exact quotable.not_quote ((quotable_of_split split).2 rfl)
    | danglingEscape => exact absurd rfl notDangling
  | number => exact .ordinary (by simp [Lexeme.token]) (by simp [Lexeme.token])
  | word => exact .ordinary (ordinary_word _).1 (ordinary_word _).2
  | unknown => exact .unexpected rfl

/-! ### Whole texts -/

namespace Tiled

variable {offset : Nat} {chars : List Char} {tokens : List Token} {endOfFile : Token}

theorem endOfFile_eq (tiled : Tiled offset chars tokens endOfFile) :
    endOfFile = ⟨.endOfFileToken, .empty (offset + byteLength chars), ""⟩ := by
  induction tiled with
  | done => rfl
  | token _ _ _ ih => simp [ih, Nat.add_assoc]

theorem length_pos (tiled : Tiled offset chars tokens endOfFile) :
    ∀ token ∈ tokens, 0 < token.span.length := by
  induction tiled with
  | done => simp
  | token _ notEmpty _ ih =>
    refine List.forall_mem_cons.mpr ⟨?_, ih⟩
    exact Nat.pos_of_ne_zero fun empty => notEmpty (eq_nil_of_byteLength_eq_zero empty)

/-- The text of a token stands at its span. -/
theorem slice (tiled : Tiled offset chars tokens endOfFile) {before : List Char}
    (standing : byteLength before = offset) :
    ∀ token ∈ tokens ++ [endOfFile],
      sliceBytes (before ++ chars) token.span.start (token.span.start + token.span.length) =
        .ok token.text.toList := by
  induction tiled generalizing before with
  | @done offset trivia =>
    refine List.forall_mem_singleton.mpr ?_
    have slice := sliceBytes_append (before ++ trivia) [] []
    simpa [standing, Span.empty] using slice
  | @token offset kind trivia lexeme rest tokens endOfFile notEnd notEmpty tiled ih =>
    refine List.forall_mem_cons.mpr ⟨?_, ?_⟩
    · have slice := sliceBytes_append (before ++ trivia) lexeme rest
      simpa [standing] using slice
    · have standing : byteLength (before ++ trivia ++ lexeme) =
          offset + byteLength trivia + byteLength lexeme := by
        simp [standing, Nat.add_assoc]
      simpa using ih standing

end Tiled

namespace Lexed

variable {offset stop : Nat} {text : List Char} {lexemes : List (Nat × Lexeme)}

/-- Around the lexemes of a text there is only trivia. -/
theorem triviaBetween (lexed : Lexed offset text lexemes stop) {before : List Char}
    (standing : byteLength before = offset) (file : FileId) :
    ∀ stretch ∈ stretchesAround offset stop (ScannedText.ofLexemes file lexemes stop).allTokens,
      TriviaBetween (before ++ text) stretch.1 stretch.2 := by
  induction lexed generalizing before with
  | @done offset text trivia atEnd =>
    have whole := splitTrivia_append false text
    rw [atEnd, List.append_nil] at whole
    subst whole
    refine List.forall_mem_cons.mpr ⟨?_, List.forall_mem_singleton.mpr ?_⟩
    · exact ⟨before, trivia, [], by simp, standing, by rw [standing]; rfl,
        (trivia_of_split atEnd).2 rfl⟩
    · exact ⟨before ++ trivia, [], [], by simp, by rw [byteLength_append, standing]; rfl,
        by rw [byteLength_append, standing]; rfl, .nothing⟩
  | @next offset stop text trivia rest char lexeme others split taken notDangling lexed ih =>
    have parts := splitLexeme_append char rest
    rw [taken.eq_splitLexeme] at parts
    have whole := splitTrivia_append false text
    rw [split, ← parts] at whole
    subst whole
    refine List.forall_mem_cons.mpr ⟨?_, ?_⟩
    · exact ⟨before, trivia, char :: rest, by rw [parts], standing, by rw [standing]; rfl,
        (trivia_of_split split).2 rfl⟩
    · have standing : byteLength (before ++ trivia ++ lexeme.chars) =
          offset + byteLength trivia + byteLength lexeme.chars := by
        simp [standing, Nat.add_assoc]
      have further := ih standing
      rw [List.append_assoc, List.append_assoc] at further
      exact further

/-- Every lexeme of a text is reported as its token calls for. -/
theorem lexicalReports (lexed : Lexed offset text lexemes stop) (file : FileId) :
    List.Forall₂ (LexicalReports file) (lexemes.map fun (offset, lexeme) => lexeme.token offset)
      (lexemes.map fun (offset, lexeme) => lexeme.reports file offset) := by
  induction lexed with
  | done => exact .nil
  | next _ taken notDangling _ ih => exact .cons (taken.lexicalReports notDangling file _) ih

end Lexed

/-- Scanning takes a text apart. (1) The tokens stand one after the other, every one but the last
takes up characters, and each of them has the text between the characters at which it starts and
stops. (2) Around the tokens there is only trivia. (3) The last token, and no other, ends the file,
and it stands at the end of the text without any width. (4) The reports are those that the tokens
call for, in their order. -/
theorem scanText_partitions {file : FileId} {source : SourceText} {scanned : ScannedText}
    (scans : scanText file source = .ok scanned) :
    ((scanned.allTokens.Pairwise fun token later =>
        token.span.start + token.span.length ≤ later.span.start) ∧
      (∀ token ∈ scanned.tokens, 0 < token.span.length) ∧
      ∀ token ∈ scanned.allTokens, token.span.Within source.chars ∧
        ∃ stop, token.span.stop = .ok stop ∧
          sliceBytes source.chars token.span.start stop = .ok token.text.toList) ∧
    (∀ stretch ∈ stretchesAround 0 (byteLength source.chars) scanned.allTokens,
      TriviaBetween source.chars stretch.1 stretch.2) ∧
    ((∀ token ∈ scanned.tokens, token.kind ≠ .endOfFileToken) ∧
      scanned.endOfFile = ⟨.endOfFileToken, .empty (byteLength source.chars), ""⟩) ∧
    ∃ reports, List.Forall₂ (LexicalReports file) scanned.allTokens reports ∧
      scanned.diagnostics = reports.flatten := by
  have tiled := (scanText_covers scans).tiled
  have endOfFileEq := tiled.endOfFile_eq
  rw [Nat.zero_add] at endOfFileEq
  rcases scanText_eq_ok_iff.mp scans with ⟨lexemes, stop, lexed, rfl⟩
  have stopEq : stop = byteLength source.chars := by
    simpa [ScannedText.ofLexemes, Span.empty] using endOfFileEq
  refine ⟨⟨tiled.ordered, tiled.length_pos, fun token isToken => ?at_span⟩, ?trivia,
    ⟨tiled.token_kind, endOfFileEq⟩, ?reports⟩
  case at_span =>
    have within := tiled.within byteLength_nil token isToken
    exact ⟨within, _, within.stop_eq_ok source.byteLength_lt,
      tiled.slice byteLength_nil token isToken⟩
  case trivia =>
    rw [← stopEq]
    exact lexed.triviaBetween byteLength_nil file
  case reports =>
    have last : LexicalReports file
        (ScannedText.ofLexemes file lexemes stop).endOfFile [] := by
      refine .ordinary ?_ ?_ <;> simp [endOfFileEq]
    refine ⟨_, List.rel_append (lexed.lexicalReports file) (.cons last .nil), ?_⟩
    simp [ScannedText.ofLexemes, List.flatMap_def]

/-- A text with comments, a string with an escaped quote, a character that starts no token, and a
string whose only closing quote is escaped. -/
theorem scanText_partitions_unclosed :
    let source : SourceText :=
      ⟨"// a\r\né <=\"x\\\"y\"//b\n #1.5. \"\\\"".toList, by decide +kernel⟩
    ∃ scanned, scanText 0 source = .ok scanned ∧
      scanned.allTokens.map (fun token => (token.span.start, token.text)) =
        [(6, "é"), (9, "<="), (11, "\"x\\\"y\""), (22, "#"), (23, "1.5"), (26, "."),
          (28, "\"\\\""), (31, "")] ∧
      scanned.diagnostics.map (fun report => (report.location, report.text)) =
        [(some ⟨0, ⟨22, 1⟩⟩, "Unexpected character '#'."),
          (some ⟨0, ⟨28, 3⟩⟩, "Newline in constant.")] ∧
      (∀ stretch ∈ stretchesAround 0 31 scanned.allTokens,
        TriviaBetween source.chars stretch.1 stretch.2) ∧
      ∃ reports, List.Forall₂ (LexicalReports 0) scanned.allTokens reports ∧
        scanned.diagnostics = reports.flatten := by
  intro source
  have isScanned : (scanText 0 source).isOk := by decide +kernel
  have isParted : ∀ scanned ∈ (scanText 0 source).toOption,
      scanned.allTokens.map (fun token => (token.span.start, token.text)) =
          [(6, "é"), (9, "<="), (11, "\"x\\\"y\""), (22, "#"), (23, "1.5"), (26, "."),
            (28, "\"\\\""), (31, "")] ∧
        scanned.diagnostics.map (fun report => (report.location, report.text)) =
          [(some ⟨0, ⟨22, 1⟩⟩, "Unexpected character '#'."),
            (some ⟨0, ⟨28, 3⟩⟩, "Newline in constant.")] := by
    decide +kernel
  obtain ⟨scanned, scans⟩ := Checked.exists_ok_of_isOk isScanned
  rcases isParted scanned (by rw [scans]; rfl) with ⟨tokens, diagnostics⟩
  rcases scanText_partitions scans with ⟨_, trivia, _, reports⟩
  exact ⟨scanned, scans, tokens, diagnostics, trivia, reports⟩

end QueryLang
