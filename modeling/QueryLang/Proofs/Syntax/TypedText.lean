import QueryLang.Proofs.Diagnostic.Sorting
import QueryLang.Proofs.Syntax.CoupledStatements
import QueryLang.Proofs.Syntax.Layout
import QueryLang.Proofs.Syntax.Trivia

/-!
# Texts with a keyword typed into them

A text is cut off behind one of its tokens, and a space and a keyword are put there. The tokens up
to the cut are scanned again, each at its place: what is looked at past the end of a token echoes
what stood there. So both texts are parsed in step up to the cut. Only a string without closing
quote takes the keyword in, and then there is no keyword to complain about.
-/

namespace QueryLang

/-! ### Scanning up to a cut -/

/-- Trivia is split off again from a text that goes on differently behind it. -/
theorem splitTrivia_again {inComment : Bool} {text trivia rest after : List Char} {char : Char}
    (split : splitTrivia inComment text = (trivia, char :: rest)) (noTrivia : NoTrivia char after) :
    splitTrivia inComment (trivia ++ char :: after) = (trivia, char :: after) := by
  induction text generalizing inComment trivia with
  | nil => cases split
  | cons first more ih =>
    rw [splitTrivia] at split
    split at split
    · next goesOn =>
      obtain ⟨rfl, left⟩ := Prod.mk.inj split
      rw [List.cons_append, splitTrivia, if_pos goesOn, ih (Prod.ext rfl left)]
    · next notComment =>
      split at split
      · next isSpace =>
        obtain ⟨rfl, left⟩ := Prod.mk.inj split
        rw [List.cons_append, splitTrivia, if_neg notComment, if_pos isSpace,
          ih (Prod.ext rfl left)]
      · next notSpace =>
        split at split
        · next isComment =>
          obtain ⟨rfl, left⟩ := Prod.mk.inj split
          -- The second slash is still there: it is trivia, or the character behind the trivia.
          have whole := splitTrivia_append true more
          rw [left] at whole
          have sameHead : ((splitTrivia true more).1 ++ char :: after).head? = more.head? := by
            conv_rhs => rw [← whole]
            rw [List.head?_append, List.head?_append]
            rfl
          rw [← sameHead] at isComment
          rw [List.cons_append, splitTrivia, if_neg notComment, if_neg notSpace, if_pos isComment,
            ih (Prod.ext rfl left)]
        · cases split
          have notInside : inComment = false := by
            by_contra inside
            simp only [Bool.not_eq_false] at inside
            subst inside
            simp only [Bool.true_and, bne_iff_ne, ne_eq, not_not] at notComment
            subst notComment
            exact notSpace (by decide)
          subst notInside
          exact splitTrivia_eq_nil noTrivia

/-- A string without closing quote ends in front of a line feed or with the text. -/
theorem splitString_unterminated {text chars rest : List Char}
    (split : splitString text = (.unterminated, chars, rest)) :
    rest = [] ∨ ∃ more, rest = '\n' :: more := by
  fun_induction splitString text generalizing chars rest with
  | case1 =>
    cases split
    exact .inl rfl
  | case2 => cases split
  | case3 escaped text ending restChars after splitRest ih =>
    cases split
    exact ih splitRest
  | case4 => cases split
  | case5 char text _ _ _ isNewline =>
    cases split
    exact .inr ⟨text, by rw [eq_of_beq isNewline]⟩
  | case6 char text _ _ _ _ ending restChars after splitRest ih =>
    cases split
    exact ih splitRest

/-- A string without closing quote goes on with what is put behind it. -/
theorem splitString_continued {text chars rest more moreChars after : List Char}
    {ending : StringEnd} (split : splitString text = (.unterminated, chars, rest))
    (splitMore : splitString more = (ending, moreChars, after)) :
    splitString (chars ++ more) = (ending, chars ++ moreChars, after) := by
  fun_induction splitString text generalizing chars rest with
  | case1 =>
    cases split
    exact splitMore
  | case2 => cases split
  | case3 escaped text textEnding restChars textAfter splitRest ih =>
    cases split
    simp [splitString, ih splitRest]
  | case4 => cases split
  | case5 =>
    cases split
    exact splitMore
  | case6 char text notDanglingEscape notEscape notQuote notNewline textEnding restChars textAfter
      splitRest ih =>
    cases split
    simp only [beq_iff_eq] at notQuote notNewline
    exact splitString_cons (ne_backslash notDanglingEscape notEscape) notQuote notNewline
      (ih splitRest)

theorem TakenAs.unterminated {char : Char} {rest : List Char} {lexeme : Lexeme}
    (taken : TakenAs char rest lexeme) (isOpen : lexeme.problem = some .newlineInConstant) :
    lexeme.rest = [] ∨ ∃ more, lexeme.rest = '\n' :: more := by
  cases taken with
  | @string ending chars after _ _ split =>
    cases ending with
    | unterminated => exact splitString_unterminated split
    | closed | danglingEscape => cases isOpen
  | double | single | number | word | unknown => cases isOpen

namespace Lexed

variable {offset stop : Nat} {text : List Char} {lexemes : List (Nat × Lexeme)}

/-- The same trivia may stand in front of another text. -/
theorem behind {trivia rest after : List Char} {char : Char}
    (split : splitTrivia false text = (trivia, char :: rest)) (noTrivia : NoTrivia char after)
    (lexed : Lexed (offset + byteLength trivia) (char :: after) lexemes stop) :
    Lexed offset (trivia ++ char :: after) lexemes stop := by
  have alone := splitTrivia_eq_nil noTrivia
  cases lexed with
  | done atEnd =>
    rw [alone] at atEnd
    cases atEnd
  | next standing taken notDangling lexed =>
    rw [alone] at standing
    cases standing
    exact .next (splitTrivia_again split noTrivia) taken notDangling lexed

/-- A lexeme of a text, found behind the characters `before` and the lexemes `front`. These are
scanned again from whatever echoes the text. -/
structure Cut (offset : Nat) (text : List Char) (front : List (Nat × Lexeme)) (place : Nat)
    (lexeme : Lexeme) (before : List Char) : Prop where
  whole : text = before ++ (lexeme.chars ++ lexeme.rest)
  standing : offset + byteLength before = place
  notDangling : lexeme.problem ≠ some .danglingEscape
  taken : ∃ char rest, TakenAs char rest lexeme ∧ NoTrivia char rest
  again : ∀ {after others last}, Echoes lexeme.rest after →
    Lexed place (lexeme.chars ++ after) others last →
      ∃ kept, Lexed offset (before ++ (lexeme.chars ++ after)) (kept ++ others) last ∧
        List.Forall₂ (fun first second => first.1 = second.1 ∧ first.2.Alike second.2) front kept

/-- What the cut keeps is not empty. -/
theorem Cut.starts {front : List (Nat × Lexeme)} {place : Nat} {lexeme : Lexeme}
    {before : List Char} (cut : Cut offset text front place lexeme before) :
    ∃ head tail, ∀ after, before ++ (lexeme.chars ++ after) = head :: (tail ++ after) := by
  obtain ⟨char, rest, taken, _⟩ := cut.taken
  obtain ⟨tail, starts, _⟩ := taken.starts
  cases before with
  | nil => exact ⟨char, tail, by simp [starts]⟩
  | cons head more => exact ⟨head, more ++ lexeme.chars, by simp⟩

/-- A text can be cut at its first lexeme. -/
theorem Cut.here {trivia rest : List Char} {char : Char} {lexeme : Lexeme}
    (standing : splitTrivia false text = (trivia, char :: rest)) (taken : TakenAs char rest lexeme)
    (notDangling : lexeme.problem ≠ some .danglingEscape) :
    Cut offset text [] (offset + byteLength trivia) lexeme trivia := by
  have noTrivia := noTrivia_of_splitTrivia standing
  obtain ⟨tail, starts, whole⟩ := taken.starts
  have split := splitTrivia_append false text
  rw [standing] at split
  refine ⟨?_, rfl, notDangling, ⟨char, rest, taken, noTrivia⟩, ?_⟩
  · rw [starts, List.cons_append, whole, split]
  · intro after others last echoes lexed
    rw [starts] at lexed ⊢
    have echoesRest : Echoes rest (tail ++ after) := whole ▸ echoes.append tail
    exact ⟨[], lexed.behind standing (noTrivia.echo echoesRest), .nil⟩

/-- Where a text can be cut behind its first lexeme, that lexeme is scanned again from all that is
put behind the cut: it ends where it did, and a string without closing quote still has no more of
its line in front of it. -/
theorem Cut.rest_again {own : Lexeme} {front : List (Nat × Lexeme)} {char : Char} {rest : List Char}
    (taken : TakenAs char rest own) {start place : Nat} {lexeme : Lexeme} {before after : List Char}
    (cut : Cut start own.rest front place lexeme before) (echoes : Echoes lexeme.rest after) :
    Echoes own.rest (before ++ (lexeme.chars ++ after)) ∧
      (own.problem = some .newlineInConstant → before ++ (lexeme.chars ++ after) = [] ∨
        ∃ more, before ++ (lexeme.chars ++ after) = '\n' :: more) := by
  constructor
  · rw [cut.whole]
    exact (echoes.append _).append _
  · intro isOpen
    obtain ⟨head, more, starts⟩ := cut.starts
    have line := taken.unterminated isOpen
    rw [cut.whole, starts] at line
    rcases line with isEnd | ⟨_, isLine⟩
    · cases isEnd
    · exact .inr ⟨more ++ after, by rw [starts, (List.cons.inj isLine).1]⟩

/-- A text can be cut behind its first lexeme where what is left can be cut. -/
theorem Cut.later {trivia rest : List Char} {char : Char} {own : Lexeme}
    (standing : splitTrivia false text = (trivia, char :: rest)) (taken : TakenAs char rest own)
    (notDangling : own.problem ≠ some .danglingEscape) {front : List (Nat × Lexeme)} {place : Nat}
    {lexeme : Lexeme} {before : List Char}
    (cut : Cut (offset + byteLength trivia + byteLength own.chars) own.rest front place lexeme
      before) :
    Cut offset text ((offset + byteLength trivia, own) :: front) place lexeme
      (trivia ++ own.chars ++ before) := by
  have noTrivia := noTrivia_of_splitTrivia standing
  obtain ⟨tail, starts, whole⟩ := taken.starts
  have split := splitTrivia_append false text
  rw [standing] at split
  refine ⟨?_, ?_, cut.notDangling, cut.taken, ?_⟩
  · rw [← split, ← whole, starts, cut.whole]
    simp
  · rw [byteLength_append, byteLength_append, ← cut.standing]
    omega
  · -- What is scanned again behind `own` is put together with `own`, and then with the trivia.
    intro after others last echoes lexed
    obtain ⟨kept, lexedKept, alike⟩ := cut.again echoes lexed
    obtain ⟨echoesOwn, ends⟩ := cut.rest_again taken echoes
    have startsOwn : own.chars ++ (before ++ (lexeme.chars ++ after)) =
        char :: (tail ++ (before ++ (lexeme.chars ++ after))) := by
      rw [starts, List.cons_append]
    have lexedOwn := lexedKept.again noTrivia taken notDangling echoesOwn ends
    rw [startsOwn] at lexedOwn
    have echoesRest : Echoes rest (tail ++ (before ++ (lexeme.chars ++ after))) :=
      whole ▸ echoesOwn.append tail
    have lexedAll := lexedOwn.behind standing (noTrivia.echo echoesRest)
    rw [← startsOwn, ← List.append_assoc, ← List.append_assoc] at lexedAll
    exact ⟨_ :: kept, lexedAll, .cons ⟨rfl, rfl, rfl, rfl⟩ alike⟩

/-- A text can be cut at each of its lexemes. -/
theorem cut {front back : List (Nat × Lexeme)} {place : Nat} {lexeme : Lexeme}
    (lexed : Lexed offset text (front ++ (place, lexeme) :: back) stop) :
    ∃ before, Cut offset text front place lexeme before := by
  induction front generalizing offset text with
  | nil =>
    cases lexed with
    | next standing taken notDangling _ => exact ⟨_, .here standing taken notDangling⟩
  | cons first front ih =>
    cases lexed with
    | next standing taken notDangling lexed =>
      obtain ⟨before, cut⟩ := ih lexed
      exact ⟨_, cut.later standing taken notDangling⟩

end Lexed

/-! ### Scanning a keyword -/

/-- The keywords that can be typed, with their kinds. -/
def typedKeywords : List (String × Kind) :=
  [("do", .doKeyword), ("return", .returnKeyword), ("yield", .yieldKeyword)]

section Keyword

variable {keyword : String × Kind}

theorem Lexed.nothing (offset : Nat) : Lexed offset [] [] offset :=
  @Lexed.done offset [] [] rfl

theorem Lexed.alone {char : Char} {rest : List Char} {kind : Kind} (offset : Nat)
    (noTrivia : NoTrivia char rest)
    (spelled : splitLexeme char rest = ⟨kind, char :: rest, [], none⟩) :
    Lexed offset (char :: rest) [(offset, ⟨kind, char :: rest, [], none⟩)]
      (offset + byteLength (char :: rest)) :=
  .next (splitTrivia_eq_nil noTrivia) (spelled ▸ takenAs_splitLexeme char rest) nofun (.nothing _)

theorem lexed_keyword (isTyped : keyword ∈ typedKeywords) (offset : Nat) :
    Lexed offset keyword.1.toList [(offset, ⟨keyword.2, keyword.1.toList, [], none⟩)]
      (offset + byteLength keyword.1.toList) := by
  simp only [typedKeywords, List.mem_cons, List.not_mem_nil, or_false] at isTyped
  rcases isTyped with rfl | rfl | rfl
  · exact .alone offset ⟨by decide, by decide⟩ rfl
  · exact .alone offset ⟨by decide, by decide⟩ rfl
  · exact .alone offset ⟨by decide, by decide⟩ rfl

theorem splitString_keyword (isTyped : keyword ∈ typedKeywords) :
    splitString (' ' :: keyword.1.toList) = (.unterminated, ' ' :: keyword.1.toList, []) := by
  simp only [typedKeywords, List.mem_cons, List.not_mem_nil, or_false] at isTyped
  rcases isTyped with rfl | rfl | rfl
  · rfl
  · rfl
  · rfl

namespace Lexed.Cut

variable {text before : List Char} {front : List (Nat × Lexeme)} {place : Nat} {lexeme : Lexeme}

/-- A keyword typed behind the cut is scanned as such, -/
theorem typed (cut : Cut 0 text front place lexeme before)
    (closed : lexeme.problem ≠ some .newlineInConstant) (isTyped : keyword ∈ typedKeywords) :
    ∃ kept, Lexed 0 (before ++ (lexeme.chars ++ ' ' :: keyword.1.toList))
      (kept ++ [(place, { lexeme with rest := ' ' :: keyword.1.toList }),
        (place + byteLength lexeme.chars + 1, ⟨keyword.2, keyword.1.toList, [], none⟩)])
      (place + byteLength lexeme.chars + 1 + byteLength keyword.1.toList) ∧
      List.Forall₂ (fun first second => first.1 = second.1 ∧ first.2.Alike second.2) front kept := by
  have isSpace : isWhiteSpace ' ' = true := by decide
  obtain ⟨char, rest, taken, noTrivia⟩ := cut.taken
  have spaced : Lexed (place + byteLength lexeme.chars) (' ' :: keyword.1.toList) _ _ :=
    .space isSpace (lexed_keyword isTyped _)
  exact cut.again (.space isSpace)
    (.again noTrivia taken cut.notDangling (.space isSpace) (absurd · closed) spaced)

/-- unless the cut is behind a string without closing quote, which takes the keyword in. -/
theorem swallowed (cut : Cut 0 text front place lexeme before)
    (isOpen : lexeme.problem = some .newlineInConstant) (isTyped : keyword ∈ typedKeywords) :
    ∃ kept, Lexed 0 (before ++ (lexeme.chars ++ ' ' :: keyword.1.toList))
      (kept ++ [(place, ⟨.stringLiteralToken, lexeme.chars ++ ' ' :: keyword.1.toList, [],
        some .newlineInConstant⟩)])
      (place + byteLength (lexeme.chars ++ ' ' :: keyword.1.toList)) ∧
      List.Forall₂ (fun first second => first.1 = second.1 ∧ first.2.Alike second.2) front kept := by
  have isSpace : isWhiteSpace ' ' = true := by decide
  obtain ⟨char, rest, taken, noTrivia⟩ := cut.taken
  refine cut.again (.space isSpace) ?_
  obtain ⟨tail, starts, whole⟩ := taken.starts
  have echoes : Echoes rest (tail ++ ' ' :: keyword.1.toList) :=
    whole ▸ Echoes.append tail (.space isSpace)
  cases taken with
  | @string ending chars after noSymbol isQuote split =>
    cases starts
    cases ending with
    | closed | danglingEscape => cases isOpen
    | unterminated =>
      have taken : TakenAs char (tail ++ ' ' :: keyword.1.toList) _ := .string (noSymbol.echo echoes)
        isQuote (splitString_continued split (splitString_keyword isTyped))
      exact .next (splitTrivia_eq_nil (noTrivia.echo echoes)) taken nofun (.nothing _)
  | double | single | number | word | unknown => cases isOpen

end Lexed.Cut

end Keyword

theorem Lexeme.map_token_of_alike {front kept : List (Nat × Lexeme)}
    (alike : List.Forall₂ (fun first second => first.1 = second.1 ∧ first.2.Alike second.2)
      front kept) :
    (kept.map fun (offset, lexeme) => lexeme.token offset) =
      front.map fun (offset, lexeme) => lexeme.token offset := by
  induction alike with
  | nil => rfl
  | @cons first second _ _ same _ ih =>
    rw [List.map_cons, List.map_cons, ih]
    simp [Lexeme.token, same.1, same.2.kind, same.2.chars]

/-- Scanning never rejects a keyword. -/
theorem ScannedText.ofLexemes_unrejected {file : FileId} {lexemes : List (Nat × Lexeme)}
    {last stop : Nat} {span : Span} :
    ∀ diagnostic ∈ (ofLexemes file lexemes last).diagnostics, ¬diagnostic.Rejects stop span := by
  intro diagnostic isReported
  obtain ⟨⟨offset, lexeme⟩, _, isReport⟩ := List.mem_flatMap.mp isReported
  dsimp only [Lexeme.reports] at isReport
  split at isReport
  · next problem _ =>
    cases problem with
    | danglingEscape => cases isReport
    | unexpectedCharacter | newlineInConstant =>
      cases List.mem_singleton.mp isReport
      rintro (⟨isTerm, _⟩ | ⟨isExpected | isIdentifier, _⟩)
      · cases isTerm
      · cases isExpected
      · cases isIdentifier
  · cases isReport

/-- The token of a keyword that is typed a space behind a position. -/
def typedToken (keyword : String × Kind) (stop : Nat) : Token :=
  ⟨keyword.2, ⟨stop + 1, byteLength keyword.1.toList⟩, String.ofList keyword.1.toList⟩

theorem eq_of_byteLength_eq {before after other rest : List Char}
    (same : before ++ after = other ++ rest) (sameLength : byteLength before = byteLength other) :
    before = other := by
  have split := splitBytes_append before after
  rw [same, sameLength, splitBytes_append] at split
  cases split
  rfl

/-- A text was cut off behind the target, and a keyword was typed there. -/
structure ScannedText.Typed (scanned again : ScannedText) (keyword : String × Kind)
    (target : Token) (before later : List Token) : Prop where
  left : scanned.tokens = before ++ target :: later
  right : again.tokens = before ++ [target, typedToken keyword target.stop] ∨
    ∃ longer, again.tokens = before ++ [longer] ∧ longer.span.start = target.span.start ∧
      longer.stop = (typedToken keyword target.stop).stop
  endOfFile : again.endOfFile.span = .empty (typedToken keyword target.stop).stop
  unrejected : ∀ {stop span}, ∀ diagnostic ∈ again.diagnostics, ¬diagnostic.Rejects stop span

/-- Typing a keyword behind a token leaves the tokens up to there as they are. -/
theorem scanText_typed {file : FileId} {source typedText : SourceText} {scanned : ScannedText}
    {keyword : String × Kind} (isTyped : keyword ∈ typedKeywords)
    (scans : scanText file source = .ok scanned) {target : Token} (isToken : target ∈ scanned.tokens)
    {front back : List Char} (isCut : source.chars = front ++ back)
    (atStop : byteLength front = target.stop)
    (text : typedText.chars = front ++ ' ' :: keyword.1.toList) :
    ∃ before later again, scanText file typedText = .ok again ∧
      scanned.Typed again keyword target before later := by
  obtain ⟨lexemes, last, lexed, rfl⟩ := scanText_eq_ok_iff.mp scans
  obtain ⟨⟨place, lexeme⟩, isLexeme, rfl⟩ := List.mem_map.mp isToken
  obtain ⟨earlier, further, rfl⟩ := List.append_of_mem isLexeme
  obtain ⟨start, cut⟩ := lexed.cut
  have whole : front ++ back = (start ++ lexeme.chars) ++ lexeme.rest := by
    rw [← isCut, cut.whole, List.append_assoc]
  have same : front = start ++ lexeme.chars := by
    refine eq_of_byteLength_eq whole ?_
    rw [atStop, byteLength_append, ← Nat.zero_add (byteLength start), cut.standing]
    rfl
  rw [same, List.append_assoc] at text
  have left : (ScannedText.ofLexemes file (earlier ++ (place, lexeme) :: further) last).tokens =
      (earlier.map fun (offset, lexeme) => lexeme.token offset) ++ lexeme.token place ::
        further.map fun (offset, lexeme) => lexeme.token offset :=
    List.map_append
  by_cases isOpen : lexeme.problem = some .newlineInConstant
  · obtain ⟨kept, lexedAgain, alike⟩ := cut.swallowed isOpen isTyped
    have last : place + byteLength (lexeme.chars ++ ' ' :: keyword.1.toList) =
        (typedToken keyword (lexeme.token place).stop).stop := by
      rw [byteLength_append, byteLength_cons, ← Nat.add_assoc, ← Nat.add_assoc]
      rfl
    rw [← text, last] at lexedAgain
    refine ⟨_, _, _, scanText_eq_ok_iff.mpr ⟨_, _, lexedAgain, rfl⟩, left, .inr ?_, rfl,
      ScannedText.ofLexemes_unrejected⟩
    refine ⟨Lexeme.token place ⟨.stringLiteralToken, lexeme.chars ++ ' ' :: keyword.1.toList, [],
      some .newlineInConstant⟩, ?_, rfl, last⟩
    rw [← Lexeme.map_token_of_alike alike]
    exact List.map_append
  · obtain ⟨kept, lexedAgain, alike⟩ := cut.typed isOpen isTyped
    rw [← text] at lexedAgain
    refine ⟨_, _, _, scanText_eq_ok_iff.mpr ⟨_, _, lexedAgain, rfl⟩, left, .inl ?_, rfl,
      ScannedText.ofLexemes_unrejected⟩
    rw [← Lexeme.map_token_of_alike alike]
    exact List.map_append

theorem scanText_precede {file : FileId} {source : SourceText} {scanned : ScannedText}
    (scans : scanText file source = .ok scanned) :
    ((scanned.tokens ++ [scanned.endOfFile]).map Token.placed).Pairwise Precedes := by
  obtain ⟨lexemes, last, lexed, rfl⟩ := scanText_eq_ok_iff.mp scans
  exact lexed.precede file

/-! ### Parsing -/

theorem byteLength_keyword_pos {keyword : String × Kind} (isTyped : keyword ∈ typedKeywords) :
    0 < byteLength keyword.1.toList := by
  simp only [typedKeywords, List.mem_cons, List.not_mem_nil, or_false] at isTyped
  rcases isTyped with rfl | rfl | rfl
  · decide
  · decide
  · decide

/-- A keyword typed a space behind a position. -/
def TypedKeyword.behind (keyword : String × Kind) (isTyped : keyword ∈ typedKeywords) (stop : Nat)
    (instead : List Token) : TypedKeyword where
  stop := stop
  instead := instead
  token := typedToken keyword stop
  kind := by
    simp only [typedKeywords, List.mem_cons, List.not_mem_nil, or_false] at isTyped
    rcases isTyped with rfl | rfl | rfl
    · exact .inl rfl
    · exact .inr (.inl rfl)
    · exact .inr (.inr rfl)
  apart := Nat.lt_succ_self stop
  visible := byteLength_keyword_pos isTyped

namespace Token

variable {before later : List Token} {target : Token}

theorem in_front (precede : ((before ++ target :: later).map placed).Pairwise Precedes) :
    ∀ token ∈ before, token.span.start < target.span.start ∧ token.stop ≤ target.span.start := by
  intro token isBefore
  rw [List.map_append, List.pairwise_append] at precede
  have precedes := precede.2.2 token.placed (List.mem_map_of_mem isBefore) target.placed (by simp)
  have nonempty : 0 < token.span.length := precedes.nonempty
  have ordered : token.span.start + token.span.length ≤ target.span.start := precedes.ordered
  exact ⟨by omega, ordered⟩

theorem in_back (precede : ((before ++ target :: later).map placed).Pairwise Precedes) :
    ∀ token ∈ later, target.span.start < target.stop ∧ target.stop ≤ token.span.start := by
  intro token isLater
  rw [List.map_append, List.pairwise_append, List.map_cons, List.pairwise_cons] at precede
  have precedes := precede.2.1.1 token.placed (List.mem_map_of_mem isLater)
  exact ⟨Nat.lt_add_of_pos_right precedes.nonempty, precedes.ordered⟩

end Token

namespace ParseState

variable {file : FileId} {features : Features} {scanned again : ScannedText}
  {typed : TypedKeyword} {target : Token} {before : List Token}

/-- A keyword that ends a file is not where the file ends. -/
theorem elsewhere_of_end (ends : again.endOfFile.span = .empty typed.token.stop) :
    again.endOfFile.span ≠ typed.token.span ∧ again.endOfFile.span ≠ .empty typed.stop := by
  have apart := typed.apart
  rw [ends]
  refine empty_elsewhere ?_
  show typed.token.span.start + typed.token.span.length ≠ typed.stop
  omega

/-- Files with the same tokens up to the target are about to be parsed. -/
theorem start_ahead
    (precede : ((before ++ target :: (typed.instead ++ [scanned.endOfFile])).map
      Token.placed).Pairwise Precedes)
    (left : scanned.tokens = before ++ target :: typed.instead)
    (right : again.tokens = before ++ [target, typed.token]) (atStop : typed.stop = target.stop)
    (ends : again.endOfFile.span = .empty typed.token.stop)
    (unrejected : ∀ diagnostic ∈ again.diagnostics,
      ¬diagnostic.Rejects typed.stop typed.token.span) :
    (start file features scanned).Ahead typed target before (start file features again) := by
  have inFront := Token.in_front precede
  have inBack := Token.in_back precede
  have isLast : scanned.endOfFile ∈ typed.instead ++ [scanned.endOfFile] := by simp
  have visible := (inBack scanned.endOfFile isLast).1
  exact {
    left, right, unrejected
    notBefore := fun isBefore => Nat.lt_irrefl _ (inFront target isBefore).1
    notInstead := fun isLater => by
      have ordered := inBack target (List.mem_append_left _ isLater)
      omega
    notEnd := by
      rintro (same : scanned.endOfFile = target)
      have ordered := inBack scanned.endOfFile isLast
      rw [same] at ordered
      omega
    starts := by
      refine List.forall_mem_append.mpr ⟨fun token isBefore => ?_, ?_⟩
      · have ordered := inFront token isBefore
        omega
      · exact List.forall_mem_singleton.mpr (by omega)
    stops := fun token isBefore => by
      have ordered := inFront token isBefore
      omega
    lastEnd := by
      show 0 < typed.stop
      omega
    endOfFile := elsewhere_of_end ends }

/-- A file is about to be parsed in which no token is the keyword, and none ends where something
could be missed in front of it. -/
theorem start_harmless
    (elsewhere : ∀ token ∈ again.tokens, token.span.start < typed.stop ∧ token.stop ≠ typed.stop)
    (visible : 0 < typed.stop) (ends : again.endOfFile.span = .empty typed.token.stop)
    (unrejected : ∀ diagnostic ∈ again.diagnostics,
      ¬diagnostic.Rejects typed.stop typed.token.span) :
    (start file features again).Harmless typed where
  unrejected := unrejected
  elsewhere := List.forall_mem_cons.mpr
    ⟨elsewhere_of_end ends, fun token isToken => elsewhere_of_start_lt (elsewhere token isToken).1⟩
  ends token isToken := (elsewhere token isToken).2
  lastEnd := Nat.ne_of_lt visible

end ParseState

section Parsed

variable {file : FileId} {features : Features} {source typedText : SourceText}
  {scanned again : ScannedText} {keyword : String × Kind}

/-- The reports of a parsed file are those of its tokens. -/
theorem parseText_unrejected {stop : Nat} {span : Span} (fileName : String)
    (scans : scanText file typedText = .ok again)
    (unrejected : ∀ diagnostic ∈ (parseTokens file features again).diagnostics,
      ¬diagnostic.Rejects stop span) :
    ∃ parsed, parseText file fileName typedText features = .ok parsed ∧
      ∀ diagnostic ∈ parsed.diagnostics, ¬diagnostic.Rejects stop span :=
  ⟨_, parseText_eq_ok scans, fun diagnostic isReported =>
    unrejected diagnostic (Diagnostics.mem_sorted.mp isReported)⟩

/-- A file can start with a keyword. -/
theorem parseText_keyword (isTyped : keyword ∈ typedKeywords)
    (text : typedText.chars = ' ' :: keyword.1.toList) (fileName : String) :
    ∃ parsed, parseText file fileName typedText features = .ok parsed ∧
      ∀ diagnostic ∈ parsed.diagnostics, ¬diagnostic.Rejects 0 (typedToken keyword 0).span := by
  have lexed : Lexed 0 (' ' :: keyword.1.toList)
      [(1, ⟨keyword.2, keyword.1.toList, [], none⟩)] (1 + byteLength keyword.1.toList) :=
    .space (by decide) (lexed_keyword isTyped 1)
  rw [← text] at lexed
  let typed := TypedKeyword.behind keyword isTyped 0 []
  have takes : Parser.TakesKeyword typed Parser.compilationUnit :=
    Parser.takesKeyword_compilationUnit
  let scanned : ScannedText := .ofLexemes file [(1, ⟨keyword.2, keyword.1.toList, [], none⟩)]
    (1 + byteLength keyword.1.toList)
  have unrejected : ∀ diagnostic ∈ scanned.diagnostics,
      ¬diagnostic.Rejects typed.stop typed.token.span := ScannedText.ofLexemes_unrejected
  have ready : (ParseState.start file features scanned).Ready typed :=
    ⟨rfl, unrejected, ParseState.elsewhere_of_end rfl⟩
  have scans : scanText file typedText = .ok scanned := scanText_eq_ok_iff.mpr ⟨_, _, lexed, rfl⟩
  exact parseText_unrejected fileName scans (takes _ ready).unrejected

/-- What a file accepts a keyword behind is one of its tokens. -/
theorem mem_tokens_of_accepts (scans : scanText file source = .ok scanned) {target : Token}
    (accepts : (parseTokens file features scanned).shape.Accepts target keyword.2) :
    target ∈ scanned.tokens := by
  have covers := scanText_covers scans
  have kept := (parseTokens_faithful file features covers).tokens
  obtain ⟨pieces, shapeEq⟩ := parseTokens_last file features covers
  rw [shapeEq] at accepts kept
  rw [ParseTree.tokens, ParseTree.tokensOfAll_append] at kept
  rw [← List.append_inj_left' kept rfl, ParseTree.mem_tokensOfAll]
  cases accepts with
  | inside isNode isChild accepts =>
    rw [(ParseTree.isNode_node_iff.mp isNode).2] at isChild
    rcases List.mem_append.mp isChild with isPiece | isLast
    · exact ⟨_, isPiece, accepts.mem_tokens⟩
    · rw [List.mem_singleton.mp isLast] at accepts
      exact absurd accepts ParseTree.not_accepts_token
  | @statement _ _ front child more last isNode _ ends =>
    have isAll := (ParseTree.isNode_node_iff.mp isNode).2
    rw [← List.cons_append, ← List.append_assoc] at isAll
    refine ⟨child, ?_, ends.mem_tokens⟩
    rw [← (List.append_inj' isAll rfl).1]
    exact List.mem_append_right _ (List.mem_cons_self ..)
  | conclusion isNode | body isNode => cases (ParseTree.isNode_node_iff.mp isNode).1
  | value isNode _ isYield =>
    obtain ⟨rfl, _⟩ := ParseTree.isNode_node_iff.mp isNode
    rcases isYield with isYield | isYield <;> cases isYield

/-- Parsing a file that was cut off behind the target rejects no keyword that was accepted there. -/
theorem parseTokens_typed (isTyped : keyword ∈ typedKeywords)
    (precede : ((scanned.tokens ++ [scanned.endOfFile]).map Token.placed).Pairwise Precedes)
    {target : Token} {before later : List Token}
    (accepts : (parseTokens file features scanned).shape.Accepts target keyword.2)
    (typed : scanned.Typed again keyword target before later) :
    ∀ diagnostic ∈ (parseTokens file features again).diagnostics,
      ¬diagnostic.Rejects target.stop (typedToken keyword target.stop).span := by
  rw [typed.left, List.append_assoc, List.cons_append] at precede
  let typedKeyword := TypedKeyword.behind keyword isTyped target.stop later
  rcases typed.right with right | ⟨longer, right, start, stop⟩
  · have ahead : (ParseState.start file features scanned).Ahead typedKeyword target before
        (.start file features again) :=
      ParseState.start_ahead precede typed.left right rfl typed.endOfFile typed.unrejected
    exact Parser.compilationUnit_unrejected ahead accepts
  · have inFront := Token.in_front precede
    have visible := (Token.in_back precede scanned.endOfFile (by simp)).1
    have elsewhere : ∀ token ∈ again.tokens,
        token.span.start < target.stop ∧ token.stop ≠ target.stop := by
      rw [right]
      refine List.forall_mem_append.mpr ⟨fun token isBefore => ?_, ?_⟩
      · have ordered := inFront token isBefore
        omega
      · refine List.forall_mem_singleton.mpr ⟨by omega, ?_⟩
        rw [stop]
        show target.stop + 1 + byteLength keyword.1.toList ≠ target.stop
        omega
    have harmless : (ParseState.start file features again).Harmless typedKeyword :=
      ParseState.start_harmless elsewhere (Nat.zero_lt_of_lt visible) typed.endOfFile
        typed.unrejected
    have coupled : Parser.Coupled typedKeyword target Parser.compilationUnit :=
      Parser.coupled_compilationUnit
    exact (coupled.harmless harmless).unrejected

/-- A keyword that a file accepts behind one of its tokens can be typed there. -/
theorem parseText_typed (isTyped : keyword ∈ typedKeywords)
    (scans : scanText file source = .ok scanned) {target : Token}
    (accepts : (parseTokens file features scanned).shape.Accepts target keyword.2)
    {front back : List Char} (isCut : source.chars = front ++ back)
    (atStop : byteLength front = target.stop)
    (text : typedText.chars = front ++ ' ' :: keyword.1.toList) (fileName : String) :
    ∃ parsed, parseText file fileName typedText features = .ok parsed ∧
      ∀ diagnostic ∈ parsed.diagnostics,
        ¬diagnostic.Rejects target.stop (typedToken keyword target.stop).span := by
  have isToken := mem_tokens_of_accepts scans accepts
  obtain ⟨before, later, again, scansAgain, typed⟩ :=
    scanText_typed isTyped scans isToken isCut atStop text
  exact parseText_unrejected fileName scansAgain
    (parseTokens_typed isTyped (scanText_precede scans) accepts typed)

end Parsed

end QueryLang
