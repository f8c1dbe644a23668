import QueryLang.Proofs.Syntax.Layout

/-!
# Outside of the code

Inside of a string and in a comment nothing that is typed is code. Scanning passes over a comment up
to the end of its line, so that no token starts in there.
-/

namespace QueryLang

/-- The position is inside of a string, or in a comment: behind the start of the first of its two
slashes, which is in no token, and no further than the end of its line. -/
inductive ScannedText.OutsideCode (scanned : ScannedText) (source : SourceText) (position : Nat) :
    Prop
  | string {token : Token} (isToken : token ∈ scanned.tokens)
      (isString : token.kind = .stringLiteralToken) (starts : token.span.start < position)
      (stops : position < token.stop) : OutsideCode scanned source position
  | comment {front line back : List Char}
      (isText : source.chars = front ++ '/' :: '/' :: (line ++ back)) (inLine : '\n' ∉ line)
      (ends : back = [] ∨ ∃ rest, back = '\n' :: rest)
      (skipped : ∀ token ∈ scanned.tokens,
        token.stop ≤ byteLength front ∨ byteLength front < token.span.start)
      (starts : byteLength front < position)
      (stops : position ≤ byteLength front + 2 + byteLength line) :
      OutsideCode scanned source position

/-! ### Lines of comments -/

/-- A comment goes on to the end of its line. -/
theorem splitTrivia_line {line : List Char} (inLine : '\n' ∉ line) (back : List Char) :
    splitTrivia true (line ++ back) =
      (line ++ (splitTrivia true back).1, (splitTrivia true back).2) := by
  induction line with
  | nil => rfl
  | cons char line ih =>
    rw [List.mem_cons, not_or] at inLine
    have goesOn : (true && char != '\n') = true := by simpa using Ne.symm inLine.1
    rw [List.cons_append, splitTrivia, if_pos goesOn, ih inLine.2]
    rfl

/-- What is split off goes on behind its first character, and behind a slash as a comment. -/
theorem splitTrivia_cons {inComment : Bool} {char : Char} {text trivia rest : List Char}
    (split : splitTrivia inComment (char :: text) = (trivia, rest)) (notEmpty : trivia ≠ []) :
    ∃ again more, trivia = char :: more ∧ splitTrivia again text = (more, rest) ∧
      (char = '/' → again = true) := by
  rw [splitTrivia] at split
  split at split
  · cases split
    exact ⟨true, _, rfl, rfl, fun _ => rfl⟩
  · split at split
    · next isSpace =>
      cases split
      refine ⟨false, _, rfl, rfl, ?_⟩
      rintro rfl
      exact absurd isSpace (by decide)
    · split at split
      · cases split
        exact ⟨true, _, rfl, rfl, fun _ => rfl⟩
      · cases split
        exact absurd rfl notEmpty

/-- If a slash is split off in front of a token, then so is the rest of its line, with the line feed
at the end. -/
theorem splitTrivia_slash {inComment : Bool} {front line back trivia rest : List Char} {char : Char}
    (split : splitTrivia inComment (front ++ '/' :: (line ++ back)) = (trivia, char :: rest))
    (inLine : '\n' ∉ line) (ends : back = [] ∨ ∃ more, back = '\n' :: more)
    (passed : byteLength front < byteLength trivia) :
    byteLength front + 1 + byteLength line < byteLength trivia := by
  have notEmpty : trivia ≠ [] := by
    rintro rfl
    exact absurd passed (Nat.not_lt_zero _)
  induction front generalizing inComment trivia with
  | nil =>
    obtain ⟨again, more, rfl, split, slash⟩ := splitTrivia_cons split notEmpty
    rw [slash rfl, splitTrivia_line inLine] at split
    rcases ends with rfl | ⟨after, rfl⟩
    · cases split
    · have lineFeed : (splitTrivia true ('\n' :: after)).1 =
          '\n' :: (splitTrivia false after).1 := by
        rfl
      rw [lineFeed, Prod.mk.injEq] at split
      rw [← split.1]
      have slashSize : Char.utf8Size '/' = 1 := by decide
      have feedSize : Char.utf8Size '\n' = 1 := by decide
      simp only [byteLength_cons, byteLength_append, byteLength_nil]
      omega
  | cons first front ih =>
    obtain ⟨again, more, rfl, split, _⟩ := splitTrivia_cons split notEmpty
    rw [byteLength_cons, byteLength_cons] at *
    have passed : byteLength front < byteLength more := by omega
    have notEmpty : more ≠ [] := by
      rintro rfl
      exact absurd passed (Nat.not_lt_zero _)
    have further := ih split passed notEmpty
    omega

/-- A comment lies between two tokens, together with the end of its line. -/
theorem Lexed.around_comment {offset stop : Nat} {text : List Char} {lexemes : List (Nat × Lexeme)}
    (lexed : Lexed offset text lexemes stop) (file : FileId) {front line back : List Char}
    (isText : text = front ++ '/' :: (line ++ back)) (inLine : '\n' ∉ line)
    (ends : back = [] ∨ ∃ more, back = '\n' :: more)
    (skipped : ∀ token ∈ (ScannedText.ofLexemes file lexemes stop).tokens,
      token.stop ≤ offset + byteLength front ∨ offset + byteLength front < token.span.start) :
    ∀ token ∈ (ScannedText.ofLexemes file lexemes stop).tokens,
      token.stop ≤ offset + byteLength front ∨
        offset + byteLength front + 1 + byteLength line < token.span.start := by
  induction lexed generalizing front with
  | done => exact List.forall_mem_nil _
  | @next offset stop text trivia rest char lexeme others standing taken notDangling lexed ih =>
    obtain ⟨first, skipped⟩ := List.forall_mem_cons.mp skipped
    rcases first with isBefore | isAfter
    · -- The first token is in front of the slash.
      have isBefore : offset + byteLength trivia + byteLength lexeme.chars ≤
          offset + byteLength front := isBefore
      have parts := splitLexeme_append char rest
      rw [taken.eq_splitLexeme] at parts
      have whole : trivia ++ lexeme.chars ++ lexeme.rest = front ++ '/' :: (line ++ back) := by
        have whole := splitTrivia_append false text
        rw [standing, ← parts, isText] at whole
        rw [List.append_assoc]
        exact whole
      obtain ⟨between, rfl, left⟩ : ∃ between, front = trivia ++ lexeme.chars ++ between ∧
          lexeme.rest = between ++ '/' :: (line ++ back) := by
        apply append_eq_append_of_byteLength_le whole
        rw [byteLength_append]
        omega
      refine List.forall_mem_cons.mpr ⟨.inl isBefore, ?_⟩
      have slashAt : offset + byteLength (trivia ++ lexeme.chars ++ between) =
          offset + byteLength trivia + byteLength lexeme.chars + byteLength between := by
        simp [Nat.add_assoc]
      rw [slashAt] at skipped ⊢
      exact ih left skipped
    · -- The slash is in the trivia in front of the first token.
      have passed : byteLength front < byteLength trivia := Nat.lt_of_add_lt_add_left isAfter
      rw [isText] at standing
      have startsLater := splitTrivia_slash standing inLine ends passed
      have isFirst : offset + byteLength front + 1 + byteLength line <
          offset + byteLength trivia := by
        omega
      refine List.forall_mem_cons.mpr ⟨.inr isFirst, fun token isLater => .inr ?_⟩
      obtain ⟨⟨start, other⟩, isOther, rfl⟩ := List.mem_map.mp isLater
      have ordered := lexed.le_offset.2 _ isOther
      exact Nat.lt_of_lt_of_le isFirst (Nat.le_trans (Nat.le_add_right _ _) ordered)

/-! ### Words -/

section Scanned

variable {file : FileId} {source : SourceText} {scanned : ScannedText}

/-- A comment lies between two tokens, together with the end of its line. -/
theorem tokens_around_comment (scans : scanText file source = .ok scanned)
    {front line back : List Char} (isText : source.chars = front ++ '/' :: '/' :: (line ++ back))
    (inLine : '\n' ∉ line) (ends : back = [] ∨ ∃ rest, back = '\n' :: rest)
    (skipped : ∀ token ∈ scanned.tokens,
      token.stop ≤ byteLength front ∨ byteLength front < token.span.start) :
    ∀ token ∈ scanned.tokens, token.stop ≤ byteLength front ∨
      byteLength front + 2 + byteLength line < token.span.start := by
  rcases scanText_eq_ok_iff.mp scans with ⟨lexemes, stop, lexed, rfl⟩
  have slashInLine : '\n' ∉ '/' :: line := List.not_mem_cons_of_ne_of_not_mem (by decide) inLine
  have around := lexed.around_comment file isText slashInLine ends
    (by simpa only [Nat.zero_add] using skipped)
  have slashSize : Char.utf8Size '/' = 1 := by decide
  have lineLength : 0 + byteLength front + 1 + byteLength ('/' :: line) =
      byteLength front + 2 + byteLength line := by
    rw [byteLength_cons, slashSize]
    omega
  rw [lineLength, Nat.zero_add] at around
  exact around

/-- Outside of the code no word stands, nor does one start or end there. -/
theorem ScannedText.OutsideCode.no_word {position : Nat}
    (outside : scanned.OutsideCode source position) (scans : scanText file source = .ok scanned) :
    ∀ token ∈ scanned.allTokens, token.kind.isWord = true → ¬token.span.IsTouchedBy position := by
  have tiled := (scanText_covers scans).tiled
  cases outside with
  | @string literal isToken isString starts stops =>
    obtain ⟨before, after, split⟩ :=
      List.append_of_mem (List.mem_append_left [scanned.endOfFile] isToken)
    have ordered := tiled.ordered
    rw [split] at ordered
    obtain ⟨_, behind, infront⟩ := List.pairwise_append.mp ordered
    intro token isOther isWord touches
    have isOther : token ∈ before ++ literal :: after := split ▸ isOther
    rcases List.mem_append.mp isOther with isBefore | isBehind
    · have := infront token isBefore literal (List.mem_cons_self ..)
      have := touches.2
      omega
    · rcases List.mem_cons.mp isBehind with rfl | isAfter
      · rw [isString] at isWord
        cases isWord
      · have : literal.stop ≤ token.span.start := (List.pairwise_cons.mp behind).1 token isAfter
        have := touches.1
        omega
  | comment isText inLine ends skipped starts stops =>
    refine List.forall_mem_append.mpr ⟨fun token isToken _ touches => ?_, ?_⟩
    · have around := tokens_around_comment scans isText inLine ends skipped token isToken
      rcases around with isBefore | isAfter
      · have : position ≤ token.stop := touches.2
        omega
      · have := touches.1
        omega
    · refine List.forall_mem_singleton.mpr fun isWord _ => ?_
      rw [tiled.endOfFile_kind] at isWord
      cases isWord

end Scanned

end QueryLang
