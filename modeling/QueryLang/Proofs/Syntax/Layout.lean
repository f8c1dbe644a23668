import QueryLang.Proofs.Syntax.Lexing
import QueryLang.Proofs.Syntax.Searching
import QueryLang.Proofs.Syntax.Walking

/-!
# The layout of tokens

The tokens of a parsed file lie in order, those included that the source lacks, and two identifiers
never touch. So a search by position, which halves the range of tokens, finds the token that holds
the position.
-/

namespace QueryLang

/-- A position is inside the span or at one of its ends. -/
def Span.IsTouchedBy (span : Span) (position : Nat) : Prop :=
  span.start ≤ position ∧ position ≤ span.start + span.length

instance (span : Span) (position : Nat) : Decidable (span.IsTouchedBy position) :=
  inferInstanceAs (Decidable (_ ∧ _))

/-! ### Scanned tokens -/

/-- One token is in front of another one, and not empty. Between two identifiers there is a gap. -/
structure Precedes (token later : Kind × Span) : Prop where
  nonempty : 0 < token.2.length
  ordered : token.2.start + token.2.length ≤ later.2.start
  apart : token.1 = .identifierToken → later.1 = .identifierToken →
    token.2.start + token.2.length < later.2.start

/-- An identifier takes along all characters that can follow inside of it. -/
theorem TakenAs.identifier {char : Char} {rest : List Char} {lexeme : Lexeme}
    (taken : TakenAs char rest lexeme) (isIdentifier : lexeme.kind = .identifierToken) :
    isIdentifierStart char = true ∧ lexeme.rest = rest.dropWhile isIdentifierPart := by
  cases taken with
  | double isRest found =>
    cases isIdentifier
    unfold doubleCharacterKind? at found
    split at found <;> cases found
  | single noDouble found =>
    cases isIdentifier
    unfold singleCharacterKind? at found
    split at found <;> cases found
  | word noSymbol notQuote notDigit starts taken left => exact ⟨starts, left.symm⟩
  | string | number | unknown => cases isIdentifier

namespace Lexed

variable {offset stop : Nat} {text : List Char} {lexemes : List (Nat × Lexeme)}

theorem le_offset (lexed : Lexed offset text lexemes stop) :
    offset ≤ stop ∧ ∀ lexeme ∈ lexemes, offset ≤ lexeme.1 := by
  induction lexed with
  | done atEnd => simp
  | next standing taken notDangling lexed ih =>
    refine ⟨by omega, List.forall_mem_cons.mpr ⟨Nat.le_add_right _ _, fun lexeme member => ?_⟩⟩
    have further := ih.2 lexeme member
    omega

/-- A text that starts with an identifier starts with a character of identifiers. -/
theorem starts_identifier (lexed : Lexed offset text lexemes stop) {lexeme : Nat × Lexeme}
    (member : lexeme ∈ lexemes) (isFirst : lexeme.1 = offset)
    (isIdentifier : lexeme.2.kind = .identifierToken) :
    ∃ char rest, text = char :: rest ∧ isIdentifierPart char = true := by
  cases lexed with
  | done atEnd => cases member
  | @next _ _ _ trivia rest char first others standing taken notDangling lexed =>
    have whole := splitTrivia_append false text
    rw [standing] at whole
    rcases List.mem_cons.mp member with rfl | later
    · have noTrivia : trivia = [] := eq_nil_of_byteLength_eq_zero (Nat.add_eq_left.mp isFirst)
      refine ⟨char, rest, by rw [← whole, noTrivia]; rfl, ?_⟩
      simp [isIdentifierPart, (taken.identifier isIdentifier).1]
    · have further := lexed.le_offset.2 lexeme later
      rcases taken.starts with ⟨tail, starts, _⟩
      have size := char.utf8Size_pos
      rw [starts, byteLength_cons] at further
      omega

/-- The tokens of a text precede each other, and the one that ends the file comes last. -/
theorem precede (file : FileId) (lexed : Lexed offset text lexemes stop) :
    (((ScannedText.ofLexemes file lexemes stop).tokens ++
      [(ScannedText.ofLexemes file lexemes stop).endOfFile]).map Token.placed).Pairwise
        Precedes := by
  induction lexed with
  | done atEnd => exact List.pairwise_singleton _ _
  | @next offset stop text trivia rest char lexeme others standing taken notDangling lexed ih =>
    have nonempty : 0 < byteLength lexeme.chars := by
      rcases taken.starts with ⟨tail, starts, _⟩
      rw [starts, byteLength_cons]
      exact Nat.add_pos_left char.utf8Size_pos _
    refine List.pairwise_cons.mpr ⟨fun placed isLater => ?_, ih⟩
    have later : placed ∈ (others.map fun other => (other.2.token other.1).placed) ++
        [(.endOfFileToken, .empty stop)] := by
      simpa [ScannedText.ofLexemes, Token.placed, Function.comp_def] using isLater
    rcases List.mem_append.mp later with isToken | isEnd
    · rcases List.mem_map.mp isToken with ⟨⟨start, other⟩, isOther, rfl⟩
      have ordered := lexed.le_offset.2 _ isOther
      refine ⟨nonempty, ordered, fun isIdentifier isOtherIdentifier => ?_⟩
      refine Nat.lt_of_le_of_ne ordered fun touch => ?_
      -- The rest of the text would start with a character that the first identifier takes along.
      rcases lexed.starts_identifier isOther touch.symm isOtherIdentifier with
        ⟨next, more, startsWith, isPart⟩
      have left := (taken.identifier isIdentifier).2
      rw [startsWith] at left
      have notPart := List.head?_dropWhile_not isIdentifierPart rest
      rw [← left] at notPart
      simp [isPart] at notPart
    · rw [List.mem_singleton.mp isEnd]
      exact ⟨nonempty, lexed.le_offset.1, by simp⟩

end Lexed

/-! ### Tokens of a tree -/

/-- The tokens lie in order between two positions. -/
structure TreeToken.Between (low high : Nat) (tokens : List TreeToken) : Prop where
  ordered : Ordered tokens
  low_le : low ≤ high
  within : ∀ token ∈ tokens, low ≤ token.span.start ∧
    token.span.start + token.span.length ≤ high

theorem TreeToken.Between.append {low middle high : Nat} {tokens more : List TreeToken}
    (left : Between low middle tokens) (right : Between middle high more) :
    Between low high (tokens ++ more) where
  ordered := by
    refine List.pairwise_append.mpr ⟨left.ordered, right.ordered, ?_⟩
    intro token isToken later isLater
    exact Nat.le_trans (left.within token isToken).2 (right.within later isLater).1
  low_le := Nat.le_trans left.low_le right.low_le
  within := by
    refine List.forall_mem_append.mpr ⟨fun token isToken => ?_, fun token isToken => ?_⟩
    · exact ⟨(left.within token isToken).1,
        Nat.le_trans (left.within token isToken).2 right.low_le⟩
    · exact ⟨Nat.le_trans left.low_le (right.within token isToken).1,
        (right.within token isToken).2⟩

/-- None of the tokens starts before the position, or before an earlier one ends. -/
def Token.InOrder (position : Nat) : List Token → Prop
  | [] => True
  | token :: rest => position ≤ token.span.start ∧ InOrder token.stop rest

theorem Token.inOrder_append {position : Nat} {tokens more : List Token} :
    InOrder position (tokens ++ more) ↔ InOrder position tokens ∧
      InOrder (tokens.foldl (fun _ token => token.stop) position) more := by
  induction tokens generalizing position with
  | nil => simp [InOrder]
  | cons token rest ih => simp [InOrder, ih, and_assoc]

theorem Token.inOrder_of_pairwise {position : Nat} {tokens : List Token}
    (ordered : (tokens.map Token.placed).Pairwise Precedes)
    (after : ∀ token ∈ tokens, position ≤ token.span.start) : InOrder position tokens := by
  induction tokens generalizing position with
  | nil => trivial
  | cons token rest ih =>
      rw [List.map_cons, List.pairwise_cons] at ordered
      refine ⟨after token (List.mem_cons_self ..), ih ordered.2 fun later isLater => ?_⟩
      exact (ordered.1 later.placed (List.mem_map_of_mem isLater)).ordered

namespace ParseTree

mutual

/-- Numbering a piece of source puts its missing tokens in order with the others. -/
theorem treeTokens_between (place : Place) (parent : NodeId) (shape : ParseTree)
    (inOrder : Token.InOrder place.position shape.tokens) :
    TreeToken.Between place.position (place.after shape).position
      (treeTokens place parent shape) :=
  match shape with
  | .token leaf => by
      have start : place.position ≤ leaf.span.start := inOrder.1
      have after : (place.after (.token leaf)).position =
          leaf.span.start + leaf.span.length := rfl
      refine ⟨List.pairwise_singleton _ _, by omega, ?_⟩
      exact List.forall_mem_singleton.mpr ⟨start, Nat.le_of_eq after.symm⟩
  | .missing kind =>
      ⟨List.pairwise_singleton _ _, Nat.le_refl _,
        List.forall_mem_singleton.mpr ⟨Nat.le_refl _, Nat.le_refl _⟩⟩
  | .node _ children => treeTokensAll_between place.inside place.node children inOrder
  | .wrapped kind first rest => by
      rw [tokens, Token.inOrder_append] at inOrder
      have others := treeTokensAll_between (place.after first).inside (place.after first).node rest
        inOrder.2
      have head := treeTokens_between place (place.after first).node first inOrder.1
      have whole := head.append others
      simpa [Place.after, tokens, Place.inside, treeTokens] using whole

theorem treeTokensAll_between (place : Place) (parent : NodeId) (shapes : List ParseTree)
    (inOrder : Token.InOrder place.position (tokensOfAll shapes)) :
    TreeToken.Between place.position
      ((tokensOfAll shapes).foldl (fun _ token => token.stop) place.position)
      (treeTokensAll place parent shapes) :=
  match shapes with
  | [] => ⟨.nil, Nat.le_refl _, List.forall_mem_nil _⟩
  | shape :: others => by
      rw [tokensOfAll, Token.inOrder_append] at inOrder
      have first := treeTokens_between place parent shape inOrder.1
      have rest := treeTokensAll_between (place.after shape) parent others inOrder.2
      rw [tokensOfAll, List.foldl_append]
      exact first.append rest

end

end ParseTree

/-- The tokens of a tree lie in order, the last of them stands in the source, and those that stand
in the source precede each other. -/
structure SyntaxTree.LaidOut (tree : SyntaxTree) : Prop where
  ordered : TreeToken.Ordered tree.tokens.toList
  precede : (tree.realTokens.map TreeToken.placed).Pairwise Precedes
  last : ∃ others last, tree.tokens.toList = others ++ [last] ∧ last.isMissing = false

/-- Parsing a text lays its tokens out. -/
theorem laidOut_of_scanText {file : FileId} {fileName : String} {source : SourceText}
    {features : Features} {scanned : ScannedText} (scans : scanText file source = .ok scanned) :
    ((parseTokens file features scanned).shape.toTree file fileName source features).LaidOut := by
  have covers := scanText_covers scans
  have faithful := parseTokens_faithful file features covers
  rcases scanText_eq_ok_iff.mp scans with ⟨lexemes, stop, lexed, isScanned⟩
  have precede := lexed.precede file
  rw [← isScanned] at precede
  have inOrder : Token.InOrder Place.start.position
      (parseTokens file features scanned).shape.tokens := by
    rw [faithful.tokens]
    exact Token.inOrder_of_pairwise precede fun token _ => Nat.zero_le _
  exact {
    ordered := (ParseTree.treeTokens_between .start SyntaxTree.root _ inOrder).ordered
    precede := by rwa [realTokens_eq scans]
    last := by
      rcases parseTokens_last file features covers with ⟨pieces, shapeEq⟩
      rw [shapeEq]
      exact ⟨_, _, ParseTree.treeTokensAll_concat Place.start.inside SyntaxTree.root pieces _,
        rfl⟩ }

/-- Parsing a text that can be scanned gives an ordered tree. -/
theorem orderedTree_of_scanText {file : FileId} {fileName : String} {source : SourceText}
    {features : Features} {scanned : ScannedText} (scans : scanText file source = .ok scanned) :
    ((parseTokens file features scanned).shape.toTree file fileName source features).OrderedTree :=
  by
  have faithful := parseTokens_faithful file features (scanText_covers scans)
  rcases faithful.isNode with ⟨children, isNode⟩
  refine ParseTree.orderedTree_toTree rfl ?_ faithful.formed (wellFormed_of_scanText scans) ?_
  · rw [isNode]
    rfl
  · exact (List.pairwise_map.mp (laidOut_of_scanText scans).precede).imp Precedes.ordered

namespace SyntaxTree

variable {tree : SyntaxTree} {damaged : Prop} {id other : Nat} {token later : TreeToken}

theorem LaidOut.stop_le_start (laidOut : tree.LaidOut) (isToken : tree.tokens[id]? = some token)
    (isLater : tree.tokens[other]? = some later) (before : id < other) :
    token.span.start + token.span.length ≤ later.span.start := by
  rcases Array.getElem?_eq_some_iff.mp isToken with ⟨inRange, rfl⟩
  rcases Array.getElem?_eq_some_iff.mp isLater with ⟨laterInRange, rfl⟩
  exact List.pairwise_iff_getElem.mp laidOut.ordered id other (by simpa) (by simpa) before

theorem LaidOut.precedes (laidOut : tree.LaidOut) (isToken : tree.tokens[id]? = some token)
    (isLater : tree.tokens[other]? = some later) (before : id < other)
    (isReal : token.isMissing = false) (isLaterReal : later.isMissing = false) :
    Precedes token.placed later.placed := by
  rcases Array.getElem?_eq_some_iff.mp isToken with ⟨inRange, rfl⟩
  rcases Array.getElem?_eq_some_iff.mp isLater with ⟨laterInRange, rfl⟩
  have precede := List.pairwise_map.mp laidOut.precede
  rw [realTokens, List.pairwise_filter] at precede
  refine List.pairwise_iff_getElem.mp precede id other (by simpa) (by simpa) before ?_ ?_
  · simp [TreeToken.isReal, isReal]
  · simp [TreeToken.isReal, isLaterReal]

/-! ### Searching by position -/

theorem isPresent_iff : tree.isPresent id = true ↔
    ∃ token, tree.tokens[id]? = some token ∧ token.isMissing = false := by
  simp [isPresent, Option.any_eq_true, TreeToken.isReal]

/-- The token at a position is the first that ends after it, or else the last of all. -/
structure IsAt (tree : SyntaxTree) (position found : Nat) (token : TreeToken) : Prop where
  isToken : tree.tokens[found]? = some token
  isReal : token.isMissing = false
  holds : position < token.span.start + token.span.length ∨ found + 1 = tree.tokens.size
  first : ∀ (id : Nat) (earlier : TreeToken), id < found → tree.tokens[id]? = some earlier →
    earlier.isMissing = false → earlier.span.start + earlier.span.length ≤ position

/-- A search by position finds the first token that ends after it, unless all end before. -/
theorem LaidOut.tokenFrom?_eq (laidOut : tree.LaidOut) (wellFormed : tree.WellFormed damaged)
    (position : Nat) :
    ∃ found, tree.tokenFrom? position = .ok found ∧
      (∀ id ∈ found, ∃ token, tree.IsAt position id token ∧
        position < token.span.start + token.span.length) ∧
      (found = none → ∀ (id : Nat) (token : TreeToken), tree.tokens[id]? = some token →
        token.isMissing = false → token.span.start + token.span.length ≤ position) := by
  let stopAt (id : Nat) : Nat :=
    (tree.tokens[id]?.map fun token => token.span.start + token.span.length).getD 0
  have stopAt_eq {id : Nat} {token : TreeToken} (isToken : tree.tokens[id]? = some token) :
      stopAt id = token.span.start + token.span.length := by
    simp [stopAt, isToken]
  have answers : ∀ id < tree.tokens.size,
      tree.endsBy position id = .ok (decide (stopAt id ≤ position)) := by
    intro id inRange
    rcases token_eq_ok inRange with ⟨token, isToken, tokenEq⟩
    have stopEq := (wellFormed.token_within isToken).stop_eq_ok wellFormed.text_fits
    rw [endsBy, tokenEq, Checked.ok_bind, stopEq, stopAt_eq isToken]
    rfl
  have downward : ∀ id later, id ≤ later → later < tree.tokens.size →
      decide (stopAt later ≤ position) = true → decide (stopAt id ≤ position) = true := by
    intro id later notAfter inRange endsBy
    rcases Nat.eq_or_lt_of_le notAfter with rfl | before
    · exact endsBy
    · rcases token_eq_ok inRange with ⟨last, isLast, _⟩
      rcases token_eq_ok (Nat.lt_trans before inRange) with ⟨token, isToken, _⟩
      have ordered := laidOut.stop_le_start isToken isLast before
      rw [decide_eq_true_eq, stopAt_eq isLast] at endsBy
      rw [decide_eq_true_eq, stopAt_eq isToken]
      omega
  rcases partitionIndex_eq answers downward wellFormed.tokens_pos with
    ⟨start, startBound, startEq, endsBy_iff⟩
  have earlierEnds {id : Nat} {earlier : TreeToken} (isBefore : id < start)
      (isEarlier : tree.tokens[id]? = some earlier) :
      earlier.span.start + earlier.span.length ≤ position := by
    have inRange := (Array.getElem?_eq_some_iff.mp isEarlier).1
    have ends := (endsBy_iff id inRange).mpr isBefore
    rwa [decide_eq_true_eq, stopAt_eq isEarlier] at ends
  have inTree : start + (tree.tokens.size - start) ≤ tree.tokens.size := by omega
  have firstEq := firstRealToken?_eq_find? inTree
  refine ⟨_, by rw [tokenFrom?, startEq, Checked.ok_bind, firstEq], fun found isFound => ?_,
    fun noneFound id token isToken isReal => ?_⟩
  · rcases List.find?_range'_eq_some.mp isFound with ⟨isPresent, inRange, noneBefore⟩
    rcases isPresent_iff.mp isPresent with ⟨token, isToken, isReal⟩
    rw [List.mem_range'_1] at inRange
    have endsAfter : position < token.span.start + token.span.length := by
      by_contra ends
      have isBefore := (endsBy_iff found (by omega)).mp
        (decide_eq_true (by rw [stopAt_eq isToken]; omega))
      omega
    refine ⟨token, ⟨isToken, isReal, .inl endsAfter, ?_⟩, endsAfter⟩
    · intro id earlier before isEarlier real
      refine earlierEnds ?_ isEarlier
      by_contra notBefore
      have absent := noneBefore id (by omega) before
      rw [isPresent_iff.mpr ⟨earlier, isEarlier, real⟩] at absent
      cases absent
  · have inRange := (Array.getElem?_eq_some_iff.mp isToken).1
    refine earlierEnds ?_ isToken
    by_contra notBefore
    have absent := List.find?_range'_eq_none.mp noneFound id (by omega) (by omega)
    rw [isPresent_iff.mpr ⟨token, isToken, isReal⟩] at absent
    cases absent

theorem LaidOut.findToken_eq (laidOut : tree.LaidOut) (wellFormed : tree.WellFormed damaged)
    (position : Nat) :
    ∃ found token, tree.findToken position = .ok found ∧ tree.IsAt position found token := by
  rcases laidOut.tokenFrom?_eq wellFormed position with ⟨found, foundEq, isAt, ended⟩
  rw [findToken, foundEq, Checked.ok_bind]
  cases found with
  | some found =>
      rcases isAt found rfl with ⟨token, isAt, _⟩
      exact ⟨found, token, rfl, isAt⟩
  | none =>
      rcases laidOut.last with ⟨others, last, tokensEq, isReal⟩
      have sizeEq : tree.tokens.size = others.length + 1 := by
        rw [← Array.length_toList, tokensEq, List.length_append, List.length_singleton]
      have isLast : tree.tokens[others.length]? = some last := by
        rw [← Array.getElem?_toList, tokensEq]
        simp
      refine ⟨others.length, last, ?_, isLast, isReal, .inr sizeEq.symm, fun id earlier _ => ?_⟩
      · rw [endOfFileToken, if_neg (by omega), sizeEq]
        rfl
      · exact ended rfl id earlier

/-- Whether a position touches a token is decided by the token's ends. -/
theorem WellFormed.touches_eq (wellFormed : tree.WellFormed damaged)
    (isToken : tree.tokens[id]? = some token) (position : Nat) :
    token.span.touches position = .ok (decide (token.span.IsTouchedBy position)) := by
  have stopEq := (wellFormed.token_within isToken).stop_eq_ok wellFormed.text_fits
  rw [Span.touches, stopEq]
  split
  · next starts => simp [Span.IsTouchedBy, starts, pure, Except.pure]
  · next startsAfter => simp [Span.IsTouchedBy, startsAfter, pure, Except.pure]

/-- A search from where a token of the source starts finds it. -/
theorem LaidOut.findToken_start (laidOut : tree.LaidOut) (wellFormed : tree.WellFormed damaged)
    (isToken : tree.tokens[id]? = some token) (isReal : token.isMissing = false) :
    tree.findToken token.span.start = .ok id := by
  rcases laidOut.findToken_eq wellFormed token.span.start with ⟨found, own, foundEq, isAt⟩
  rcases Nat.lt_trichotomy found id with before | rfl | after
  · have inRange := (Array.getElem?_eq_some_iff.mp isToken).1
    have ordered := laidOut.stop_le_start isAt.isToken isToken before
    rcases isAt.holds with holds | isLast
    · omega
    · omega
  · exact foundEq
  · -- The token would end where it starts.
    have nonempty : 0 < token.span.length :=
      (laidOut.precedes isToken isAt.isToken after isReal isAt.isReal).nonempty
    have ends := isAt.first id token after isToken isReal
    omega

/-- The token is an identifier that stands in the source. -/
structure IsIdentifier (tree : SyntaxTree) (id : Nat) (token : TreeToken) : Prop where
  isToken : tree.tokens[id]? = some token
  kind : token.kind = .identifierToken
  isReal : token.isMissing = false

namespace LaidOut

variable (laidOut : tree.LaidOut) {position : Nat}

include laidOut

/-- Between two identifiers there is a gap. -/
theorem apart (isLeft : tree.IsIdentifier id token) (isRight : tree.IsIdentifier other later)
    (before : id < other) : token.span.start + token.span.length < later.span.start :=
  (laidOut.precedes isLeft.isToken isRight.isToken before isLeft.isReal isRight.isReal).apart
    isLeft.kind isRight.kind

/-- A position touches at most one identifier. -/
theorem identifier_unique (isLeft : tree.IsIdentifier id token)
    (isRight : tree.IsIdentifier other later) (touchesLeft : token.span.IsTouchedBy position)
    (touchesRight : later.span.IsTouchedBy position) : id = other := by
  rcases Nat.lt_trichotomy id other with before | same | after
  · have gap := laidOut.apart isLeft isRight before
    have := touchesLeft.2
    have := touchesRight.1
    omega
  · exact same
  · have gap := laidOut.apart isRight isLeft after
    have := touchesRight.2
    have := touchesLeft.1
    omega

end LaidOut

end SyntaxTree

end QueryLang
