import QueryLang.Proofs.Lists
import QueryLang.Proofs.Syntax.Parts

/-!
# Searching by position

The searches by position halve the range of tokens and then step over what is missing. In a parsed
tree they answer what a search through all tokens answers, one after the other.
-/

namespace QueryLang

namespace SyntaxTree

/-- Whether a token stands in the source and ends after a position. -/
def endsAfter (tree : SyntaxTree) (position : Nat) (id : TokenId) : Bool :=
  tree.tokens[id]?.any fun token =>
    token.isReal && decide (position < token.span.start + token.span.length)

/-- Whether a token stands in the source and starts before a position. -/
def startsBefore (tree : SyntaxTree) (position : Nat) (id : TokenId) : Bool :=
  tree.tokens[id]?.any fun token => token.isReal && decide (token.span.start < position)

/-- The last of all tokens that stands in the source and starts before a position. -/
def lastStartingBefore? (tree : SyntaxTree) (position : Nat) : Option TokenId :=
  (List.range tree.tokens.size).reverse.find? (tree.startsBefore position)

variable {tree : SyntaxTree} {damaged : Prop} {position id found left right : Nat}
  {token : TreeToken}

theorem lt_size_of_isPresent (isPresent : tree.isPresent id = true) : id < tree.tokens.size := by
  rcases isPresent_iff.mp isPresent with ⟨token, isToken, _⟩
  exact (Array.getElem?_eq_some_iff.mp isToken).1

theorem startsBefore_eq (isToken : tree.tokens[id]? = some token)
    (isReal : token.isMissing = false) :
    tree.startsBefore position id = decide (token.span.start < position) := by
  simp [startsBefore, isToken, TreeToken.isReal, isReal]

theorem isPresent_of_startsBefore (startsBefore : tree.startsBefore position id = true) :
    tree.isPresent id = true := by
  unfold SyntaxTree.startsBefore at startsBefore
  cases isToken : tree.tokens[id]? with
  | none => simp [isToken] at startsBefore
  | some token => simp_all [isPresent]

/-! ### Neighbours -/

namespace LaidOut

variable (laidOut : tree.LaidOut)

include laidOut

/-- What stands before the token at a position starts before the position, as it is not empty. -/
theorem startsBefore_eq_isPresent (isAt : tree.IsAt position found token) (before : id < found) :
    tree.startsBefore position id = tree.isPresent id := by
  rw [Bool.eq_iff_iff]
  refine ⟨isPresent_of_startsBefore, ?_⟩
  intro isPresent
  rcases isPresent_iff.mp isPresent with ⟨earlier, isEarlier, isReal⟩
  have nonempty : 0 < earlier.span.length :=
    (laidOut.precedes isEarlier isAt.isToken before isReal isAt.isReal).nonempty
  have ends := isAt.first id earlier before isEarlier isReal
  rw [startsBefore_eq isEarlier isReal, decide_eq_true_eq]
  omega

theorem startsBefore_eq_false (isAt : tree.IsAt position found token) (after : found < id) :
    tree.startsBefore position id = false := by
  by_contra startsBefore
  rw [Bool.not_eq_false] at startsBefore
  have isPresent := isPresent_of_startsBefore startsBefore
  have inRange := lt_size_of_isPresent isPresent
  rcases isPresent_iff.mp isPresent with ⟨later, isLater, isReal⟩
  have ordered := laidOut.stop_le_start isAt.isToken isLater after
  rw [startsBefore_eq isLater isReal, decide_eq_true_eq] at startsBefore
  rcases isAt.holds with holds | isLast
  · omega
  · omega

/-- A token that does not start before a position it is at leaves that to those before it. -/
theorem lastStartingBefore?_eq (isAt : tree.IsAt position found token) :
    tree.lastStartingBefore? position =
      if position ≤ token.span.start then (List.range found).reverse.find? tree.isPresent
      else some found := by
  have inRange := (Array.getElem?_eq_some_iff.mp isAt.isToken).1
  have own : tree.startsBefore position found = _ := startsBefore_eq isAt.isToken isAt.isReal
  have notAfter : ∀ other : Nat, found ≤ other → position ≤ token.span.start →
      tree.startsBefore position other = false := by
    intro other notBefore atOrBefore
    rcases Nat.eq_or_lt_of_le notBefore with rfl | after
    · rw [own, decide_eq_false_iff_not]
      omega
    · exact laidOut.startsBefore_eq_false isAt after
  ext id
  rw [lastStartingBefore?, find?_reverse_range_eq_some]
  split
  · next atOrBefore =>
    rw [find?_reverse_range_eq_some]
    constructor
    · rintro ⟨startsBefore, _, noneLater⟩
      have before : id < found := by
        by_contra notBefore
        rw [notAfter id (Nat.le_of_not_lt notBefore) atOrBefore] at startsBefore
        cases startsBefore
      refine ⟨(laidOut.startsBefore_eq_isPresent isAt before).symm.trans startsBefore, before, ?_⟩
      intro other after isBefore
      rw [← laidOut.startsBefore_eq_isPresent isAt isBefore]
      exact noneLater other after (Nat.lt_trans isBefore inRange)
    · rintro ⟨isPresent, before, noneBetween⟩
      refine ⟨(laidOut.startsBefore_eq_isPresent isAt before).trans isPresent,
        Nat.lt_trans before inRange, ?_⟩
      intro other after _
      rcases Nat.lt_or_ge other found with isBefore | notBefore
      · exact (laidOut.startsBefore_eq_isPresent isAt isBefore).trans
          (noneBetween other after isBefore)
      · exact notAfter other notBefore atOrBefore
  · next inside =>
    have startsInside : tree.startsBefore position found = true := by
      rw [own, decide_eq_true_eq]
      omega
    rw [Option.some.injEq]
    constructor
    · rintro ⟨startsBefore, _, noneLater⟩
      rcases Nat.lt_trichotomy found id with after | same | before
      · rw [laidOut.startsBefore_eq_false isAt after] at startsBefore
        cases startsBefore
      · exact same
      · rw [noneLater found before inRange] at startsInside
        cases startsInside
    · rintro rfl
      refine ⟨startsInside, inRange, ?_⟩
      intro other after _
      exact laidOut.startsBefore_eq_false isAt after

variable (wellFormed : tree.WellFormed damaged)

include wellFormed

theorem tokenLeftOf?_eq_lastStartingBefore? (position : Nat) :
    tree.tokenLeftOf? position = .ok (tree.lastStartingBefore? position) := by
  rcases laidOut.findToken_eq wellFormed position with ⟨found, token, foundEq, isAt⟩
  have inRange := (Array.getElem?_eq_some_iff.mp isAt.isToken).1
  rw [tokenLeftOf?, foundEq, Checked.ok_bind, SyntaxTree.token, isAt.isToken,
    laidOut.lastStartingBefore?_eq isAt]
  simp only [Checked.ok_bind]
  split
  · rw [previousToken?, lastRealToken?_eq_find? (by omega), List.range_eq_range']
  · rfl

end LaidOut

end SyntaxTree

section Parsed

variable {file : FileId} {fileName : String} {source : SourceText} {features : Features}
  {parsed : ParsedFile}

end Parsed

end QueryLang
