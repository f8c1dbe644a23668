import QueryLang.Proofs.Editor.Typing
import QueryLang.Proofs.Syntax.Positions

/-!
# The target of a caret

What completion offers depends on the last token that starts before the caret, and on the one before
that while a word is being typed. `caretTarget?` says which token that is, without any halving.
-/

namespace QueryLang

namespace SyntaxTree

variable {tree : SyntaxTree} {damaged : Prop} {position id : Nat} {token : TreeToken}

/-- Whether a position touches a token that is an identifier or a keyword. -/
def touchesWord (tree : SyntaxTree) (position : Nat) (id : TokenId) : Bool :=
  tree.tokens[id]?.any fun token =>
    token.kind.isWord && decide (token.span.IsTouchedBy position)

/-- The last token of the source in front of a token. -/
def lastPresentBefore? (tree : SyntaxTree) (id : TokenId) : Option TokenId :=
  (List.range id).reverse.find? tree.isPresent

/-- The last token that starts before a position, or the one before if the position touches it and
it is a word. -/
def caretTarget? (tree : SyntaxTree) (position : Nat) : Option TokenId :=
  (tree.lastStartingBefore? position).bind fun id =>
    if tree.touchesWord position id then tree.lastPresentBefore? id else some id

theorem touchesWord_eq (isToken : tree.tokens[id]? = some token) :
    tree.touchesWord position id =
      (token.kind.isWord && decide (token.span.IsTouchedBy position)) := by
  simp [touchesWord, isToken]

/-- Inside of a token and where it ends, no later token starts before the position. -/
theorem LaidOut.lastStartingBefore?_eq_some (laidOut : tree.LaidOut)
    (isToken : tree.tokens[id]? = some token) (isReal : token.isMissing = false)
    (starts : token.span.start < position)
    (stops : position ≤ token.span.start + token.span.length) :
    tree.lastStartingBefore? position = some id := by
  rw [lastStartingBefore?, find?_reverse_range_eq_some]
  refine ⟨?_, (Array.getElem?_eq_some_iff.mp isToken).1, fun other after _ => ?_⟩
  · rw [startsBefore_eq isToken isReal, decide_eq_true_eq]
    exact starts
  · by_contra startsBefore
    rw [Bool.not_eq_false] at startsBefore
    obtain ⟨later, isLater, isLaterReal⟩ :=
      isPresent_iff.mp (isPresent_of_startsBefore startsBefore)
    rw [startsBefore_eq isLater isLaterReal, decide_eq_true_eq] at startsBefore
    have ordered := laidOut.stop_le_start isToken isLater after
    omega

section

variable (wellFormed : tree.WellFormed damaged)

include wellFormed

theorem WellFormed.beforeTouchedWord?_eq (position : Nat) (inRange : id < tree.tokens.size) :
    tree.beforeTouchedWord? position id =
      .ok (if tree.touchesWord position id then tree.lastPresentBefore? id else some id) := by
  obtain ⟨token, isToken, tokenEq⟩ := token_eq_ok inRange
  have previous : tree.previousToken? id = .ok (tree.lastPresentBefore? id) := by
    rw [previousToken?, lastRealToken?_eq_find? (by omega), lastPresentBefore?,
      List.range_eq_range']
  rw [beforeTouchedWord?, tokenEq, Checked.ok_bind, touchesWord_eq isToken]
  split
  · next isWord =>
    rw [wellFormed.touches_eq isToken, Checked.ok_bind, isWord, Bool.true_and]
    split
    · exact previous
    · rfl
  · next notWord =>
    rw [Bool.not_eq_true] at notWord
    rw [notWord, Bool.false_and]
    rfl

/-- The context of a caret has its target, and decides whether a statement can start behind it. -/
theorem WellFormed.caretContext_eq (laidOut : tree.LaidOut) (position : Nat) :
    ∃ context, tree.caretContext position = .ok context ∧ context.position = position ∧
      context.left = tree.lastStartingBefore? position ∧
      context.target = tree.caretTarget? position ∧
      tree.isStatementBoundary false (tree.caretTarget? position) = .ok context.isStatement ∧
      tree.isStatementBoundary true (tree.caretTarget? position) =
        .ok context.isGlobalStatement := by
  have rest (left : Option TokenId) {target : Option TokenId} (inTree : tree.HasToken target) :
      ∃ context, (do
        return {
          position, left, target
          isStatement := ← tree.isStatementBoundary false target
          isGlobalStatement := ← tree.isStatementBoundary true target } : Checked CaretContext) =
          .ok context ∧ context.position = position ∧ context.left = left ∧
        context.target = target ∧ tree.isStatementBoundary false target = .ok context.isStatement ∧
        tree.isStatementBoundary true target = .ok context.isGlobalStatement := by
    obtain ⟨isStatement, boundary, _⟩ := wellFormed.isStatementBoundary_gives false inTree
    obtain ⟨isGlobal, globalBoundary, _⟩ := wellFormed.isStatementBoundary_gives true inTree
    refine ⟨⟨position, left, target, isStatement, isGlobal⟩, ?_, rfl, rfl, rfl, boundary,
      globalBoundary⟩
    rw [boundary, Checked.ok_bind, globalBoundary]
    rfl
  rw [caretContext, laidOut.tokenLeftOf?_eq_lastStartingBefore? wellFormed, Checked.ok_bind,
    caretTarget?]
  cases isLast : tree.lastStartingBefore? position with
  | none =>
    have noToken : tree.HasToken none := by rintro _ ⟨⟩
    exact rest none noToken
  | some id =>
    obtain ⟨_, inRange, _⟩ := find?_reverse_range_eq_some.mp isLast
    have targetEq := wellFormed.beforeTouchedWord?_eq position inRange
    obtain ⟨target, isTarget, inTree⟩ : (tree.beforeTouchedWord? position id).Gives _ :=
      wellFormed.beforeTouchedWord?_gives inRange
    cases targetEq.symm.trans isTarget
    dsimp only
    rw [targetEq]
    exact rest (some id) inTree

end

end SyntaxTree

end QueryLang
