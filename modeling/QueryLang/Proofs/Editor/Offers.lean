import QueryLang.Proofs.Editor.Starts
import QueryLang.Proofs.Syntax.Comments

/-!
# Keywords between words

A caret that touches no word has as its target the last token that starts in front of it, and what
is offered there depends on that token only. A comment is no token, and a string is no word. So in a
comment completion offers what could be typed in front of it, and inside of a string what could be
typed behind it.
-/

namespace QueryLang

namespace SyntaxTree

variable {tree : SyntaxTree} {damaged : Prop} {position id : Nat} {token : TreeToken}
  {target : Option TokenId} {result : Bool}

/-- The position touches no identifier and no keyword of the source. -/
def BetweenWords (tree : SyntaxTree) (position : Nat) : Prop :=
  ∀ (id : Nat) (token : TreeToken), tree.tokens[id]? = some token → token.isMissing = false →
    token.kind.isWord = true → ¬token.span.IsTouchedBy position

theorem exists_token_of_lastStartingBefore? (isLast : tree.lastStartingBefore? position = some id) :
    ∃ token, tree.tokens[id]? = some token ∧ token.isMissing = false :=
  isPresent_iff.mp (isPresent_of_startsBefore (find?_reverse_range_eq_some.mp isLast).1)

namespace BetweenWords

theorem touchesWord_eq_false (between : tree.BetweenWords position)
    (isToken : tree.tokens[id]? = some token) (isReal : token.isMissing = false) :
    tree.touchesWord position id = false := by
  rw [touchesWord_eq isToken, Bool.and_eq_false_imp, decide_eq_false_iff_not]
  exact between id token isToken isReal

/-- Between words, the target of a caret is the last token in front of it. -/
theorem caretTarget?_eq (between : tree.BetweenWords position) :
    tree.caretTarget? position = tree.lastStartingBefore? position := by
  rw [caretTarget?]
  cases isLast : tree.lastStartingBefore? position with
  | none => rfl
  | some id =>
    obtain ⟨token, isToken, isReal⟩ := exists_token_of_lastStartingBefore? isLast
    rw [Option.bind_some, between.touchesWord_eq_false isToken isReal]
    rfl

end BetweenWords

/-! ### Offers behind a token -/

/-- A statement can start behind the token, or there is no token and nothing in front. -/
inductive StatementBehind (tree : SyntaxTree) : (target : Option TokenId) → Prop
  | nothing : StatementBehind tree none
  | token {id outer outerKind} (starts : tree.StartsBehind outer outerKind (id + 1))
      (outerKindEq : tree.kind outer = .ok outerKind)
      (holds : outerKind = .block ∨ outerKind = .compilationUnit) : StatementBehind tree (some id)

/-- The node takes up some of the source. -/
def HasWidth (tree : SyntaxTree) (id : NodeId) : Prop :=
  ∃ width, tree.width id = .ok width ∧ width ≠ 0

/-- The keyword is offered behind the token. Each is where a statement can start. Besides, `do` is in
a conclusion that has a name, `return` behind a `yield` that starts no conclusion, and `yield`
behind the last token of a `select` or `group` clause, unless that is a dot in a `select`. -/
inductive OfferedBehind (tree : SyntaxTree) : (target : Option TokenId) → (keyword : Kind) → Prop
  | statement {target keyword} (starts : tree.StatementBehind target) :
      OfferedBehind tree target keyword
  | conclusion {id token identifier name} (isToken : tree.tokens[id]? = some token)
      (kindEq : tree.kind token.parent = .ok .queryConclusion)
      (isChild : tree.childToken? token.parent .identifierToken = .ok (some identifier))
      (isName : tree.tokens[identifier]? = some name) (isReal : name.isMissing = false) :
      OfferedBehind tree (some id) .doKeyword
  | yielded {id token kind} (isToken : tree.tokens[id]? = some token)
      (isYield : token.kind = .yieldKeyword) (kindEq : tree.kind token.parent = .ok kind)
      (notConclusion : kind ≠ .queryConclusion) : OfferedBehind tree (some id) .returnKeyword
  | select {id token clause expression} (isToken : tree.tokens[id]? = some token)
      (notDot : token.kind ≠ .dotToken)
      (around : tree.ancestorOfKind? id .selectClause = .ok (some clause))
      (isChild : tree.childNode? clause 0 = .ok (some expression))
      (hasWidth : tree.HasWidth expression)
      (isLast : tree.lastToken? expression = .ok (some id)) :
      OfferedBehind tree (some id) .yieldKeyword
  | group {id clause element key}
      (around : tree.ancestorOfKind? id .groupClause = .ok (some clause))
      (isElement : tree.childNode? clause 0 = .ok (some element))
      (elementHasWidth : tree.HasWidth element)
      (isKey : tree.childNode? clause 1 = .ok (some key)) (keyHasWidth : tree.HasWidth key)
      (isLast : tree.lastToken? key = .ok (some id)) : OfferedBehind tree (some id) .yieldKeyword

theorem StatementBehind.of_boundary {global : Bool} (inTree : tree.HasToken target)
    (boundary : tree.isStatementBoundary global target = .ok true) :
    tree.StatementBehind target := by
  cases target with
  | none => exact .nothing
  | some id =>
    obtain ⟨token, isToken, _⟩ := token_eq_ok (inTree id rfl)
    rcases boundary_cases isToken boundary with
      ⟨kind, kindEq, ⟨isBrace, rfl⟩ |
        ⟨isEnd, isStatement, outer, outerKind, isParent, outerKindEq, holds⟩⟩
    · exact .token (.brace isToken isBrace rfl) kindEq (.inl rfl)
    · exact .token (.statement isToken isEnd kindEq isStatement isParent) outerKindEq holds

theorem StatementBehind.boundary (behind : tree.StatementBehind target) :
    tree.isStatementBoundary false target = .ok true := by
  cases behind with
  | nothing => rfl
  | @token id outer outerKind starts outerKindEq holds =>
    have inside : holdsStatements false outerKind = true := by
      rcases holds with rfl | rfl
      · rfl
      · rfl
    rw [← inside]
    cases starts with
    | brace isToken isBrace parentEq =>
      subst parentEq
      exact isStatementBoundary_brace isToken isBrace outerKindEq
    | statement isToken isEnd kindEq isStatement isParent =>
      exact isStatementBoundary_end isToken isEnd kindEq isStatement isParent outerKindEq

/-! ### Answers -/

theorem hasWidth_iff {width : Nat} (widthEq : tree.width id = .ok width) :
    tree.HasWidth id ↔ width ≠ 0 := by
  constructor
  · rintro ⟨_, otherEq, notEmpty⟩
    cases widthEq.symm.trans otherEq
    exact notEmpty
  · exact fun notEmpty => ⟨width, widthEq, notEmpty⟩

theorem endsExpression_iff {expression : NodeId}
    (ends : CaretContext.endsExpression tree id expression = .ok result) :
    result = true ↔ tree.HasWidth expression ∧ tree.lastToken? expression = .ok (some id) := by
  rw [CaretContext.endsExpression] at ends
  obtain ⟨width, widthEq, ends⟩ := Checked.bind_eq_ok_iff.mp ends
  rw [hasWidth_iff widthEq]
  split at ends
  · next isEmpty =>
    cases ends
    simp [isEmpty]
  · next notEmpty =>
    obtain ⟨last, lastEq, ends⟩ := Checked.bind_eq_ok_iff.mp ends
    rw [← Checked.pure_eq_ok_iff.mp ends, lastEq]
    simp [notEmpty]

section

variable {context : CaretContext} (wellFormed : tree.WellFormed damaged)
  (between : tree.BetweenWords context.position) (isTarget : context.target = some id)
  (isToken : tree.tokens[id]? = some token) (isReal : token.isMissing = false)
  (notBehind : ¬tree.StatementBehind (some id))

include wellFormed between isTarget isToken isReal

/-- Between words, a member is being named only right behind a dot. -/
theorem BetweenWords.namesMember_eq :
    context.namesMember tree = .ok (decide (token.kind = .dotToken)) := by
  have notTouched := between.touchesWord_eq_false isToken isReal
  have inRange := (Array.getElem?_eq_some_iff.mp isToken).1
  have before : context.beforeTarget? tree = .ok (some id) := by
    rw [CaretContext.beforeTarget?, isTarget]
    simp only [wellFormed.beforeTouchedWord?_eq context.position inRange, notTouched]
    rfl
  have tokenEq : tree.token id = .ok token := by rw [SyntaxTree.token, isToken]
  simp only [CaretContext.namesMember, before, tokenEq, Checked.ok_bind]
  rfl

/-- Between words, a `select` clause ends with the last token of its expression, unless that is a
dot. -/
theorem BetweenWords.endsSelect_iff (ends : context.endsSelect tree id = .ok result) :
    result = true ↔ token.kind ≠ .dotToken ∧ ∃ clause expression,
      tree.ancestorOfKind? id .selectClause = .ok (some clause) ∧
        tree.childNode? clause 0 = .ok (some expression) ∧ tree.HasWidth expression ∧
          tree.lastToken? expression = .ok (some id) := by
  rw [CaretContext.endsSelect] at ends
  obtain ⟨clause?, aroundEq, ends⟩ := Checked.bind_eq_ok_iff.mp ends
  rw [aroundEq]
  cases clause? with
  | none =>
    cases ends
    simp
  | some clause =>
    obtain ⟨_, aroundAgain, isSelect⟩ := wellFormed.ancestorOfKind?_gives .selectClause
      (Array.getElem?_eq_some_iff.mp isToken).1
    cases aroundEq.symm.trans aroundAgain
    obtain ⟨view, viewEq, isChild, _⟩ := wellFormed.selectView_gives (isSelect clause rfl)
    simp only [viewEq, between.namesMember_eq wellFormed isTarget isToken isReal,
      Checked.ok_bind] at ends
    split at ends
    · next isDot =>
      cases ends
      simp [of_decide_eq_true isDot]
    · next notDot =>
      have notDot : token.kind ≠ .dotToken := by simpa using notDot
      rw [endsExpression_iff ends]
      constructor
      · exact fun isLast => ⟨notDot, clause, view.expression, rfl, isChild, isLast⟩
      · rintro ⟨_, _, expression, ⟨⟩, isOther, isLast⟩
        cases isChild.symm.trans isOther
        exact isLast

end

section

variable {context : CaretContext} (wellFormed : tree.WellFormed damaged)
  (isToken : tree.tokens[id]? = some token)

include wellFormed isToken

/-- A `group` clause with an element ends with the last token of its key. -/
theorem endsGroup_iff (ends : CaretContext.endsGroup tree id = .ok result) :
    result = true ↔ ∃ clause element key,
      tree.ancestorOfKind? id .groupClause = .ok (some clause) ∧
        tree.childNode? clause 0 = .ok (some element) ∧ tree.HasWidth element ∧
          tree.childNode? clause 1 = .ok (some key) ∧ tree.HasWidth key ∧
            tree.lastToken? key = .ok (some id) := by
  rw [CaretContext.endsGroup] at ends
  obtain ⟨clause?, aroundEq, ends⟩ := Checked.bind_eq_ok_iff.mp ends
  rw [aroundEq]
  cases clause? with
  | none =>
    cases ends
    simp
  | some clause =>
    obtain ⟨_, aroundAgain, isGroup⟩ := wellFormed.ancestorOfKind?_gives .groupClause
      (Array.getElem?_eq_some_iff.mp isToken).1
    cases aroundEq.symm.trans aroundAgain
    obtain ⟨view, viewEq, ⟨isElement, _⟩, isKey, _⟩ :=
      wellFormed.groupView_gives (isGroup clause rfl)
    simp only [viewEq, Checked.ok_bind] at ends
    obtain ⟨width, widthEq, ends⟩ := Checked.bind_eq_ok_iff.mp ends
    have elementWidth := hasWidth_iff widthEq
    split at ends
    · next isEmpty =>
      cases ends
      refine iff_of_false Bool.false_ne_true ?_
      rintro ⟨_, element, _, ⟨⟩, isOther, hasWidth, _⟩
      cases isElement.symm.trans isOther
      exact elementWidth.mp hasWidth isEmpty
    · next notEmpty =>
      rw [endsExpression_iff ends]
      constructor
      · rintro ⟨keyWidth, isLast⟩
        exact ⟨clause, view.element, view.key, rfl, isElement, elementWidth.mpr notEmpty, isKey,
          keyWidth, isLast⟩
      · rintro ⟨_, _, key, ⟨⟩, _, _, isOther, isLast⟩
        cases isKey.symm.trans isOther
        exact isLast

end

section

variable {context : CaretContext} (wellFormed : tree.WellFormed damaged)
  (isTarget : context.target = some id) (isToken : tree.tokens[id]? = some token)
  (notBehind : ¬tree.StatementBehind (some id)) (notStatement : context.isStatement = false)

include wellFormed isTarget isToken notBehind notStatement

/-- Between words, `yield` is offered behind the last token of a `select` or `group` clause. -/
theorem BetweenWords.offersYield_iff (between : tree.BetweenWords context.position)
    (isReal : token.isMissing = false) (offers : context.offersYield tree = .ok result) :
    result = true ↔ tree.OfferedBehind (some id) .yieldKeyword := by
  simp only [CaretContext.offersYield, notStatement, Bool.false_eq_true, if_false, isTarget]
    at offers
  obtain ⟨endsSelect, selectEq, offers⟩ := Checked.bind_eq_ok_iff.mp offers
  have select := between.endsSelect_iff wellFormed isTarget isToken isReal selectEq
  split at offers
  · next ends =>
    cases offers
    obtain ⟨notDot, clause, expression, around, isChild, hasWidth, isLast⟩ := select.mp ends
    exact iff_of_true rfl (.select isToken notDot around isChild hasWidth isLast)
  · next endsNot =>
    rw [endsGroup_iff wellFormed isToken offers]
    constructor
    · rintro ⟨clause, element, key, around, isElement, elementWidth, isKey, keyWidth, isLast⟩
      exact .group around isElement elementWidth isKey keyWidth isLast
    · intro offered
      cases offered with
      | statement starts => exact absurd starts notBehind
      | select isOther notDot around isChild hasWidth isLast =>
        cases isToken.symm.trans isOther
        exact absurd (select.mpr ⟨notDot, _, _, around, isChild, hasWidth, isLast⟩) endsNot
      | group around isElement elementWidth isKey keyWidth isLast =>
        exact ⟨_, _, _, around, isElement, elementWidth, isKey, keyWidth, isLast⟩

/-- `return` is offered behind a `yield` that starts no conclusion. -/
theorem offersReturn_iff (offers : context.offersReturn tree = .ok result) :
    result = true ↔ tree.OfferedBehind (some id) .returnKeyword := by
  obtain ⟨kind, kindEq⟩ := WellFormed.kind_gives (wellFormed.token_parent isToken)
  obtain ⟨targetKind, parentKind⟩ := CaretContext.targetKinds_eq isTarget isToken kindEq
  simp only [CaretContext.offersReturn, notStatement, Bool.false_eq_true, if_false, targetKind,
    parentKind, Checked.ok_bind, Option.some.injEq] at offers
  split at offers
  · next isYield =>
    rw [← Checked.pure_eq_ok_iff.mp offers, decide_eq_true_iff]
    constructor
    · intro notConclusion
      exact .yielded isToken isYield kindEq fun same => notConclusion (congrArg some same)
    · intro offered
      cases offered with
      | statement starts => exact absurd starts notBehind
      | yielded isOther _ otherKindEq notConclusion =>
        cases isToken.symm.trans isOther
        cases kindEq.symm.trans otherKindEq
        simpa using notConclusion
  · next notYield =>
    cases offers
    refine iff_of_false Bool.false_ne_true fun offered => ?_
    cases offered with
    | statement starts => exact notBehind starts
    | yielded isOther isYield =>
      cases isToken.symm.trans isOther
      exact notYield isYield

/-- Between words, `do` is offered in a conclusion that has a name. -/
theorem BetweenWords.offersDo_iff (between : tree.BetweenWords context.position)
    (notGlobal : context.isGlobalStatement = false)
    (offers : context.offersDo tree = .ok result) :
    result = true ↔ tree.OfferedBehind (some id) .doKeyword := by
  obtain ⟨kind, kindEq⟩ := WellFormed.kind_gives (wellFormed.token_parent isToken)
  have tokenEq : tree.token id = .ok token := by rw [SyntaxTree.token, isToken]
  simp only [CaretContext.offersDo, notStatement, notGlobal, Bool.or_false, Bool.false_eq_true,
    if_false, isTarget, tokenEq, kindEq, Checked.ok_bind] at offers
  split at offers
  · next isConclusion =>
    subst isConclusion
    obtain ⟨view, viewEq, isChild, name, isName⟩ := wellFormed.conclusionView_gives kindEq
    have nameEq : tree.token view.identifier = .ok name := by
      rw [SyntaxTree.token, isName.found]
    simp only [viewEq, nameEq, Checked.ok_bind] at offers
    have named : result = true ↔ name.isMissing = false := by
      split at offers
      · next isMissing =>
        cases offers
        simp [isMissing]
      · next notMissing =>
        have isReal : name.isMissing = false := by simpa using notMissing
        have isWord : name.kind.isWord = true := by
          rw [isName.kind_eq]
          rfl
        have notTouched := between view.identifier name isName.found isReal isWord
        rw [wellFormed.touches_eq isName.found, decide_eq_false notTouched] at offers
        cases offers
        exact iff_of_true rfl isReal
    rw [named]
    constructor
    · exact fun isReal => .conclusion isToken kindEq isChild isName.found isReal
    · intro offered
      cases offered with
      | statement starts => exact absurd starts notBehind
      | conclusion isOther _ otherChild otherName isReal =>
        cases isToken.symm.trans isOther
        cases isChild.symm.trans otherChild
        cases isName.found.symm.trans otherName
        exact isReal
  · next notConclusion =>
    cases offers
    refine iff_of_false Bool.false_ne_true fun offered => ?_
    cases offered with
    | statement starts => exact notBehind starts
    | conclusion isOther otherKindEq =>
      cases isToken.symm.trans isOther
      cases kindEq.symm.trans otherKindEq
      exact notConclusion rfl

end

/-! ### Carets between words -/

/-- The items of completion are the keywords that are offered. -/
theorem mem_recommendKeywords {context : CaretContext} {items : List CompletionItem}
    {item : CompletionItem} {offered : Kind → Prop}
    (isContext : tree.caretContext position = .ok context)
    (recommends : tree.recommendKeywords position = .ok items)
    (offersDo : ∀ result, context.offersDo tree = .ok result →
      (result = true ↔ offered .doKeyword))
    (offersReturn : ∀ result, context.offersReturn tree = .ok result →
      (result = true ↔ offered .returnKeyword))
    (offersYield : ∀ result, context.offersYield tree = .ok result →
      (result = true ↔ offered .yieldKeyword)) :
    item ∈ items ↔ ∃ keyword ∈ typedKeywords, offered keyword.2 ∧ item = .ofKeyword keyword.1 := by
  rw [recommendKeywords, isContext, Checked.ok_bind] at recommends
  obtain ⟨_, doEq, recommends⟩ := Checked.bind_eq_ok_iff.mp recommends
  obtain ⟨_, returnEq, recommends⟩ := Checked.bind_eq_ok_iff.mp recommends
  obtain ⟨_, yieldEq, recommends⟩ := Checked.bind_eq_ok_iff.mp recommends
  rw [← Checked.pure_eq_ok_iff.mp recommends]
  simp only [typedKeywords, List.mem_map, List.mem_filter, List.mem_cons, List.not_mem_nil,
    or_false, or_and_right, and_assoc, exists_or, exists_eq_left, @eq_comm _ item,
    ← offersDo _ doEq, ← offersReturn _ returnEq, ← offersYield _ yieldEq]

/-- Between words, completion offers what is offered behind the last token in front. -/
theorem BetweenWords.recommendKeywords_iff (between : tree.BetweenWords position)
    (wellFormed : tree.WellFormed damaged) (laidOut : tree.LaidOut) :
    ∃ items, tree.recommendKeywords position = .ok items ∧
      ∀ item, item ∈ items ↔ ∃ keyword ∈ typedKeywords,
        tree.OfferedBehind (tree.lastStartingBefore? position) keyword.2 ∧
          item = .ofKeyword keyword.1 := by
  obtain ⟨context, isContext, rfl, _, targetEq, boundary, globalBoundary⟩ :=
    wellFormed.caretContext_eq laidOut position
  rw [between.caretTarget?_eq] at targetEq boundary globalBoundary
  have inTree : tree.HasToken (tree.lastStartingBefore? context.position) :=
    fun id isLast => (find?_reverse_range_eq_some.mp isLast).2.1
  cases isStatement : context.isStatement with
  | true =>
    rw [isStatement] at boundary
    have offered (keyword : Kind) :
        tree.OfferedBehind (tree.lastStartingBefore? context.position) keyword :=
      .statement (.of_boundary inTree boundary)
    refine ⟨_, recommendKeywords_statement isContext isStatement, fun item => ?_⟩
    simp [typedKeywords, offered]
  | false =>
    rw [isStatement] at boundary
    have notBehind : ¬tree.StatementBehind (tree.lastStartingBefore? context.position) := by
      intro behind
      cases boundary.symm.trans behind.boundary
    have notGlobal : context.isGlobalStatement = false := by
      by_contra isGlobal
      rw [Bool.not_eq_false] at isGlobal
      rw [isGlobal] at globalBoundary
      exact notBehind (.of_boundary inTree globalBoundary)
    cases isLast : tree.lastStartingBefore? context.position with
    | none => exact absurd (isLast ▸ .nothing) notBehind
    | some id =>
      obtain ⟨token, isToken, isReal⟩ := exists_token_of_lastStartingBefore? isLast
      rw [isLast] at targetEq notBehind
      obtain ⟨items, recommends, _⟩ := wellFormed.recommendKeywords_gives context.position
      refine ⟨items, recommends, fun item => mem_recommendKeywords isContext recommends ?_ ?_ ?_⟩
      · intro _
        exact between.offersDo_iff wellFormed targetEq isToken notBehind isStatement notGlobal
      · intro _
        exact offersReturn_iff wellFormed targetEq isToken notBehind isStatement
      · intro _
        exact between.offersYield_iff wellFormed targetEq isToken notBehind isStatement isReal

/-- Behind a string no keyword but `yield` is offered. -/
theorem OfferedBehind.of_string {file : ParseTree} {keyword : Kind}
    (shows : tree.Shows damaged file) (isToken : tree.tokens[id]? = some token)
    (isReal : token.isMissing = false) (isString : token.kind = .stringLiteralToken)
    (offered : tree.OfferedBehind (some id) keyword) : keyword = .yieldKeyword := by
  cases offered with
  | select => rfl
  | group => rfl
  | statement behind =>
    cases behind with
    | token starts =>
      cases starts with
      | brace isOther isBrace =>
        cases isToken.symm.trans isOther
        cases isString.symm.trans isBrace
      | statement isOther isEnd =>
        cases isToken.symm.trans isOther
        rcases isEnd with isSemicolon | ⟨isBrace, _⟩
        · cases isString.symm.trans isSemicolon
        · cases isString.symm.trans isBrace
  | yielded isOther isYield =>
    cases isToken.symm.trans isOther
    cases isString.symm.trans isYield
  | conclusion isOther kindEq =>
    -- A conclusion has no string among its parts.
    cases isToken.symm.trans isOther
    obtain ⟨_, _, _, _, _, _, _, sameKind, _, childAt⟩ := shows.exists_leaf isToken isReal
    cases childAt.kind_eq.symm.trans kindEq
    obtain ⟨_, production⟩ := childAt.production
    have same := production.roles_of_queryConclusion rfl
    rw [sameKind, isString] at same
    have isPart : Role.leaf .stringLiteralToken ∈ _ :=
      same ▸ List.mem_append_right _ (List.mem_cons_self ..)
    simp at isPart

end SyntaxTree

/-! ### Outside of the code -/

section Parsed

variable {number : FileId} {source : SourceText} {scanned : ScannedText} {position : Nat}

/-- Outside of the code a caret touches no word. -/
theorem betweenWords_of_outsideCode (scans : scanText number source = .ok scanned)
    (outside : scanned.OutsideCode source position) (fileName : String) (features : Features) :
    ((parseTokens number features scanned).shape.toTree number fileName source
      features).BetweenWords position := by
  intro id token isToken isReal
  obtain ⟨own, isScanned, same⟩ := List.mem_map.mp
    ((mem_placed_iff scans fileName features).mpr ⟨id, token, isToken, isReal, rfl⟩)
  obtain ⟨sameKind, sameSpan⟩ := Prod.mk.inj same
  rw [← sameKind, ← sameSpan]
  exact outside.no_word scans own isScanned

/-- Outside of the code completion answers as if white space stood there: it offers what is offered
behind the last token that starts in front of the caret. Inside of a string that token is the string
itself, and nothing but `yield` is offered. -/
theorem offered_outsideCode (scans : scanText number source = .ok scanned)
    (outside : scanned.OutsideCode source position) (fileName : String) (features : Features) :
    ∃ parsed items, parseText number fileName source features = .ok parsed ∧
      parsed.tree.recommendKeywords position = .ok items ∧
      (∀ item, item ∈ items ↔ ∃ keyword ∈ typedKeywords,
        parsed.tree.OfferedBehind (parsed.tree.lastStartingBefore? position) keyword.2 ∧
          item = .ofKeyword keyword.1) ∧
      ∀ literal ∈ scanned.tokens, literal.kind = .stringLiteralToken →
        literal.span.start < position → position < literal.stop →
          ∀ item ∈ items, item = .ofKeyword "yield" := by
  have shows : ((parseTokens number features scanned).shape.toTree number fileName source
      features).Shows _ _ := SyntaxTree.shows_of_scanText scans
  have between := betweenWords_of_outsideCode scans outside fileName features
  obtain ⟨items, recommends, offers⟩ :=
    between.recommendKeywords_iff shows.wellFormed shows.laidOut
  refine ⟨_, items, parseText_eq_ok scans, recommends, offers, ?_⟩
  intro literal isLiteral isString starts stops item isItem
  obtain ⟨id, token, isToken, isReal, same⟩ := (mem_placed_iff scans fileName features).mp
    (List.mem_map_of_mem (List.mem_append_left _ isLiteral))
  obtain ⟨sameKind, sameSpan⟩ := Prod.mk.inj same
  have isSpan : token.span = literal.span := sameSpan
  rw [← isSpan] at starts
  have stops : position ≤ token.span.start + token.span.length :=
    Nat.le_of_lt (isSpan ▸ stops)
  have isLast := shows.laidOut.lastStartingBefore?_eq_some isToken isReal starts stops
  obtain ⟨keyword, isTyped, offered, rfl⟩ := (offers item).mp isItem
  rw [isLast] at offered
  have isYield := offered.of_string shows isToken isReal (sameKind.trans isString)
  simp only [typedKeywords, List.mem_cons, List.not_mem_nil, or_false] at isTyped
  rcases isTyped with rfl | rfl | rfl
  · cases isYield
  · cases isYield
  · rfl

end Parsed

/-- In a comment between two statements. -/
theorem offered_outsideCode_note :
    let source : SourceText := ⟨"var x = 1; // note\nvar y = \"s\";".toList, by decide +kernel⟩
    ∃ scanned, scanText 0 source = .ok scanned ∧ scanned.OutsideCode source 13 ∧
      ∃ parsed items, parseText 0 "main" source .all = .ok parsed ∧
        parsed.tree.recommendKeywords 13 = .ok items ∧
        (∀ item, item ∈ items ↔ ∃ keyword ∈ typedKeywords,
          parsed.tree.OfferedBehind (parsed.tree.lastStartingBefore? 13) keyword.2 ∧
            item = .ofKeyword keyword.1) ∧
        ∀ literal ∈ scanned.tokens, literal.kind = .stringLiteralToken →
          literal.span.start < 13 → 13 < literal.stop →
            ∀ item ∈ items, item = .ofKeyword "yield" := by
  intro source
  have isSkipped : (scanText 0 source).toOption.any fun scanned =>
      decide (∀ token ∈ scanned.tokens, token.stop ≤ byteLength "var x = 1; ".toList ∨
        byteLength "var x = 1; ".toList < token.span.start) := by
    decide +kernel
  obtain ⟨scanned, scans, skipped⟩ := Checked.exists_ok_of_any isSkipped
  have isText : source.chars = "var x = 1; ".toList ++
      '/' :: '/' :: (" note".toList ++ "\nvar y = \"s\";".toList) := by
    rfl
  have outside : scanned.OutsideCode source 13 :=
    .comment isText (by decide) (.inr ⟨_, rfl⟩) (of_decide_eq_true skipped) (by decide) (by decide)
  exact ⟨scanned, scans, outside, offered_outsideCode scans outside "main" .all⟩

/-- Inside of a string that ends a `select` clause `yield` is offered, and in a comment behind a
statement everything is. -/
theorem offered_inComment :
    let source : SourceText :=
      ⟨"var q = from a in b select \"xyz\"; // note".toList, by decide +kernel⟩
    ∃ scanned parsed, scanText 0 source = .ok scanned ∧
      parseText 0 "main" source .onlyQueryConclusions = .ok parsed ∧
      (scanned.OutsideCode source 29 ∧ ∃ items, parsed.tree.recommendKeywords 29 = .ok items ∧
        items.map CompletionItem.label = ["yield"]) ∧
      scanned.OutsideCode source 37 ∧ ∃ items, parsed.tree.recommendKeywords 37 = .ok items ∧
        items.map CompletionItem.label = ["do", "return", "yield"] := by
  intro source
  have isOutside : (scanText 0 source).toOption.any fun scanned =>
      (scanned.tokens.any fun token => token.kind = .stringLiteralToken ∧ token.span.start < 29 ∧
        29 < token.stop) &&
      decide (∀ token ∈ scanned.tokens,
        token.stop ≤ byteLength "var q = from a in b select \"xyz\"; ".toList ∨
          byteLength "var q = from a in b select \"xyz\"; ".toList < token.span.start) := by
    decide +kernel
  have isOffered : (parseText 0 "main" source .onlyQueryConclusions).toOption.any fun parsed =>
      ((parsed.tree.recommendKeywords 29).toOption.any
          (·.map CompletionItem.label = ["yield"])) &&
        (parsed.tree.recommendKeywords 37).toOption.any
          (·.map CompletionItem.label = ["do", "return", "yield"]) := by
    decide +kernel
  obtain ⟨scanned, scans, isOutside⟩ := Checked.exists_ok_of_any isOutside
  obtain ⟨hasString, skipped⟩ := Bool.and_eq_true_iff.mp isOutside
  obtain ⟨literal, isLiteral, inside⟩ := List.any_eq_true.mp hasString
  obtain ⟨isString, starts, stops⟩ := of_decide_eq_true inside
  have inComment : scanned.OutsideCode source 37 := by
    have isText : source.chars = "var q = from a in b select \"xyz\"; ".toList ++
        '/' :: '/' :: (" note".toList ++ []) := by
      rfl
    exact .comment isText (by decide) (.inl rfl) (of_decide_eq_true skipped) (by decide) (by decide)
  obtain ⟨parsed, isParsed, isOffered⟩ := Checked.exists_ok_of_any isOffered
  obtain ⟨behindString, behindStatement⟩ := Bool.and_eq_true_iff.mp isOffered
  obtain ⟨items, recommends, labels⟩ := Checked.exists_ok_of_any behindString
  obtain ⟨others, recommendsOthers, otherLabels⟩ := Checked.exists_ok_of_any behindStatement
  exact ⟨scanned, parsed, scans, isParsed,
    ⟨.string isLiteral isString starts stops, items, recommends, of_decide_eq_true labels⟩,
    inComment, others, recommendsOthers, of_decide_eq_true otherLabels⟩

end QueryLang
