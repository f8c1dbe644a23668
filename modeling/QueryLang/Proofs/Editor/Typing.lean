import QueryLang.Proofs.Editor.Keywords
import QueryLang.Proofs.Syntax.Parts
import QueryLang.Proofs.Syntax.TypedText

/-!
# Offered keywords can be typed

A keyword that is offered at a caret can be typed behind the target of the caret, where what stands
in front of it is whole: the parser takes it without missing anything in front of it, and without
refusing it as an expression.
-/

namespace QueryLang

namespace CaretContext

/-- Where the target of a caret ends. -/
def targetStop (context : CaretContext) (tree : SyntaxTree) : Nat :=
  match context.target.bind (tree.tokens[·]?) with
  | some token => token.span.start + token.span.length
  | none => 0

/-- What stands in front of a caret is whole, as far as a keyword goes. A statement can start there,
or the target is the name of a conclusion, or it ends a clause in which nothing is missing behind
it. For `return` nothing is asked. -/
inductive Whole (context : CaretContext) (tree : SyntaxTree) : (keyword : Kind) → Prop
  | statement {keyword : Kind} (isStatement : context.isStatement = true) :
      Whole context tree keyword
  | yielded : Whole context tree .returnKeyword
  | named {id token} (isTarget : context.target = some id) (isToken : tree.tokens[id]? = some token)
      (isName : token.kind = .identifierToken) : Whole context tree .doKeyword
  | clause {id clause node kind} (isTarget : context.target = some id)
      (isFinal : kind = .selectClause ∨ kind = .groupClause)
      (around : tree.ancestorOfKind? id kind = .ok (some clause))
      (found : tree.nodes[clause]? = some node) (ends : node.endToken = id + 1) :
      Whole context tree .yieldKeyword

end CaretContext

namespace SyntaxTree

variable {tree : SyntaxTree} {damaged : Prop} {file : ParseTree} {id position : Nat}
  {token : TreeToken} {keyword : Kind}

/-! ### The target -/

/-- A token that is found stands in the source. -/
def HasRealToken (tree : SyntaxTree) (found : Option TokenId) : Prop :=
  ∀ id ∈ found, tree.isPresent id = true

theorem previousToken?_yields (inRange : id < tree.tokens.size) :
    (tree.previousToken? id).Yields tree.HasRealToken := by
  rw [previousToken?, lastRealToken?_eq_find? (by omega)]
  rintro _ ⟨⟩ found isFound
  exact List.find?_some isFound

theorem beforeTouchedWord?_yields (isPresent : tree.isPresent id = true) :
    (tree.beforeTouchedWord? position id).Yields tree.HasRealToken := by
  obtain ⟨token, isToken, _⟩ := isPresent_iff.mp isPresent
  have itself : tree.HasRealToken (some id) := by
    rintro _ ⟨⟩
    exact isPresent
  refine .next fun own => ?_
  split
  · refine .next fun touches => ?_
    split
    · exact previousToken?_yields (Array.getElem?_eq_some_iff.mp isToken).1
    · exact .pure itself
  · exact .pure itself

section Target

variable (laidOut : tree.LaidOut) (wellFormed : tree.WellFormed damaged)

include laidOut wellFormed

theorem tokenLeftOf?_yields (position : Nat) :
    (tree.tokenLeftOf? position).Yields tree.HasRealToken := by
  obtain ⟨found, token, foundEq, isAt⟩ := laidOut.findToken_eq wellFormed position
  rw [tokenLeftOf?, foundEq, Checked.ok_bind]
  refine .next fun own => ?_
  split
  · exact previousToken?_yields (Array.getElem?_eq_some_iff.mp isAt.isToken).1
  · apply Checked.Yields.pure
    rintro _ ⟨⟩
    exact isPresent_iff.mpr ⟨token, isAt.isToken, isAt.isReal⟩

/-- The target of a caret stands in the source, and decides whether a statement can start. -/
theorem caretContext_yields (position : Nat) : (tree.caretContext position).Yields fun context =>
    tree.HasRealToken context.target ∧
      tree.isStatementBoundary false context.target = .ok context.isStatement ∧
        tree.isStatementBoundary true context.target = .ok context.isGlobalStatement := by
  refine (tokenLeftOf?_yields laidOut wellFormed position).bind fun left leftIsReal => ?_
  have rest (target : Option TokenId) (isReal : tree.HasRealToken target) : (do
      return {
        position, left, target
        isStatement := ← tree.isStatementBoundary false target
        isGlobalStatement := ← tree.isStatementBoundary true target } :
      Checked CaretContext).Yields fun context => tree.HasRealToken context.target ∧
        tree.isStatementBoundary false context.target = .ok context.isStatement ∧
          tree.isStatementBoundary true context.target = .ok context.isGlobalStatement := by
    refine .bind (fun _ boundary => boundary) fun isStatement boundary => ?_
    refine .bind (fun _ boundary => boundary) fun isGlobalStatement globalBoundary => ?_
    exact .pure ⟨isReal, boundary, globalBoundary⟩
  cases left with
  | none => exact rest none (by rintro _ ⟨⟩)
  | some left => exact (beforeTouchedWord?_yields (leftIsReal left rfl)).bind rest

end Target

/-! ### Statements -/

/-- A statement can start behind the opening brace of a block, or behind the end of a statement
between others. -/
theorem boundary_cases {global : Bool} (isToken : tree.tokens[id]? = some token)
    (boundary : tree.isStatementBoundary global (some id) = .ok true) :
    ∃ kind, tree.kind token.parent = .ok kind ∧
      (token.kind = .openBraceToken ∧ kind = .block ∨
        (token.kind = .semicolonToken ∨ token.kind = .closeBraceToken ∧ kind = .block) ∧
          kind.isStatement = true ∧ ∃ outer outerKind,
            tree.parent token.parent = .ok (some outer) ∧ tree.kind outer = .ok outerKind ∧
              (outerKind = .block ∨ outerKind = .compilationUnit)) := by
  have tokenEq : tree.token id = .ok token := by rw [SyntaxTree.token, isToken]
  rw [isStatementBoundary, tokenEq, Checked.ok_bind] at boundary
  obtain ⟨kind, kindEq, boundary⟩ := Checked.bind_eq_ok_iff.mp boundary
  refine ⟨kind, kindEq, ?_⟩
  split at boundary
  case h_1 isBrace =>
    have both := Checked.pure_eq_ok_iff.mp boundary
    rw [Bool.and_eq_true, beq_iff_eq] at both
    exact .inl ⟨isBrace, both.2⟩
  case h_4 => cases boundary
  case h_2 isEnd | h_3 isEnd =>
    split at boundary
    · cases boundary
    · next inBlock =>
      have ends : token.kind = .semicolonToken ∨ token.kind = .closeBraceToken ∧ kind = .block := by
        by_cases isBrace : token.kind = .closeBraceToken
        · simp only [isBrace, decide_true, Bool.true_and, decide_eq_true_eq, not_not] at inBlock
          exact .inr ⟨isBrace, inBlock⟩
        · first | exact .inl isEnd | exact absurd isEnd isBrace
      split at boundary
      · next isStatement =>
        obtain ⟨outer?, parentEq, boundary⟩ := Checked.bind_eq_ok_iff.mp boundary
        cases outer? with
        | none => cases boundary
        | some outer =>
          obtain ⟨outerKind, outerKindEq, boundary⟩ := Checked.bind_eq_ok_iff.mp boundary
          have holds := Checked.pure_eq_ok_iff.mp boundary
          simp only [holdsStatements, Bool.or_eq_true, Bool.and_eq_true, beq_iff_eq] at holds
          exact .inr ⟨ends, isStatement, outer, outerKind, parentEq, outerKindEq,
            holds.symm.imp_left And.right⟩
      · cases boundary

namespace ChildAt

variable {kind : Kind} {parent : NodeId} {child : Element} {whole part : ParseTree}
  {role : Role} {lefts rights : List Role} {before after : List ParseTree}

/-- Only a closing token is last in a block or in a file. -/
theorem not_last (childAt : tree.ChildAt damaged file parent child whole kind lefts role rights
      before part after) (holds : kind = .block ∨ kind = .compilationUnit)
    (notClosing : role ≠ .leaf .closeBraceToken ∧ role ≠ .leaf .endOfFileToken) : after ≠ [] := by
  rintro rfl
  have noRights : rights = [] := List.eq_nil_of_length_eq_zero childAt.rights_length
  subst noRights
  obtain ⟨_, production⟩ := childAt.production
  obtain ⟨front, last, same, isClosing⟩ := production.closing_last holds
  obtain ⟨_, isLast⟩ := List.append_inj' same rfl
  cases isLast
  rcases isClosing with rfl | rfl
  · exact notClosing.1 rfl
  · exact notClosing.2 rfl

/-- A node stands in no role of a token. -/
theorem role_ne_leaf (childAt : tree.ChildAt damaged file parent (.node id) whole kind lefts role
    rights before part after) (other : Kind) : role ≠ .leaf other := by
  rintro rfl
  obtain ⟨place, isOwn, held⟩ := childAt.holdsPart
  cases held.formed with
  | token | missing => cases isOwn
  | node production | wrapped production => cases production

end ChildAt

/-! ### Keywords behind tokens -/

/-- The file accepts a keyword behind a token of its tree. -/
def AcceptsBehind (file : ParseTree) (token : TreeToken) (keyword : Kind) : Prop :=
  ∃ leaf : Token, leaf.span = token.span ∧ file.Accepts leaf keyword

namespace Shows

variable (shows : tree.Shows damaged file) (isToken : tree.tokens[id]? = some token)
  (isReal : token.isMissing = false)

include shows isToken isReal

/-- Behind a token between the braces of a block, or in a file, every keyword is accepted. -/
theorem accepts_loose {kind : Kind} (kindEq : tree.kind token.parent = .ok kind)
    (holds : kind = .block ∨ kind = .compilationUnit)
    (notClosing : token.kind ≠ .closeBraceToken ∧ token.kind ≠ .endOfFileToken) :
    AcceptsBehind file token keyword := by
  obtain ⟨whole, own, lefts, rights, before, leaf, after, sameKind, sameSpan, childAt⟩ :=
    shows.exists_leaf isToken isReal
  cases childAt.kind_eq.symm.trans kindEq
  have notLast : after ≠ [] := by
    apply childAt.not_last holds
    rw [sameKind]
    simpa using notClosing
  exact ⟨leaf, sameSpan, childAt.accepts_between holds notLast .token⟩

/-- Behind the end of a statement between others, every keyword is accepted. -/
theorem accepts_after_statement {kind outerKind : Kind} {outer : NodeId}
    (isEnd : token.kind = .semicolonToken ∨ token.kind = .closeBraceToken ∧ kind = .block)
    (kindEq : tree.kind token.parent = .ok kind) (isStatement : kind.isStatement = true)
    (isParent : tree.parent token.parent = .ok (some outer))
    (outerKindEq : tree.kind outer = .ok outerKind)
    (holds : outerKind = .block ∨ outerKind = .compilationUnit) :
    AcceptsBehind file token keyword := by
  obtain ⟨_, _, _, _, _, _, part, _, outerAt⟩ :=
    shows.exists_childAt ((shows.ordered.parent_iff _ _).mp (parent_eq_some_iff.mp isParent))
  cases outerAt.kind_eq.symm.trans outerKindEq
  obtain ⟨place, isOwn, held⟩ := outerAt.holdsPart
  obtain ⟨_, lefts, _, rights, before, inner, after, childAt⟩ :=
    held.child isOwn (shows.token_isChildOf isToken)
  cases childAt.kind_eq.symm.trans kindEq
  obtain ⟨_, isInner, innerHeld⟩ := childAt.holdsPart
  obtain ⟨leaf, rfl, sameKind, sameSpan⟩ := innerHeld.holds.token_of_real isInner isToken isReal
  refine ⟨leaf, sameSpan, ?_⟩
  by_cases isLast : after = []
  · -- The token ends the statement, so what is around the statement takes the keyword.
    subst isLast
    have ends : part.EndsWith leaf := .node childAt.isNode .token
    have notLast := outerAt.not_last holds ⟨outerAt.role_ne_leaf _, outerAt.role_ne_leaf _⟩
    exact outerAt.accepts_between holds notLast ends
  · by_cases inBlock : kind = .block
    · exact childAt.accepts_between (.inl inBlock) isLast .token
    · -- A semicolon of any other statement is its last child, against `isLast`.
      have isSemicolon : token.kind = .semicolonToken :=
        isEnd.resolve_right fun isBrace => inBlock isBrace.2
      obtain ⟨_, production⟩ := childAt.production
      obtain ⟨front, same, fresh⟩ := production.semicolon_last isStatement inBlock
      rw [childAt.role_eq, sameKind, isSemicolon] at same
      have noRights := eq_nil_of_append_singleton same fresh
      have sameLength := childAt.rights_length
      rw [noRights] at sameLength
      exact absurd (List.eq_nil_of_length_eq_zero sameLength.symm) isLast

/-- Where a statement can start, every keyword is accepted. -/
theorem accepts_at_boundary {global : Bool}
    (boundary : tree.isStatementBoundary global (some id) = .ok true) :
    AcceptsBehind file token keyword := by
  rcases boundary_cases isToken boundary with
    ⟨kind, kindEq, ⟨isBrace, inBlock⟩ |
      ⟨isEnd, isStatement, outer, outerKind, isParent, outerKindEq, holds⟩⟩
  · apply shows.accepts_loose isToken isReal kindEq (.inl inBlock)
    rw [isBrace]
    decide
  · exact shows.accepts_after_statement isToken isReal isEnd kindEq isStatement isParent
      outerKindEq holds

/-- Behind a `yield` that does not start a conclusion, `return` is accepted. -/
theorem accepts_return {kind : Kind} (isYield : token.kind = .yieldKeyword)
    (kindEq : tree.kind token.parent = .ok kind) (notConclusion : kind ≠ .queryConclusion) :
    AcceptsBehind file token .returnKeyword := by
  obtain ⟨whole, own, lefts, rights, before, leaf, after, sameKind, sameSpan, childAt⟩ :=
    shows.exists_leaf isToken isReal
  cases childAt.kind_eq.symm.trans kindEq
  obtain ⟨_, production⟩ := childAt.production
  rw [sameKind, isYield] at production
  rcases production.kind_of_yield (by simp) with inStatement | inConclusion | holds
  · -- A statement has `yield` in front only, so nothing stands before the token.
    obtain ⟨more, same, fresh⟩ := production.yield_first inStatement
    have noLefts : lefts = [] := by
      cases lefts with
      | nil => rfl
      | cons first rest =>
        obtain ⟨_, isMore⟩ := List.cons.inj same
        rw [← isMore] at fresh
        exact absurd (by simp) fresh
    have sameLength := childAt.lefts_length
    rw [noLefts] at sameLength
    have noneBefore := List.eq_nil_of_length_eq_zero sameLength.symm
    have isNode := childAt.isNode
    rw [noneBefore] at isNode
    have accepts : whole.Accepts leaf .returnKeyword := .value isNode rfl inStatement
    exact ⟨leaf, sameSpan, accepts.of_part childAt.isPart⟩
  · exact absurd inConclusion notConclusion
  · apply shows.accepts_loose isToken isReal kindEq holds
    rw [isYield]
    decide

/-- Behind the name of a conclusion, `do` is accepted. -/
theorem accepts_do (isName : token.kind = .identifierToken)
    (kindEq : tree.kind token.parent = .ok .queryConclusion) :
    AcceptsBehind file token .doKeyword := by
  obtain ⟨whole, own, lefts, rights, before, leaf, after, sameKind, sameSpan, childAt⟩ :=
    shows.exists_leaf isToken isReal
  cases childAt.kind_eq.symm.trans kindEq
  obtain ⟨_, production⟩ := childAt.production
  have same := production.roles_of_queryConclusion rfl
  rw [sameKind, isName] at same
  have two : lefts.length = 2 := by
    -- The name is the third of five children.
    rcases lefts with _ | ⟨_, _ | ⟨_, _ | ⟨_, _ | ⟨_, _ | ⟨_, _⟩⟩⟩⟩⟩
    all_goals first | rfl | simp at same
  rw [childAt.lefts_length] at two
  obtain ⟨first, second, rfl⟩ := List.length_eq_two.mp two
  have accepts : whole.Accepts leaf .doKeyword := .body childAt.isNode rfl
  exact ⟨leaf, sameSpan, accepts.of_part childAt.isPart⟩

/-- Behind a clause that ends a query, and in which nothing is missing at the end, `yield` is
accepted. -/
theorem accepts_yield {clause : NodeId} {node : TreeNode}
    (found : tree.nodes[clause]? = some node)
    (isFinal : node.kind = .selectClause ∨ node.kind = .groupClause)
    (ends : node.endToken = id + 1) : AcceptsBehind file token .yieldKeyword := by
  have inRange := (Array.getElem?_eq_some_iff.mp found).1
  have notRoot : clause ≠ SyntaxTree.root := by
    rintro rfl
    have isFile := Except.ok.inj ((kind_eq_ok found).symm.trans shows.root_kind)
    rw [isFile] at isFinal
    rcases isFinal with isFinal | isFinal
    · cases isFinal
    · cases isFinal
  -- The only place of the clause is at the end of a query body, where a conclusion can follow.
  obtain ⟨parent, isChild⟩ := shows.node_isChildOf inRange notRoot
  obtain ⟨whole, kind, lefts, role, rights, before, part, after, childAt⟩ :=
    shows.exists_childAt isChild
  obtain ⟨place, isOwn, held⟩ := childAt.holdsPart
  obtain ⟨own, children, isNode⟩ := isNode_of_element isOwn
  obtain ⟨_, ownEq, foundOwn, _⟩ := held.holds.node isNode
  cases isOwn.symm.trans ownEq
  cases found.symm.trans foundOwn
  obtain ⟨_, production, _⟩ := held.formed.production isNode
  obtain ⟨_, outerProduction⟩ := childAt.production
  cases production.role_of_final isFinal
  cases outerProduction.kind_of_ending (by simp)
  obtain ⟨leaf, _, sameSpan, endsWith⟩ :=
    Holds.endsWith part held.holds held.formed ends isToken isReal
  have isFinalClause : part.IsFinalClause := ⟨own, children, isNode, isFinal⟩
  have accepts : whole.Accepts leaf .yieldKeyword :=
    .conclusion childAt.isNode rfl isFinalClause endsWith
  exact ⟨leaf, sameSpan, accepts.of_part childAt.isPart⟩

end Shows

/-! ### Offers -/

section Offers

variable {context : CaretContext} {items : List CompletionItem}

/-- What is offered was asked about. -/
theorem offers_of_mem (isContext : tree.caretContext position = .ok context)
    (recommends : tree.recommendKeywords position = .ok items) :
    ("do" ∈ items.map CompletionItem.label → context.offersDo tree = .ok true) ∧
      ("return" ∈ items.map CompletionItem.label → context.offersReturn tree = .ok true) := by
  rw [recommendKeywords, isContext, Checked.ok_bind] at recommends
  obtain ⟨offersDo, doEq, recommends⟩ := Checked.bind_eq_ok_iff.mp recommends
  obtain ⟨offersReturn, returnEq, recommends⟩ := Checked.bind_eq_ok_iff.mp recommends
  obtain ⟨offersYield, _, recommends⟩ := Checked.bind_eq_ok_iff.mp recommends
  rw [doEq, returnEq, ← Checked.pure_eq_ok_iff.mp recommends]
  constructor
  · intro offered
    simpa [CompletionItem.ofKeyword] using offered
  · intro offered
    simpa [CompletionItem.ofKeyword] using offered

variable (shows : tree.Shows damaged file) (isToken : tree.tokens[id]? = some token)
  (isReal : token.isMissing = false) (isTarget : context.target = some id)
  (boundary : tree.isStatementBoundary false (some id) = .ok context.isStatement)

include shows isToken isReal isTarget boundary

/-- Where `return` is offered, it is accepted. -/
theorem accepts_offered_return (offers : context.offersReturn tree = .ok true) :
    AcceptsBehind file token .returnKeyword := by
  rw [CaretContext.offersReturn] at offers
  split at offers
  · next isStatement =>
    rw [isStatement] at boundary
    exact shows.accepts_at_boundary isToken isReal boundary
  · obtain ⟨kind, kindEq⟩ := WellFormed.kind_gives (shows.wellFormed.token_parent isToken)
    obtain ⟨targetKind, parentKind⟩ := CaretContext.targetKinds_eq isTarget isToken kindEq
    simp only [targetKind, parentKind, Checked.ok_bind] at offers
    split at offers
    · next isYield =>
      apply shows.accepts_return isToken isReal (Option.some.inj isYield) kindEq
      simpa using Checked.pure_eq_ok_iff.mp offers
    · cases offers

/-- Where `do` is offered behind an identifier, it is accepted. -/
theorem accepts_offered_do (globalBoundary :
      tree.isStatementBoundary true (some id) = .ok context.isGlobalStatement)
    (offers : context.offersDo tree = .ok true) (isName : token.kind = .identifierToken) :
    AcceptsBehind file token .doKeyword := by
  have tokenEq : tree.token id = .ok token := by rw [SyntaxTree.token, isToken]
  rw [CaretContext.offersDo] at offers
  split at offers
  · next isBoundary =>
    rcases Bool.or_eq_true_iff.mp isBoundary with isStatement | isGlobalStatement
    · rw [isStatement] at boundary
      exact shows.accepts_at_boundary isToken isReal boundary
    · rw [isGlobalStatement] at globalBoundary
      exact shows.accepts_at_boundary isToken isReal globalBoundary
  · obtain ⟨kind, kindEq⟩ := WellFormed.kind_gives (shows.wellFormed.token_parent isToken)
    simp only [isTarget, tokenEq, kindEq, Checked.ok_bind] at offers
    split at offers
    · next isConclusion =>
      rw [isConclusion] at kindEq
      exact shows.accepts_do isToken isReal isName kindEq
    · cases offers

/-- A keyword that is offered is accepted, where what stands in front of it is whole. -/
theorem accepts_offered (globalBoundary :
      tree.isStatementBoundary true (some id) = .ok context.isGlobalStatement)
    (isContext : tree.caretContext position = .ok context)
    (recommends : tree.recommendKeywords position = .ok items) {typed : String × Kind}
    (isTyped : typed ∈ typedKeywords) (offered : typed.1 ∈ items.map CompletionItem.label)
    (isWhole : context.Whole tree typed.2) : AcceptsBehind file token typed.2 := by
  obtain ⟨offersDo, offersReturn⟩ := offers_of_mem isContext recommends
  by_cases isStatement : context.isStatement = true
  · rw [isStatement] at boundary
    exact shows.accepts_at_boundary isToken isReal boundary
  · simp only [typedKeywords, List.mem_cons, List.not_mem_nil, or_false] at isTyped
    rcases isTyped with rfl | rfl | rfl
    · have isWhole : context.Whole tree .doKeyword := isWhole
      cases isWhole with
      | statement statement => exact absurd statement isStatement
      | named isTargetAgain isTokenAgain isName =>
        cases isTarget.symm.trans isTargetAgain
        cases isToken.symm.trans isTokenAgain
        exact accepts_offered_do shows isToken isReal isTarget boundary globalBoundary
          (offersDo offered) isName
    · exact accepts_offered_return shows isToken isReal isTarget boundary (offersReturn offered)
    · have isWhole : context.Whole tree .yieldKeyword := isWhole
      cases isWhole with
      | statement statement => exact absurd statement isStatement
      | @clause _ clause node kind isTargetAgain isFinal around found ends =>
        cases isTarget.symm.trans isTargetAgain
        have inRange := (Array.getElem?_eq_some_iff.mp isToken).1
        obtain ⟨_, aroundAgain, isKind⟩ := shows.wellFormed.ancestorOfKind?_gives kind inRange
        cases around.symm.trans aroundAgain
        rw [← Except.ok.inj ((kind_eq_ok found).symm.trans (isKind clause rfl))] at isFinal
        exact shows.accepts_yield isToken isReal found isFinal ends

end Offers

end SyntaxTree

section Parsed

variable {number : FileId} {fileName typedName : String} {source typedText : SourceText}
  {features : Features} {parsed : ParsedFile} {position : Nat} {context : CaretContext}
  {items : List CompletionItem} {keyword : String × Kind}

/-- A keyword that is offered at a caret can be typed behind the target of the caret, where what
stands in front of it is whole. -/
theorem offered_typed (isParsed : parseText number fileName source features = .ok parsed)
    (isContext : parsed.tree.caretContext position = .ok context)
    (recommends : parsed.tree.recommendKeywords position = .ok items)
    (isTyped : keyword ∈ typedKeywords) (offered : keyword.1 ∈ items.map CompletionItem.label)
    (isWhole : context.Whole parsed.tree keyword.2) {front back : List Char}
    (isCut : source.chars = front ++ back)
    (atTarget : byteLength front = context.targetStop parsed.tree)
    (text : typedText.chars = front ++ ' ' :: keyword.1.toList) (typedName : String) :
    ∃ typed, parseText number typedName typedText features = .ok typed ∧
      ∀ diagnostic ∈ typed.diagnostics, ¬diagnostic.Rejects (context.targetStop parsed.tree)
        (typedToken keyword (context.targetStop parsed.tree)).span := by
  obtain ⟨scanned, scans, _⟩ := Checked.bind_eq_ok_iff.mp isParsed
  let damaged : Prop := (parseTokens number features scanned).diagnostics.hasErrors = true
  have shows : parsed.tree.Shows damaged (parseTokens number features scanned).shape := by
    rw [parseText_eq_ok scans] at isParsed
    cases isParsed
    exact SyntaxTree.shows_of_scanText scans
  obtain ⟨targetIsReal, boundary, globalBoundary⟩ :=
    SyntaxTree.caretContext_yields shows.laidOut shows.wellFormed position context isContext
  cases isTarget : context.target with
  | none =>
    -- Without a target nothing is kept, and the keyword starts the file.
    have atStart : context.targetStop parsed.tree = 0 := by
      rw [CaretContext.targetStop, isTarget]
      rfl
    rw [atStart] at atTarget ⊢
    rw [eq_nil_of_byteLength_eq_zero atTarget] at text
    exact parseText_keyword isTyped text typedName
  | some id =>
    obtain ⟨token, isToken, isReal⟩ := SyntaxTree.isPresent_iff.mp (targetIsReal id isTarget)
    rw [isTarget] at boundary globalBoundary
    obtain ⟨leaf, sameSpan, accepts⟩ := SyntaxTree.accepts_offered shows isToken isReal isTarget
      boundary globalBoundary isContext recommends isTyped offered isWhole
    have atStop : context.targetStop parsed.tree = leaf.stop := by
      rw [CaretContext.targetStop, isTarget, Option.bind_some, isToken, Token.stop, sameSpan]
    rw [atStop] at atTarget ⊢
    exact parseText_typed isTyped scans accepts isCut atTarget text typedName

end Parsed

/-- Behind a whole `select` clause `yield` is offered, and can be typed. -/
theorem offered_typed_select :
    ∃ parsed context items typed,
      parseText 0 "main" ⟨"var q = from a in b select a ".toList, by decide +kernel⟩
          .onlyQueryConclusions = .ok parsed ∧
        parsed.tree.caretContext 29 = .ok context ∧
        parsed.tree.recommendKeywords 29 = .ok items ∧
        ("yield", .yieldKeyword) ∈ typedKeywords ∧ "yield" ∈ items.map CompletionItem.label ∧
        context.Whole parsed.tree .yieldKeyword ∧ context.targetStop parsed.tree = 28 ∧
        parseText 0 "main" ⟨"var q = from a in b select a yield".toList, by decide +kernel⟩
          .onlyQueryConclusions = .ok typed ∧
        ∀ diagnostic ∈ typed.diagnostics,
          ¬diagnostic.Rejects 28 (typedToken ("yield", .yieldKeyword) 28).span := by
  have isOffered : (parseText 0 "main"
      ⟨"var q = from a in b select a ".toList, by decide +kernel⟩
      .onlyQueryConclusions).toOption.any fun parsed =>
        (parsed.tree.recommendKeywords 29).toOption.any
            ("yield" ∈ ·.map CompletionItem.label) &&
          (parsed.tree.caretContext 29).toOption.any fun context =>
            context.target = some 8 ∧ context.targetStop parsed.tree = 28 ∧
              (parsed.tree.ancestorOfKind? 8 .selectClause).toOption = some (some 6) ∧
                (parsed.tree.nodes[6]?).any (·.endToken = 9) := by
    decide +kernel
  obtain ⟨parsed, isParsed, isOffered⟩ := Checked.exists_ok_of_any isOffered
  obtain ⟨recommends, isContext⟩ := Bool.and_eq_true_iff.mp isOffered
  obtain ⟨items, recommends, offered⟩ := Checked.exists_ok_of_any recommends
  obtain ⟨context, isContext, stands⟩ := Checked.exists_ok_of_any isContext
  obtain ⟨isTarget, atStop, around, ends⟩ := of_decide_eq_true stands
  obtain ⟨node, found, ends⟩ := (Option.any_eq_true _ _).mp ends
  have isWhole : context.Whole parsed.tree .yieldKeyword :=
    .clause isTarget (.inl rfl) (Checked.eq_ok_of_toOption around) found (of_decide_eq_true ends)
  have isTyped : ("yield", Kind.yieldKeyword) ∈ typedKeywords := by simp [typedKeywords]
  have isCut : "var q = from a in b select a ".toList =
      "var q = from a in b select a".toList ++ " ".toList := by
    rfl
  have atTarget : byteLength "var q = from a in b select a".toList =
      context.targetStop parsed.tree := by
    rw [atStop]
    rfl
  have text : (⟨"var q = from a in b select a yield".toList, by decide +kernel⟩ :
      SourceText).chars = "var q = from a in b select a".toList ++ ' ' :: "yield".toList := by
    rfl
  obtain ⟨typed, typedEq, accepted⟩ := offered_typed isParsed isContext recommends isTyped
    (of_decide_eq_true offered) isWhole isCut atTarget text "main"
  rw [atStop] at accepted
  exact ⟨parsed, context, items, typed, isParsed, isContext, recommends, isTyped,
    of_decide_eq_true offered, isWhole, atStop, typedEq, accepted⟩

/-- Behind an operator `yield` is offered as well, where an operand is still missing, and cannot be
typed. -/
theorem offered_unfinished :
    ∃ parsed context items typed,
      parseText 0 "main" ⟨"var q = from a in b select a + ".toList, by decide +kernel⟩
          .onlyQueryConclusions = .ok parsed ∧
        parsed.tree.caretContext 31 = .ok context ∧
        parsed.tree.recommendKeywords 31 = .ok items ∧
        "yield" ∈ items.map CompletionItem.label ∧ context.targetStop parsed.tree = 30 ∧
        parseText 0 "main" ⟨"var q = from a in b select a + yield".toList, by decide +kernel⟩
          .onlyQueryConclusions = .ok typed ∧
        ∃ diagnostic ∈ typed.diagnostics,
          diagnostic.Rejects 30 (typedToken ("yield", .yieldKeyword) 30).span := by
  have isOffered : (parseText 0 "main"
      ⟨"var q = from a in b select a + ".toList, by decide +kernel⟩
      .onlyQueryConclusions).toOption.any fun parsed =>
        (parsed.tree.recommendKeywords 31).toOption.any
            ("yield" ∈ ·.map CompletionItem.label) &&
          (parsed.tree.caretContext 31).toOption.any (·.targetStop parsed.tree = 30) := by
    decide +kernel
  have isRejected : (scanText 0
      ⟨"var q = from a in b select a + yield".toList, by decide +kernel⟩).toOption.any
      fun scanned => (parseTokens 0 .onlyQueryConclusions scanned).diagnostics.any
        (·.Rejects 30 (typedToken ("yield", .yieldKeyword) 30).span) := by
    decide +kernel
  obtain ⟨parsed, isParsed, isOffered⟩ := Checked.exists_ok_of_any isOffered
  obtain ⟨recommends, isContext⟩ := Bool.and_eq_true_iff.mp isOffered
  obtain ⟨items, recommends, offered⟩ := Checked.exists_ok_of_any recommends
  obtain ⟨context, isContext, atStop⟩ := Checked.exists_ok_of_any isContext
  obtain ⟨scanned, scans, isRejected⟩ := Checked.exists_ok_of_any isRejected
  obtain ⟨diagnostic, isReported, rejects⟩ := List.any_eq_true.mp isRejected
  exact ⟨parsed, context, items, _, isParsed, isContext, recommends, of_decide_eq_true offered,
    of_decide_eq_true atStop, parseText_eq_ok scans, diagnostic,
    Diagnostics.mem_sorted.mpr isReported, of_decide_eq_true rejects⟩

end QueryLang
