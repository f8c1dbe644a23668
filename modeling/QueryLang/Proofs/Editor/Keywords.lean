import QueryLang.Editor.Keywords
import QueryLang.Proofs.Syntax.Searching

/-!
# Completion never fails

Every position of a well-formed tree has a caret context and an answer about each keyword,
whatever the tree lacks around it.
-/

namespace QueryLang

open SyntaxTree

variable {tree : SyntaxTree} {damaged : Prop} {id position : Nat}

theorem CaretContext.targetKinds_eq {context : CaretContext} {token : TreeToken} {kind : Kind}
    (isTarget : context.target = some id) (isToken : tree.tokens[id]? = some token)
    (kindEq : tree.kind token.parent = .ok kind) :
    context.targetKind? tree = .ok (some token.kind) ∧
      context.targetParentKind? tree = .ok (some kind) := by
  have tokenEq : tree.token id = .ok token := by rw [SyntaxTree.token, isToken]
  rw [CaretContext.targetKind?, CaretContext.targetParentKind?, isTarget, Option.mapM_some,
    Option.mapM_some, tokenEq, Checked.ok_bind, Checked.ok_bind, kindEq]
  exact ⟨rfl, rfl⟩

namespace SyntaxTree.WellFormed

variable (wellFormed : tree.WellFormed damaged)

include wellFormed

theorem beforeTouchedWord?_gives (inRange : id < tree.tokens.size) :
    (tree.beforeTouchedWord? position id).Gives tree.HasToken := by
  rcases token_eq_ok inRange with ⟨token, found, tokenEq⟩
  have itself : tree.HasToken (some id) := by
    rintro _ ⟨⟩
    exact inRange
  rw [beforeTouchedWord?, tokenEq, Checked.ok_bind]
  split
  · refine Checked.Gives.bind (wellFormed.touches_gives found position) fun touches _ => ?_
    split
    · exact previousToken?_gives inRange
    · exact .pure itself
  · exact .pure itself

theorem isStatementBoundary_gives (global : Bool) {target : Option TokenId}
    (inTree : tree.HasToken target) :
    (tree.isStatementBoundary global target).Gives fun _ => True := by
  cases target with
  | none => exact .ok trivial
  | some id =>
      rcases token_eq_ok (inTree id rfl) with ⟨token, found, tokenEq⟩
      rcases kind_gives (wellFormed.token_parent found) with ⟨parentKind, parentKindEq⟩
      rw [isStatementBoundary, tokenEq, Checked.ok_bind, parentKindEq, Checked.ok_bind]
      split
      case h_1 | h_4 => exact .pure trivial
      case h_2 | h_3 =>
        split
        · exact .pure trivial
        · split
          · refine Checked.Gives.bind (wellFormed.parent_gives (wellFormed.token_parent found)) ?_
            intro parent outerInRange
            cases parent with
            | none => exact .pure trivial
            | some outer =>
                rcases kind_gives (outerInRange outer rfl) with ⟨outerKind, outerKindEq⟩
                simp only [outerKindEq, Checked.ok_bind]
                exact .pure trivial
          · exact .pure trivial

/-- A caret has a context, and what it names are tokens of the tree. -/
theorem caretContext_gives (position : Nat) :
    (tree.caretContext position).Gives fun context => tree.HasToken context.target := by
  refine Checked.Gives.bind (wellFormed.tokenLeftOf?_gives position) fun left leftInTree => ?_
  have rest (target : Option TokenId) (inTree : tree.HasToken target) : (do
      return {
        position, left, target
        isStatement := ← tree.isStatementBoundary false target
        isGlobalStatement := ← tree.isStatementBoundary true target } :
          Checked CaretContext).Gives fun context => tree.HasToken context.target := by
    refine Checked.Gives.bind (wellFormed.isStatementBoundary_gives false inTree) ?_
    intro isStatement _
    refine Checked.Gives.bind (wellFormed.isStatementBoundary_gives true inTree) ?_
    intro isGlobalStatement _
    exact .pure inTree
  cases left with
  | none => exact rest none (by rintro _ ⟨⟩)
  | some id =>
      exact Checked.Gives.bind (wellFormed.beforeTouchedWord?_gives (leftInTree id rfl)) rest

/-! ### Parts of clauses and conclusions -/

theorem selectView_gives (kindEq : tree.kind id = .ok .selectClause) :
    (WrappedExpressionView.read tree id).Gives fun view =>
      tree.childNode? id 0 = .ok (some view.expression) ∧ view.expression < tree.nodes.size := by
  rcases wellFormed.partsOf kindEq with ⟨_, _, _, _, production, parts⟩
  cases production.roles_of_selectClause rfl
  rcases parts.oneNode rfl with ⟨expression, children, formed⟩
  simp only [WrappedExpressionView.read, requireChild_eq_ok 0 children rfl, Checked.ok_bind]
  exact .pure ⟨childNode?_eq_ok 0 children, formed.inRange⟩

theorem groupView_gives (kindEq : tree.kind id = .ok .groupClause) :
    (GroupClauseView.read tree id).Gives fun view =>
      (tree.childNode? id 0 = .ok (some view.element) ∧ view.element < tree.nodes.size) ∧
        tree.childNode? id 1 = .ok (some view.key) ∧ view.key < tree.nodes.size := by
  rcases wellFormed.partsOf kindEq with ⟨_, _, _, _, production, parts⟩
  cases production.roles_of_groupClause rfl
  rcases parts.twoNodes rfl with ⟨element, key, children, formedElement, formedKey⟩
  rcases parts.requireToken .byKeyword (by simp) with ⟨byKeyword, byEq⟩
  simp only [GroupClauseView.read, requireChild_eq_ok 0 children rfl, byEq,
    requireChild_eq_ok 1 children rfl, Checked.ok_bind]
  exact .pure ⟨⟨childNode?_eq_ok 0 children, formedElement.inRange⟩,
    childNode?_eq_ok 1 children, formedKey.inRange⟩

theorem conclusionView_gives (kindEq : tree.kind id = .ok .queryConclusion) :
    (QueryConclusionView.read tree id).Gives fun view =>
      tree.childToken? id .identifierToken = .ok (some view.identifier) ∧
        ∃ leaf, tree.LeafAt damaged .identifierToken view.identifier leaf := by
  rcases wellFormed.partsOf kindEq with ⟨_, _, _, _, production, parts⟩
  cases production.roles_of_queryConclusion rfl
  rcases parts.oneNode rfl with ⟨body, children, _⟩
  rcases parts.requireToken .yieldKeyword (by simp) with ⟨yieldKeyword, yieldEq⟩
  rcases parts.requireToken .intoKeyword (by simp) with ⟨intoKeyword, intoEq⟩
  rcases parts.requireToken .doKeyword (by simp) with ⟨doKeyword, doEq⟩
  rcases parts.childToken .identifierToken (by simp) with ⟨identifier, leaf, found, isLeaf⟩
  simp only [QueryConclusionView.read, yieldEq, intoEq, requireToken_eq_ok found, doEq,
    requireChild_eq_ok 0 children rfl, Checked.ok_bind]
  exact .pure ⟨found, leaf, isLeaf⟩

/-! ### What is offered -/

theorem endsExpression_gives {token expression : Nat}
    (inRange : expression < tree.nodes.size) :
    (CaretContext.endsExpression tree token expression).Gives fun _ => True := by
  rcases nodeOf_eq_ok inRange with ⟨node, found, nodeEq⟩
  simp only [CaretContext.endsExpression, width, span, lastToken?, nodeEq, Checked.ok_bind,
    pure_bind]
  split
  · exact .pure trivial
  · refine Checked.Gives.bind (lastRealToken?_gives (wellFormed.node_tokens found)) fun last _ => ?_
    exact .pure trivial

theorem namesMember_gives {context : CaretContext} (inTree : tree.HasToken context.target) :
    (context.namesMember tree).Gives fun _ => True := by
  have beforeGives : (context.beforeTarget? tree).Gives tree.HasToken := by
    rw [CaretContext.beforeTarget?]
    split
    · next id isTarget => exact wellFormed.beforeTouchedWord?_gives (inTree id isTarget)
    · exact .ok (by rintro _ ⟨⟩)
  refine Checked.Gives.bind beforeGives fun before beforeInTree => ?_
  cases before with
  | none => exact .pure trivial
  | some id =>
      rcases token_eq_ok (beforeInTree id rfl) with ⟨token, _, tokenEq⟩
      simp only [tokenEq, Checked.ok_bind]
      exact .pure trivial

theorem endsSelect_gives {context : CaretContext} (inTree : tree.HasToken context.target)
    (inRange : id < tree.tokens.size) :
    (context.endsSelect tree id).Gives fun _ => True := by
  refine Checked.Gives.bind (wellFormed.ancestorOfKind?_gives .selectClause inRange) ?_
  intro found isSelect
  cases found with
  | none => exact .pure trivial
  | some clause =>
      refine Checked.Gives.bind (wellFormed.selectView_gives (isSelect clause rfl)) ?_
      intro view ⟨_, expressionInRange⟩
      refine Checked.Gives.bind (wellFormed.namesMember_gives inTree) fun namesMember _ => ?_
      split
      · exact .pure trivial
      · exact wellFormed.endsExpression_gives expressionInRange

theorem endsGroup_gives (inRange : id < tree.tokens.size) :
    (CaretContext.endsGroup tree id).Gives fun _ => True := by
  refine Checked.Gives.bind (wellFormed.ancestorOfKind?_gives .groupClause inRange) ?_
  intro found isGroup
  cases found with
  | none => exact .pure trivial
  | some clause =>
      refine Checked.Gives.bind (wellFormed.groupView_gives (isGroup clause rfl)) ?_
      intro view ⟨⟨_, elementInRange⟩, _, keyInRange⟩
      rcases nodeOf_eq_ok elementInRange with ⟨node, _, nodeEq⟩
      simp only [width, span, nodeEq, Checked.ok_bind, pure_bind]
      split
      · exact .pure trivial
      · exact wellFormed.endsExpression_gives keyInRange

theorem offersYield_gives {context : CaretContext} (inTree : tree.HasToken context.target) :
    (context.offersYield tree).Gives fun _ => True := by
  rw [CaretContext.offersYield]
  split
  · exact .pure trivial
  · split
    · exact .pure trivial
    · next token isTarget =>
        have inRange := inTree token isTarget
        refine Checked.Gives.bind (wellFormed.endsSelect_gives inTree inRange) ?_
        intro endsSelect _
        split
        · exact .pure trivial
        · exact wellFormed.endsGroup_gives inRange

theorem offersDo_gives {context : CaretContext} (inTree : tree.HasToken context.target) :
    (context.offersDo tree).Gives fun _ => True := by
  rw [CaretContext.offersDo]
  split
  · exact .pure trivial
  · split
    · exact .pure trivial
    · next id isTarget =>
        rcases token_eq_ok (inTree id isTarget) with ⟨token, found, tokenEq⟩
        rcases kind_gives (wellFormed.token_parent found) with ⟨parentKind, parentKindEq⟩
        simp only [tokenEq, parentKindEq, Checked.ok_bind]
        split
        · next isConclusion =>
            rw [isConclusion] at parentKindEq
            refine Checked.Gives.bind (wellFormed.conclusionView_gives parentKindEq) ?_
            intro view ⟨_, leaf, isLeaf⟩
            have leafEq : tree.token view.identifier = .ok leaf := by
              rw [SyntaxTree.token, isLeaf.found]
            simp only [leafEq, Checked.ok_bind]
            split
            · exact .pure trivial
            · refine Checked.Gives.bind (wellFormed.touches_gives isLeaf.found _) fun _ _ => ?_
              exact .pure trivial
        · exact .pure trivial

theorem targetKinds_give {context : CaretContext} (inTree : tree.HasToken context.target) :
    (context.targetKind? tree).Gives (fun _ => True) ∧
      (context.targetParentKind? tree).Gives fun _ => True := by
  cases targetEq : context.target with
  | none =>
      rw [CaretContext.targetKind?, CaretContext.targetParentKind?, targetEq]
      exact ⟨.pure trivial, .pure trivial⟩
  | some id =>
      rcases token_eq_ok (inTree id targetEq) with ⟨token, found, _⟩
      rcases kind_gives (wellFormed.token_parent found) with ⟨parentKind, parentKindEq⟩
      rcases CaretContext.targetKinds_eq targetEq found parentKindEq with ⟨kindEq, outerKindEq⟩
      exact ⟨⟨_, kindEq, trivial⟩, ⟨_, outerKindEq, trivial⟩⟩

theorem offersReturn_gives {context : CaretContext} (inTree : tree.HasToken context.target) :
    (context.offersReturn tree).Gives fun _ => True := by
  rcases wellFormed.targetKinds_give inTree with ⟨kindGives, parentKindGives⟩
  rw [CaretContext.offersReturn]
  split
  · exact .pure trivial
  · refine kindGives.bind fun kind _ => ?_
    split
    · exact parentKindGives.bind fun parentKind _ => .pure trivial
    · exact .pure trivial

/-- Completion answers at every position. -/
theorem recommendKeywords_gives (position : Nat) :
    (tree.recommendKeywords position).Gives fun _ => True := by
  refine Checked.Gives.bind (wellFormed.caretContext_gives position) fun context inTree => ?_
  refine Checked.Gives.bind (wellFormed.offersDo_gives inTree) fun offersDo _ => ?_
  refine Checked.Gives.bind (wellFormed.offersReturn_gives inTree) fun offersReturn _ => ?_
  refine Checked.Gives.bind (wellFormed.offersYield_gives inTree) fun offersYield _ => ?_
  exact .pure trivial

end SyntaxTree.WellFormed

end QueryLang
