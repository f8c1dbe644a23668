import QueryLang.Proofs.Program.Standing
import QueryLang.Proofs.Syntax.Searching

/-!
# Reading well-formed trees

Every part of a well-formed tree can be read, and what is read is what the tree says there. A node
takes at most two levels, so twice the height of a node is enough for what is below it.
-/

namespace QueryLang

open SyntaxTree

variable {tree : SyntaxTree} {damaged : Prop} {levels height id : Nat} {kind : Kind}
  {roles : List Role}

/-! ### Sites, identifiers and literals -/

theorem Site.ofNode_gives (kindEq : tree.kind id = .ok kind) :
    (Site.ofNode tree id).Gives fun site => site.node = id := by
  rcases node_eq_ok kindEq with ⟨node, _, nodeEq, _⟩
  simp only [Site.ofNode, SyntaxTree.span, nodeEq, Checked.ok_bind, pure_bind]
  exact .pure rfl

theorem SyntaxTree.PartsAt.declares (parts : tree.PartsAt damaged height id roles)
    (called : Role.leaf .identifierToken ∈ roles) :
    ∃ tokenId, tree.requireToken id .identifierToken = .ok tokenId ∧
      (Identifier.ofToken tree tokenId).Gives (tree.DeclaresAt damaged id) := by
  rcases parts.childToken .identifierToken called with ⟨tokenId, token, found, leaf⟩
  have tokenEq : tree.token tokenId = .ok token := by rw [SyntaxTree.token, leaf.found]
  refine ⟨tokenId, requireToken_eq_ok found, ?_⟩
  simp only [Identifier.ofToken, tokenEq, Checked.ok_bind]
  refine .pure ⟨⟨tokenId, token, found, tokenEq, rfl, rfl⟩, ?_⟩
  intro noName
  by_contra whole
  have present : token.isMissing = false := by
    rw [← Bool.not_eq_true]
    exact fun missing => whole (leaf.missing missing)
  have named := leaf.named rfl present
  simp only [present, Bool.false_eq_true, if_false] at noName
  rw [noName] at named
  cases named

theorem Identifier.ofNode_gives (kindEq : tree.kind id = .ok .identifierName)
    (parts : tree.PartsAt damaged height id [.leaf .identifierToken]) :
    (Identifier.ofNode tree id).Gives (tree.NameAt damaged id) := by
  rcases parts.declares (by simp) with ⟨tokenId, tokenEq, gives⟩
  simp only [Identifier.ofNode, IdentifierNameView.read, tokenEq, Checked.ok_bind, pure_bind]
  exact gives.mono fun identifier declares => ⟨⟨kindEq, parts.noNodes rfl⟩, declares⟩

theorem Identifier.ofName_gives (formed : tree.FormedAt damaged height .name (.node id)) :
    (Identifier.ofNode tree id).Gives (tree.NameAt damaged id) := by
  rcases formed.parts with ⟨lower, kind, roles, rfl, kindEq, production, parts⟩
  cases production
  exact ofNode_gives kindEq parts

theorem Kind.literalToken?_eq_some {token : Kind} (isLiteral : kind.literalToken? = some token) :
    kind = .numericLiteralExpression ∨ kind = .stringLiteralExpression ∨
      kind = .trueLiteralExpression ∨ kind = .falseLiteralExpression := by
  unfold Kind.literalToken? at isLiteral
  split at isLiteral <;> simp_all

theorem SyntaxTree.WellFormed.textAt_gives (wellFormed : tree.WellFormed damaged) {span : Span}
    (within : span.Within tree.text) : (tree.textAt span).Gives fun _ => True := by
  rcases sliceBytes_eq_ok (Nat.le_add_right ..) within.start_boundary within.stop_boundary with
    ⟨part, partEq⟩
  simp only [SyntaxTree.textAt, within.stop_eq_ok wellFormed.text_fits, Checked.ok_bind, partEq]
  exact .pure trivial

theorem Constant.ofNode_gives (wellFormed : tree.WellFormed damaged) {token : Kind}
    (kindEq : tree.kind id = .ok kind) (parts : tree.PartsAt damaged height id [.leaf token]) :
    (Constant.ofNode tree id).Gives fun _ => True := by
  rcases parts.childTokens with ⟨ids, idsEq, leaves⟩
  cases leaves with
  | @cons _ tokenId _ _ leaf _ =>
      rcases leaf with ⟨found, leaf⟩
      have tokenEq : tree.token tokenId = .ok found := by rw [SyntaxTree.token, leaf.found]
      simp only [Constant.ofNode, LiteralView.read, idsEq, Checked.ok_bind, List.head?_cons,
        pure_bind, SyntaxTree.tokenText, tokenEq]
      refine (wellFormed.textAt_gives (wellFormed.token_within leaf.found)).bind fun text _ => ?_
      rw [kindEq, Checked.ok_bind]
      split <;> exact .pure trivial

theorem SyntaxTree.WellFormed.nodeText_gives (wellFormed : tree.WellFormed damaged)
    (kindEq : tree.kind id = .ok kind) : (tree.nodeText id).Gives fun _ => True := by
  rcases node_eq_ok kindEq with ⟨node, found, nodeEq, _⟩
  simp only [SyntaxTree.nodeText, SyntaxTree.span, nodeEq, Checked.ok_bind, pure_bind]
  exact wellFormed.textAt_gives (wellFormed.node_within found)

/-! ### Expressions -/

/-- What so many levels are enough for. -/
structure Reads (tree : SyntaxTree) (damaged : Prop) (levels : Nat) : Prop where
  expr : ∀ {height id : Nat}, tree.FormedAt damaged height .expression (.node id) →
    2 * height ≤ levels →
    (readExpr tree levels id).Gives fun expr => expr.site.node = id ∧ expr.At tree damaged
  call : ∀ {height : Nat} {site : Site}, tree.kind site.node = .ok .invocationExpression →
    tree.PartsAt damaged height site.node [.operand, .arguments] → 2 * height < levels →
    (readCall tree levels site).Gives fun expr => expr.site = site ∧ expr.At tree damaged
  query : ∀ {height : Nat} {site : Site}, tree.kind site.node = .ok .queryExpression →
    tree.PartsAt damaged height site.node [.fromClause, .queryBody] → 2 * height < levels →
    (readQuery tree levels site).Gives fun expr => expr.site = site ∧ expr.At tree damaged
  clause : ∀ {height id : Nat}, tree.FormedAt damaged height .clause (.node id) →
    2 * height ≤ levels + 1 →
    (readClause tree levels id).Gives fun clause => clause.node = id ∧ clause.At tree damaged
  ending : ∀ {height id : Nat}, tree.FormedAt damaged height .ending (.node id) →
    2 * height ≤ levels + 1 →
    (readEnding tree levels id).Gives fun ending => ending.nodes = [id] ∧ ending.At tree damaged
  conclusion : ∀ {height id : Nat}, tree.FormedAt damaged height .conclusion (.node id) →
    2 * height ≤ levels →
    (readConclusion tree levels id).Gives fun conclusion =>
      conclusion.nodes = [id] ∧ conclusion.At tree damaged
  root : ∀ {height id : Nat}, tree.FormedAt damaged height .expression (.node id) →
    2 * height < levels →
    (readRoot tree levels id).Gives fun root => root.site.node = id ∧ root.At tree damaged

theorem readExpr_gives (wellFormed : tree.WellFormed damaged) (below : Reads tree damaged levels)
    (formed : tree.FormedAt damaged height .expression (.node id))
    (enough : 2 * height ≤ levels + 1) :
    (readExpr tree (levels + 1) id).Gives fun expr =>
      expr.site.node = id ∧ expr.At tree damaged := by
  rcases formed.parts with ⟨lower, kind, roles, rfl, kindEq, production, parts⟩
  rw [readExpr, kindEq, Checked.ok_bind]
  refine (Site.ofNode_gives kindEq).bind ?_
  rintro site rfl
  cases production with
  | ofOperand production =>
      cases production with
      | ofPrimary production =>
          cases production with
          | ofName production =>
              cases production
              refine (Identifier.ofNode_gives kindEq parts).bind fun identifier nameAt => ?_
              exact .pure ⟨rfl, nameAt⟩
          | literal isLiteral =>
              have gives : (do
                  return .literal site (← Constant.ofNode tree site.node) : Checked Expr).Gives
                    fun expr => expr.site.node = site.node ∧ expr.At tree damaged := by
                refine (Constant.ofNode_gives wellFormed kindEq parts).bind fun value _ => ?_
                exact .pure ⟨rfl, kind, by simp [isLiteral], kindEq, parts.noNodes rfl⟩
              rcases Kind.literalToken?_eq_some isLiteral with rfl | rfl | rfl | rfl <;> exact gives
          | parenthesized =>
              rcases parts.oneNode rfl with ⟨inner, children, formedInner⟩
              have innerEq := requireChild_eq_ok 0 children rfl
              simp only [WrappedExpressionView.read, innerEq, Checked.ok_bind, pure_bind]
              refine (below.expr formedInner (by omega)).bind ?_
              rintro expr ⟨rfl, isAt⟩
              exact .pure ⟨rfl, ⟨kindEq, children⟩, isAt⟩
          | query =>
              refine (below.query kindEq parts (by omega)).mono ?_
              rintro expr ⟨rfl, isAt⟩
              exact ⟨rfl, isAt⟩
      | memberAccess =>
          rcases parts.twoNodes rfl with ⟨receiver, name, children, formedReceiver, formedName⟩
          rcases parts.requireToken .dotToken (by simp) with ⟨dot, dotEq⟩
          have receiverEq := requireChild_eq_ok 0 children rfl
          have nameEq := requireChild_eq_ok 1 children rfl
          simp only [MemberAccessView.read, receiverEq, dotEq, nameEq, Checked.ok_bind, pure_bind]
          refine (below.expr (formedReceiver.recast .ofOperand) (by omega)).bind ?_
          rintro expr ⟨rfl, isAt⟩
          refine (Identifier.ofName_gives formedName).bind fun member nameAt => ?_
          exact .pure ⟨rfl, name, ⟨kindEq, children⟩, nameAt, isAt⟩
      | invocation =>
          refine (below.call kindEq parts (by omega)).mono ?_
          rintro expr ⟨rfl, isAt⟩
          exact ⟨rfl, isAt⟩
  | binary binds =>
      rcases parts.twoNodes rfl with ⟨left, right, children, formedLeft, formedRight⟩
      rcases parts.childTokens with ⟨ids, idsEq, leaves⟩
      have leftEq := requireChild_eq_ok 0 children rfl
      have rightEq := requireChild_eq_ok 1 children rfl
      cases leaves with
      | @cons _ operator _ _ leaf _ =>
          rcases leaf with ⟨token, leaf⟩
          have tokenEq : tree.token operator = .ok token := by rw [SyntaxTree.token, leaf.found]
          simp only [BinaryView.read, idsEq, List.head?_cons, leftEq, rightEq, Checked.ok_bind,
            pure_bind]
          refine (below.expr formedLeft (by omega)).bind ?_
          rintro leftExpr ⟨rfl, leftAt⟩
          refine (below.expr formedRight (by omega)).bind ?_
          rintro rightExpr ⟨rfl, rightAt⟩
          rw [tokenEq, Checked.ok_bind]
          exact .pure ⟨rfl, ⟨kindEq, children⟩, leftAt, rightAt⟩

/-! ### Calls -/

theorem Expr.allAt_of_forall₂ {ids : List NodeId} {exprs : List Expr}
    (read : List.Forall₂ (fun id (expr : Expr) => expr.site.node = id ∧ expr.At tree damaged)
      ids exprs) :
    exprs.map (fun expr => expr.site.node) = ids ∧ Expr.AllAt tree damaged exprs := by
  induction read with
  | nil => exact ⟨rfl, trivial⟩
  | cons first _ ih =>
      rcases first with ⟨rfl, isAt⟩
      exact ⟨by rw [List.map_cons, ih.1], isAt, ih.2⟩

/-- The arguments of a call can be read. -/
theorem readArguments_gives (below : Reads tree damaged levels)
    (formed : tree.FormedAt damaged height .arguments (.node id))
    (enough : 2 * height ≤ levels + 2) :
    ∃ ids, tree.childNodes id = .ok ids ∧
      (ids.mapM (readExpr tree levels)).Gives fun arguments =>
        tree.BranchAt id .argumentList (arguments.map fun argument => argument.site.node) ∧
          Expr.AllAt tree damaged arguments := by
  rcases formed.parts with ⟨lower, kind, roles, rfl, kindEq, production, parts⟩
  have onlyExpressions : kind = .argumentList ∧
      ∀ role ∈ roles, role.isNode = true → role = .expression := by
    cases production with
    | noArguments => exact ⟨rfl, by simp [Role.isNode, Role.leafKind?]⟩
    | someArguments count =>
        refine ⟨rfl, ?_⟩
        simp only [List.forall_mem_cons, List.forall_mem_append, Role.furtherArgument]
        simp [Role.isNode, Role.leafKind?]
        rintro role _ (rfl | rfl) isNode
        · cases isNode
        · rfl
  rcases onlyExpressions with ⟨rfl, onlyExpressions⟩
  rcases parts.manyNodes onlyExpressions with ⟨ids, idsEq, formedAll⟩
  refine ⟨ids, idsEq, ?_⟩
  refine (Checked.Gives.mapM fun childId member =>
    below.expr (formedAll childId member) (by omega)).mono ?_
  intro arguments read
  rcases Expr.allAt_of_forall₂ read with ⟨sites, areAt⟩
  exact ⟨⟨kindEq, by rw [sites, idsEq]⟩, areAt⟩

theorem readCall_gives (wellFormed : tree.WellFormed damaged) (below : Reads tree damaged levels)
    {site : Site} (kindEq : tree.kind site.node = .ok .invocationExpression)
    (parts : tree.PartsAt damaged height site.node [.operand, .arguments])
    (enough : 2 * height < levels + 1) :
    (readCall tree (levels + 1) site).Gives fun expr =>
      expr.site = site ∧ expr.At tree damaged := by
  rcases parts.twoNodes rfl with ⟨callee, list, children, formedCallee, formedList⟩
  rcases readArguments_gives below formedList (by omega) with ⟨ids, idsEq, argumentsGive⟩
  have calleeEq := requireChild_eq_ok 0 children rfl
  have listEq := requireChild_eq_ok 1 children rfl
  have calleeGives := below.expr (formedCallee.recast .ofOperand) (by omega)
  rcases formedCallee.parts with ⟨lower, kind, roles, rfl, calleeKind, production, calleeParts⟩
  have valueCall (notNamed : ¬tree.NamesCallee callee) : (do
      let callee' ← readExpr tree levels callee
      let arguments ← ids.mapM (readExpr tree levels)
      return .valueCall site callee' (← tree.nodeText callee) arguments : Checked Expr).Gives
        fun expr => expr.site = site ∧ expr.At tree damaged := by
    refine calleeGives.bind ?_
    rintro calleeExpr ⟨rfl, calleeAt⟩
    refine argumentsGive.bind fun arguments argumentsAt => ?_
    refine (wellFormed.nodeText_gives calleeKind).bind fun text _ => ?_
    exact .pure ⟨rfl, list, ⟨kindEq, children⟩, notNamed, argumentsAt.1, calleeAt,
      argumentsAt.2⟩
  have notNamed {kind : Kind} (kindEq : tree.kind callee = .ok kind) :=
    SyntaxTree.not_namesCallee kindEq
  simp only [readCall, InvocationView.read, listEq, calleeEq, idsEq, calleeKind, Checked.ok_bind,
    pure_bind]
  cases production with
  | memberAccess =>
      rcases calleeParts.twoNodes rfl with
        ⟨receiver, name, calleeChildren, formedReceiver, formedName⟩
      rcases calleeParts.requireToken .dotToken (by simp) with ⟨dot, dotEq⟩
      have receiverEq := requireChild_eq_ok 0 calleeChildren rfl
      have nameEq := requireChild_eq_ok 1 calleeChildren rfl
      simp only [MemberAccessView.read, receiverEq, dotEq, nameEq, Checked.ok_bind, pure_bind]
      refine (below.expr (formedReceiver.recast .ofOperand) (by omega)).bind ?_
      rintro receiverExpr ⟨rfl, receiverAt⟩
      refine argumentsGive.bind fun arguments argumentsAt => ?_
      refine (Identifier.ofName_gives formedName).bind fun member nameAt => ?_
      exact .pure ⟨rfl, callee, name, list, ⟨kindEq, children⟩, ⟨calleeKind, calleeChildren⟩,
        nameAt, argumentsAt.1, receiverAt, argumentsAt.2⟩
  | invocation => exact valueCall (notNamed calleeKind (by decide) (by decide))
  | ofPrimary production =>
      cases production with
      | ofName production =>
          cases production
          refine argumentsGive.bind fun arguments argumentsAt => ?_
          refine (Identifier.ofNode_gives calleeKind calleeParts).bind fun member nameAt => ?_
          exact .pure ⟨rfl, callee, list, ⟨kindEq, children⟩, nameAt, argumentsAt.1,
            argumentsAt.2⟩
      | literal isLiteral =>
          rcases Kind.literalToken?_eq_some isLiteral with rfl | rfl | rfl | rfl <;>
            exact valueCall (notNamed calleeKind (by decide) (by decide))
      | parenthesized => exact valueCall (notNamed calleeKind (by decide) (by decide))
      | query => exact valueCall (notNamed calleeKind (by decide) (by decide))

/-! ### Queries -/

theorem readClause_gives (below : Reads tree damaged levels)
    (formed : tree.FormedAt damaged height .clause (.node id)) (enough : 2 * height ≤ levels + 2) :
    (readClause tree (levels + 1) id).Gives fun clause =>
      clause.node = id ∧ clause.At tree damaged := by
  rcases formed.parts with ⟨lower, kind, roles, rfl, kindEq, production, parts⟩
  rw [readClause, kindEq, Checked.ok_bind]
  refine (Site.ofNode_gives kindEq).bind ?_
  rintro site rfl
  cases production with
  | ofFromClause production =>
      cases production
      rcases parts.oneNode rfl with ⟨source, children, formedSource⟩
      rcases parts.declares (by simp) with ⟨tokenId, tokenEq, declaresGives⟩
      have sourceEq := requireChild_eq_ok 0 children rfl
      simp only [FromClauseView.read, tokenEq, sourceEq, Checked.ok_bind, pure_bind]
      refine (below.expr formedSource (by omega)).bind ?_
      rintro expr ⟨rfl, isAt⟩
      refine declaresGives.bind fun identifier declares => ?_
      exact .pure ⟨rfl, ⟨kindEq, children⟩, declares, isAt⟩
  | whereClause =>
      rcases parts.oneNode rfl with ⟨condition, children, formedCondition⟩
      have conditionEq := requireChild_eq_ok 0 children rfl
      simp only [WrappedExpressionView.read, conditionEq, Checked.ok_bind, pure_bind]
      refine (below.expr formedCondition (by omega)).bind ?_
      rintro expr ⟨rfl, isAt⟩
      exact .pure ⟨rfl, ⟨kindEq, children⟩, isAt⟩
  | letClause =>
      rcases parts.oneNode rfl with ⟨value, children, formedValue⟩
      rcases parts.declares (by simp) with ⟨tokenId, tokenEq, declaresGives⟩
      have valueEq := requireChild_eq_ok 0 children rfl
      simp only [LetClauseView.read, tokenEq, valueEq, Checked.ok_bind, pure_bind]
      refine (below.expr formedValue (by omega)).bind ?_
      rintro expr ⟨rfl, isAt⟩
      refine declaresGives.bind fun identifier declares => ?_
      exact .pure ⟨rfl, ⟨kindEq, children⟩, declares, isAt⟩

theorem readEnding_gives (below : Reads tree damaged levels)
    (formed : tree.FormedAt damaged height .ending (.node id)) (enough : 2 * height ≤ levels + 2) :
    (readEnding tree (levels + 1) id).Gives fun ending =>
      ending.nodes = [id] ∧ ending.At tree damaged := by
  rcases formed.parts with ⟨lower, kind, roles, rfl, kindEq, production, parts⟩
  rw [readEnding]
  refine (Site.ofNode_gives kindEq).bind ?_
  rintro site rfl
  rw [kindEq, Checked.ok_bind]
  cases production with
  | selectClause =>
      rcases parts.oneNode rfl with ⟨selected, children, formedSelected⟩
      have selectedEq := requireChild_eq_ok 0 children rfl
      rw [if_neg (by decide)]
      simp only [WrappedExpressionView.read, selectedEq, Checked.ok_bind, pure_bind]
      refine (below.expr formedSelected (by omega)).bind ?_
      rintro expr ⟨rfl, isAt⟩
      exact .pure ⟨rfl, ⟨kindEq, children⟩, isAt⟩
  | groupClause =>
      rcases parts.twoNodes rfl with ⟨element, key, children, formedElement, formedKey⟩
      rcases parts.requireToken .byKeyword (by simp) with ⟨byKeyword, byEq⟩
      have elementEq := requireChild_eq_ok 0 children rfl
      have keyEq := requireChild_eq_ok 1 children rfl
      rw [if_pos rfl]
      simp only [GroupClauseView.read, elementEq, byEq, keyEq, Checked.ok_bind, pure_bind]
      refine (below.expr formedElement (by omega)).bind ?_
      rintro elementExpr ⟨rfl, elementAt⟩
      refine (below.expr formedKey (by omega)).bind ?_
      rintro keyExpr ⟨rfl, keyAt⟩
      exact .pure ⟨rfl, ⟨kindEq, children⟩, elementAt, keyAt⟩

theorem readConclusion_gives (below : Reads tree damaged levels)
    (formed : tree.FormedAt damaged height .conclusion (.node id))
    (enough : 2 * height ≤ levels + 1) :
    (readConclusion tree (levels + 1) id).Gives fun conclusion =>
      conclusion.nodes = [id] ∧ conclusion.At tree damaged := by
  rcases formed.parts with ⟨lower, kind, roles, rfl, kindEq, production, parts⟩
  rw [readConclusion]
  refine (Site.ofNode_gives kindEq).bind ?_
  rintro site rfl
  cases production
  rcases parts.oneNode rfl with ⟨body, children, formedBody⟩
  rcases parts.requireToken .yieldKeyword (by simp) with ⟨yieldKeyword, yieldEq⟩
  rcases parts.requireToken .intoKeyword (by simp) with ⟨intoKeyword, intoEq⟩
  rcases parts.requireToken .doKeyword (by simp) with ⟨doKeyword, doEq⟩
  rcases parts.declares (by simp) with ⟨tokenId, tokenEq, declaresGives⟩
  have bodyEq := requireChild_eq_ok 0 children rfl
  simp only [QueryConclusionView.read, yieldEq, intoEq, tokenEq, doEq, bodyEq, Checked.ok_bind,
    pure_bind]
  refine (below.root formedBody (by omega)).bind ?_
  rintro root ⟨rfl, isAt⟩
  refine declaresGives.bind fun identifier declares => ?_
  exact .pure ⟨rfl, ⟨kindEq, children⟩, declares, isAt⟩

/-- The children of a query body, each in the role that its production gives it. -/
structure SyntaxTree.BodyAt (tree : SyntaxTree) (damaged : Prop) (height : Nat)
    (view : QueryBodyView) : Prop where
  branch : tree.BranchAt view.node .queryBody
    (view.clauses ++ (view.selectOrGroup.toList ++ view.conclusion.toList))
  clauses : ∀ id ∈ view.clauses, tree.FormedAt damaged height .clause (.node id)
  ending : ∃ id, view.selectOrGroup = some id ∧ tree.FormedAt damaged height .ending (.node id)
  conclusion : ∀ id ∈ view.conclusion, tree.FormedAt damaged height .conclusion (.node id)

namespace QueryBodyView

variable {view : QueryBodyView}

theorem addChild_clause (formed : tree.FormedAt damaged height .clause (.node id)) :
    addChild tree view id = .ok { view with clauses := view.clauses ++ [id] } := by
  rcases formed.parts with ⟨lower, kind, roles, rfl, kindEq, production, parts⟩
  rw [addChild, kindEq]
  cases production with
  | ofFromClause production => cases production; rfl
  | whereClause => rfl
  | letClause => rfl

theorem addChild_ending (formed : tree.FormedAt damaged height .ending (.node id)) :
    addChild tree view id = .ok { view with selectOrGroup := some id } := by
  rcases formed.parts with ⟨lower, kind, roles, rfl, kindEq, production, parts⟩
  rw [addChild, kindEq]
  cases production <;> rfl

theorem addChild_conclusion (formed : tree.FormedAt damaged height .conclusion (.node id)) :
    addChild tree view id = .ok { view with conclusion := some id } := by
  rcases formed.parts with ⟨lower, kind, roles, rfl, kindEq, production, parts⟩
  rw [addChild, kindEq]
  cases production
  rfl

theorem addChild_clauses {ids : List NodeId}
    (formed : ∀ id ∈ ids, tree.FormedAt damaged height .clause (.node id)) :
    ids.foldlM (addChild tree) view = .ok { view with clauses := view.clauses ++ ids } := by
  induction ids generalizing view with
  | nil => simp [pure, Except.pure]
  | cons id rest ih =>
      rw [List.forall_mem_cons] at formed
      rw [List.foldlM_cons, addChild_clause formed.1, Checked.ok_bind, ih formed.2]
      simp

/-- A query body can be seen through its view. -/
theorem read_gives (formed : tree.FormedAt damaged height .queryBody (.node id)) :
    ∃ lower, height = lower + 1 ∧ (QueryBodyView.read tree id).Gives fun view =>
      view.node = id ∧ tree.BodyAt damaged lower view := by
  rcases formed.parts with ⟨lower, kind, roles, rfl, kindEq, production, parts⟩
  rcases parts.childNodes with ⟨ids, idsEq, formed⟩
  refine ⟨lower, rfl, ?_⟩
  have clausesOf (count : Nat) : (List.replicate count Role.clause).filter Role.isNode =
      List.replicate count .clause := by
    rw [List.filter_replicate]
    rfl
  rw [QueryBodyView.read, idsEq, Checked.ok_bind]
  cases production with
  | queryBody count =>
      rw [List.filter_append, clausesOf] at formed
      rcases forall₂_append formed with ⟨clauses, last, rfl, formedClauses, formedLast⟩
      have allClauses := forall_of_forall₂ formedClauses fun _ => List.eq_of_mem_replicate
      cases formedLast with
      | cons ending rest =>
          cases rest
          rw [List.foldlM_append, addChild_clauses allClauses, Checked.ok_bind, List.foldlM_cons,
            addChild_ending ending]
          exact .pure ⟨rfl, ⟨kindEq, idsEq⟩, allClauses, ⟨_, rfl, ending⟩, by simp⟩
  | concludedBody count =>
      rw [List.filter_append, clausesOf] at formed
      rcases forall₂_append formed with ⟨clauses, last, rfl, formedClauses, formedLast⟩
      have allClauses := forall_of_forall₂ formedClauses fun _ => List.eq_of_mem_replicate
      cases formedLast with
      | cons ending rest =>
          cases rest with
          | cons conclusion rest =>
              cases rest
              rw [List.foldlM_append, addChild_clauses allClauses, Checked.ok_bind,
                List.foldlM_cons, addChild_ending ending, Checked.ok_bind, List.foldlM_cons,
                addChild_conclusion conclusion]
              exact .pure ⟨rfl, ⟨kindEq, idsEq⟩, allClauses, ⟨_, rfl, ending⟩,
                by simpa using conclusion⟩

end QueryBodyView

theorem Clause.allAt_of_forall₂ {ids : List NodeId} {clauses : List Clause}
    (read : List.Forall₂ (fun id clause => clause.node = id ∧ clause.At tree damaged)
      ids clauses) :
    clauses.map Clause.node = ids ∧ Clause.AllAt tree damaged clauses := by
  induction read with
  | nil => exact ⟨rfl, trivial⟩
  | cons first _ ih =>
      rcases first with ⟨rfl, isAt⟩
      exact ⟨by rw [List.map_cons, ih.1], isAt, ih.2⟩

theorem readQuery_gives (below : Reads tree damaged levels) {site : Site}
    (kindEq : tree.kind site.node = .ok .queryExpression)
    (parts : tree.PartsAt damaged height site.node [.fromClause, .queryBody])
    (enough : 2 * height < levels + 1) :
    (readQuery tree (levels + 1) site).Gives fun expr =>
      expr.site = site ∧ expr.At tree damaged := by
  rcases parts.twoNodes rfl with ⟨fromClause, body, children, formedFrom, formedBody⟩
  have fromEq := requireChild_eq_ok 0 children rfl
  have bodyEq := requireChild_eq_ok 1 children rfl
  simp only [readQuery, QueryView.read, fromEq, bodyEq, Checked.ok_bind, pure_bind]
  rcases QueryBodyView.read_gives formedBody with ⟨lower, rfl, bodyGives⟩
  refine bodyGives.bind ?_
  rintro view ⟨rfl, bodyAt⟩
  rcases bodyAt.ending with ⟨endingId, endingEq, formedEnding⟩
  have clausesGive : ((fromClause :: view.clauses).mapM (readClause tree levels)).Gives
      fun clauses => clauses.map Clause.node = fromClause :: view.clauses ∧
        Clause.AllAt tree damaged clauses := by
    refine Checked.Gives.mono (.mapM fun clauseId member => ?_) fun _ => Clause.allAt_of_forall₂
    rcases List.mem_cons.mp member with rfl | member
    · exact below.clause (formedFrom.recast .ofFromClause) (by omega)
    · exact below.clause (bodyAt.clauses clauseId member) (by omega)
  rcases bodyAt.ending with ⟨endingId, endingEq, formedEnding⟩
  have isQuery {clauses : List Clause} {ending : QueryEnding} {conclusion : Conclusion}
      (nodes : clauses.map Clause.node = fromClause :: view.clauses)
      (clausesAt : Clause.AllAt tree damaged clauses) (endingNodes : ending.nodes = [endingId])
      (endingAt : ending.At tree damaged)
      (conclusionNodes : conclusion.nodes = view.conclusion.toList)
      (conclusionAt : conclusion.At tree damaged) :
      (Expr.query site clauses ending conclusion).At tree damaged := by
    cases clauses with
    | nil => cases nodes
    | cons first rest =>
        rw [List.map_cons, List.cons.injEq] at nodes
        rcases nodes with ⟨rfl, restNodes⟩
        refine ⟨first, rest, view.node, rfl, ⟨kindEq, children⟩, ?_, clausesAt, endingAt,
          conclusionAt⟩
        have branch := bodyAt.branch
        rw [endingEq] at branch
        rw [restNodes, endingNodes, conclusionNodes]
        exact branch
  simp only [endingEq]
  refine clausesGive.bind ?_
  rintro clauses ⟨nodes, clausesAt⟩
  refine (below.ending formedEnding (by omega)).bind ?_
  rintro ending ⟨endingNodes, endingAt⟩
  cases conclusionEq : view.conclusion with
  | none =>
      refine .pure ⟨rfl, isQuery nodes clausesAt endingNodes endingAt ?_ trivial⟩
      rw [conclusionEq]
      rfl
  | some conclusionId =>
      refine (below.conclusion (bodyAt.conclusion _ conclusionEq) (by omega)).bind ?_
      rintro conclusion ⟨conclusionNodes, conclusionAt⟩
      refine .pure ⟨rfl, isQuery nodes clausesAt endingNodes endingAt ?_ conclusionAt⟩
      rw [conclusionEq, conclusionNodes]
      rfl

/-! ### Root expressions -/

theorem SyntaxTree.WellFormed.firstToken?_gives (wellFormed : tree.WellFormed damaged)
    (kindEq : tree.kind id = .ok kind) : (tree.firstToken? id).Gives tree.HasToken := by
  rcases node_eq_ok kindEq with ⟨node, found, nodeEq, _⟩
  rw [SyntaxTree.firstToken?, nodeEq, Checked.ok_bind]
  exact firstRealToken?_gives (wellFormed.node_tokens found)

theorem SyntaxTree.tokenLocation_gives (inRange : id < tree.tokens.size) :
    (tree.tokenLocation id).Gives fun _ => True := by
  rcases token_eq_ok inRange with ⟨token, _, tokenEq⟩
  rw [SyntaxTree.tokenLocation, tokenEq]
  exact .pure trivial

theorem Production.isExpression {role : Role} {kind : Kind} {roles : List Role}
    (production : Production damaged role kind roles)
    (isRole : role = .name ∨ role = .primary ∨ role = .operand ∨ role = .expression) :
    kind.isExpression = true := by
  induction production with
  | literal isLiteral => exact Kind.isExpression_of_literalToken? isLiteral
  | ofName _ ih | ofPrimary _ ih | ofOperand _ ih => exact ih (by simp)
  | name | parenthesized | query | memberAccess | invocation | binary => rfl
  | _ => simp at isRole

theorem SyntaxTree.ne_nil_of_exceedsDepth {limit : Nat} {children : List NodeId}
    (isDeep : tree.exceedsDepth id limit = true) (childrenEq : tree.childNodes id = .ok children) :
    children ≠ [] := by
  rintro rfl
  rw [SyntaxTree.exceedsDepth, SyntaxTree.reachesDown, childrenEq] at isDeep
  cases isDeep

theorem readRoot_gives (wellFormed : tree.WellFormed damaged) (below : Reads tree damaged levels)
    (formed : tree.FormedAt damaged height .expression (.node id))
    (enough : 2 * height < levels + 1) :
    (readRoot tree (levels + 1) id).Gives fun root =>
      root.site.node = id ∧ root.At tree damaged := by
  rcases formed.parts with ⟨lower, kind, roles, _, kindEq, production, parts⟩
  rw [readRoot]
  split
  · next isDeep =>
      have moreThanName : kind ≠ .identifierName := by
        intro isName
        cases production.roles_of_identifierName isName
        exact SyntaxTree.ne_nil_of_exceedsDepth isDeep (parts.noNodes rfl) rfl
      refine (Site.ofNode_gives kindEq).bind ?_
      rintro site rfl
      have isAt (reported : Location) : (RootExpr.tooDeep site reported).At tree damaged :=
        ⟨isDeep, kind, kindEq, production.isExpression (by simp), moreThanName⟩
      refine (wellFormed.firstToken?_gives kindEq).bind fun found inRange => ?_
      cases found with
      | none => exact .pure ⟨rfl, isAt _⟩
      | some token =>
          refine (tokenLocation_gives (inRange token rfl)).bind fun location _ => ?_
          exact .pure ⟨rfl, isAt _⟩
  · refine (below.expr formed (by omega)).bind ?_
    rintro expr ⟨rfl, isAt⟩
    exact .pure ⟨rfl, isAt⟩

/-- However many levels there are, they are enough for twice as many nodes. -/
theorem reads (wellFormed : tree.WellFormed damaged) (levels : Nat) :
    Reads tree damaged levels := by
  induction levels with
  | zero =>
      exact {
        expr := by
          intro height id formed enough
          rcases formed.parts with ⟨lower, _, _, rfl, _⟩
          omega
        call := by intros; omega
        query := by intros; omega
        clause := by
          intro height id formed enough
          rcases formed.parts with ⟨lower, _, _, rfl, _⟩
          omega
        ending := by
          intro height id formed enough
          rcases formed.parts with ⟨lower, _, _, rfl, _⟩
          omega
        conclusion := by
          intro height id formed enough
          rcases formed.parts with ⟨lower, _, _, rfl, _⟩
          omega
        root := by intros; omega }
  | succ levels below =>
      exact {
        expr := readExpr_gives wellFormed below
        call := readCall_gives wellFormed below
        query := readQuery_gives below
        clause := readClause_gives below
        ending := readEnding_gives below
        conclusion := readConclusion_gives below
        root := readRoot_gives wellFormed below }

/-- The expression of a statement can be read. -/
theorem RootExpr.ofNode_gives (wellFormed : tree.WellFormed damaged)
    (formed : tree.FormedAt damaged height .expression (.node id))
    (bound : height ≤ tree.nodes.size) :
    (RootExpr.ofNode tree id).Gives fun root => root.site.node = id ∧ root.At tree damaged := by
  refine (reads wellFormed (readingLevels tree)).root formed ?_
  rw [readingLevels]
  omega

/-! ### Statements -/

theorem Role.IsContent.eq_statement {role : Role} (content : role.IsContent damaged)
    (isNode : role.isNode = true) : role = .statement := by
  rcases content with isStatement | ⟨_, kind, rfl⟩
  · exact isStatement
  · cases isNode

theorem Statement.allAt_of_forall₂ {ids : List NodeId} {statements : List Statement}
    (read : List.Forall₂ (fun id (statement : Statement) =>
      statement.site.node = id ∧ statement.At tree damaged) ids statements) :
    statements.map (fun statement => statement.site.node) = ids ∧
      Statement.AllAt tree damaged statements := by
  induction read with
  | nil => exact ⟨rfl, trivial⟩
  | cons first _ ih =>
      rcases first with ⟨rfl, isAt⟩
      exact ⟨by rw [List.map_cons, ih.1], isAt, ih.2⟩

/-- A list of statements is what the tree says below its node. -/
structure StatementList.At (tree : SyntaxTree) (damaged : Prop) (kind : Kind)
    (list : StatementList) : Prop where
  branch : tree.BranchAt list.site.node kind
    (list.statements.map fun statement => statement.site.node)
  statements : Statement.AllAt tree damaged list.statements

/-- What so many levels are enough for among statements. -/
structure ReadsStatements (tree : SyntaxTree) (damaged : Prop) (levels : Nat) : Prop where
  statement : ∀ {height id : Nat}, tree.FormedAt damaged height .statement (.node id) →
    height ≤ tree.nodes.size → 2 * height ≤ levels →
    (readStatement tree levels id).Gives fun statement =>
      statement.site.node = id ∧ statement.At tree damaged
  block : ∀ {height id : Nat}, tree.FormedAt damaged height .block (.node id) →
    height ≤ tree.nodes.size → 2 * height ≤ levels + 1 →
    (readBlock tree levels id).Gives fun block =>
      block.site.node = id ∧ block.At tree damaged .block

theorem readBlock_gives (below : ReadsStatements tree damaged levels)
    (formed : tree.FormedAt damaged height .block (.node id)) (bound : height ≤ tree.nodes.size)
    (enough : 2 * height ≤ levels + 2) :
    (readBlock tree (levels + 1) id).Gives fun block =>
      block.site.node = id ∧ block.At tree damaged .block := by
  rcases formed.parts with ⟨lower, kind, roles, rfl, kindEq, production, parts⟩
  cases production with
  | @block content allowed =>
      have onlyStatements : ∀ role ∈ Role.leaf .openBraceToken ::
          (content ++ [.leaf .closeBraceToken]), role.isNode = true → role = .statement := by
        simp only [List.forall_mem_cons, List.forall_mem_append]
        refine ⟨fun isNode => ?_, fun role member => (allowed role member).eq_statement, ?_, ?_⟩
        · cases isNode
        · intro isNode
          cases isNode
        · simp
      rcases parts.manyNodes onlyStatements with ⟨ids, idsEq, formedAll⟩
      rcases parts.requireToken .openBraceToken (by simp) with ⟨openBrace, openEq⟩
      rcases parts.requireToken .closeBraceToken (by simp) with ⟨closeBrace, closeEq⟩
      rw [readBlock]
      refine (Site.ofNode_gives kindEq).bind ?_
      rintro site rfl
      simp only [BlockView.read, openEq, idsEq, closeEq, Checked.ok_bind, pure_bind]
      refine Checked.Gives.bind (.mapM fun childId member =>
        below.statement (formedAll childId member) (by omega) (by omega)) ?_
      intro statements read
      rcases Statement.allAt_of_forall₂ read with ⟨sites, areAt⟩
      exact .pure ⟨rfl, ⟨kindEq, by rw [sites, idsEq]⟩, areAt⟩

theorem ReturnStatementView.read_eq_ok {ids : List NodeId} (kindEq : tree.kind id = .ok kind)
    (parts : tree.PartsAt damaged height id roles) (children : tree.childNodes id = .ok ids)
    (called : Role.leaf (if kind = .yieldBreakStatement then .breakKeyword else .returnKeyword) ∈
      roles) :
    ∃ yieldKeyword keyword,
      ReturnStatementView.read tree id = .ok ⟨id, yieldKeyword, keyword, ids[0]?⟩ := by
  rcases parts.childTokens with ⟨tokens, tokensEq, _⟩
  rcases parts.requireToken _ called with ⟨keyword, keywordEq⟩
  refine ⟨tokens.find? (tree.tokenHasKind .yieldKeyword), keyword, ?_⟩
  simp only [ReturnStatementView.read, kindEq, keywordEq, SyntaxTree.childToken?, tokensEq,
    SyntaxTree.childNode?, children, Checked.ok_bind, pure_bind]
  rfl

theorem readStatement_gives (wellFormed : tree.WellFormed damaged)
    (below : ReadsStatements tree damaged levels)
    (formed : tree.FormedAt damaged height .statement (.node id))
    (bound : height ≤ tree.nodes.size) (enough : 2 * height ≤ levels + 1) :
    (readStatement tree (levels + 1) id).Gives fun statement =>
      statement.site.node = id ∧ statement.At tree damaged := by
  rcases formed.parts with ⟨lower, kind, roles, rfl, kindEq, production, parts⟩
  rw [readStatement, kindEq, Checked.ok_bind]
  refine (Site.ofNode_gives kindEq).bind ?_
  rintro site rfl
  cases production with
  | ofBlock production =>
      have isBlock : kind = .block := by cases production; rfl
      subst isBlock
      have formedBlock : tree.FormedAt damaged (lower + 1) .block (.node site.node) := by
        rcases parts with ⟨node, found, children⟩
        have kindIs : node.kind = .block := Except.ok.inj ((kind_eq_ok found).symm.trans kindEq)
        exact ⟨node, roles, found, kindIs ▸ production, children⟩
      refine (below.block formedBlock bound (by omega)).bind ?_
      rintro ⟨blockSite, statements⟩ ⟨sameNode, blockAt⟩
      refine .pure ⟨rfl, ?_, blockAt.statements⟩
      rw [← sameNode]
      exact blockAt.branch
  | localDeclaration =>
      rcases parts.oneNode rfl with ⟨initializer, children, formedInitializer⟩
      rcases parts.declares (by simp) with ⟨tokenId, tokenEq, declaresGives⟩
      rcases parts.requireToken .semicolonToken (by simp) with ⟨semicolon, semicolonEq⟩
      have initializerEq := requireChild_eq_ok 0 children rfl
      simp only [LocalDeclarationView.read, tokenEq, initializerEq, semicolonEq, Checked.ok_bind,
        pure_bind]
      refine (RootExpr.ofNode_gives wellFormed formedInitializer (by omega)).bind ?_
      rintro root ⟨rfl, isAt⟩
      refine declaresGives.bind fun identifier declares => ?_
      exact .pure ⟨rfl, ⟨kindEq, children⟩, declares, isAt⟩
  | returnNothing =>
      have children := parts.noNodes rfl
      rcases ReturnStatementView.read_eq_ok kindEq parts children (by simp) with
        ⟨yieldKeyword, keyword, viewEq⟩
      simp only [viewEq, Checked.ok_bind]
      exact .pure ⟨rfl, kindEq, children⟩
  | returnValue =>
      rcases parts.oneNode rfl with ⟨value, children, formedValue⟩
      rcases ReturnStatementView.read_eq_ok kindEq parts children (by simp) with
        ⟨yieldKeyword, keyword, viewEq⟩
      simp only [viewEq, Checked.ok_bind]
      refine Checked.Gives.bind (.mapM_some (RootExpr.ofNode_gives wellFormed formedValue
        (by omega))) ?_
      rintro _ ⟨root, rfl, rfl, isAt⟩
      exact .pure ⟨rfl, ⟨kindEq, children⟩, isAt⟩
  | yieldReturn =>
      rcases parts.oneNode rfl with ⟨value, children, formedValue⟩
      rcases ReturnStatementView.read_eq_ok kindEq parts children (by simp) with
        ⟨yieldKeyword, keyword, viewEq⟩
      simp only [viewEq, Checked.ok_bind]
      refine Checked.Gives.bind (.mapM_some (RootExpr.ofNode_gives wellFormed formedValue
        (by omega))) ?_
      rintro _ ⟨root, rfl, rfl, isAt⟩
      exact .pure ⟨rfl, ⟨kindEq, children⟩, isAt⟩
  | yieldBreak => exact .pure ⟨rfl, kindEq, parts.noNodes rfl⟩
  | doStatement =>
      rcases parts.twoNodes rfl with ⟨body, condition, children, formedBody, formedCondition⟩
      rcases parts.requireToken .doKeyword (by simp) with ⟨doKeyword, doEq⟩
      have bodyEq := requireChild_eq_ok 0 children rfl
      have conditionEq := requireChild_eq_ok 1 children rfl
      simp only [DoStatementView.read, doEq, bodyEq, conditionEq, Checked.ok_bind, pure_bind]
      refine (below.block formedBody (by omega) (by omega)).bind ?_
      rintro block ⟨rfl, blockAt⟩
      refine (RootExpr.ofNode_gives wellFormed formedCondition (by omega)).bind ?_
      rintro root ⟨rfl, isAt⟩
      exact .pure ⟨rfl, ⟨kindEq, children⟩, blockAt.branch, blockAt.statements, isAt⟩
  | expressionStatement =>
      rcases parts.oneNode rfl with ⟨value, children, formedValue⟩
      have valueEq := requireChild_eq_ok 0 children rfl
      simp only [WrappedExpressionView.read, valueEq, Checked.ok_bind, pure_bind]
      refine (RootExpr.ofNode_gives wellFormed formedValue (by omega)).bind ?_
      rintro root ⟨rfl, isAt⟩
      exact .pure ⟨rfl, ⟨kindEq, children⟩, isAt⟩

theorem readsStatements (wellFormed : tree.WellFormed damaged) (levels : Nat) :
    ReadsStatements tree damaged levels := by
  induction levels with
  | zero =>
      refine ⟨fun formed _ _ => ?_, fun formed _ _ => ?_⟩
      · rcases formed.parts with ⟨lower, _, _, rfl, _⟩
        omega
      · rcases formed.parts with ⟨lower, _, _, rfl, _⟩
        omega
  | succ levels below =>
      exact ⟨readStatement_gives wellFormed below, readBlock_gives below⟩

/-- A whole file can be read, and its program is what its tree says. -/
theorem StatementList.ofTree_gives (wellFormed : tree.WellFormed damaged) :
    (StatementList.ofTree tree).Gives fun list =>
      list.site.node = root ∧ list.At tree damaged .compilationUnit := by
  rcases wellFormed.root_formed.parts with
    ⟨lower, kind, roles, heightEq, kindEq, production, parts⟩
  cases production with
  | @file content allowed =>
      have onlyStatements : ∀ role ∈ content ++ [Role.leaf .endOfFileToken],
          role.isNode = true → role = .statement := by
        simp only [List.forall_mem_append]
        exact ⟨fun role member => (allowed role member).eq_statement, by simp [Role.isNode,
          Role.leafKind?]⟩
      rcases parts.manyNodes onlyStatements with ⟨ids, idsEq, formedAll⟩
      rw [StatementList.ofTree]
      refine (Site.ofNode_gives kindEq).bind fun site sameNode => ?_
      simp only [CompilationUnitView.read, idsEq, Checked.ok_bind, pure_bind]
      refine Checked.Gives.bind (.mapM fun childId member =>
        (readsStatements wellFormed (readingLevels tree)).statement (formedAll childId member)
          (by omega) (by rw [readingLevels]; omega)) ?_
      intro statements read
      rcases Statement.allAt_of_forall₂ read with ⟨sites, areAt⟩
      refine .pure ⟨sameNode, ⟨?_, ?_⟩, areAt⟩
      · rw [sameNode]
        exact kindEq
      · rw [sameNode, sites]
        exact idsEq

end QueryLang
