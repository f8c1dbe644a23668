import QueryLang.Proofs.Checked
import QueryLang.Program.Reading

/-!
# Programs and their places

Whatever is read from a tree has the places of its nodes and tokens: the sites of all parts, their
identifiers and operators, and the places where nesting that is too deep is reported. What these
places are is left open, so that it can be their file as well as where they lie in its text.
-/

namespace QueryLang

/-- The site has one of the places. -/
def Site.Placed (site : Site) (places : Location → Prop) : Prop := places site.location

/-- The identifier has one of the places. -/
def Identifier.Placed (identifier : Identifier) (places : Location → Prop) : Prop :=
  places identifier.location

/-- The operator has one of the places. -/
def Operator.Placed (operator : Operator) (places : Location → Prop) : Prop :=
  places operator.location

/-- The nodes and the tokens of a tree have such places. -/
structure SyntaxTree.Placed (tree : SyntaxTree) (places : Location → Prop) : Prop where
  node : ∀ {id : NodeId} {span}, tree.span id = .ok span → places (tree.location span)
  token : ∀ {id : TokenId} {token}, tree.token id = .ok token → places (tree.location token.span)

mutual

/-- All places of an expression are such places. -/
def Expr.Placed (places : Location → Prop) : Expr → Prop
  | .name site identifier => site.Placed places ∧ identifier.Placed places
  | .literal site _ => site.Placed places
  | .parenthesized site inner => site.Placed places ∧ inner.Placed places
  | .memberAccess site receiver member =>
    site.Placed places ∧ receiver.Placed places ∧ member.Placed places
  | .memberCall site receiver member arguments =>
    site.Placed places ∧ receiver.Placed places ∧ member.Placed places ∧
      Expr.AllPlaced places arguments
  | .namedCall site callee arguments =>
    site.Placed places ∧ callee.Placed places ∧ Expr.AllPlaced places arguments
  | .valueCall site callee _ arguments =>
    site.Placed places ∧ callee.Placed places ∧ Expr.AllPlaced places arguments
  | .binary site operator left right =>
    site.Placed places ∧ operator.Placed places ∧ left.Placed places ∧ right.Placed places
  | .query site clauses ending conclusion =>
    site.Placed places ∧ Clause.AllPlaced places clauses ∧ ending.Placed places ∧
      conclusion.Placed places

/-- All places of some expressions are such places. -/
def Expr.AllPlaced (places : Location → Prop) : List Expr → Prop
  | [] => True
  | expr :: rest => expr.Placed places ∧ Expr.AllPlaced places rest

/-- All places of a clause are such places. -/
def Clause.Placed (places : Location → Prop) : Clause → Prop
  | .fromClause site identifier inner | .letClause site identifier inner =>
    site.Placed places ∧ identifier.Placed places ∧ inner.Placed places
  | .whereClause site condition => site.Placed places ∧ condition.Placed places

/-- All places of some clauses are such places. -/
def Clause.AllPlaced (places : Location → Prop) : List Clause → Prop
  | [] => True
  | clause :: rest => clause.Placed places ∧ Clause.AllPlaced places rest

/-- All places of the last clause of a query are such places. -/
def QueryEnding.Placed (places : Location → Prop) : QueryEnding → Prop
  | .absent => True
  | .selectClause site selected => site.Placed places ∧ selected.Placed places
  | .groupClause site element key => site.Placed places ∧ element.Placed places ∧ key.Placed places

/-- All places of a conclusion are such places. -/
def Conclusion.Placed (places : Location → Prop) : Conclusion → Prop
  | .absent => True
  | .present site identifier body =>
    site.Placed places ∧ identifier.Placed places ∧ body.Placed places

/-- All places of a root expression are such places. -/
def RootExpr.Placed (places : Location → Prop) : RootExpr → Prop
  | .tooDeep site reported => site.Placed places ∧ places reported
  | .expression expr => expr.Placed places

end

mutual

/-- All places of a statement are such places. -/
def Statement.Placed (places : Location → Prop) : Statement → Prop
  | .localDeclaration site identifier value =>
    site.Placed places ∧ identifier.Placed places ∧ value.Placed places
  | .expression site value | .returnValue site (some value) | .yieldReturn site (some value) =>
    site.Placed places ∧ value.Placed places
  | .returnValue site none | .yieldReturn site none | .yieldBreak site => site.Placed places
  | .doWhile site bodySite body condition =>
    site.Placed places ∧ bodySite.Placed places ∧ Statement.AllPlaced places body ∧
      condition.Placed places
  | .block site statements => site.Placed places ∧ Statement.AllPlaced places statements

/-- All places of some statements are such places. -/
def Statement.AllPlaced (places : Location → Prop) : List Statement → Prop
  | [] => True
  | statement :: rest => statement.Placed places ∧ Statement.AllPlaced places rest

end

variable {places : Location → Prop}

theorem Expr.Placed.site {expr : Expr} (placed : expr.Placed places) : expr.site.Placed places := by
  cases expr with
  | literal site value => exact placed
  | name | parenthesized | memberAccess | memberCall | namedCall | valueCall | binary | query =>
      exact placed.1

theorem Expr.innerSite_placed (expr : Expr) (placed : expr.Placed places) :
    expr.innerSite.Placed places :=
  match expr with
  | .parenthesized _ inner => inner.innerSite_placed placed.2
  | .name _ _ | .literal _ _ | .memberAccess _ _ _ | .memberCall _ _ _ _ | .namedCall _ _ _
  | .valueCall _ _ _ _ | .binary _ _ _ _ | .query _ _ _ _ => Expr.Placed.site placed

theorem Statement.Placed.site {statement : Statement} (placed : statement.Placed places) :
    statement.site.Placed places := by
  cases statement with
  | yieldBreak site => exact placed
  | returnValue site value | yieldReturn site value =>
      cases value with
      | none => exact placed
      | some value => exact placed.1
  | localDeclaration | expression | doWhile | block => exact placed.1

theorem Expr.allPlaced_of_forall {exprs : List Expr} (placed : ∀ expr ∈ exprs, expr.Placed places) :
    Expr.AllPlaced places exprs := by
  induction exprs with
  | nil => trivial
  | cons expr rest ih =>
      rw [List.forall_mem_cons] at placed
      exact ⟨placed.1, ih placed.2⟩

theorem Clause.allPlaced_of_forall {clauses : List Clause}
    (placed : ∀ clause ∈ clauses, clause.Placed places) : Clause.AllPlaced places clauses := by
  induction clauses with
  | nil => trivial
  | cons clause rest ih =>
      rw [List.forall_mem_cons] at placed
      exact ⟨placed.1, ih placed.2⟩

theorem Statement.allPlaced_of_forall {statements : List Statement}
    (placed : ∀ statement ∈ statements, statement.Placed places) :
    Statement.AllPlaced places statements := by
  induction statements with
  | nil => trivial
  | cons statement rest ih =>
      rw [List.forall_mem_cons] at placed
      exact ⟨placed.1, ih placed.2⟩

/-! ### Reading -/

variable {tree : SyntaxTree} {levels : Nat}

section

variable (arePlaces : tree.Placed places)

include arePlaces

theorem Site.ofNode_placed (node : NodeId) :
    (Site.ofNode tree node).Yields (Site.Placed · places) :=
  Checked.Yields.bind (fun _ isSpan => arePlaces.node isSpan) fun _ isPlace => .pure isPlace

theorem Identifier.ofToken_placed (id : TokenId) :
    (Identifier.ofToken tree id).Yields (Identifier.Placed · places) :=
  Checked.Yields.bind (fun _ isToken => arePlaces.token isToken) fun _ isPlace => .pure isPlace

theorem SyntaxTree.tokenLocation_placed (id : TokenId) :
    (tree.tokenLocation id).Yields places :=
  Checked.Yields.bind (fun _ isToken => arePlaces.token isToken) fun _ isPlace => .pure isPlace

theorem Identifier.ofNode_placed (node : NodeId) :
    (Identifier.ofNode tree node).Yields (Identifier.Placed · places) :=
  .next fun view => ofToken_placed arePlaces view.identifier

end

/-- What is read with so many levels has such places. -/
structure ReadsPlaced (places : Location → Prop) (tree : SyntaxTree) (levels : Nat) : Prop where
  expr : ∀ node, (readExpr tree levels node).Yields (Expr.Placed places)
  call : ∀ site : Site, site.Placed places →
    (readCall tree levels site).Yields (Expr.Placed places)
  query : ∀ site : Site, site.Placed places →
    (readQuery tree levels site).Yields (Expr.Placed places)
  clause : ∀ node, (readClause tree levels node).Yields (Clause.Placed places)
  ending : ∀ node, (readEnding tree levels node).Yields (QueryEnding.Placed places)
  conclusion : ∀ node, (readConclusion tree levels node).Yields (Conclusion.Placed places)
  root : ∀ node, (readRoot tree levels node).Yields (RootExpr.Placed places)

section

variable (arePlaces : tree.Placed places) (reads : ReadsPlaced places tree levels)

include arePlaces reads

omit arePlaces in
theorem readExprs_placed (nodes : List NodeId) :
    (nodes.mapM (readExpr tree levels)).Yields (Expr.AllPlaced places) :=
  (Checked.Yields.mapM reads.expr).mono fun _ => Expr.allPlaced_of_forall

theorem readExpr_placed (node : NodeId) :
    (readExpr tree (levels + 1) node).Yields (Expr.Placed places) := by
  rw [readExpr]
  refine .next fun kind => ?_
  refine (Site.ofNode_placed arePlaces node).bind fun site siteIn => ?_
  split
  · exact (Identifier.ofNode_placed arePlaces node).bind fun identifier isIn => .pure ⟨siteIn, isIn⟩
  · exact .next fun value => .pure siteIn
  · exact .next fun value => .pure siteIn
  · exact .next fun value => .pure siteIn
  · exact .next fun value => .pure siteIn
  · refine .next fun view => ?_
    exact (reads.expr view.expression).bind fun inner innerIn => .pure ⟨siteIn, innerIn⟩
  · refine .next fun view => ?_
    refine (reads.expr view.expression).bind fun receiver receiverIn => ?_
    exact (Identifier.ofNode_placed arePlaces view.name).bind fun member memberIn =>
      .pure ⟨siteIn, receiverIn, memberIn⟩
  · exact reads.call site siteIn
  · refine .next fun view => ?_
    refine (reads.expr view.left).bind fun left leftIn => ?_
    refine (reads.expr view.right).bind fun right rightIn => ?_
    exact Checked.Yields.bind (fun _ isToken => arePlaces.token isToken) fun token isPlace =>
      .pure ⟨siteIn, isPlace, leftIn, rightIn⟩
  · exact reads.query site siteIn
  · exact .error _

theorem readCall_placed (site : Site) (siteIn : site.Placed places) :
    (readCall tree (levels + 1) site).Yields (Expr.Placed places) := by
  rw [readCall]
  refine .next fun view => .next fun kind => ?_
  split
  · refine .next fun access => ?_
    refine (reads.expr access.expression).bind fun receiver receiverIn => ?_
    refine (readExprs_placed reads view.arguments).bind fun arguments argumentsIn => ?_
    exact (Identifier.ofNode_placed arePlaces access.name).bind fun member memberIn =>
      .pure ⟨siteIn, receiverIn, memberIn, argumentsIn⟩
  · refine (readExprs_placed reads view.arguments).bind fun arguments argumentsIn => ?_
    exact (Identifier.ofNode_placed arePlaces view.expression).bind fun callee calleeIn =>
      .pure ⟨siteIn, calleeIn, argumentsIn⟩
  · refine (reads.expr view.expression).bind fun callee calleeIn => ?_
    refine (readExprs_placed reads view.arguments).bind fun arguments argumentsIn => ?_
    exact .next fun text => .pure ⟨siteIn, calleeIn, argumentsIn⟩

omit arePlaces in
theorem readQuery_placed (site : Site) (siteIn : site.Placed places) :
    (readQuery tree (levels + 1) site).Yields (Expr.Placed places) := by
  rw [readQuery]
  refine .next fun view => .next fun body => ?_
  refine (Checked.Yields.mapM reads.clause).bind fun clauses clausesIn => ?_
  have allIn := Clause.allPlaced_of_forall clausesIn
  dsimp only
  split
  · next clause _ =>
      refine (reads.ending clause).bind fun ending endingIn => ?_
      split
      · next last _ =>
          exact (reads.conclusion last).bind fun conclusion conclusionIn =>
            .pure ⟨siteIn, allIn, endingIn, conclusionIn⟩
      · exact .pure ⟨siteIn, allIn, endingIn, trivial⟩
  · split
    · next last _ =>
        exact (reads.conclusion last).bind fun conclusion conclusionIn =>
          .pure ⟨siteIn, allIn, trivial, conclusionIn⟩
    · exact .pure ⟨siteIn, allIn, trivial, trivial⟩

theorem readClause_placed (node : NodeId) :
    (readClause tree (levels + 1) node).Yields (Clause.Placed places) := by
  rw [readClause]
  refine .next fun kind => ?_
  refine (Site.ofNode_placed arePlaces node).bind fun site siteIn => ?_
  split
  · refine .next fun view => ?_
    refine (reads.expr view.expression).bind fun source sourceIn => ?_
    exact (Identifier.ofToken_placed arePlaces view.identifier).bind fun identifier isIn =>
      .pure ⟨siteIn, isIn, sourceIn⟩
  · refine .next fun view => ?_
    exact (reads.expr view.expression).bind fun condition isIn => .pure ⟨siteIn, isIn⟩
  · refine .next fun view => ?_
    refine (reads.expr view.expression).bind fun value valueIn => ?_
    exact (Identifier.ofToken_placed arePlaces view.identifier).bind fun identifier isIn =>
      .pure ⟨siteIn, isIn, valueIn⟩
  · exact .error _

theorem readEnding_placed (node : NodeId) :
    (readEnding tree (levels + 1) node).Yields (QueryEnding.Placed places) := by
  rw [readEnding]
  refine (Site.ofNode_placed arePlaces node).bind fun site siteIn => .next fun kind => ?_
  split
  · refine .next fun view => ?_
    refine (reads.expr view.element).bind fun element elementIn => ?_
    exact (reads.expr view.key).bind fun key keyIn => .pure ⟨siteIn, elementIn, keyIn⟩
  · refine .next fun view => ?_
    exact (reads.expr view.expression).bind fun selected isIn => .pure ⟨siteIn, isIn⟩

theorem readConclusion_placed (node : NodeId) :
    (readConclusion tree (levels + 1) node).Yields (Conclusion.Placed places) := by
  rw [readConclusion]
  refine (Site.ofNode_placed arePlaces node).bind fun site siteIn => .next fun view => ?_
  refine (reads.root view.expression).bind fun body bodyIn => ?_
  exact (Identifier.ofToken_placed arePlaces view.identifier).bind fun identifier isIn =>
    .pure ⟨siteIn, isIn, bodyIn⟩

theorem readRoot_placed (node : NodeId) :
    (readRoot tree (levels + 1) node).Yields (RootExpr.Placed places) := by
  rw [readRoot]
  split
  · refine (Site.ofNode_placed arePlaces node).bind fun site siteIn => .next fun found => ?_
    split
    · next token =>
        exact (SyntaxTree.tokenLocation_placed arePlaces token).bind fun location isIn =>
          .pure ⟨siteIn, isIn⟩
    · exact .pure ⟨siteIn, siteIn⟩
  · exact (reads.expr node).bind fun expr isIn => .pure isIn

end

theorem readsPlaced (arePlaces : tree.Placed places) (levels : Nat) :
    ReadsPlaced places tree levels := by
  induction levels with
  | zero =>
      refine ⟨fun _ => ?_, fun _ _ => ?_, fun _ _ => ?_, fun _ => ?_, fun _ => ?_, fun _ => ?_,
        fun _ => ?_⟩
      · rw [readExpr]
        exact .error _
      · rw [readCall]
        exact .error _
      · rw [readQuery]
        exact .error _
      · rw [readClause]
        exact .error _
      · rw [readEnding]
        exact .error _
      · rw [readConclusion]
        exact .error _
      · rw [readRoot]
        exact .error _
  | succ levels ih =>
      exact ⟨readExpr_placed arePlaces ih, readCall_placed arePlaces ih,
        readQuery_placed ih, readClause_placed arePlaces ih,
        readEnding_placed arePlaces ih, readConclusion_placed arePlaces ih,
        readRoot_placed arePlaces ih⟩

theorem RootExpr.ofNode_placed (arePlaces : tree.Placed places) (node : NodeId) :
    (RootExpr.ofNode tree node).Yields (RootExpr.Placed places) :=
  (readsPlaced arePlaces _).root node

/-! ### Reading statements -/

/-- Statements that are read with so many levels have such places. -/
structure ReadsStatementsPlaced (places : Location → Prop) (tree : SyntaxTree) (levels : Nat) :
    Prop where
  statement : ∀ node, (readStatement tree levels node).Yields (Statement.Placed places)
  block : ∀ node, (readBlock tree levels node).Yields fun list =>
    list.site.Placed places ∧ Statement.AllPlaced places list.statements

theorem readStatement_placed (arePlaces : tree.Placed places)
    (reads : ReadsStatementsPlaced places tree levels) (node : NodeId) :
    (readStatement tree (levels + 1) node).Yields (Statement.Placed places) := by
  have ofOption (value : Option NodeId) :
      (value.mapM (RootExpr.ofNode tree)).Yields fun found =>
        ∀ root ∈ found, root.Placed places :=
    .mapM_option (RootExpr.ofNode_placed arePlaces)
  rw [readStatement]
  refine .next fun kind => ?_
  refine (Site.ofNode_placed arePlaces node).bind fun site siteIn => ?_
  split
  · refine .next fun view => ?_
    refine (RootExpr.ofNode_placed arePlaces view.initializer).bind fun value valueIn => ?_
    exact (Identifier.ofToken_placed arePlaces view.identifier).bind fun identifier isIn =>
      .pure ⟨siteIn, isIn, valueIn⟩
  · exact (reads.block node).bind fun list isIn => .pure ⟨siteIn, isIn.2⟩
  · refine .next fun view => ?_
    exact (RootExpr.ofNode_placed arePlaces view.expression).bind fun value isIn =>
      .pure ⟨siteIn, isIn⟩
  · refine .next fun view => (ofOption view.expression).bind fun found isIn => .pure ?_
    cases found with
    | none => exact siteIn
    | some value => exact ⟨siteIn, isIn value rfl⟩
  · refine .next fun view => (ofOption view.expression).bind fun found isIn => .pure ?_
    cases found with
    | none => exact siteIn
    | some value => exact ⟨siteIn, isIn value rfl⟩
  · exact .pure siteIn
  · refine .next fun view => ?_
    refine (reads.block view.body).bind fun body bodyIn => ?_
    exact (RootExpr.ofNode_placed arePlaces view.condition).bind fun condition isIn =>
      .pure ⟨siteIn, bodyIn.1, bodyIn.2, isIn⟩
  · exact .error _

theorem readBlock_placed (arePlaces : tree.Placed places)
    (reads : ReadsStatementsPlaced places tree levels) (node : NodeId) :
    (readBlock tree (levels + 1) node).Yields fun list =>
      list.site.Placed places ∧ Statement.AllPlaced places list.statements := by
  rw [readBlock]
  refine (Site.ofNode_placed arePlaces node).bind fun site siteIn => .next fun view => ?_
  exact (Checked.Yields.mapM reads.statement).bind fun statements areIn =>
    .pure ⟨siteIn, Statement.allPlaced_of_forall areIn⟩

theorem readsStatementsPlaced (arePlaces : tree.Placed places) (levels : Nat) :
    ReadsStatementsPlaced places tree levels := by
  induction levels with
  | zero =>
      refine ⟨fun _ => ?_, fun _ => ?_⟩
      · rw [readStatement]
        exact .error _
      · rw [readBlock]
        exact .error _
  | succ levels ih => exact ⟨readStatement_placed arePlaces ih, readBlock_placed arePlaces ih⟩

/-- The statements of a file have such places. -/
theorem StatementList.ofTree_placed (arePlaces : tree.Placed places) :
    (StatementList.ofTree tree).Yields fun list =>
      Statement.AllPlaced places list.statements := by
  refine .next fun site => .next fun view => ?_
  have reads := readsStatementsPlaced arePlaces (readingLevels tree)
  exact (Checked.Yields.mapM reads.statement).bind fun statements areIn =>
    .pure (Statement.allPlaced_of_forall areIn)

end QueryLang
