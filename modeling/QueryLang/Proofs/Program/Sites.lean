import QueryLang.Proofs.Program.Located

/-!
# The sites of programs

Whatever is read from a tree knows where its node is. `sites` lists the sites of statements, of
expressions and of what queries consist of; each of them has the place of its node.
-/

namespace QueryLang

/-- The site is where its node is. -/
def Site.IsIn (tree : SyntaxTree) (site : Site) : Prop :=
  Site.ofNode tree site.node = .ok site

mutual

/-- The sites of an expression and of all inside of it. -/
def Expr.sites : Expr → List Site
  | .name site _ | .literal site _ => [site]
  | .parenthesized site inner | .memberAccess site inner _ => site :: inner.sites
  | .memberCall site callee _ arguments | .valueCall site callee _ arguments =>
    site :: (callee.sites ++ Expr.allSites arguments)
  | .namedCall site _ arguments => site :: Expr.allSites arguments
  | .binary site _ left right => site :: (left.sites ++ right.sites)
  | .query site clauses ending conclusion =>
    site :: (Clause.allSites clauses ++ (ending.sites ++ conclusion.sites))

/-- The sites of expressions. -/
def Expr.allSites : List Expr → List Site
  | [] => []
  | expr :: rest => expr.sites ++ Expr.allSites rest

/-- The sites of a clause. -/
def Clause.sites : Clause → List Site
  | .fromClause site _ inner | .whereClause site inner | .letClause site _ inner =>
    site :: inner.sites

/-- The sites of clauses. -/
def Clause.allSites : List Clause → List Site
  | [] => []
  | clause :: rest => clause.sites ++ Clause.allSites rest

/-- The sites of the last clause of a query. -/
def QueryEnding.sites : QueryEnding → List Site
  | .absent => []
  | .selectClause site selected => site :: selected.sites
  | .groupClause site element key => site :: (element.sites ++ key.sites)

/-- The sites of a conclusion. -/
def Conclusion.sites : Conclusion → List Site
  | .absent => []
  | .present site _ body => site :: body.sites

/-- The sites of a root expression. -/
def RootExpr.sites : RootExpr → List Site
  | .tooDeep site _ => [site]
  | .expression expr => expr.sites

end

mutual

/-- The sites of a statement and of all inside of it. -/
def Statement.sites : Statement → List Site
  | .localDeclaration site _ value | .expression site value | .returnValue site (some value)
  | .yieldReturn site (some value) => site :: value.sites
  | .returnValue site none | .yieldReturn site none | .yieldBreak site => [site]
  | .doWhile site bodySite body condition =>
    site :: bodySite :: (Statement.allSites body ++ condition.sites)
  | .block site statements => site :: Statement.allSites statements

/-- The sites of statements. -/
def Statement.allSites : List Statement → List Site
  | [] => []
  | statement :: rest => statement.sites ++ Statement.allSites rest

end

theorem Statement.site_mem_sites (statement : Statement) : statement.site ∈ statement.sites := by
  unfold sites site
  split <;> exact List.mem_cons_self ..

theorem Statement.mem_allSites {statement : Statement} {statements : List Statement}
    (isStatement : statement ∈ statements) :
    ∀ site ∈ statement.sites, site ∈ Statement.allSites statements := by
  induction statements with
  | nil => cases isStatement
  | cons first rest ih =>
      intro site isSite
      rw [Statement.allSites]
      rcases List.mem_cons.mp isStatement with rfl | inRest
      · exact List.mem_append_left _ isSite
      · exact List.mem_append_right _ (ih inRest site isSite)

/-! ### Reading -/

variable {tree : SyntaxTree} {levels : Nat}

theorem Site.ofNode_isIn (node : NodeId) :
    (Site.ofNode tree node).Yields (Site.IsIn tree) := by
  intro site siteEq
  rcases Checked.bind_eq_ok_iff.mp siteEq with ⟨span, _, isSite⟩
  cases isSite
  exact siteEq

/-- Sites are where their nodes are. -/
def SitesIn (tree : SyntaxTree) (sites : List Site) : Prop :=
  ∀ site ∈ sites, site.IsIn tree

namespace SitesIn

variable {site : Site} {sites others : List Site}

theorem nil : SitesIn tree [] := List.forall_mem_nil _

theorem cons (siteIn : site.IsIn tree) (restIn : SitesIn tree sites) :
    SitesIn tree (site :: sites) :=
  List.forall_mem_cons.mpr ⟨siteIn, restIn⟩

theorem append (leftIn : SitesIn tree sites) (rightIn : SitesIn tree others) :
    SitesIn tree (sites ++ others) :=
  List.forall_mem_append.mpr ⟨leftIn, rightIn⟩

theorem single (siteIn : site.IsIn tree) : SitesIn tree [site] := cons siteIn nil

end SitesIn

theorem Expr.allSites_in {exprs : List Expr} (areIn : ∀ expr ∈ exprs, SitesIn tree expr.sites) :
    SitesIn tree (Expr.allSites exprs) := by
  induction exprs with
  | nil => exact .nil
  | cons expr rest ih =>
      rw [List.forall_mem_cons] at areIn
      exact .append areIn.1 (ih areIn.2)

theorem Clause.allSites_in {clauses : List Clause}
    (areIn : ∀ clause ∈ clauses, SitesIn tree clause.sites) :
    SitesIn tree (Clause.allSites clauses) := by
  induction clauses with
  | nil => exact .nil
  | cons clause rest ih =>
      rw [List.forall_mem_cons] at areIn
      exact .append areIn.1 (ih areIn.2)

theorem Statement.allSites_in {statements : List Statement}
    (areIn : ∀ statement ∈ statements, SitesIn tree statement.sites) :
    SitesIn tree (Statement.allSites statements) := by
  induction statements with
  | nil => exact .nil
  | cons statement rest ih =>
      rw [List.forall_mem_cons] at areIn
      exact .append areIn.1 (ih areIn.2)

/-- What is read with so many levels has its sites in the tree. -/
structure ReadsSites (tree : SyntaxTree) (levels : Nat) : Prop where
  expr : ∀ node, (readExpr tree levels node).Yields fun expr => SitesIn tree expr.sites
  call : ∀ site : Site, site.IsIn tree →
    (readCall tree levels site).Yields fun expr => SitesIn tree expr.sites
  query : ∀ site : Site, site.IsIn tree →
    (readQuery tree levels site).Yields fun expr => SitesIn tree expr.sites
  clause : ∀ node, (readClause tree levels node).Yields fun clause => SitesIn tree clause.sites
  ending : ∀ node, (readEnding tree levels node).Yields fun ending => SitesIn tree ending.sites
  conclusion : ∀ node,
    (readConclusion tree levels node).Yields fun conclusion => SitesIn tree conclusion.sites
  root : ∀ node, (readRoot tree levels node).Yields fun root => SitesIn tree root.sites

section

variable (reads : ReadsSites tree levels)

include reads

theorem readExprs_sites (nodes : List NodeId) :
    (nodes.mapM (readExpr tree levels)).Yields fun exprs => SitesIn tree (Expr.allSites exprs) :=
  (Checked.Yields.mapM reads.expr).mono fun _ => Expr.allSites_in

theorem readExpr_sites (node : NodeId) :
    (readExpr tree (levels + 1) node).Yields fun expr => SitesIn tree expr.sites := by
  rw [readExpr]
  refine .next fun kind => (Site.ofNode_isIn node).bind fun site siteIn => ?_
  split
  · exact .next fun identifier => .pure (.single siteIn)
  · exact .next fun value => .pure (.single siteIn)
  · exact .next fun value => .pure (.single siteIn)
  · exact .next fun value => .pure (.single siteIn)
  · exact .next fun value => .pure (.single siteIn)
  · refine .next fun view => (reads.expr view.expression).bind fun inner innerIn => ?_
    exact .pure (.cons siteIn innerIn)
  · refine .next fun view => (reads.expr view.expression).bind fun receiver receiverIn => ?_
    exact .next fun member => .pure (.cons siteIn receiverIn)
  · exact reads.call site siteIn
  · refine .next fun view => (reads.expr view.left).bind fun left leftIn => ?_
    refine (reads.expr view.right).bind fun right rightIn => .next fun token => ?_
    exact .pure (.cons siteIn (.append leftIn rightIn))
  · exact reads.query site siteIn
  · exact .error _

theorem readCall_sites (site : Site) (siteIn : site.IsIn tree) :
    (readCall tree (levels + 1) site).Yields fun expr => SitesIn tree expr.sites := by
  rw [readCall]
  refine .next fun view => .next fun kind => ?_
  split
  · refine .next fun access => (reads.expr access.expression).bind fun receiver receiverIn => ?_
    refine (readExprs_sites reads view.arguments).bind fun arguments argumentsIn => ?_
    exact .next fun member => .pure (.cons siteIn (.append receiverIn argumentsIn))
  · refine (readExprs_sites reads view.arguments).bind fun arguments argumentsIn => ?_
    exact .next fun callee => .pure (.cons siteIn argumentsIn)
  · refine (reads.expr view.expression).bind fun callee calleeIn => ?_
    refine (readExprs_sites reads view.arguments).bind fun arguments argumentsIn => ?_
    exact .next fun text => .pure (.cons siteIn (.append calleeIn argumentsIn))

theorem readQuery_sites (site : Site) (siteIn : site.IsIn tree) :
    (readQuery tree (levels + 1) site).Yields fun expr => SitesIn tree expr.sites := by
  rw [readQuery]
  refine .next fun view => .next fun body => ?_
  refine (Checked.Yields.mapM reads.clause).bind fun clauses clausesIn => ?_
  have query {ending : QueryEnding} {conclusion : Conclusion} (endingIn : SitesIn tree ending.sites)
      (conclusionIn : SitesIn tree conclusion.sites) :
      SitesIn tree (Expr.query site clauses ending conclusion).sites :=
    .cons siteIn
      (.append (Clause.allSites_in clausesIn) (.append endingIn conclusionIn))
  have absentEnding : SitesIn tree QueryEnding.absent.sites := .nil
  have absentConclusion : SitesIn tree Conclusion.absent.sites := .nil
  dsimp only
  split
  · next clause _ =>
      refine (reads.ending clause).bind fun ending endingIn => ?_
      split
      · next last _ =>
          exact (reads.conclusion last).bind fun conclusion conclusionIn =>
            .pure (query endingIn conclusionIn)
      · exact .pure (query endingIn absentConclusion)
  · split
    · next last _ =>
        exact (reads.conclusion last).bind fun conclusion conclusionIn =>
          .pure (query absentEnding conclusionIn)
    · exact .pure (query absentEnding absentConclusion)

theorem readClause_sites (node : NodeId) :
    (readClause tree (levels + 1) node).Yields fun clause => SitesIn tree clause.sites := by
  rw [readClause]
  refine .next fun kind => (Site.ofNode_isIn node).bind fun site siteIn => ?_
  split
  · refine .next fun view => (reads.expr view.expression).bind fun source sourceIn => ?_
    exact .next fun identifier => .pure (.cons siteIn sourceIn)
  · refine .next fun view => (reads.expr view.expression).bind fun condition conditionIn => ?_
    exact .pure (.cons siteIn conditionIn)
  · refine .next fun view => (reads.expr view.expression).bind fun value valueIn => ?_
    exact .next fun identifier => .pure (.cons siteIn valueIn)
  · exact .error _

theorem readEnding_sites (node : NodeId) :
    (readEnding tree (levels + 1) node).Yields fun ending => SitesIn tree ending.sites := by
  rw [readEnding]
  refine (Site.ofNode_isIn node).bind fun site siteIn => .next fun kind => ?_
  split
  · refine .next fun view => (reads.expr view.element).bind fun element elementIn => ?_
    exact (reads.expr view.key).bind fun key keyIn =>
      .pure (.cons siteIn (.append elementIn keyIn))
  · refine .next fun view => (reads.expr view.expression).bind fun selected selectedIn => ?_
    exact .pure (.cons siteIn selectedIn)

theorem readConclusion_sites (node : NodeId) :
    (readConclusion tree (levels + 1) node).Yields fun conclusion =>
      SitesIn tree conclusion.sites := by
  rw [readConclusion]
  refine (Site.ofNode_isIn node).bind fun site siteIn => .next fun view => ?_
  refine (reads.root view.expression).bind fun body bodyIn => .next fun identifier => ?_
  exact .pure (.cons siteIn bodyIn)

theorem readRoot_sites (node : NodeId) :
    (readRoot tree (levels + 1) node).Yields fun root => SitesIn tree root.sites := by
  rw [readRoot]
  split
  · refine (Site.ofNode_isIn node).bind fun site siteIn => .next fun found => ?_
    split
    · exact .next fun location => .pure (.single siteIn)
    · exact .pure (.single siteIn)
  · exact (reads.expr node).bind fun expr exprIn => .pure exprIn

end

theorem readsSites (tree : SyntaxTree) (levels : Nat) : ReadsSites tree levels := by
  induction levels with
  | zero =>
      refine ⟨fun _ => ?_, fun _ _ => ?_, fun _ _ => ?_, fun _ => ?_, fun _ => ?_, fun _ => ?_,
        fun _ => ?_⟩
      · rw [readExpr]
        exact .error _
      · rw [readCall]
        exact .error _
      · rw [readQuery]
        exact .error _
      · rw [readClause]
        exact .error _
      · rw [readEnding]
        exact .error _
      · rw [readConclusion]
        exact .error _
      · rw [readRoot]
        exact .error _
  | succ levels ih =>
      exact ⟨readExpr_sites ih, readCall_sites ih, readQuery_sites ih, readClause_sites ih,
        readEnding_sites ih, readConclusion_sites ih, readRoot_sites ih⟩

theorem RootExpr.ofNode_sites (node : NodeId) :
    (RootExpr.ofNode tree node).Yields fun root => SitesIn tree root.sites :=
  (readsSites tree _).root node

/-! ### Reading statements -/

/-- Statements that are read with so many levels have their sites in the tree. -/
structure ReadsStatementSites (tree : SyntaxTree) (levels : Nat) : Prop where
  statement : ∀ node,
    (readStatement tree levels node).Yields fun statement => SitesIn tree statement.sites
  block : ∀ node, (readBlock tree levels node).Yields fun list =>
    list.site.IsIn tree ∧ SitesIn tree (Statement.allSites list.statements)

theorem readStatement_sites (reads : ReadsStatementSites tree levels) (node : NodeId) :
    (readStatement tree (levels + 1) node).Yields fun statement =>
      SitesIn tree statement.sites := by
  have ofOption (value : Option NodeId) :
      (value.mapM (RootExpr.ofNode tree)).Yields fun found =>
        ∀ root ∈ found, SitesIn tree root.sites :=
    .mapM_option RootExpr.ofNode_sites
  rw [readStatement]
  refine .next fun kind => (Site.ofNode_isIn node).bind fun site siteIn => ?_
  split
  · refine .next fun view => (RootExpr.ofNode_sites view.initializer).bind fun value valueIn => ?_
    exact .next fun identifier => .pure (.cons siteIn valueIn)
  · exact (reads.block node).bind fun list isIn => .pure (.cons siteIn isIn.2)
  · refine .next fun view => (RootExpr.ofNode_sites view.expression).bind fun value valueIn => ?_
    exact .pure (.cons siteIn valueIn)
  · refine .next fun view => (ofOption view.expression).bind fun found foundIn => .pure ?_
    cases found with
    | none => exact .single siteIn
    | some value => exact .cons siteIn (foundIn value rfl)
  · refine .next fun view => (ofOption view.expression).bind fun found foundIn => .pure ?_
    cases found with
    | none => exact .single siteIn
    | some value => exact .cons siteIn (foundIn value rfl)
  · exact .pure (.single siteIn)
  · refine .next fun view => (reads.block view.body).bind fun body bodyIn => ?_
    refine (RootExpr.ofNode_sites view.condition).bind fun condition conditionIn => ?_
    exact .pure (.cons siteIn
      (.cons bodyIn.1 (.append bodyIn.2 conditionIn)))
  · exact .error _

theorem readBlock_sites (reads : ReadsStatementSites tree levels) (node : NodeId) :
    (readBlock tree (levels + 1) node).Yields fun list =>
      list.site.IsIn tree ∧ SitesIn tree (Statement.allSites list.statements) := by
  rw [readBlock]
  refine (Site.ofNode_isIn node).bind fun site siteIn => .next fun view => ?_
  exact (Checked.Yields.mapM reads.statement).bind fun statements areIn =>
    .pure ⟨siteIn, Statement.allSites_in areIn⟩

theorem readsStatementSites (tree : SyntaxTree) (levels : Nat) :
    ReadsStatementSites tree levels := by
  induction levels with
  | zero =>
      refine ⟨fun _ => ?_, fun _ => ?_⟩
      · rw [readStatement]
        exact .error _
      · rw [readBlock]
        exact .error _
  | succ levels ih => exact ⟨readStatement_sites ih, readBlock_sites ih⟩

/-- The sites of a file are where their nodes are. -/
theorem StatementList.ofTree_sites (tree : SyntaxTree) :
    (StatementList.ofTree tree).Yields fun list =>
      SitesIn tree (Statement.allSites list.statements) := by
  refine .next fun site => .next fun view => ?_
  exact (Checked.Yields.mapM (readsStatementSites tree _).statement).bind fun statements areIn =>
    .pure (Statement.allSites_in areIn)

end QueryLang
