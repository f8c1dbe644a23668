import Mathlib.Order.MinMax
import QueryLang.Proofs.Program.StatementLists

/-!
# The expressions of statements

A root is an expression that stands directly in a statement: what a local starts as, what is
evaluated, returned or yielded, and the condition of a loop. `roots` has those of a program in the
order in which they are bound. They are the roots of its tree, each of them once, and each is what
is read at its node: it is kept only as a place if something lies too deep below it.
-/

namespace QueryLang

mutual

/-- The expressions that stand directly in a statement. -/
def Statement.roots : Statement → List RootExpr
  | .localDeclaration _ _ value | .expression _ value | .returnValue _ (some value)
  | .yieldReturn _ (some value) => [value]
  | .returnValue _ none | .yieldReturn _ none | .yieldBreak _ => []
  | .doWhile _ _ body condition => Statement.allRoots body ++ [condition]
  | .block _ statements => Statement.allRoots statements

/-- The expressions that stand directly in one of several statements. -/
def Statement.allRoots : List Statement → List RootExpr
  | [] => []
  | statement :: rest => statement.roots ++ Statement.allRoots rest

end

/-- The expressions that stand directly in the statements of a list. -/
def StatementList.roots (list : StatementList) : List RootExpr :=
  Statement.allRoots list.statements

theorem Statement.mem_allRoots {root : RootExpr} {statements : List Statement} :
    root ∈ Statement.allRoots statements ↔ ∃ statement ∈ statements, root ∈ statement.roots := by
  induction statements with
  | nil => simp [Statement.allRoots]
  | cons statement rest ih =>
      rw [Statement.allRoots, List.mem_append, ih, List.exists_mem_cons_iff]

variable {tree : SyntaxTree} {damaged : Prop} {top id : NodeId}

/-! ### How deep nodes lie -/

namespace ParseTree

mutual

/-- How many nodes lie inside of one another in a piece of source at most. -/
def height : ParseTree → Nat
  | .token _ | .missing _ => 0
  | .node _ children => heightAll children + 1
  | .wrapped _ first rest => max first.height (heightAll rest) + 1

/-- How many nodes lie inside of one another in one of several pieces at most. -/
def heightAll : List ParseTree → Nat
  | [] => 0
  | piece :: rest => max piece.height (heightAll rest)

end

theorem lt_heightAll_iff {levels : Nat} {pieces : List ParseTree} :
    levels < heightAll pieces ↔ ∃ piece ∈ pieces, levels < piece.height := by
  induction pieces with
  | nil => simp [heightAll]
  | cons piece rest ih => rw [heightAll, lt_max_iff, ih, List.exists_mem_cons_iff]

theorem IsNode.height_eq {piece : ParseTree} {kind : Kind} {children : List ParseTree}
    (isNode : piece.IsNode kind children) : piece.height = heightAll children + 1 := by
  obtain rfl | ⟨first, rest, rfl, rfl⟩ := isNode
  · rw [height]
  · rw [height, heightAll]

/-- The kind of a piece that is a node. -/
def kind? : ParseTree → Option Kind
  | .token _ | .missing _ => none
  | .node kind _ | .wrapped kind _ _ => some kind

/-- The pieces right inside of a piece. -/
def children : ParseTree → List ParseTree
  | .token _ | .missing _ => []
  | .node _ children => children
  | .wrapped _ first rest => first :: rest

theorem isNode_of_kind {piece : ParseTree} {kind : Kind} (isKind : piece.kind? = some kind) :
    piece.IsNode kind piece.children := by
  cases piece with
  | token leaf | missing own => cases isKind
  | node own children =>
      cases isKind
      exact .inl rfl
  | wrapped own first rest =>
      cases isKind
      exact .inr ⟨first, rest, rfl, rfl⟩

theorem element_of_height {piece : ParseTree} (high : 0 < piece.height) (place : Place) :
    ∃ id, piece.element place = .node id := by
  cases piece with
  | token leaf | missing kind => cases high
  | node kind children | wrapped kind first rest => exact ⟨_, rfl⟩

end ParseTree

namespace SyntaxTree

/-- The node lies so many levels below another one. -/
inductive LiesBelow (tree : SyntaxTree) : (levels : Nat) → (top id : NodeId) → Prop
  | refl {id : NodeId} : LiesBelow tree 0 id id
  | inside {levels : Nat} {top child id : NodeId} {kind : Kind} {children : List NodeId}
      (branch : tree.BranchAt top kind children) (isChild : child ∈ children)
      (below : LiesBelow tree levels child id) : LiesBelow tree (levels + 1) top id

theorem LiesBelow.reachesDown {levels : Nat} (below : tree.LiesBelow levels top id) :
    tree.reachesDown levels top = true := by
  induction below with
  | refl => rfl
  | inside branch isChild _ ih => exact branch.reachesDown isChild ih

theorem exists_liesBelow {levels : Nat} (reaches : tree.reachesDown levels top = true) :
    ∃ id, tree.LiesBelow levels top id := by
  induction levels generalizing top with
  | zero => exact ⟨top, .refl⟩
  | succ levels ih =>
      rw [SyntaxTree.reachesDown] at reaches
      cases childrenEq : tree.childNodes top with
      | error fault => simp [childrenEq] at reaches
      | ok children =>
          simp only [childrenEq, List.any_eq_true] at reaches
          obtain ⟨child, isChild, reaches⟩ := reaches
          obtain ⟨id, below⟩ := ih reaches
          obtain ⟨node, nodeEq, _⟩ := Checked.bind_eq_ok_iff.mp childrenEq
          have kindEq : tree.kind top = .ok node.kind := by
            rw [SyntaxTree.kind, nodeEq]
            rfl
          exact ⟨id, .inside ⟨kindEq, childrenEq⟩ isChild below⟩

/-- Some node lies more levels below a node than is allowed below an expression. -/
def IsTooDeep (tree : SyntaxTree) (node : NodeId) : Prop :=
  ∃ levels id, maxExpressionDepth < levels ∧ tree.LiesBelow levels node id

theorem isTooDeep_iff :
    tree.IsTooDeep top ↔ tree.exceedsDepth top maxExpressionDepth = true := by
  symm
  constructor
  · intro reaches
    obtain ⟨id, below⟩ := exists_liesBelow reaches
    exact ⟨maxExpressionDepth + 1, id, Nat.lt_succ_self maxExpressionDepth, below⟩
  · rintro ⟨levels, id, isMore, below⟩
    exact reachesDown_of_le isMore below.reachesDown

/-- A node has the nodes of its children as child nodes. -/
theorem Holds.exists_branch {place : Place} {parent : Option NodeId} {piece : ParseTree}
    {kind : Kind} {children : List ParseTree} (holds : tree.Holds place parent piece)
    (isNode : piece.IsNode kind children) :
    ∃ top nodes, piece.element place = .node top ∧ tree.BranchAt top kind nodes ∧
      (∀ id ∈ nodes, ∃ inner ∈ children, ∃ place, inner.element place = .node id ∧
        tree.Holds place (some top) inner) ∧
      ∀ inner ∈ children, 0 < inner.height → ∃ place, ∃ id ∈ nodes,
        inner.element place = .node id ∧ tree.Holds place (some top) inner := by
  obtain ⟨top, isOwn, found, standFor⟩ := holds.node isNode
  have branch : tree.BranchAt top kind ((piece.childElements place).filterMap Element.node?) :=
    ⟨kind_eq_ok found, by simp [childNodes, SyntaxTree.node, found, pure, Except.pure]⟩
  refine ⟨top, _, isOwn, branch, fun id isChild => ?_, fun inner isInner high => ?_⟩
  · obtain ⟨_, foundAgain, inNode⟩ := branch.mem_iff.mp isChild
    cases found.symm.trans foundAgain
    obtain ⟨before, inner, after, rfl, place, isInner, innerHolds⟩ :=
      exists_split_of_forall₂ standFor inNode
    exact ⟨inner, by simp, place, isInner.symm, innerHolds⟩
  · obtain ⟨before, element, after, elementsEq, place, elementEq, innerHolds⟩ :=
      exists_split_of_forall₂ standFor.flip isInner
    obtain ⟨id, isNode⟩ := ParseTree.element_of_height high place
    rw [elementsEq]
    exact ⟨place, id, by simp [elementEq, isNode, Element.node?], isNode, innerHolds⟩

/-- The parts of what a tree holds are held as well. -/
theorem Holds.exists_of_part {place : Place} {parent : Option NodeId} {part whole : ParseTree}
    (holds : tree.Holds place parent whole) (isPart : part.PartOf whole) :
    ∃ place parent, tree.Holds place parent part := by
  induction isPart generalizing place parent with
  | refl => exact ⟨place, parent, holds⟩
  | inside isNode isChild _ ih =>
      obtain ⟨_, _, _, standFor⟩ := holds.node isNode
      obtain ⟨_, _, _, _, _, _, innerHolds⟩ := exists_split_of_forall₂ standFor.flip isChild
      exact ih innerHolds

/-- Below a node something lies so many levels exactly if the piece that the node stands for is
higher. -/
theorem Holds.exists_liesBelow_iff {levels : Nat} {place : Place} {parent : Option NodeId}
    {piece : ParseTree} (holds : tree.Holds place parent piece)
    (isOwn : piece.element place = .node top) :
    (∃ id, tree.LiesBelow levels top id) ↔ levels < piece.height := by
  induction levels generalizing place parent piece top with
  | zero =>
      obtain ⟨kind, children, isNode⟩ := isNode_of_element isOwn
      rw [isNode.height_eq]
      exact ⟨fun _ => Nat.succ_pos _, fun _ => ⟨top, .refl⟩⟩
  | succ levels ih =>
      obtain ⟨kind, children, isNode⟩ := isNode_of_element isOwn
      obtain ⟨_, nodes, ownEq, branch, nodes_inner, inner_nodes⟩ := holds.exists_branch isNode
      cases isOwn.symm.trans ownEq
      rw [isNode.height_eq, Nat.succ_lt_succ_iff, ParseTree.lt_heightAll_iff]
      constructor
      · rintro ⟨id, _ | ⟨branchAgain, isChild, below⟩⟩
        cases branch.children_eq.symm.trans branchAgain.children_eq
        obtain ⟨inner, isInner, _, innerEq, innerHolds⟩ := nodes_inner _ isChild
        exact ⟨inner, isInner, (ih innerHolds innerEq).mp ⟨id, below⟩⟩
      · rintro ⟨inner, isInner, high⟩
        obtain ⟨_, child, isChild, innerEq, innerHolds⟩ :=
          inner_nodes inner isInner (Nat.zero_lt_of_lt high)
        obtain ⟨id, below⟩ := (ih innerHolds innerEq).mpr high
        exact ⟨id, .inside branch isChild below⟩

/-- What a node stands for decides whether something lies too deep below it. -/
theorem Holds.isTooDeep_iff {place : Place} {parent : Option NodeId} {piece : ParseTree}
    (holds : tree.Holds place parent piece) (isOwn : piece.element place = .node top) :
    tree.IsTooDeep top ↔ maxExpressionDepth + 1 < piece.height := by
  constructor
  · rintro ⟨levels, id, isMore, below⟩
    have high := (holds.exists_liesBelow_iff isOwn).mp ⟨id, below⟩
    omega
  · intro high
    obtain ⟨id, below⟩ := (holds.exists_liesBelow_iff isOwn).mpr high
    exact ⟨_, id, Nat.lt_succ_self _, below⟩

/-! ### The roots of a tree -/

/-- The node is an expression that stands directly in a statement. -/
def IsRoot (tree : SyntaxTree) (node : NodeId) : Prop :=
  tree.IsExpression node ∧ ∃ statement kind children,
    tree.BranchAt statement kind children ∧ kind.isStatement = true ∧ node ∈ children

/-- Where an expression right inside of a statement is too high, there is a root that is too
deep. -/
theorem Holds.exists_tooDeep {place : Place} {parent : Option NodeId}
    {file statement expr : ParseTree} (holds : tree.Holds place parent file)
    (isPart : statement.PartOf file) (isStatement : statement.kind?.any Kind.isStatement = true)
    (isChild : expr ∈ statement.children) (isExpression : expr.kind?.any Kind.isExpression = true)
    (high : maxExpressionDepth + 1 < expr.height) :
    ∃ node, tree.IsRoot node ∧ tree.IsTooDeep node := by
  obtain ⟨kind, isKind, isStatement⟩ := (Option.any_eq_true _ _).mp isStatement
  obtain ⟨own, isOwn, isExpression⟩ := (Option.any_eq_true _ _).mp isExpression
  obtain ⟨_, _, statementHolds⟩ := holds.exists_of_part isPart
  obtain ⟨top, nodes, _, branch, _, inner_nodes⟩ :=
    statementHolds.exists_branch (ParseTree.isNode_of_kind isKind)
  obtain ⟨_, node, isMember, exprEq, exprHolds⟩ :=
    inner_nodes expr isChild (Nat.zero_lt_of_lt high)
  obtain ⟨_, _, nodeEq, exprBranch, _⟩ :=
    exprHolds.exists_branch (ParseTree.isNode_of_kind isOwn)
  cases exprEq.symm.trans nodeEq
  exact ⟨node, ⟨⟨own, exprBranch.kind_eq, isExpression⟩, top, kind, nodes, branch, isStatement,
    isMember⟩, (exprHolds.isTooDeep_iff exprEq).mpr high⟩

/-- The roots at or below some nodes are these, without repetition. -/
abbrev HasRoots (tree : SyntaxTree) : (tops roots : List NodeId) → Prop :=
  tree.Finds tree.IsRoot

namespace HasRoots

variable {kind : Kind} {children roots : List NodeId}

/-- An expression that stands directly in a statement is the only root below it. -/
theorem root (wellFormed : tree.WellFormed damaged) (branch : tree.BranchAt top kind children)
    (isStatement : kind.isStatement = true) (isChild : id ∈ children)
    (isExpression : tree.IsExpression id) : tree.HasRoots [id] [id] where
  nodup := List.nodup_singleton id
  mem_iff := by
    intro node
    simp only [List.mem_singleton, exists_eq_left]
    constructor
    · rintro rfl
      exact ⟨.refl, isExpression, top, kind, children, branch, isStatement, isChild⟩
    · rintro ⟨below, _, statement, own, siblings, around, isOwn, isSibling⟩
      rcases wellFormed.below_parent around isSibling below with same | below
      · exact same
      · have notStatement := wellFormed.not_statement_below isExpression below around.kind_eq
        rw [isOwn] at notStatement
        cases notStatement

/-- A node that is no expression has the roots of its children. -/
theorem node (branch : tree.BranchAt top kind children) (notExpression : kind.isExpression = false)
    (inner : tree.HasRoots children roots) : tree.HasRoots [top] roots := by
  refine inner.skip branch fun isRoot => ?_
  obtain ⟨⟨own, ownEq, isExpression⟩, _⟩ := isRoot
  cases branch.kind_eq.symm.trans ownEq
  rw [isExpression] at notExpression
  cases notExpression

/-- A statement that only an expression stands in has this as its root. -/
theorem only (wellFormed : tree.WellFormed damaged) (branch : tree.BranchAt top kind [id])
    (isStatement : kind.isStatement = true) (notExpression : kind.isExpression = false)
    (isExpression : tree.IsExpression id) : tree.HasRoots [top] [id] :=
  .node branch notExpression
    (.root wellFormed branch isStatement (List.mem_singleton_self id) isExpression)

end HasRoots

end SyntaxTree

open SyntaxTree

mutual

/-- The roots of a statement are those at and below its node. -/
theorem Statement.hasRoots (wellFormed : tree.WellFormed damaged) (statement : Statement)
    (isAt : statement.At tree damaged) :
    tree.HasRoots [statement.site.node] (statement.roots.map (·.site.node)) := by
  match statement with
  | .localDeclaration site identifier value =>
      exact .only wellFormed isAt.1 rfl rfl isAt.2.2.isExpression
  | .expression site value | .returnValue site (some value) | .yieldReturn site (some value) =>
      exact .only wellFormed isAt.1 rfl rfl isAt.2.isExpression
  | .returnValue site none | .yieldBreak site => exact .node isAt rfl .nil
  | .yieldReturn site none => exact isAt.elim
  | .doWhile site bodySite body condition =>
      rcases isAt with ⟨branch, bodyBranch, bodyAt, conditionAt⟩
      have ofBody := HasRoots.node bodyBranch rfl
        (Statement.allHaveRoots wellFormed body bodyAt (wellFormed.separate bodyBranch))
      have ofCondition := HasRoots.root wellFormed branch rfl (List.mem_pair.mpr (.inr rfl))
        conditionAt.isExpression
      rw [Statement.roots, List.map_append]
      exact .node branch rfl (ofBody.cons ofCondition (wellFormed.separate branch))
  | .block site statements =>
      rcases isAt with ⟨branch, statementsAt⟩
      exact .node branch rfl
        (Statement.allHaveRoots wellFormed statements statementsAt (wellFormed.separate branch))

theorem Statement.allHaveRoots (wellFormed : tree.WellFormed damaged) (statements : List Statement)
    (areAt : Statement.AllAt tree damaged statements)
    (separate : tree.Separate (statements.map fun statement => statement.site.node)) :
    tree.HasRoots (statements.map fun statement => statement.site.node)
      ((Statement.allRoots statements).map (·.site.node)) := by
  match statements with
  | [] => exact .nil
  | statement :: rest =>
      rw [Statement.allRoots, List.map_append]
      exact .cons (Statement.hasRoots wellFormed statement areAt.1)
        (Statement.allHaveRoots wellFormed rest areAt.2 (List.pairwise_cons.mp separate).2) separate

end

/-- The roots of a file are those of its tree. -/
theorem StatementList.mem_roots_iff (wellFormed : tree.WellFormed damaged) {list : StatementList}
    (isRoot : list.site.node = root) (isAt : list.At tree damaged .compilationUnit) :
    (list.roots.map (·.site.node)).Nodup ∧
      ∀ node, node ∈ list.roots.map (·.site.node) ↔ tree.IsRoot node := by
  have inner := Statement.allHaveRoots wellFormed list.statements isAt.statements
    (wellFormed.separate isAt.branch)
  have whole := HasRoots.node isAt.branch rfl inner
  refine ⟨whole.nodup, fun node => (whole.mem_iff node).trans ?_⟩
  simp only [List.mem_singleton, exists_eq_left, isRoot, and_iff_right_iff_imp]
  rintro ⟨⟨kind, kindEq, _⟩, _⟩
  exact wellFormed.reachable node (lt_of_kind kindEq)

/-! ### Reading roots -/

/-- The root is what is read at its node. -/
def RootExpr.IsRead (tree : SyntaxTree) (root : RootExpr) : Prop :=
  RootExpr.ofNode tree root.site.node = .ok root

theorem Site.ofNode_node (node : NodeId) : (Site.ofNode tree node).Yields (·.node = node) :=
  .next fun _ => .pure rfl

theorem readCall_site (levels : Nat) (site : Site) :
    (readCall tree levels site).Yields (·.site = site) := by
  cases levels with
  | zero =>
      rw [readCall]
      exact .error _
  | succ levels =>
      rw [readCall]
      refine .next fun view => .next fun kind => ?_
      split
      · exact .next fun _ => .next fun _ => .next fun _ => .next fun _ => .pure rfl
      · exact .next fun _ => .next fun _ => .pure rfl
      · exact .next fun _ => .next fun _ => .next fun _ => .pure rfl

theorem readQuery_site (levels : Nat) (site : Site) :
    (readQuery tree levels site).Yields (·.site = site) := by
  cases levels with
  | zero =>
      rw [readQuery]
      exact .error _
  | succ levels =>
      rw [readQuery]
      refine .next fun view => .next fun body => .next fun clauses => ?_
      dsimp only
      split
      · refine .next fun ending => ?_
        split
        · exact .next fun _ => .pure rfl
        · exact .pure rfl
      · split
        · exact .next fun _ => .next fun _ => .pure rfl
        · exact .pure rfl

theorem readExpr_site (levels : Nat) (node : NodeId) :
    (readExpr tree levels node).Yields (·.site.node = node) := by
  cases levels with
  | zero =>
      rw [readExpr]
      exact .error _
  | succ levels =>
      rw [readExpr]
      refine .next fun kind => (Site.ofNode_node node).bind fun site isOwn => ?_
      have sameSite {expr : Expr} (same : expr.site = site) : expr.site.node = node := by
        rw [same, isOwn]
      split
      · exact .next fun _ => .pure isOwn
      · exact .next fun _ => .pure isOwn
      · exact .next fun _ => .pure isOwn
      · exact .next fun _ => .pure isOwn
      · exact .next fun _ => .pure isOwn
      · exact .next fun _ => .next fun _ => .pure isOwn
      · exact .next fun _ => .next fun _ => .next fun _ => .pure isOwn
      · exact (readCall_site levels site).mono fun _ => sameSite
      · exact .next fun _ => .next fun _ => .next fun _ => .next fun _ => .pure isOwn
      · exact (readQuery_site levels site).mono fun _ => sameSite
      · exact .error _

theorem readRoot_site (levels : Nat) (node : NodeId) :
    (readRoot tree levels node).Yields (·.site.node = node) := by
  cases levels with
  | zero =>
      rw [readRoot]
      exact .error _
  | succ levels =>
      rw [readRoot]
      split
      · refine (Site.ofNode_node node).bind fun site isOwn => .next fun found => ?_
        split
        · exact .next fun _ => .pure isOwn
        · exact .pure isOwn
      · exact (readExpr_site levels node).bind fun expr isOwn => .pure isOwn

theorem RootExpr.ofNode_isRead (node : NodeId) :
    (RootExpr.ofNode tree node).Yields (RootExpr.IsRead tree) := by
  intro root rootEq
  rw [IsRead, readRoot_site _ node root rootEq]
  exact rootEq

/-- Statements that are read with so many levels have roots that are read at their nodes. -/
structure ReadsRoots (tree : SyntaxTree) (levels : Nat) : Prop where
  statement : ∀ node, (readStatement tree levels node).Yields fun statement =>
    ∀ root ∈ statement.roots, root.IsRead tree
  block : ∀ node, (readBlock tree levels node).Yields fun list =>
    ∀ root ∈ list.roots, root.IsRead tree

theorem Statement.allRoots_areRead {statements : List Statement}
    (areRead : ∀ statement ∈ statements, ∀ root ∈ statement.roots, root.IsRead tree) :
    ∀ root ∈ Statement.allRoots statements, root.IsRead tree := by
  intro root isRoot
  obtain ⟨statement, isStatement, isOwn⟩ := Statement.mem_allRoots.mp isRoot
  exact areRead statement isStatement root isOwn

theorem readStatement_roots {levels : Nat} (reads : ReadsRoots tree levels) (node : NodeId) :
    (readStatement tree (levels + 1) node).Yields fun statement =>
      ∀ root ∈ statement.roots, root.IsRead tree := by
  have ofOption (value : Option NodeId) :
      (value.mapM (RootExpr.ofNode tree)).Yields fun found => ∀ root ∈ found, root.IsRead tree :=
    .mapM_option RootExpr.ofNode_isRead
  rw [readStatement]
  refine .next fun kind => .next fun site => ?_
  split
  · refine .next fun view => (RootExpr.ofNode_isRead view.initializer).bind fun value isRead => ?_
    exact .next fun identifier => .pure (List.forall_mem_singleton.mpr isRead)
  · exact (reads.block node).bind fun list areRead => .pure areRead
  · refine .next fun view => (RootExpr.ofNode_isRead view.expression).bind fun value isRead => ?_
    exact .pure (List.forall_mem_singleton.mpr isRead)
  · refine .next fun view => (ofOption view.expression).bind fun found areRead => .pure ?_
    cases found with
    | none => exact List.forall_mem_nil _
    | some value => exact List.forall_mem_singleton.mpr (areRead value rfl)
  · refine .next fun view => (ofOption view.expression).bind fun found areRead => .pure ?_
    cases found with
    | none => exact List.forall_mem_nil _
    | some value => exact List.forall_mem_singleton.mpr (areRead value rfl)
  · exact .pure (List.forall_mem_nil _)
  · refine .next fun view => (reads.block view.body).bind fun body areRead => ?_
    refine (RootExpr.ofNode_isRead view.condition).bind fun condition isRead => .pure ?_
    exact List.forall_mem_append.mpr ⟨areRead, List.forall_mem_singleton.mpr isRead⟩
  · exact .error _

theorem readBlock_roots {levels : Nat} (reads : ReadsRoots tree levels) (node : NodeId) :
    (readBlock tree (levels + 1) node).Yields fun list =>
      ∀ root ∈ list.roots, root.IsRead tree := by
  rw [readBlock]
  refine .next fun site => .next fun view => ?_
  exact (Checked.Yields.mapM reads.statement).bind fun statements areRead =>
    .pure (Statement.allRoots_areRead areRead)

theorem readsRoots (levels : Nat) : ReadsRoots tree levels := by
  induction levels with
  | zero =>
      refine ⟨fun _ => ?_, fun _ => ?_⟩
      · rw [readStatement]
        exact .error _
      · rw [readBlock]
        exact .error _
  | succ levels ih => exact ⟨readStatement_roots ih, readBlock_roots ih⟩

/-- The roots of a file are what is read at their nodes. -/
theorem StatementList.roots_areRead :
    (StatementList.ofTree tree).Yields fun list => ∀ root ∈ list.roots, root.IsRead tree := by
  refine .next fun site => .next fun view => ?_
  exact (Checked.Yields.mapM (readsRoots (readingLevels tree)).statement).bind
    fun statements areRead => .pure (Statement.allRoots_areRead areRead)

namespace RootExpr.IsRead

variable {root : RootExpr} (isRead : root.IsRead tree)

include isRead

/-- A root that nothing lies too deep below is read as an expression. -/
theorem exists_expression (notDeep : ¬tree.IsTooDeep root.site.node) :
    ∃ expr, root = .expression expr := by
  rw [isTooDeep_iff] at notDeep
  rw [IsRead, RootExpr.ofNode, readingLevels, readRoot, if_neg notDeep] at isRead
  obtain ⟨expr, _, isExpression⟩ := Checked.bind_eq_ok_iff.mp isRead
  exact ⟨expr, (Checked.pure_eq_ok_iff.mp isExpression).symm⟩

/-- A root that something lies too deep below is kept as a place, that of its first token. -/
theorem exists_tooDeep (isDeep : tree.IsTooDeep root.site.node) :
    ∃ reported, root = .tooDeep root.site reported ∧ ∀ first token,
      tree.firstToken? root.site.node = .ok (some first) → tree.tokens[first]? = some token →
        reported = tree.location token.span := by
  rw [IsRead, RootExpr.ofNode, readingLevels, readRoot, if_pos (isTooDeep_iff.mp isDeep)] at isRead
  obtain ⟨site, siteEq, isRead⟩ := Checked.bind_eq_ok_iff.mp isRead
  obtain ⟨found, foundEq, isRead⟩ := Checked.bind_eq_ok_iff.mp isRead
  cases found with
  | none =>
      rw [foundEq]
      cases isRead
      refine ⟨_, rfl, ?_⟩
      rintro first token ⟨⟩
  | some own =>
      obtain ⟨reported, reportedEq, isRead⟩ := Checked.bind_eq_ok_iff.mp isRead
      rw [foundEq]
      cases isRead
      refine ⟨reported, rfl, ?_⟩
      rintro first token ⟨⟩ isToken
      rw [tokenLocation, SyntaxTree.token, isToken] at reportedEq
      exact (Except.ok.inj reportedEq).symm

end RootExpr.IsRead

mutual

/-- The roots of a statement are what the tree says at their nodes. -/
theorem Statement.roots_at (statement : Statement) (isAt : statement.At tree damaged) :
    ∀ root ∈ statement.roots, root.At tree damaged := by
  match statement with
  | .localDeclaration site identifier value => exact List.forall_mem_singleton.mpr isAt.2.2
  | .expression site value | .returnValue site (some value) | .yieldReturn site (some value) =>
      exact List.forall_mem_singleton.mpr isAt.2
  | .returnValue site none | .yieldReturn site none | .yieldBreak site =>
      exact List.forall_mem_nil _
  | .doWhile site bodySite body condition =>
      rcases isAt with ⟨_, _, bodyAt, conditionAt⟩
      exact List.forall_mem_append.mpr
        ⟨Statement.allRoots_at body bodyAt, List.forall_mem_singleton.mpr conditionAt⟩
  | .block site statements => exact Statement.allRoots_at statements isAt.2

theorem Statement.allRoots_at (statements : List Statement)
    (areAt : Statement.AllAt tree damaged statements) :
    ∀ root ∈ Statement.allRoots statements, root.At tree damaged := by
  match statements with
  | [] => exact List.forall_mem_nil _
  | statement :: rest =>
      rw [Statement.allRoots]
      exact List.forall_mem_append.mpr
        ⟨Statement.roots_at statement areAt.1, Statement.allRoots_at rest areAt.2⟩

end

end QueryLang
