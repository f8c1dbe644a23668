import QueryLang.Proofs.Program.Reading
import QueryLang.Proofs.Program.Sites
import QueryLang.Proofs.Program.Using
import QueryLang.Proofs.Program.Visiting
import QueryLang.Proofs.Syntax.Nesting

/-!
# Lists of statements

A file is a list of statements, and so is every block in it. `nested` has all of them, one for each
block of the tree. What is reported about a list is said of the list alone, whatever lists its
statements have inside: which of its locals have the name of an earlier one, and which of its
statements is the first that control does not reach.
-/

namespace QueryLang

/-- What is reported about a local that has the name of an earlier one. -/
def Identifier.duplicateReport (identifier : Identifier) : Diagnostic :=
  .located identifier.location .duplicateLocal identifier.name.toList

namespace Statement

/-- What is reported about a statement that control does not reach. -/
def unreachableReport (statement : Statement) : Diagnostic :=
  .located statement.site.location .unreachableCode []

/-- The identifier of the local that a statement declares. -/
def local? : Statement → Option Identifier
  | localDeclaration _ identifier _ => some identifier
  | _ => none

/-- Whether control does not come past a statement. -/
def isTerminal : Statement → Bool
  | returnValue _ _ | yieldBreak _ => true
  | _ => false

/-- The statement right after the first one that control does not come past. -/
def firstUnreachable? (statements : List Statement) : Option Statement :=
  (statements.dropWhile (!·.isTerminal)).tail.head?

mutual

/-- The lists inside of a statement, and those inside of them. -/
def innerLists : Statement → List StatementList
  | doWhile _ bodySite body _ => ⟨bodySite, body⟩ :: allInnerLists body
  | block site statements => ⟨site, statements⟩ :: allInnerLists statements
  | localDeclaration _ _ _ | expression _ _ | returnValue _ _ | yieldReturn _ _ | yieldBreak _ => []

/-- The lists inside of some statements, and those inside of them. -/
def allInnerLists : List Statement → List StatementList
  | [] => []
  | statement :: rest => statement.innerLists ++ allInnerLists rest

end

theorem firstUnreachable?_cons (statement : Statement) (rest : List Statement) :
    firstUnreachable? (statement :: rest) =
      if statement.isTerminal then rest.head? else firstUnreachable? rest := by
  cases isTerminal : statement.isTerminal <;> simp [firstUnreachable?, isTerminal]

/-- Some statement is unreachable just if one before the last is terminal. -/
theorem firstUnreachable?_isSome_iff (statements : List Statement) :
    (firstUnreachable? statements).isSome ↔
      ∃ statement ∈ statements.dropLast, statement.isTerminal = true := by
  induction statements with
  | nil => simp [firstUnreachable?]
  | cons statement rest ih =>
      rw [firstUnreachable?_cons]
      cases rest with
      | nil => cases statement.isTerminal <;> simp [firstUnreachable?]
      | cons next others =>
          rw [List.dropLast_cons_cons, List.exists_mem_cons_iff, ← ih]
          cases statement.isTerminal <;> simp

end Statement

namespace StatementList

/-- The list and all lists inside of it, at any depth. -/
def nested (list : StatementList) : List StatementList :=
  list :: Statement.allInnerLists list.statements

/-- The identifiers of the list's own locals. -/
def locals (list : StatementList) : List Identifier :=
  list.statements.filterMap Statement.local?

/-- The locals of the list that have the name of an earlier one. One without a name has none. -/
def repeatedLocals (list : StatementList) : List Identifier :=
  (list.locals.zipIdx.filter fun entry =>
    entry.1.name.isSome && (list.locals.take entry.2).any (·.name == entry.1.name)).map Prod.fst

/-- The reports on locals of the list that have the name of an earlier one. -/
def duplicateReports (list : StatementList) : Diagnostics :=
  list.repeatedLocals.map Identifier.duplicateReport

/-- The report on the first statement of the list that control does not reach. -/
def unreachableReports (list : StatementList) : Diagnostics :=
  (Statement.firstUnreachable? list.statements).toList.map Statement.unreachableReport

end StatementList

/-! ### The lists of a tree -/

variable {tree : SyntaxTree} {damaged : Prop} {top id : NodeId}

/-- Nodes in roles without blocks are no statements, and have no children that are. -/
theorem Production.holdsBlocks_of_isExpression {role : Role} {kind : Kind} {roles : List Role}
    (production : Production damaged role kind roles) (isExpression : kind.isExpression = true) :
    role.holdsBlocks = false := by
  induction production with
  | ofBlock _ ih => cases ih isExpression
  | name | ofName | literal | parenthesized | query | ofPrimary | memberAccess | invocation
  | ofOperand | binary | noArguments | someArguments | fromClause | ofFromClause | whereClause
  | letClause | selectClause | groupClause | conclusion | queryBody | concludedBody => rfl
  | _ => cases isExpression

/-- Statements stand only in roles with blocks. -/
theorem Production.holdsBlocks_of_isStatement {role : Role} {kind : Kind} {roles : List Role}
    (production : Production damaged role kind roles) (isStatement : kind.isStatement = true) :
    role.holdsBlocks = true := by
  induction production with
  | ofName _ ih | ofPrimary _ ih | ofOperand _ ih | ofFromClause _ ih => cases ih isStatement
  | literal isLiteral =>
      unfold Kind.literalToken? at isLiteral
      split at isLiteral
      all_goals first | cases isStatement | cases isLiteral
  | ofBlock | block | file | localDeclaration | returnNothing | returnValue | yieldReturn
  | yieldBreak | doStatement | expressionStatement => rfl
  | _ => cases isStatement

namespace SyntaxTree

/-- Nothing below a node in a role without blocks is a statement. -/
theorem FormedAt.not_statement_below {height : Nat} {role : Role} {kind : Kind}
    (formed : tree.FormedAt damaged height role (.node top)) (holdsNone : role.holdsBlocks = false)
    (below : tree.Below top id) (kindEq : tree.kind id = .ok kind) : kind.isStatement = false := by
  induction below generalizing height role with
  | refl =>
      rcases formed.parts with ⟨_, own, _, _, ownEq, production, _⟩
      cases kindEq.symm.trans ownEq
      refine Bool.eq_false_iff.mpr fun isStatement => Bool.eq_false_iff.mp holdsNone ?_
      exact production.holdsBlocks_of_isStatement isStatement
  | @inside top child id node found isChild _ ih =>
      rcases formed.parts with ⟨lower, kind, roles, rfl, _, production, same, foundSame, formedAll⟩
      cases found.symm.trans foundSame
      rcases List.mem_iff_get.mp isChild with ⟨index, childEq⟩
      have inRoles : index < roles.length := formedAll.length_eq.symm ▸ index.isLt
      have formedChild := (List.forall₂_iff_get.mp formedAll).2 index inRoles index.isLt
      rw [childEq] at formedChild
      refine ih formedChild (Bool.eq_false_iff.mpr fun holds => Bool.eq_false_iff.mp holdsNone ?_)
        kindEq
      exact production.role_holdsBlocks
        (production.kind_holdsBlocks (List.getElem_mem inRoles) holds)

theorem WellFormed.not_statement_below (wellFormed : tree.WellFormed damaged) {kind : Kind}
    (isExpression : tree.IsExpression top) (below : tree.Below top id)
    (kindEq : tree.kind id = .ok kind) : kind.isStatement = false := by
  rcases isExpression with ⟨own, ownEq, isExpression⟩
  rcases wellFormed.formed top (lt_of_kind ownEq) with ⟨role, formed⟩
  rcases formed.parts with ⟨_, same, _, _, sameEq, production, _⟩
  cases ownEq.symm.trans sameEq
  have holdsNone := production.holdsBlocks_of_isExpression isExpression
  exact formed.not_statement_below holdsNone below kindEq

/-- The nodes at or below some others of which something holds are these, without repetition. -/
structure Finds (tree : SyntaxTree) (isSought : NodeId → Prop) (tops found : List NodeId) :
    Prop where
  nodup : found.Nodup
  mem_iff : ∀ node, node ∈ found ↔ (∃ top ∈ tops, tree.Below top node) ∧ isSought node

namespace Finds

variable {isSought : NodeId → Prop} {tops children found others : List NodeId} {kind : Kind}

theorem nil : tree.Finds isSought [] [] where
  nodup := List.nodup_nil
  mem_iff := by simp

theorem cons (first : tree.Finds isSought [top] found) (rest : tree.Finds isSought tops others)
    (separate : tree.Separate (top :: tops)) :
    tree.Finds isSought (top :: tops) (found ++ others) where
  nodup := by
    refine List.nodup_append.mpr ⟨first.nodup, rest.nodup, ?_⟩
    rintro node isFirst _ isRest rfl
    rcases (first.mem_iff node).mp isFirst with ⟨⟨own, isOwn, below⟩, _⟩
    rcases (rest.mem_iff node).mp isRest with ⟨⟨other, isOther, belowOther⟩, _⟩
    cases List.mem_singleton.mp isOwn
    exact List.rel_of_pairwise_cons separate isOther node below belowOther
  mem_iff := by
    intro node
    rw [List.mem_append, first.mem_iff, rest.mem_iff, ← or_and_right]
    simp only [List.mem_cons, List.not_mem_nil, or_false, exists_eq_left, or_and_right, exists_or]

/-- Below a node that is none of them are those below its children. -/
theorem skip (branch : tree.BranchAt top kind children) (notSought : ¬isSought top)
    (inner : tree.Finds isSought children found) : tree.Finds isSought [top] found where
  nodup := inner.nodup
  mem_iff := by
    intro id
    rw [inner.mem_iff]
    refine and_congr_left fun sought => ?_
    simp only [List.mem_singleton, exists_eq_left, branch.below_iff]
    refine ⟨.inr, ?_⟩
    rintro (rfl | below)
    · exact absurd sought notSought
    · exact below

/-- A node that is one of them comes before those below its children. -/
theorem take (wellFormed : tree.WellFormed damaged) (branch : tree.BranchAt top kind children)
    (sought : isSought top) (inner : tree.Finds isSought children found) :
    tree.Finds isSought [top] (top :: found) where
  nodup := by
    refine List.nodup_cons.mpr ⟨fun inside => ?_, inner.nodup⟩
    rcases (inner.mem_iff top).mp inside with ⟨⟨child, isChild, below⟩, _⟩
    exact wellFormed.not_below_child branch isChild below
  mem_iff := by
    intro id
    rw [List.mem_cons, inner.mem_iff]
    simp only [List.mem_singleton, exists_eq_left, branch.below_iff, or_and_right]
    refine or_congr_left ⟨?_, And.left⟩
    rintro rfl
    exact ⟨rfl, sought⟩

end Finds

/-- The blocks at or below some nodes are these, without repetition. -/
abbrev HasBlocks (tree : SyntaxTree) : (tops blocks : List NodeId) → Prop :=
  tree.Finds fun node => tree.kind node = .ok .block

namespace HasBlocks

variable {children blocks : List NodeId} {kind : Kind}

theorem expression (wellFormed : tree.WellFormed damaged) (isExpression : tree.IsExpression top) :
    tree.HasBlocks [top] [] where
  nodup := List.nodup_nil
  mem_iff := by
    intro node
    simp only [List.not_mem_nil, List.mem_singleton, exists_eq_left, false_iff, not_and]
    intro below isBlock
    cases wellFormed.not_statement_below isExpression below isBlock

/-- The blocks below a node that is none itself are those below its children. -/
theorem node (branch : tree.BranchAt top kind children) (notBlock : kind ≠ .block)
    (inner : tree.HasBlocks children blocks) : tree.HasBlocks [top] blocks :=
  inner.skip branch fun isBlock =>
    notBlock (Except.ok.inj (branch.kind_eq.symm.trans isBlock))

/-- A block comes before the blocks below its children. -/
theorem block (wellFormed : tree.WellFormed damaged) (branch : tree.BranchAt top .block children)
    (inner : tree.HasBlocks children blocks) : tree.HasBlocks [top] (top :: blocks) :=
  inner.take wellFormed branch branch.kind_eq

end HasBlocks

end SyntaxTree

open SyntaxTree

/-- A statement with an expression at most has no blocks. -/
theorem SyntaxTree.BranchAt.hasBlocks_root (wellFormed : tree.WellFormed damaged) {kind : Kind}
    {root : RootExpr} (branch : tree.BranchAt top kind [root.site.node]) (notBlock : kind ≠ .block)
    (isAt : root.At tree damaged) : tree.HasBlocks [top] [] :=
  .node branch notBlock (.expression wellFormed isAt.isExpression)

mutual

/-- The lists inside of a statement are the blocks at and below its node. -/
theorem Statement.hasBlocks (wellFormed : tree.WellFormed damaged) (statement : Statement)
    (isAt : statement.At tree damaged) :
    tree.HasBlocks [statement.site.node] (statement.innerLists.map (·.site.node)) := by
  match statement with
  | .localDeclaration site identifier value =>
      exact isAt.1.hasBlocks_root wellFormed (by decide) isAt.2.2
  | .expression site value | .returnValue site (some value) | .yieldReturn site (some value) =>
      exact isAt.1.hasBlocks_root wellFormed (by decide) isAt.2
  | .returnValue site none | .yieldBreak site => exact .node isAt (by decide) .nil
  | .yieldReturn site none => exact isAt.elim
  | .doWhile site bodySite body condition =>
      rcases isAt with ⟨branch, bodyBranch, bodyAt, conditionAt⟩
      have ofBody := HasBlocks.block wellFormed bodyBranch
        (Statement.allHasBlocks wellFormed body bodyAt (wellFormed.separate bodyBranch))
      have both := ofBody.cons (HasBlocks.expression wellFormed conditionAt.isExpression)
        (wellFormed.separate branch)
      rw [List.append_nil] at both
      exact .node branch (by decide) both
  | .block site statements =>
      rcases isAt with ⟨branch, statementsAt⟩
      exact .block wellFormed branch
        (Statement.allHasBlocks wellFormed statements statementsAt (wellFormed.separate branch))

theorem Statement.allHasBlocks (wellFormed : tree.WellFormed damaged) (statements : List Statement)
    (areAt : Statement.AllAt tree damaged statements)
    (separate : tree.Separate (statements.map fun statement => statement.site.node)) :
    tree.HasBlocks (statements.map fun statement => statement.site.node)
      ((Statement.allInnerLists statements).map (·.site.node)) := by
  match statements with
  | [] => exact .nil
  | statement :: rest =>
      rw [Statement.allInnerLists, List.map_append]
      exact .cons (Statement.hasBlocks wellFormed statement areAt.1)
        (Statement.allHasBlocks wellFormed rest areAt.2 (List.pairwise_cons.mp separate).2) separate

end

mutual

/-- Every list inside of a statement is what the tree says below its block. -/
theorem Statement.innerLists_at (statement : Statement) (isAt : statement.At tree damaged) :
    ∀ list ∈ statement.innerLists, list.At tree damaged .block := by
  match statement with
  | .localDeclaration site identifier value | .expression site value | .returnValue site value
  | .yieldReturn site value | .yieldBreak site => exact List.forall_mem_nil _
  | .doWhile site bodySite body condition =>
      rcases isAt with ⟨_, branch, bodyAt, _⟩
      exact List.forall_mem_cons.mpr ⟨⟨branch, bodyAt⟩, Statement.allInnerLists_at body bodyAt⟩
  | .block site statements =>
      exact List.forall_mem_cons.mpr
        ⟨⟨isAt.1, isAt.2⟩, Statement.allInnerLists_at statements isAt.2⟩

theorem Statement.allInnerLists_at (statements : List Statement)
    (areAt : Statement.AllAt tree damaged statements) :
    ∀ list ∈ Statement.allInnerLists statements, list.At tree damaged .block := by
  match statements with
  | [] => exact List.forall_mem_nil _
  | statement :: rest =>
      rw [Statement.allInnerLists]
      exact List.forall_mem_append.mpr
        ⟨Statement.innerLists_at statement areAt.1, Statement.allInnerLists_at rest areAt.2⟩

end

mutual

/-- The sites in a list inside of a statement are sites of the statement. -/
theorem Statement.innerLists_sites (statement : Statement) :
    ∀ list ∈ statement.innerLists, Statement.allSites list.statements ⊆ statement.sites := by
  match statement with
  | .localDeclaration site identifier value | .expression site value | .returnValue site value
  | .yieldReturn site value | .yieldBreak site => exact List.forall_mem_nil _
  | .doWhile site bodySite body condition =>
      have sub : Statement.allSites body ⊆
          (Statement.doWhile site bodySite body condition).sites := by
        intro own isOwn
        simp [Statement.sites, isOwn]
      refine List.forall_mem_cons.mpr ⟨sub, fun list isInner => ?_⟩
      exact List.Subset.trans (Statement.allInnerLists_sites body list isInner) sub
  | .block site statements =>
      have sub := List.subset_cons_self site (Statement.allSites statements)
      refine List.forall_mem_cons.mpr ⟨sub, fun list isInner => ?_⟩
      exact List.Subset.trans (Statement.allInnerLists_sites statements list isInner) sub

theorem Statement.allInnerLists_sites (statements : List Statement) :
    ∀ list ∈ Statement.allInnerLists statements,
      Statement.allSites list.statements ⊆ Statement.allSites statements := by
  match statements with
  | [] => exact List.forall_mem_nil _
  | statement :: rest =>
      rw [Statement.allInnerLists]
      refine List.forall_mem_append.mpr ⟨fun list isInner => ?_, fun list isInner => ?_⟩
      · exact List.subset_append_of_subset_left _
          (Statement.innerLists_sites statement list isInner)
      · exact List.subset_append_of_subset_right _
          (Statement.allInnerLists_sites rest list isInner)

end

namespace StatementList

/-- The lists are those of a tree: the whole file and each of its blocks, once, with the statements
that the tree has there. -/
structure AreListsOf (lists : List StatementList) (tree : SyntaxTree) (damaged : Prop) : Prop where
  nodup : (lists.map (·.site.node)).Nodup
  mem_iff : ∀ node, node ∈ lists.map (·.site.node) ↔ node = root ∨ tree.kind node = .ok .block
  isAt : ∀ list ∈ lists, ∃ kind, list.At tree damaged kind
  sited : ∀ list ∈ lists, ∀ statement ∈ list.statements, statement.site.IsIn tree

theorem nested_areListsOf (wellFormed : tree.WellFormed damaged) {list : StatementList}
    (isRoot : list.site.node = root) (isAt : list.At tree damaged .compilationUnit)
    (sitesIn : SitesIn tree (Statement.allSites list.statements)) :
    AreListsOf list.nested tree damaged := by
  have inner := Statement.allHasBlocks wellFormed list.statements isAt.statements
    (wellFormed.separate isAt.branch)
  have whole := HasBlocks.node isAt.branch (by decide) inner
  rw [isRoot] at whole
  have isInner (node : NodeId) :
      node ∈ (Statement.allInnerLists list.statements).map (·.site.node) ↔
        tree.kind node = .ok .block := by
    rw [whole.mem_iff]
    simp only [List.mem_singleton, exists_eq_left, and_iff_right_iff_imp]
    exact fun isBlock => wellFormed.reachable node (lt_of_kind isBlock)
  have sub : ∀ inner ∈ list.nested,
      Statement.allSites inner.statements ⊆ Statement.allSites list.statements :=
    List.forall_mem_cons.mpr ⟨List.Subset.refl _, Statement.allInnerLists_sites list.statements⟩
  refine ⟨?_, fun node => ?_, ?_, fun inner isInner statement isStatement => ?_⟩
  · refine List.nodup_cons.mpr ⟨fun inside => ?_, inner.nodup⟩
    cases ((isInner _).mp inside).symm.trans isAt.branch.kind_eq
  · rw [nested, List.map_cons, List.mem_cons, isInner, isRoot]
  · refine List.forall_mem_cons.mpr ⟨⟨_, isAt⟩, fun inner isInner => ⟨.block, ?_⟩⟩
    exact Statement.allInnerLists_at list.statements isAt.statements inner isInner
  · exact sitesIn _ (sub inner isInner
      (Statement.mem_allSites isStatement _ statement.site_mem_sites))

end StatementList

end QueryLang
