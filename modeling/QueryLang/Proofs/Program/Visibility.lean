import Mathlib.Data.List.Nodup
import QueryLang.Proofs.Program.Standing

/-!
# What is visible where

`VisibleAt` says which declarations a node of the tree sees, innermost first, by the nodes that
declare. It looks at the tree only: what is visible does not depend on what is declared under the
same name elsewhere, nor on whether the declarations make sense.
-/

namespace QueryLang

/-- Whether nodes of a kind declare a variable for the nodes after them: `var` statements, and
`from` and `let` clauses. -/
def Kind.isVariable : Kind → Bool
  | .localDeclarationStatement | .fromClause | .letClause => true
  | _ => false

namespace SyntaxTree

variable {tree : SyntaxTree} {damaged : Prop}

/-- The name of a node that has an identifier of its own, unless the identifier is missing. -/
def nameAt? (tree : SyntaxTree) (node : NodeId) : Option String :=
  match tree.childToken? node .identifierToken with
  | .ok (some id) =>
    match tree.token id with
    | .ok token => if token.isMissing then none else token.value
    | .error _ => none
  | .ok none | .error _ => none

/-- A node has an identifier of its own, and it says this name. -/
def Names (tree : SyntaxTree) (node : NodeId) (name : String) : Prop :=
  tree.nameAt? node = some name

/-- Whether a node declares a variable for the nodes after it. -/
def isVariable (tree : SyntaxTree) (node : NodeId) : Bool :=
  match tree.kind node with
  | .ok kind => kind.isVariable
  | .error _ => false

/-- Those of some nodes that declare a variable, the last of them first. -/
def variableNodes (tree : SyntaxTree) (nodes : List NodeId) : List NodeId :=
  (nodes.filter tree.isVariable).reverse

/-- A node sees declarations. -/
inductive VisibleAt (tree : SyntaxTree) : NodeId → List NodeId → Prop
  /-- The file sees none. -/
  | file : VisibleAt tree root []
  /-- A node sees the variables that are declared before it next to it, and what the node around
  it sees. -/
  | child {parent node : NodeId} {kind earlier later visible} (around : VisibleAt tree parent visible)
      (branch : tree.BranchAt parent kind (earlier ++ node :: later))
      (ordinary : kind ≠ .queryConclusion) (notConclusion : tree.kind node ≠ .ok .queryConclusion) :
      VisibleAt tree node (tree.variableNodes earlier ++ visible)
  /-- A conclusion sees what its query sees, and none of the variables of the query. -/
  | conclusion {query first body conclusion : NodeId} {clauses visible}
      (around : VisibleAt tree query visible)
      (isQuery : tree.BranchAt query .queryExpression [first, body])
      (isBody : tree.BranchAt body .queryBody clauses) (isClause : conclusion ∈ clauses)
      (isConclusion : tree.kind conclusion = .ok .queryConclusion) :
      VisibleAt tree conclusion visible
  /-- The body of a conclusion sees the variable of the conclusion as well. -/
  | conclusionBody {conclusion node : NodeId} {children visible}
      (around : VisibleAt tree conclusion visible)
      (branch : tree.BranchAt conclusion .queryConclusion children) (isChild : node ∈ children) :
      VisibleAt tree node (conclusion :: visible)

theorem Names.unique {node : NodeId} {name other : String} (names : tree.Names node name)
    (namesOther : tree.Names node other) : name = other :=
  Option.some.inj (names.symm.trans namesOther)

theorem DeclaresAt.names_iff {node : NodeId} {identifier : Identifier}
    (declares : tree.DeclaresAt damaged node identifier) {name : String} :
    tree.Names node name ↔ identifier.name = some name := by
  rcases declares.token with ⟨id, token, found, isToken, _, isName⟩
  have nameEq : tree.nameAt? node = identifier.name := by
    rw [nameAt?, found]
    dsimp only
    rw [isToken, isName]
  rw [Names, nameEq]

theorem variableNodes_append (lefts rights : List NodeId) :
    tree.variableNodes (lefts ++ rights) =
      tree.variableNodes rights ++ tree.variableNodes lefts := by
  simp [variableNodes]

theorem variableNodes_cons (node : NodeId) (rest : List NodeId) :
    tree.variableNodes (node :: rest) = tree.variableNodes rest ++ tree.variableNodes [node] :=
  variableNodes_append [node] rest

theorem variableNodes_singleton {node : NodeId} {kind : Kind} (kindEq : tree.kind node = .ok kind) :
    tree.variableNodes [node] = if kind.isVariable then [node] else [] := by
  cases isVariable : kind.isVariable with
  | true => simp [variableNodes, SyntaxTree.isVariable, kindEq, isVariable]
  | false => simp [variableNodes, SyntaxTree.isVariable, kindEq, isVariable]

/-! ### Nodes that declare nothing -/

/-- A node declares nothing. -/
def Silent (tree : SyntaxTree) (node : NodeId) : Prop :=
  ∃ kind, tree.kind node = .ok kind ∧ kind.isVariable = false ∧ kind ≠ .queryConclusion

theorem variableNodes_of_silent {nodes : List NodeId} (silent : ∀ node ∈ nodes, tree.Silent node) :
    tree.variableNodes nodes = [] := by
  rw [variableNodes, List.reverse_eq_nil_iff, List.filter_eq_nil_iff]
  intro node isNode
  rcases silent node isNode with ⟨kind, kindEq, notVariable, _⟩
  simp [isVariable, kindEq, notVariable]

/-- Where nothing is declared, a node sees what the node around it sees. -/
theorem VisibleAt.through {parent node : NodeId} {kind : Kind} {children visible : List NodeId}
    (around : tree.VisibleAt parent visible) (branch : tree.BranchAt parent kind children)
    (ordinary : kind ≠ .queryConclusion) (silent : ∀ child ∈ children, tree.Silent child)
    (isChild : node ∈ children) : tree.VisibleAt node visible := by
  rcases List.append_of_mem isChild with ⟨earlier, later, rfl⟩
  have notConclusion : tree.kind node ≠ .ok .queryConclusion := by
    rcases silent node isChild with ⟨kind, kindEq, _, other⟩
    rw [kindEq]
    rintro ⟨⟩
    exact other rfl
  have sees := VisibleAt.child around branch ordinary notConclusion
  rw [variableNodes_of_silent fun other isEarlier => silent other (by simp [isEarlier])] at sees
  exact sees

theorem BranchAt.silent {node : NodeId} {kind : Kind} {children : List NodeId}
    (branch : tree.BranchAt node kind children) (notVariable : kind.isVariable = false)
    (notConclusion : kind ≠ .queryConclusion) : tree.Silent node :=
  ⟨kind, branch.kind_eq, notVariable, notConclusion⟩

theorem NameAt.silent {node : NodeId} {identifier : Identifier}
    (isName : tree.NameAt damaged node identifier) : tree.Silent node :=
  isName.branch.silent rfl (by decide)

/-! ### What a node sees is determined by the tree -/

theorem WellFormed.childNodes_parent (wellFormed : tree.WellFormed damaged) {parent node : Nat}
    {children : List NodeId} (childrenEq : tree.childNodes parent = .ok children)
    (isChild : node ∈ children) : tree.parentOf? (.node node) = some parent := by
  rcases Checked.bind_eq_ok_iff.mp childrenEq with ⟨own, isOwn, rest⟩
  cases found : tree.nodes[parent]? with
  | none => simp [SyntaxTree.node, found] at isOwn
  | some inner =>
      simp only [SyntaxTree.node, found, Except.ok.injEq] at isOwn
      rw [← isOwn] at rest
      rw [← Checked.pure_eq_ok_iff.mp rest] at isChild
      rcases List.mem_filterMap.mp isChild with ⟨element, isElement, isNode⟩
      cases element with
      | token id => cases isNode
      | node id =>
          cases isNode
          exact wellFormed.child_parent found _ isElement

theorem WellFormed.childNodes_nodup (wellFormed : tree.WellFormed damaged) {parent : Nat}
    {children : List NodeId} (childrenEq : tree.childNodes parent = .ok children) :
    children.Nodup := by
  rcases Checked.bind_eq_ok_iff.mp childrenEq with ⟨own, isOwn, rest⟩
  cases found : tree.nodes[parent]? with
  | none => simp [SyntaxTree.node, found] at isOwn
  | some inner =>
      simp only [SyntaxTree.node, found, Except.ok.injEq] at isOwn
      rw [← isOwn] at rest
      rw [← Checked.pure_eq_ok_iff.mp rest]
      refine (wellFormed.children_nodup found).filterMap ?_
      intro left right id isLeft isRight
      cases left with
      | token leftId => cases isLeft
      | node leftId =>
          cases right with
          | token rightId => cases isRight
          | node rightId =>
              cases isLeft
              cases isRight
              rfl

theorem WellFormed.sameParent (wellFormed : tree.WellFormed damaged) {left right node : NodeId}
    {leftKind rightKind : Kind} {lefts rights : List NodeId}
    (leftBranch : tree.BranchAt left leftKind lefts) (inLefts : node ∈ lefts)
    (rightBranch : tree.BranchAt right rightKind rights) (inRights : node ∈ rights) :
    right = left ∧ rightKind = leftKind ∧ rights = lefts := by
  have leftParent := wellFormed.childNodes_parent leftBranch.children_eq inLefts
  have rightParent := wellFormed.childNodes_parent rightBranch.children_eq inRights
  cases leftParent.symm.trans rightParent
  exact ⟨rfl, Except.ok.inj (rightBranch.kind_eq.symm.trans leftBranch.kind_eq),
    Except.ok.inj (rightBranch.children_eq.symm.trans leftBranch.children_eq)⟩

theorem WellFormed.not_mem_root (wellFormed : tree.WellFormed damaged) {parent : NodeId}
    {kind : Kind} {children : List NodeId} (branch : tree.BranchAt parent kind children) :
    root ∉ children := by
  intro isChild
  have hasParent := wellFormed.childNodes_parent branch.children_eq isChild
  rw [wellFormed.root_parent] at hasParent
  cases hasParent

/-- What a node sees is unique. -/
theorem VisibleAt.unique (wellFormed : tree.WellFormed damaged) {node : NodeId}
    {visible other : List NodeId} (sees : tree.VisibleAt node visible)
    (seesOther : tree.VisibleAt node other) : other = visible := by
  induction sees generalizing other with
  | file =>
      cases seesOther with
      | file => rfl
      | child _ branch => exact (wellFormed.not_mem_root branch (by simp)).elim
      | conclusion _ _ isBody isClause => exact (wellFormed.not_mem_root isBody isClause).elim
      | conclusionBody _ branch isChild => exact (wellFormed.not_mem_root branch isChild).elim
  | @child parent node kind earlier later visible _ branch ordinary notConclusion ih =>
      have isChild : node ∈ earlier ++ node :: later := by simp
      cases seesOther with
      | file => exact (wellFormed.not_mem_root branch isChild).elim
      | child aroundOther otherBranch =>
          rcases wellFormed.sameParent branch isChild otherBranch (by simp) with ⟨rfl, _, same⟩
          have nodup := wellFormed.childNodes_nodup otherBranch.children_eq
          rw [List.nodup_middle, List.nodup_cons, List.mem_append, not_or] at nodup
          rcases (List.append_cons_inj_of_notMem nodup.1.1 nodup.1.2).mp same with ⟨rfl, _⟩
          rw [ih aroundOther]
      | conclusion _ _ _ _ isConclusion => exact absurd isConclusion notConclusion
      | conclusionBody _ otherBranch isOtherChild =>
          rcases wellFormed.sameParent branch isChild otherBranch isOtherChild with ⟨_, same, _⟩
          exact absurd same.symm ordinary
  | conclusion _ isQuery isBody isClause isConclusion ih =>
      cases seesOther with
      | file => exact (wellFormed.not_mem_root isBody isClause).elim
      | child _ _ _ notConclusion => exact absurd isConclusion notConclusion
      | conclusion aroundOther isOtherQuery isOtherBody isOtherClause =>
          rcases wellFormed.sameParent isBody isClause isOtherBody isOtherClause with ⟨rfl, _⟩
          rcases wellFormed.sameParent isQuery (List.mem_pair.mpr (.inr rfl)) isOtherQuery
            (List.mem_pair.mpr (.inr rfl)) with ⟨rfl, _⟩
          exact ih aroundOther
      | conclusionBody _ otherBranch isOtherChild =>
          rcases wellFormed.sameParent isBody isClause otherBranch isOtherChild with ⟨_, same, _⟩
          cases same
  | conclusionBody _ branch isChild ih =>
      cases seesOther with
      | file => exact (wellFormed.not_mem_root branch isChild).elim
      | child _ otherBranch ordinary =>
          rcases wellFormed.sameParent branch isChild otherBranch (by simp) with ⟨_, same, _⟩
          exact absurd same ordinary
      | conclusion _ _ isBody isClause =>
          rcases wellFormed.sameParent branch isChild isBody isClause with ⟨_, same, _⟩
          cases same
      | conclusionBody aroundOther otherBranch isOtherChild =>
          rcases wellFormed.sameParent branch isChild otherBranch isOtherChild with ⟨rfl, _⟩
          rw [ih aroundOther]

end SyntaxTree

/-! ### Programs -/

variable {tree : SyntaxTree} {damaged : Prop}

theorem Kind.silent_of_isExpression {kind : Kind} (isExpression : kind.isExpression = true) :
    kind.isVariable = false ∧ kind ≠ .queryConclusion := by
  unfold Kind.isExpression at isExpression
  split at isExpression
  all_goals first
    | exact ⟨rfl, by decide⟩
    | cases isExpression

theorem Expr.At.isExpression {expr : Expr} (isAt : expr.At tree damaged) :
    ∃ kind, tree.kind expr.site.node = .ok kind ∧ kind.isExpression = true := by
  cases expr with
  | name site identifier => exact ⟨_, isAt.branch.kind_eq, rfl⟩
  | literal site value =>
      rcases isAt with ⟨kind, isLiteral, branch⟩
      rcases Option.isSome_iff_exists.mp isLiteral with ⟨token, isToken⟩
      exact ⟨kind, branch.kind_eq, Kind.isExpression_of_literalToken? isToken⟩
  | parenthesized site inner => exact ⟨_, isAt.1.kind_eq, rfl⟩
  | memberAccess site receiver member =>
      rcases isAt with ⟨name, branch, _⟩
      exact ⟨_, branch.kind_eq, rfl⟩
  | memberCall site receiver member arguments =>
      rcases isAt with ⟨callee, name, list, branch, _⟩
      exact ⟨_, branch.kind_eq, rfl⟩
  | namedCall site callee arguments =>
      rcases isAt with ⟨name, list, branch, _⟩
      exact ⟨_, branch.kind_eq, rfl⟩
  | valueCall site callee text arguments =>
      rcases isAt with ⟨list, branch, _⟩
      exact ⟨_, branch.kind_eq, rfl⟩
  | binary site operator left right => exact ⟨_, isAt.1.kind_eq, rfl⟩
  | query site clauses ending conclusion =>
      rcases isAt with ⟨first, rest, body, _, branch, _⟩
      exact ⟨_, branch.kind_eq, rfl⟩

theorem Expr.At.silent {expr : Expr} (isAt : expr.At tree damaged) :
    tree.Silent expr.site.node := by
  rcases isAt.isExpression with ⟨kind, kindEq, isExpression⟩
  exact ⟨kind, kindEq, Kind.silent_of_isExpression isExpression⟩

theorem Expr.AllAt.silent {exprs : List Expr} (areAt : Expr.AllAt tree damaged exprs) :
    ∀ node ∈ exprs.map fun expr => expr.site.node, tree.Silent node := by
  induction exprs with
  | nil => simp
  | cons expr rest ih =>
      rw [List.map_cons, List.forall_mem_cons]
      exact ⟨areAt.1.silent, ih areAt.2⟩

theorem RootExpr.At.silent {root : RootExpr} (isAt : root.At tree damaged) :
    tree.Silent root.site.node := by
  cases root with
  | tooDeep site reported =>
      rcases isAt with ⟨_, kind, kindEq, isExpression, _⟩
      exact ⟨kind, kindEq, Kind.silent_of_isExpression isExpression⟩
  | expression expr => exact Expr.At.silent isAt

theorem Statement.At.notConclusion {statement : Statement} (isAt : statement.At tree damaged) :
    tree.kind statement.site.node ≠ .ok .queryConclusion := by
  have other {kind : Kind} {children : List NodeId}
      (branch : tree.BranchAt statement.site.node kind children)
      (isOther : kind ≠ .queryConclusion) :
      tree.kind statement.site.node ≠ .ok .queryConclusion := by
    rw [branch.kind_eq]
    rintro ⟨⟩
    exact isOther rfl
  cases statement with
  | localDeclaration site identifier initializer => exact other isAt.1 (by decide)
  | expression site value => exact other isAt.1 (by decide)
  | returnValue site value =>
      cases value with
      | none => exact other isAt (by decide)
      | some value => exact other isAt.1 (by decide)
  | yieldReturn site value =>
      cases value with
      | none => exact isAt.elim
      | some value => exact other isAt.1 (by decide)
  | yieldBreak site => exact other isAt (by decide)
  | doWhile site bodySite body condition => exact other isAt.1 (by decide)
  | block site statements => exact other isAt.1 (by decide)

theorem Statement.AllAt.of_mem {statements : List Statement}
    (areAt : Statement.AllAt tree damaged statements) {statement : Statement}
    (isStatement : statement ∈ statements) : statement.At tree damaged := by
  induction statements with
  | nil => cases isStatement
  | cons first rest ih =>
      rcases List.mem_cons.mp isStatement with rfl | inRest
      · exact areAt.1
      · exact ih areAt.2 inRest

theorem Clause.AllAt.of_mem {clauses : List Clause} (areAt : Clause.AllAt tree damaged clauses)
    {clause : Clause} (isClause : clause ∈ clauses) : clause.At tree damaged := by
  induction clauses with
  | nil => cases isClause
  | cons first rest ih =>
      rcases List.mem_cons.mp isClause with rfl | inRest
      · exact areAt.1
      · exact ih areAt.2 inRest

theorem Clause.At.notConclusion {clause : Clause} (isAt : clause.At tree damaged) :
    tree.kind clause.node ≠ .ok .queryConclusion := by
  cases clause with
  | fromClause site identifier source | whereClause site source | letClause site identifier source =>
      have kindEq := isAt.1.kind_eq
      rw [Clause.node, kindEq]
      rintro ⟨⟩

theorem QueryEnding.At.notConclusion {ending : QueryEnding} (isAt : ending.At tree damaged) :
    ∃ node, ending.nodes = [node] ∧ tree.kind node ≠ .ok .queryConclusion := by
  cases ending with
  | absent => exact isAt.elim
  | selectClause site selected =>
      refine ⟨site.node, rfl, ?_⟩
      rw [isAt.1.kind_eq]
      rintro ⟨⟩
  | groupClause site element key =>
      refine ⟨site.node, rfl, ?_⟩
      rw [isAt.1.kind_eq]
      rintro ⟨⟩

/-- Nodes in a row see what is declared before them in the row. -/
def SyntaxTree.RowSees (tree : SyntaxTree) (row visible : List NodeId) : Prop :=
  ∀ earlier node later, row = earlier ++ node :: later →
    tree.VisibleAt node (tree.variableNodes earlier ++ visible)

theorem SyntaxTree.RowSees.head {node : NodeId} {rest visible : List NodeId}
    (sees : tree.RowSees (node :: rest) visible) : tree.VisibleAt node visible :=
  sees [] node rest rfl

theorem SyntaxTree.RowSees.tail {node : NodeId} {rest visible : List NodeId}
    (sees : tree.RowSees (node :: rest) visible) :
    tree.RowSees rest (tree.variableNodes [node] ++ visible) := by
  rintro earlier next later rfl
  have seesNext := sees (node :: earlier) next later rfl
  rw [SyntaxTree.variableNodes_cons, List.append_assoc] at seesNext
  exact seesNext

/-- The statements of a list see the locals that are declared before them in the list. -/
theorem Statement.AllAt.rowSees {statements : List Statement} {node : NodeId} {kind : Kind}
    {visible : List NodeId} (areAt : Statement.AllAt tree damaged statements)
    (branch : tree.BranchAt node kind (statements.map fun statement => statement.site.node))
    (ordinary : kind ≠ .queryConclusion) (sees : tree.VisibleAt node visible) :
    tree.RowSees (statements.map fun statement => statement.site.node) visible := by
  intro earlier next later split
  have isNext : next ∈ statements.map fun statement => statement.site.node := by simp [split]
  rcases List.mem_map.mp isNext with ⟨statement, isStatement, rfl⟩
  rw [split] at branch
  exact .child sees branch ordinary (areAt.of_mem isStatement).notConclusion

section Query

variable {site : Site} {clauses : List Clause} {ending : QueryEnding} {conclusion : Conclusion}
  {visible : List NodeId}

/-- The clauses of a query see the variables that are declared before them in the query. -/
theorem Expr.At.clausesSee (isAt : (Expr.query site clauses ending conclusion).At tree damaged)
    (sees : tree.VisibleAt site.node visible) :
    tree.RowSees (clauses.map Clause.node ++ ending.nodes) visible := by
  rcases isAt with ⟨first, rest, body, rfl, branch, bodyBranch, clausesAt, endingAt, _⟩
  rcases endingAt.notConclusion with ⟨last, lastEq, lastOther⟩
  have seesBody : tree.VisibleAt body (tree.variableNodes [first.node] ++ visible) :=
    .child sees branch (by decide) (by rw [bodyBranch.kind_eq]; rintro ⟨⟩)
  intro earlier next later split
  cases earlier with
  | nil =>
      cases split
      exact .child sees branch (by decide) clausesAt.1.notConclusion
  | cons head earlier =>
      rw [List.map_cons, List.cons_append, List.cons_append, List.cons.injEq] at split
      rcases split with ⟨rfl, restSplit⟩
      have isNext : next ∈ rest.map Clause.node ++ ending.nodes := by simp [restSplit]
      have other : tree.kind next ≠ .ok .queryConclusion := by
        rcases List.mem_append.mp isNext with isClause | isEnding
        · rcases List.mem_map.mp isClause with ⟨clause, inRest, rfl⟩
          exact (Clause.AllAt.of_mem clausesAt.2 inRest).notConclusion
        · rw [lastEq, List.mem_singleton] at isEnding
          rw [isEnding]
          exact lastOther
      rw [← List.append_assoc, restSplit, List.append_assoc] at bodyBranch
      rw [SyntaxTree.variableNodes_cons, List.append_assoc]
      exact .child seesBody bodyBranch (by decide) other

/-- The conclusion of a query sees what the query sees. -/
theorem Expr.At.conclusionSees (isAt : (Expr.query site clauses ending conclusion).At tree damaged)
    (sees : tree.VisibleAt site.node visible) :
    ∀ node ∈ conclusion.nodes, tree.VisibleAt node visible := by
  rcases isAt with ⟨first, rest, body, rfl, branch, bodyBranch, _, _, conclusionAt⟩
  intro node isNode
  cases conclusion with
  | absent => cases isNode
  | present own identifier inner =>
      cases List.mem_singleton.mp isNode
      exact .conclusion sees branch bodyBranch (by simp [Conclusion.nodes]) conclusionAt.1.kind_eq

end Query

theorem SyntaxTree.RowSees.append {left right visible : List NodeId}
    (sees : tree.RowSees (left ++ right) visible) :
    tree.RowSees right (tree.variableNodes left ++ visible) := by
  rintro earlier node later rfl
  have seesNode := sees (left ++ earlier) node later (List.append_assoc _ _ _).symm
  rw [SyntaxTree.variableNodes_append, List.append_assoc] at seesNode
  exact seesNode

theorem SyntaxTree.RowSees.left {left right visible : List NodeId}
    (sees : tree.RowSees (left ++ right) visible) : tree.RowSees left visible := by
  rintro earlier node later rfl
  exact sees earlier node (later ++ right) (by simp)

end QueryLang
