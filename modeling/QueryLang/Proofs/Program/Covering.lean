import QueryLang.Proofs.Program.Subtree

/-!
# The expressions that are bound

Not every expression of a tree is bound: parentheses are not, nor are names that are parts of calls
and of member accesses, nor what is in the body of a conclusion without a name.
`SyntaxTree.Covers` says that a list has every other expression below a node, and each of them once.
-/

namespace QueryLang

namespace SyntaxTree

variable {tree : SyntaxTree} {damaged : Prop} {top id : NodeId} {kind : Kind}
  {children : List NodeId} {visited others : List NodeId}

/-- The node is an expression. -/
def IsExpression (tree : SyntaxTree) (node : NodeId) : Prop :=
  ∃ kind, tree.kind node = .ok kind ∧ kind.isExpression = true

/-- The identifier of a node is missing. -/
def LacksIdentifier (tree : SyntaxTree) (node : NodeId) : Prop :=
  ∃ id token, tree.childToken? node .identifierToken = .ok (some id) ∧ tree.token id = .ok token ∧
    token.isMissing = true

/-- A call has the node as its callee, and says by it what to call. -/
def IsCallee (tree : SyntaxTree) (node : NodeId) : Prop :=
  tree.NamesCallee node ∧ ∃ call list, tree.BranchAt call .invocationExpression [node, list]

/-- A member access has the node as the name of its member. -/
def IsMemberName (tree : SyntaxTree) (node : NodeId) : Prop :=
  ∃ access receiver, tree.BranchAt access .memberAccessExpression [receiver, node]

/-- The node is in the body of a conclusion whose identifier is missing. -/
def InLostBody (tree : SyntaxTree) (node : NodeId) : Prop :=
  ∃ conclusion children, tree.BranchAt conclusion .queryConclusion children ∧
    tree.LacksIdentifier conclusion ∧ ∃ body ∈ children, tree.Below body node

/-- Binding takes no expression from the node, even if it is one. -/
inductive PassedOver (tree : SyntaxTree) (node : NodeId) : Prop
  | parentheses (kindEq : tree.kind node = .ok .parenthesizedExpression)
  | callee (isCallee : tree.IsCallee node)
  | memberName (isMemberName : tree.IsMemberName node)
  | lostBody (inLostBody : tree.InLostBody node)

/-- Binding takes an expression from the node. -/
def IsBound (tree : SyntaxTree) (node : NodeId) : Prop :=
  tree.IsExpression node ∧ ¬tree.PassedOver node

/-- The list has what binding takes from below a node, without repetition. -/
structure Covers (tree : SyntaxTree) (top : NodeId) (visited : List NodeId) : Prop where
  nodup : visited.Nodup
  mem_iff : ∀ node, node ∈ visited ↔ tree.Below top node ∧ tree.IsBound node

/-- The list has what binding takes from below some nodes, without repetition. -/
structure CoversAll (tree : SyntaxTree) (tops visited : List NodeId) : Prop where
  nodup : visited.Nodup
  mem_iff : ∀ node, node ∈ visited ↔ (∃ top ∈ tops, tree.Below top node) ∧ tree.IsBound node

namespace CoversAll

theorem nil : tree.CoversAll [] [] where
  nodup := List.nodup_nil
  mem_iff := by simp

theorem append {tops more : List NodeId} (left : tree.CoversAll tops visited)
    (right : tree.CoversAll more others) (separate : tree.Separate (tops ++ more)) :
    tree.CoversAll (tops ++ more) (visited ++ others) where
  nodup := by
    refine List.nodup_append.mpr ⟨left.nodup, right.nodup, ?_⟩
    rintro node inLeft _ inRight rfl
    rcases (left.mem_iff node).mp inLeft with ⟨⟨top, isTop, below⟩, _⟩
    rcases (right.mem_iff node).mp inRight with ⟨⟨other, isOther, belowOther⟩, _⟩
    exact (List.pairwise_append.mp separate).2.2 top isTop other isOther node below belowOther
  mem_iff := by
    intro node
    rw [List.mem_append, left.mem_iff, right.mem_iff, ← or_and_right]
    refine and_congr_left fun _ => ?_
    simp only [List.mem_append, or_and_right, exists_or]

theorem single (covers : tree.Covers top visited) : tree.CoversAll [top] visited where
  nodup := covers.nodup
  mem_iff := by simpa using covers.mem_iff

theorem cons {tops : List NodeId} (first : tree.Covers top visited)
    (rest : tree.CoversAll tops others) (separate : tree.Separate (top :: tops)) :
    tree.CoversAll (top :: tops) (visited ++ others) :=
  (single first).append rest separate

theorem pair {other : NodeId} (first : tree.Covers top visited) (second : tree.Covers other others)
    (separate : tree.Separate [top, other]) :
    tree.CoversAll [top, other] (visited ++ others) :=
  cons first (single second) separate

end CoversAll

/-- A node that binding takes nothing from is covered by what covers its children. -/
theorem BranchAt.covers (branch : tree.BranchAt top kind children) (notBound : ¬tree.IsBound top)
    (inner : tree.CoversAll children visited) : tree.Covers top visited where
  nodup := inner.nodup
  mem_iff := by
    intro node
    rw [inner.mem_iff, branch.below_iff]
    refine and_congr_left fun isBound => ?_
    constructor
    · exact .inr
    · rintro (rfl | below)
      · exact absurd isBound notBound
      · exact below

/-- A node that binding takes an expression from comes before what covers its children. -/
theorem BranchAt.covers_cons (wellFormed : tree.WellFormed damaged)
    (branch : tree.BranchAt top kind children) (isBound : tree.IsBound top)
    (inner : tree.CoversAll children visited) : tree.Covers top (top :: visited) where
  nodup := by
    refine List.nodup_cons.mpr ⟨fun inside => ?_, inner.nodup⟩
    rcases (inner.mem_iff top).mp inside with ⟨⟨child, isChild, below⟩, _⟩
    exact wellFormed.not_below_child branch isChild below
  mem_iff := by
    intro node
    rw [List.mem_cons, inner.mem_iff, branch.below_iff, or_and_right]
    refine or_congr_left ⟨?_, And.left⟩
    rintro rfl
    exact ⟨rfl, isBound⟩

theorem not_isBound (kindEq : tree.kind top = .ok kind)
    (notExpression : kind.isExpression = false) : ¬tree.IsBound top := by
  rintro ⟨⟨other, otherEq, isExpression⟩, _⟩
  rw [kindEq] at otherEq
  cases otherEq
  rw [notExpression] at isExpression
  cases isExpression

/-! ### Where an expression stands -/

/-- Binding comes to the expression at the node, if there is one: it is not too deep, and not in a
body that is left out. -/
structure Reached (tree : SyntaxTree) (node : NodeId) : Prop where
  shallow : tree.exceedsDepth node maxExpressionDepth = false
  notLost : ¬tree.InLostBody node

/-- The node is not a mere part of a call or of a member access. -/
structure OnItsOwn (tree : SyntaxTree) (node : NodeId) : Prop where
  notCallee : ¬tree.IsCallee node
  notMemberName : ¬tree.IsMemberName node

theorem IsBound.of_reached (kindEq : tree.kind top = .ok kind)
    (isExpression : kind.isExpression = true) (notParentheses : kind ≠ .parenthesizedExpression)
    (reached : tree.Reached top) (onItsOwn : tree.OnItsOwn top) : tree.IsBound top := by
  refine ⟨⟨kind, kindEq, isExpression⟩, ?_⟩
  rintro (isParentheses | isCallee | isMemberName | inLostBody)
  · rw [kindEq] at isParentheses
    exact notParentheses (Except.ok.inj isParentheses)
  · exact onItsOwn.notCallee isCallee
  · exact onItsOwn.notMemberName isMemberName
  · exact reached.notLost inLostBody

/-- A node that reaches down some levels reaches down fewer. -/
theorem reachesDown_of_succ {levels : Nat} (reaches : tree.reachesDown (levels + 1) id = true) :
    tree.reachesDown levels id = true := by
  induction levels generalizing id with
  | zero => rfl
  | succ levels ih =>
      rw [reachesDown] at reaches ⊢
      cases childrenEq : tree.childNodes id with
      | error fault => simp [childrenEq] at reaches
      | ok children =>
          simp only [childrenEq, List.any_eq_true] at reaches ⊢
          rcases reaches with ⟨child, isChild, reaches⟩
          exact ⟨child, isChild, ih reaches⟩

theorem reachesDown_of_le {fewer levels : Nat} (fits : fewer ≤ levels)
    (reaches : tree.reachesDown levels id = true) : tree.reachesDown fewer id = true := by
  induction fits with
  | refl => exact reaches
  | step _ ih => exact ih (reachesDown_of_succ reaches)

/-- A node reaches down one level further than its children. -/
theorem BranchAt.reachesDown (branch : tree.BranchAt top kind children) (isChild : id ∈ children)
    {levels : Nat} (reaches : tree.reachesDown levels id = true) :
    tree.reachesDown (levels + 1) top = true := by
  rw [SyntaxTree.reachesDown, branch.children_eq]
  exact List.any_eq_true.mpr ⟨id, isChild, reaches⟩

theorem BranchAt.shallow (branch : tree.BranchAt top kind children) (isChild : id ∈ children)
    {limit : Nat} (shallow : tree.exceedsDepth top limit = false) :
    tree.exceedsDepth id limit = false :=
  Bool.eq_false_iff.mpr fun reaches => Bool.eq_false_iff.mp shallow
    (reachesDown_of_succ (branch.reachesDown isChild reaches))

/-- No expression that stands directly in a statement is nested too deep. -/
def Shallow (tree : SyntaxTree) : Prop :=
  ∀ statement kind children, tree.BranchAt statement kind children → kind.isStatement = true →
    ∀ child ∈ children, tree.IsExpression child →
      tree.exceedsDepth child maxExpressionDepth = false

/-- A node reaches down at least as far as what is below it. -/
theorem Below.reachesDown {levels : Nat} (below : tree.Below top id)
    (reaches : tree.reachesDown levels id = true) : tree.reachesDown levels top = true := by
  induction below with
  | refl => exact reaches
  | @inside top child _ node found isChild _ ih =>
      have branch : tree.BranchAt top node.kind (node.children.toList.filterMap Element.node?) := by
        constructor
        · rw [SyntaxTree.kind, SyntaxTree.node, found]
          rfl
        · rw [childNodes, SyntaxTree.node, found]
          rfl
      have isNode := branch.mem_iff.mpr ⟨node, found, isChild⟩
      exact reachesDown_of_succ (branch.reachesDown isNode (ih reaches))

theorem Below.shallow {limit : Nat} (below : tree.Below top id)
    (shallow : tree.exceedsDepth top limit = false) : tree.exceedsDepth id limit = false :=
  Bool.eq_false_iff.mpr fun reaches => Bool.eq_false_iff.mp shallow (below.reachesDown reaches)

theorem lt_of_kind (kindEq : tree.kind id = .ok kind) : id < tree.nodes.size := by
  rcases node_eq_ok kindEq with ⟨_, found, _⟩
  exact (Array.getElem?_eq_some_iff.mp found).1

/-- A tree that is not deep as a whole has no deep expressions. -/
theorem WellFormed.shallow (wellFormed : tree.WellFormed damaged)
    (shallow : tree.exceedsDepth root maxExpressionDepth = false) : tree.Shallow := by
  rintro _ _ _ _ _ child _ ⟨kind, kindEq, _⟩
  exact (wellFormed.reachable child (lt_of_kind kindEq)).shallow shallow

variable (wellFormed : tree.WellFormed damaged) (branch : tree.BranchAt top kind children)
  (isChild : id ∈ children)

include wellFormed branch isChild

/-- What is left out of a body was left out around it. -/
theorem WellFormed.notLost (other : kind ≠ .queryConclusion) (notLost : ¬tree.InLostBody top) :
    ¬tree.InLostBody id := by
  rintro ⟨conclusion, clauses, isConclusion, lacks, body, isBody, below⟩
  rcases wellFormed.below_parent branch isChild below with rfl | around
  · rcases wellFormed.sameParent branch isChild isConclusion isBody with ⟨_, same, _⟩
    exact other same.symm
  · exact notLost ⟨conclusion, clauses, isConclusion, lacks, body, isBody, around⟩

theorem WellFormed.reached (other : kind ≠ .queryConclusion) (reached : tree.Reached top) :
    tree.Reached id where
  shallow := branch.shallow isChild reached.shallow
  notLost := wellFormed.notLost branch isChild other reached.notLost

theorem WellFormed.notCallee (other : kind ≠ .invocationExpression) : ¬tree.IsCallee id := by
  rintro ⟨_, call, list, isCall⟩
  rcases wellFormed.sameParent branch isChild isCall (List.mem_cons_self ..) with ⟨_, same, _⟩
  exact other same.symm

theorem WellFormed.notMemberName (other : kind ≠ .memberAccessExpression) :
    ¬tree.IsMemberName id := by
  rintro ⟨access, receiver, isAccess⟩
  rcases wellFormed.sameParent branch isChild isAccess (List.mem_pair.mpr (.inr rfl)) with
    ⟨_, same, _⟩
  exact other same.symm

theorem WellFormed.onItsOwn (notCall : kind ≠ .invocationExpression)
    (notAccess : kind ≠ .memberAccessExpression) : tree.OnItsOwn id where
  notCallee := wellFormed.notCallee branch isChild notCall
  notMemberName := wellFormed.notMemberName branch isChild notAccess

omit branch isChild in
theorem WellFormed.receiver_onItsOwn {receiver name : NodeId}
    (branch : tree.BranchAt top .memberAccessExpression [receiver, name]) :
    tree.OnItsOwn receiver where
  notCallee := wellFormed.notCallee branch (List.mem_cons_self ..) (by decide)
  notMemberName := by
    rintro ⟨access, other, isAccess⟩
    rcases wellFormed.sameParent branch (List.mem_cons_self ..) isAccess
      (List.mem_pair.mpr (.inr rfl)) with ⟨_, _, same⟩
    have nodup := wellFormed.childNodes_nodup branch.children_eq
    cases same
    simp at nodup

omit branch isChild in
theorem WellFormed.callee_onItsOwn {callee list : NodeId}
    (branch : tree.BranchAt top .invocationExpression [callee, list])
    (notNamed : ¬tree.NamesCallee callee) : tree.OnItsOwn callee where
  notCallee := fun isCallee => notNamed isCallee.1
  notMemberName := wellFormed.notMemberName branch (List.mem_cons_self ..) (by decide)

/-- Nodes next to each other that binding comes to. -/
structure Row (tree : SyntaxTree) (nodes : List NodeId) : Prop where
  reached : ∀ node ∈ nodes, tree.Reached node
  onItsOwn : ∀ node ∈ nodes, tree.OnItsOwn node
  separate : tree.Separate nodes

omit wellFormed branch isChild in
theorem Row.left {nodes more : List NodeId} (row : tree.Row (nodes ++ more)) : tree.Row nodes where
  reached node isNode := row.reached node (List.mem_append_left _ isNode)
  onItsOwn node isNode := row.onItsOwn node (List.mem_append_left _ isNode)
  separate := (List.pairwise_append.mp row.separate).1

omit wellFormed branch isChild in
theorem Row.right {nodes more : List NodeId} (row : tree.Row (nodes ++ more)) : tree.Row more where
  reached node isNode := row.reached node (List.mem_append_right _ isNode)
  onItsOwn node isNode := row.onItsOwn node (List.mem_append_right _ isNode)
  separate := (List.pairwise_append.mp row.separate).2.1

omit wellFormed branch isChild in
theorem Row.tail {node : NodeId} {rest : List NodeId} (row : tree.Row (node :: rest)) :
    tree.Row rest := by
  have split : tree.Row ([node] ++ rest) := row
  exact split.right

omit wellFormed branch isChild in
theorem Row.head_reached {node : NodeId} {rest : List NodeId} (row : tree.Row (node :: rest)) :
    tree.Reached node :=
  row.reached node (List.mem_cons_self ..)

omit wellFormed branch isChild in
theorem Row.head_onItsOwn {node : NodeId} {rest : List NodeId} (row : tree.Row (node :: rest)) :
    tree.OnItsOwn node :=
  row.onItsOwn node (List.mem_cons_self ..)

omit isChild in
theorem WellFormed.row (other : kind ≠ .queryConclusion) (notCall : kind ≠ .invocationExpression)
    (notAccess : kind ≠ .memberAccessExpression) (reached : tree.Reached top) :
    tree.Row children where
  reached _ isChild := wellFormed.reached branch isChild other reached
  onItsOwn _ isChild := wellFormed.onItsOwn branch isChild notCall notAccess
  separate := wellFormed.separate branch

end SyntaxTree

end QueryLang
