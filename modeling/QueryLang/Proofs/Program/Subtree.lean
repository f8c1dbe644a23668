import QueryLang.Proofs.Program.Visibility

/-!
# What is below a node

In a well-formed tree the nodes around a node are in a row: of any two of them one is below the
other. No node is below a child of its own, so what is below one child of a node is not below
another one.
-/

namespace QueryLang

namespace SyntaxTree

variable {tree : SyntaxTree} {damaged : Prop} {top middle id : NodeId} {kind : Kind}
  {children : List NodeId}

theorem Below.trans (upper : tree.Below top middle) (lower : tree.Below middle id) :
    tree.Below top id := by
  induction upper with
  | refl => exact lower
  | inside found isChild _ ih => exact .inside found isChild (ih lower)

theorem BranchAt.mem_iff (branch : tree.BranchAt top kind children) :
    id ∈ children ↔ ∃ node, tree.nodes[top]? = some node ∧
      Element.node id ∈ node.children.toList := by
  have childrenEq := branch.children_eq
  cases found : tree.nodes[top]? with
  | none => simp [childNodes, SyntaxTree.node, found] at childrenEq
  | some node =>
      simp only [childNodes, SyntaxTree.node, found, Checked.ok_bind] at childrenEq
      rw [← Checked.pure_eq_ok_iff.mp childrenEq, List.mem_filterMap]
      constructor
      · rintro ⟨element, isChild, isNode⟩
        cases element with
        | token own => cases isNode
        | node own =>
            cases isNode
            exact ⟨node, rfl, isChild⟩
      · rintro ⟨_, ⟨rfl⟩, isChild⟩
        exact ⟨.node id, isChild, rfl⟩

/-- What is below a node is the node itself or below one of its children. -/
theorem BranchAt.below_iff (branch : tree.BranchAt top kind children) :
    tree.Below top id ↔ id = top ∨ ∃ child ∈ children, tree.Below child id := by
  constructor
  · intro below
    cases below with
    | refl => exact .inl rfl
    | inside found isChild below =>
        exact .inr ⟨_, branch.mem_iff.mpr ⟨_, found, isChild⟩, below⟩
  · rintro (rfl | ⟨child, isChild, below⟩)
    · exact .refl
    · rcases branch.mem_iff.mp isChild with ⟨node, found, inNode⟩
      exact .inside found inNode below

/-- A node below another one is that node, or it has a parent that is below it as well. -/
theorem Below.eq_or_parent (wellFormed : tree.WellFormed damaged) (below : tree.Below top id) :
    id = top ∨ ∃ parent, tree.parentOf? (.node id) = some parent ∧ tree.Below top parent := by
  induction below with
  | refl => exact .inl rfl
  | @inside top child id node found isChild _ ih =>
      rcases ih with rfl | ⟨parent, parentEq, below⟩
      · exact .inr ⟨top, wellFormed.child_parent found _ isChild, .refl⟩
      · exact .inr ⟨parent, parentEq, .inside found isChild below⟩

theorem WellFormed.below_parent (wellFormed : tree.WellFormed damaged)
    (branch : tree.BranchAt middle kind children) (isChild : id ∈ children)
    (below : tree.Below top id) : id = top ∨ tree.Below top middle := by
  rcases below.eq_or_parent wellFormed with same | ⟨parent, parentEq, below⟩
  · exact .inl same
  · cases (wellFormed.childNodes_parent branch.children_eq isChild).symm.trans parentEq
    exact .inr below

/-- Of two nodes around a node one is below the other. -/
theorem Below.comparable (wellFormed : tree.WellFormed damaged) {other : NodeId}
    (below : tree.Below top id) (belowOther : tree.Below other id) :
    tree.Below top other ∨ tree.Below other top := by
  induction below with
  | refl => exact .inr belowOther
  | @inside top child id node found isChild _ ih =>
      rcases ih belowOther with lower | upper
      · exact .inl (.inside found isChild lower)
      · rcases upper.eq_or_parent wellFormed with rfl | ⟨parent, parentEq, above⟩
        · exact .inl (.inside found isChild .refl)
        · cases (wellFormed.child_parent found _ isChild).symm.trans parentEq
          exact .inr above

theorem FormedAt.child {height : Nat} {role : Role} {node : TreeNode} {child : Element}
    (formed : tree.FormedAt damaged height role (.node top)) (found : tree.nodes[top]? = some node)
    (isChild : child ∈ node.children.toList) :
    ∃ lower own, height = lower + 1 ∧ tree.FormedAt damaged lower own child := by
  cases height with
  | zero => exact formed.elim
  | succ lower =>
      rcases formed with ⟨same, roles, foundSame, _, formedChildren⟩
      rw [found] at foundSame
      cases foundSame
      rcases List.mem_iff_get.mp isChild with ⟨index, rfl⟩
      have formedChild := (List.forall₂_iff_get.mp formedChildren).2 index
      have inRoles : index < roles.length := formedChildren.length_eq.symm ▸ index.isLt
      exact ⟨lower, _, rfl, formedChild inRoles index.isLt⟩

/-- What is below a formed node is formed, and no higher. -/
theorem FormedAt.below {height : Nat} {role : Role}
    (formed : tree.FormedAt damaged height role (.node top)) (below : tree.Below top id) :
    ∃ lower, lower ≤ height ∧ ∃ own, tree.FormedAt damaged lower own (.node id) := by
  induction below generalizing height role with
  | refl => exact ⟨height, Nat.le_refl _, role, formed⟩
  | inside found isChild _ ih =>
      rcases formed.child found isChild with ⟨inner, own, rfl, childFormed⟩
      rcases ih childFormed with ⟨lower, bound, formedBelow⟩
      exact ⟨lower, Nat.le_succ_of_le bound, formedBelow⟩

/-- No node is below a child of its own: what is below the child is not as high. -/
theorem WellFormed.not_below_child (wellFormed : tree.WellFormed damaged)
    (branch : tree.BranchAt top kind children) (isChild : id ∈ children) :
    ¬tree.Below id top := by
  rcases branch.mem_iff.mp isChild with ⟨node, found, inNode⟩
  have formed := wellFormed.formed top (Array.getElem?_eq_some_iff.mp found).1
  generalize tree.nodes.size = height at formed
  intro around
  rcases formed with ⟨role, formed⟩
  induction height using Nat.strongRecOn generalizing role with
  | ind height ih =>
      rcases formed.child found inNode with ⟨inner, own, rfl, childFormed⟩
      rcases childFormed.below around with ⟨lower, bound, ownRole, formedAgain⟩
      exact ih lower (Nat.lt_succ_of_le bound) ownRole formedAgain

/-- Nothing is below two of the nodes. -/
def Separate (tree : SyntaxTree) (nodes : List NodeId) : Prop :=
  nodes.Pairwise fun left right => ∀ id, tree.Below left id → ¬tree.Below right id

/-- Nothing is below two children of a node. -/
theorem WellFormed.separate (wellFormed : tree.WellFormed damaged)
    (branch : tree.BranchAt top kind children) : tree.Separate children := by
  have nested {left right : NodeId} (isLeft : left ∈ children) (isRight : right ∈ children)
      (different : left ≠ right) : ¬tree.Below left right := by
    intro below
    rcases wellFormed.below_parent branch isRight below with same | around
    · exact different same.symm
    · exact wellFormed.not_below_child branch isLeft around
  have nodup := wellFormed.childNodes_nodup branch.children_eq
  refine List.Pairwise.imp_of_mem ?_ nodup
  intro left right isLeft isRight different id belowLeft belowRight
  rcases belowLeft.comparable wellFormed belowRight with below | below
  · exact nested isLeft isRight different below
  · exact nested isRight isLeft different.symm below

end SyntaxTree

end QueryLang
