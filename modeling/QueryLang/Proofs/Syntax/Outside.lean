import QueryLang.Proofs.Syntax.Trivia

/-!
# Trees without some of their tokens

`SyntaxTree.outside` leaves a run of tokens out of a tree: the tokens behind it move up, and
whatever referred to them by number still does. Pieces of source that stand beside the run have the
same nodes as without it.
-/

namespace QueryLang

/-- The number that a token has once `count` tokens from `first` on are left out. -/
def numberOutside (first count token : Nat) : Nat :=
  if token < first then token else token - count

/-- A child once `count` tokens from `first` on are left out. -/
def Element.outside? (first count : Nat) : Element → Option Element
  | .node id => some (.node id)
  | .token id =>
    if first ≤ id ∧ id < first + count then none else some (.token (numberOutside first count id))

/-- A node once `count` tokens from `first` on are left out. -/
def TreeNode.outside (first count : Nat) (node : TreeNode) : TreeNode :=
  { node with
    children := node.children.filterMap (Element.outside? first count)
    firstToken := numberOutside first count node.firstToken
    endToken := numberOutside first count node.endToken }

/-- The tree without `count` tokens from `first` on. -/
def SyntaxTree.outside (tree : SyntaxTree) (first count : Nat) : SyntaxTree :=
  { tree with
    nodes := tree.nodes.map (TreeNode.outside first count)
    tokens := tree.tokens.extract 0 first ++ tree.tokens.extract (first + count) }

/-! ### Beside the tokens -/

/-- A piece of source with so many leaves stands in front of the tokens that are left out, or behind
them, and at the other place once they are. -/
structure Place.Beside (first count leaves : Nat) (place other : Place) : Prop where
  node : other.node = place.node
  token : place.token + leaves < first ∧ other.token = place.token ∨
    first + count ≤ place.token ∧ place.token = other.token + count

namespace Place.Beside

variable {first count leaves more : Nat} {place other : Place}

theorem mono (beside : Beside first count (leaves + more) place other) :
    Beside first count leaves place other where
  node := beside.node
  token := beside.token.imp_left fun before => ⟨by omega, before.2⟩

theorem inside (beside : Beside first count leaves place other) :
    Beside first count leaves place.inside other.inside :=
  ⟨congrArg (· + 1) beside.node, beside.token⟩

theorem after {tree : ParseTree}
    (beside : Beside first count (tree.leafCount + leaves) place other) :
    Beside first count leaves (place.after tree) (other.after tree) where
  node := congrArg (· + tree.nodeCount) beside.node
  token := by
    have token := beside.token
    simp only [Place.after]
    omega

theorem numberOutside_eq (beside : Beside first count leaves place other) {index : Nat}
    (inside : index ≤ leaves) :
    numberOutside first count (place.token + index) = other.token + index := by
  have token := beside.token
  unfold numberOutside
  split <;> omega

theorem numberOutside_start (beside : Beside first count leaves place other) :
    numberOutside first count place.token = other.token :=
  beside.numberOutside_eq (Nat.zero_le leaves)

theorem outside?_element (beside : Beside first count leaves place other) (tree : ParseTree) :
    (tree.element place).outside? first count = some (tree.element other) := by
  have leaf : (Element.token place.token).outside? first count = some (.token other.token) := by
    have notInside : ¬(first ≤ place.token ∧ place.token < first + count) := by
      have token := beside.token
      omega
    rw [Element.outside?, if_neg notInside]
    exact congrArg (fun id => some (Element.token id)) beside.numberOutside_start
  cases tree with
  | token | missing => exact leaf
  | node => exact congrArg (fun id => some (Element.node id)) beside.node.symm
  | wrapped kind inner rest =>
    exact congrArg (fun id => some (Element.node (id + inner.nodeCount))) beside.node.symm

end Place.Beside

namespace ParseTree

variable {first count leaves : Nat} {place other : Place}

theorem elements_outside {trees : List ParseTree}
    (beside : Place.Beside first count (leafCountAll trees) place other) :
    (elements place trees).filterMap (Element.outside? first count) = elements other trees := by
  induction trees generalizing place other with
  | nil => rfl
  | cons tree rest ih =>
    rw [elements, elements, List.filterMap_cons_some (beside.outside?_element tree),
      ih beside.after]

mutual

/-- Nodes in front of the tokens, and behind them, are the same without these. -/
theorem treeNodes_outside (parent : Option NodeId) (tree : ParseTree) {place other : Place}
    (beside : Place.Beside first count tree.leafCount place other) :
    (treeNodes place parent tree).map (fun node => (node.outside first count).unplaced) =
      (treeNodes other parent tree).map TreeNode.unplaced :=
  match tree with
  | .token _ | .missing _ => rfl
  | .node _ children => by
      have inside : Place.Beside first count (leafCountAll children) place.inside other.inside :=
        beside.inside
      have nodes := treeNodesAll_outside place.node children inside
      have ends : numberOutside first count (place.token + leafCountAll children) =
          other.token + leafCountAll children := inside.numberOutside_eq (Nat.le_refl _)
      rw [treeNodes, treeNodes, List.map_cons, List.map_cons, nodes, beside.node]
      simp [TreeNode.outside, TreeNode.unplaced, elements_outside inside,
        beside.numberOutside_start, ends]
  | .wrapped _ inner rest => by
      have opened : Place.Beside first count (leafCountAll rest) (place.after inner)
        (other.after inner) := beside.after
      have inside := opened.inside
      have innerNodes := treeNodes_outside (some (place.after inner).node) inner beside.mono
      have restNodes := treeNodesAll_outside (place.after inner).node rest inside
      have ends := opened.numberOutside_eq (Nat.le_refl _)
      have children : (inner.element place :: elements (place.after inner).inside rest).filterMap
          (Element.outside? first count) =
            inner.element other :: elements (other.after inner).inside rest := by
        rw [List.filterMap_cons_some (beside.outside?_element inner), elements_outside inside]
      rw [treeNodes, treeNodes, List.map_append, List.map_append, List.map_cons, List.map_cons,
        innerNodes, restNodes, opened.node]
      simp [TreeNode.outside, TreeNode.unplaced, children, beside.numberOutside_start, ends]

theorem treeNodesAll_outside (parent : NodeId) (trees : List ParseTree) {place other : Place}
    (beside : Place.Beside first count (leafCountAll trees) place other) :
    (treeNodesAll place parent trees).map (fun node => (node.outside first count).unplaced) =
      (treeNodesAll other parent trees).map TreeNode.unplaced :=
  match trees with
  | [] => rfl
  | tree :: rest => by
      rw [treeNodesAll, treeNodesAll, List.map_append, List.map_append,
        treeNodes_outside (some parent) tree beside.mono,
        treeNodesAll_outside parent rest beside.after]

end

end ParseTree

namespace SyntaxTree

variable {tree other another : SyntaxTree}

theorem Alike.symm (alike : tree.Alike other) : other.Alike tree :=
  ⟨alike.nodes.symm, alike.tokens.symm⟩

theorem Alike.trans (alike : tree.Alike other) (more : other.Alike another) : tree.Alike another :=
  ⟨alike.nodes.trans more.nodes, alike.tokens.trans more.tokens⟩

theorem Alike.outside (alike : tree.Alike other) (first count : Nat) :
    (tree.outside first count).Alike (other.outside first count) := by
  have nodes (tree : SyntaxTree) : (tree.outside first count).nodes.map TreeNode.unplaced =
      (tree.nodes.map TreeNode.unplaced).map (TreeNode.outside first count) := by
    rw [SyntaxTree.outside, Array.map_map, Array.map_map]
    rfl
  have tokens (tree : SyntaxTree) : (tree.outside first count).tokens.map TreeToken.unplaced =
      (tree.tokens.map TreeToken.unplaced).extract 0 first ++
        (tree.tokens.map TreeToken.unplaced).extract (first + count) := by
    simp [SyntaxTree.outside]
  exact ⟨by rw [nodes, nodes, alike.nodes], by rw [tokens, tokens, alike.tokens]⟩

/-- Trees that are the same outside of some tokens have the same parents. -/
theorem Alike.parent_eq {first count otherFirst otherCount : Nat}
    (alike : (tree.outside first count).Alike (other.outside otherFirst otherCount)) (id : Nat) :
    tree.nodes[id]?.map TreeNode.parent = other.nodes[id]?.map TreeNode.parent := by
  have read (tree : SyntaxTree) (first count : Nat) : tree.nodes[id]?.map TreeNode.parent =
      ((tree.outside first count).nodes.map TreeNode.unplaced)[id]?.map TreeNode.parent := by
    rw [SyntaxTree.outside, Array.map_map, Array.getElem?_map, Option.map_map]
    rfl
  rw [read tree first count, read other otherFirst otherCount, alike.nodes]

end SyntaxTree

end QueryLang
