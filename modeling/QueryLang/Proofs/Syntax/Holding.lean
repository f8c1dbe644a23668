import Mathlib.Data.List.Forall2
import QueryLang.Proofs.Syntax.Numbering

/-!
# Pieces of source in a tree

A tree `Holds` a piece of source at a place when the runs of the piece are parts of its arrays.
It then holds what the piece consists of, and every node and token of the runs belongs to some
piece that the tree holds.
-/

namespace QueryLang

/-- The values stand in a list from an index on. -/
def StandsAt {α : Type} (list values : List α) (start : Nat) : Prop :=
  ∃ before after, list = before ++ (values ++ after) ∧ before.length = start

namespace StandsAt

variable {α : Type} {list values more : List α} {value : α} {start : Nat}

theorem left (stands : StandsAt list (values ++ more) start) : StandsAt list values start := by
  rcases stands with ⟨before, after, split, atStart⟩
  exact ⟨before, more ++ after, by simpa using split, atStart⟩

theorem right (stands : StandsAt list (values ++ more) start) :
    StandsAt list more (start + values.length) := by
  rcases stands with ⟨before, after, split, atStart⟩
  exact ⟨before ++ values, after, by simpa using split, by simp [atStart]⟩

theorem tail (stands : StandsAt list (value :: more) start) :
    StandsAt list more (start + 1) := by
  have split : StandsAt list ([value] ++ more) start := stands
  exact split.right

theorem getElem?_eq (stands : StandsAt list (value :: more) start) :
    list[start]? = some value := by
  rcases stands with ⟨before, after, rfl, rfl⟩
  simp

theorem mem (stands : StandsAt list values start) (member : value ∈ values) : value ∈ list := by
  rcases stands with ⟨before, after, rfl, _⟩
  simp [member]

theorem length_le (stands : StandsAt list values start) :
    start + values.length ≤ list.length := by
  rcases stands with ⟨before, after, rfl, rfl⟩
  simp

end StandsAt

namespace ParseTree

/-- The piece is a node of a kind around its children, however it came about. -/
def IsNode (kind : Kind) (children : List ParseTree) (shape : ParseTree) : Prop :=
  shape = .node kind children ∨
    ∃ first rest, shape = .wrapped kind first rest ∧ children = first :: rest

/-- The numbers of the children of a node. -/
def childElements (place : Place) : ParseTree → List Element
  | .token _ | .missing _ => []
  | .node _ children => elements place.inside children
  | .wrapped _ first rest => first.element place :: elements (place.after first).inside rest

end ParseTree

/-- The number is none that was given before the place. -/
def Element.AtOrAfter (place : Place) : Element → Prop
  | .node id => place.node ≤ id
  | .token id => place.token ≤ id

namespace Element.AtOrAfter

variable {place : Place} {shape : ParseTree} {element : Element}

theorem of_after (after : element.AtOrAfter (place.after shape)) : element.AtOrAfter place := by
  cases element with
  | node id => exact Nat.le_trans (Nat.le_add_right _ _) after
  | token id => exact Nat.le_trans (Nat.le_add_right _ _) after

theorem of_inside (inside : element.AtOrAfter place.inside) : element.AtOrAfter place := by
  cases element with
  | node id => exact Nat.le_trans (Nat.le_add_right _ _) inside
  | token id => exact inside

end Element.AtOrAfter

namespace SyntaxTree

variable {tree : SyntaxTree}

/-- The runs of a piece of source are parts of the tree's arrays. -/
structure Holds (tree : SyntaxTree) (place : Place) (parent : Option NodeId)
    (shape : ParseTree) : Prop where
  nodes : StandsAt tree.nodes.toList (shape.treeNodes place parent) place.node
  tokens : StandsAt tree.tokens.toList (shape.treeTokens place (parent.getD root)) place.token

/-- The runs of several pieces of source are parts of the tree's arrays. -/
structure HoldsAll (tree : SyntaxTree) (place : Place) (parent : NodeId)
    (shapes : List ParseTree) : Prop where
  nodes : StandsAt tree.nodes.toList (ParseTree.treeNodesAll place parent shapes) place.node
  tokens : StandsAt tree.tokens.toList (ParseTree.treeTokensAll place parent shapes) place.token

/-- A child of a node stands for a piece of source. -/
def StandsFor (tree : SyntaxTree) (parent : NodeId) (element : Element) (shape : ParseTree) :
    Prop :=
  ∃ place, element = shape.element place ∧ tree.Holds place (some parent) shape

theorem HoldsAll.cons {place : Place} {parent : NodeId} {shape : ParseTree}
    {others : List ParseTree} (holds : tree.HoldsAll place parent (shape :: others)) :
    tree.Holds place (some parent) shape ∧ tree.HoldsAll (place.after shape) parent others := by
  have nodes := holds.nodes.right
  have tokens := holds.tokens.right
  rw [ParseTree.length_treeNodes] at nodes
  rw [ParseTree.length_treeTokens] at tokens
  exact ⟨⟨holds.nodes.left, holds.tokens.left⟩, nodes, tokens⟩

theorem HoldsAll.standsFor {place : Place} {parent : NodeId} {shapes : List ParseTree}
    (holds : tree.HoldsAll place parent shapes) :
    List.Forall₂ (tree.StandsFor parent) (ParseTree.elements place shapes) shapes := by
  induction shapes generalizing place with
  | nil => exact .nil
  | cons shape others ih =>
      rcases holds.cons with ⟨first, rest⟩
      exact .cons ⟨place, rfl, first⟩ (ih rest)

namespace Holds

variable {place : Place} {parent : Option NodeId} {kind : Kind} {children : List ParseTree}
  {shape : ParseTree}

theorem token {leaf : Token} (holds : tree.Holds place parent (.token leaf)) :
    tree.tokens[place.token]? =
      some ⟨leaf.kind, leaf.span, ParseTree.tokenValue leaf, false, parent.getD root⟩ := by
  have found := holds.tokens.getElem?_eq
  simpa using found

theorem missing (holds : tree.Holds place parent (.missing kind)) :
    tree.tokens[place.token]? =
      some ⟨kind, .empty place.position, none, true, parent.getD root⟩ := by
  have found := holds.tokens.getElem?_eq
  simpa using found

/-- What is inside a node is held inside of it. -/
theorem inside (holds : tree.Holds place parent (.node kind children)) :
    tree.HoldsAll place.inside place.node children :=
  ⟨holds.nodes.tail, holds.tokens⟩

/-- What a node was wrapped around is held before it, and the rest inside of it. -/
theorem wrapped {first : ParseTree} {rest : List ParseTree}
    (holds : tree.Holds place parent (.wrapped kind first rest)) :
    tree.Holds place (some (place.after first).node) first ∧
      tree.HoldsAll (place.after first).inside (place.after first).node rest := by
  have opened := holds.nodes.right
  rw [ParseTree.length_treeNodes] at opened
  have tokens := holds.tokens.right
  rw [ParseTree.length_treeTokens] at tokens
  exact ⟨⟨holds.nodes.left, holds.tokens.left⟩, opened.tail, tokens⟩

/-- The node that a tree has for a node of the source, and what its children stand for. -/
theorem node (holds : tree.Holds place parent shape) (isNode : shape.IsNode kind children) :
    ∃ id : Nat, shape.element place = .node id ∧
      tree.nodes[id]? = some {
        kind
        span := .covering (shape.treeTokens place (parent.getD root))
        parent
        children := (shape.childElements place).toArray
        firstToken := place.token
        endToken := place.token + shape.leafCount } ∧
      List.Forall₂ (tree.StandsFor id) (shape.childElements place) children := by
  rcases isNode with rfl | ⟨first, rest, rfl, rfl⟩
  · have found := holds.nodes.getElem?_eq
    rw [Array.getElem?_toList] at found
    exact ⟨place.node, rfl, found, holds.inside.standsFor⟩
  · have opened := holds.nodes.right
    rw [ParseTree.length_treeNodes] at opened
    have found := opened.getElem?_eq
    rcases holds.wrapped with ⟨firstHolds, inside⟩
    refine ⟨(place.after first).node, rfl, ?_, .cons ⟨place, rfl, firstHolds⟩ inside.standsFor⟩
    have endToken : (place.after first).token + ParseTree.leafCountAll rest =
        place.token + (ParseTree.wrapped kind first rest).leafCount :=
      Nat.add_assoc _ _ _
    rw [Array.getElem?_toList, endToken] at found
    exact found

end Holds

/-- A node is another one or somewhere inside it. -/
inductive Below (tree : SyntaxTree) : (top id : Nat) → Prop
  | refl {id : Nat} : Below tree id id
  | inside {top child id : Nat} {node : TreeNode} (found : tree.nodes[top]? = some node)
      (isChild : .node child ∈ node.children.toList) (below : Below tree child id) :
      Below tree top id

/-- A node of the tree stands for a formed piece that the tree holds. -/
def FormedPiece (tree : SyntaxTree) (damaged : Prop) (id : Nat) : Prop :=
  ∃ place parent role shape, tree.Holds place parent shape ∧ Formed damaged role shape ∧
    shape.element place = .node id

mutual

/-- Every node in the run of a piece is the node of some piece inside it. -/
theorem Holds.exists_node {damaged : Prop} {place : Place} {parent : Option NodeId} {role : Role}
    {id : Nat} (shape : ParseTree) (holds : tree.Holds place parent shape)
    (formed : Formed damaged role shape) (lower : place.node ≤ id)
    (upper : id < (place.after shape).node) :
    (∃ top, shape.element place = .node top ∧ tree.Below top id) ∧ tree.FormedPiece damaged id :=
  match shape with
  | .token _ | .missing _ => by
      simp only [Place.after, ParseTree.nodeCount] at upper
      omega
  | .node kind children => by
      rcases holds.node (.inl rfl) with ⟨own, ownEq, found, _⟩
      rcases Nat.eq_or_lt_of_le lower with rfl | inside
      · exact ⟨⟨place.node, rfl, .refl⟩, place, parent, role, _, holds, formed, rfl⟩
      · cases formed with
        | node _ formedChildren =>
            have bound : id < place.inside.node + ParseTree.nodeCountAll children := by
              simp only [Place.after, ParseTree.nodeCount, Place.inside] at upper ⊢
              omega
            rcases HoldsAll.exists_node children holds.inside formedChildren inside bound with
              ⟨⟨child, isChild, below⟩, piece⟩
            refine ⟨⟨own, ownEq, .inside found ?_ below⟩, piece⟩
            exact isChild
  | .wrapped kind first rest => by
      rcases holds.node (.inr ⟨first, rest, rfl, rfl⟩) with ⟨own, ownEq, found, _⟩
      cases formed with
      | wrapped production formedChildren =>
          cases formedChildren with
          | cons formedFirst formedRest =>
              rcases holds.wrapped with ⟨holdsFirst, holdsRest⟩
              rcases Nat.lt_trichotomy id (place.after first).node with before | rfl | after
              · rcases Holds.exists_node first holdsFirst formedFirst lower before with
                  ⟨⟨child, isChild, below⟩, piece⟩
                refine ⟨⟨own, ownEq, .inside found ?_ below⟩, piece⟩
                exact List.mem_cons.mpr (.inl isChild.symm)
              · exact ⟨⟨_, rfl, .refl⟩, place, parent, role, _, holds,
                  .wrapped production (.cons formedFirst formedRest), rfl⟩
              · have bound : id < (place.after first).inside.node +
                    ParseTree.nodeCountAll rest := by
                  simp only [Place.after, ParseTree.nodeCount, Place.inside] at upper ⊢
                  omega
                rcases HoldsAll.exists_node rest holdsRest formedRest after bound with
                  ⟨⟨child, isChild, below⟩, piece⟩
                refine ⟨⟨own, ownEq, .inside found ?_ below⟩, piece⟩
                exact List.mem_cons_of_mem _ isChild

theorem HoldsAll.exists_node {damaged : Prop} {place : Place} {parent : NodeId}
    {roles : List Role} {id : Nat} (shapes : List ParseTree)
    (holds : tree.HoldsAll place parent shapes) (formed : FormedAll damaged roles shapes)
    (lower : place.node ≤ id) (upper : id < place.node + ParseTree.nodeCountAll shapes) :
    (∃ top, .node top ∈ ParseTree.elements place shapes ∧ tree.Below top id) ∧
      tree.FormedPiece damaged id :=
  match shapes with
  | [] => by
      simp only [ParseTree.nodeCountAll] at upper
      omega
  | shape :: others => by
      rcases holds.cons with ⟨holdsFirst, holdsRest⟩
      cases formed with
      | cons formedFirst formedRest =>
          rcases Nat.lt_or_ge id (place.after shape).node with before | after
          · rcases Holds.exists_node shape holdsFirst formedFirst lower before with
              ⟨⟨top, isTop, below⟩, piece⟩
            exact ⟨⟨top, List.mem_cons.mpr (.inl isTop.symm), below⟩, piece⟩
          · have bound : id < (place.after shape).node + ParseTree.nodeCountAll others := by
              simp only [Place.after, ParseTree.nodeCountAll] at upper ⊢
              omega
            rcases HoldsAll.exists_node others holdsRest formedRest after bound with
              ⟨⟨top, isTop, below⟩, piece⟩
            exact ⟨⟨top, List.mem_cons_of_mem _ isTop, below⟩, piece⟩

end

end SyntaxTree

namespace ParseTree

mutual

/-- Every token of a piece has the piece's parent, or a node inside the piece. -/
theorem parent_of_mem_treeTokens {place : Place} {parent : Nat} {token : TreeToken}
    (shape : ParseTree) (member : token ∈ treeTokens place parent shape) :
    ∃ id : Nat, token.parent = id ∧
      (id = parent ∨ place.node ≤ id ∧ id < place.node + shape.nodeCount) :=
  match shape with
  | .token leaf => by
      simp only [treeTokens, List.mem_singleton] at member
      exact ⟨parent, member ▸ rfl, .inl rfl⟩
  | .missing kind => by
      simp only [treeTokens, List.mem_singleton] at member
      exact ⟨parent, member ▸ rfl, .inl rfl⟩
  | .node kind children => by
      rcases parent_of_mem_treeTokensAll children member with ⟨id, parentEq, inside⟩
      refine ⟨id, parentEq, .inr ?_⟩
      simp only [nodeCount, Place.inside] at inside ⊢
      omega
  | .wrapped kind first rest => by
      rcases List.mem_append.mp member with member | member
      · rcases parent_of_mem_treeTokens first member with ⟨id, parentEq, inside⟩
        refine ⟨id, parentEq, .inr ?_⟩
        simp only [Place.after, nodeCount] at inside ⊢
        omega
      · rcases parent_of_mem_treeTokensAll rest member with ⟨id, parentEq, inside⟩
        refine ⟨id, parentEq, .inr ?_⟩
        simp only [Place.after, nodeCount, Place.inside] at inside ⊢
        omega

theorem parent_of_mem_treeTokensAll {place : Place} {parent : Nat} {token : TreeToken}
    (shapes : List ParseTree) (member : token ∈ treeTokensAll place parent shapes) :
    ∃ id : Nat, token.parent = id ∧
      (id = parent ∨ place.node ≤ id ∧ id < place.node + nodeCountAll shapes) :=
  match shapes with
  | [] => by simp [treeTokensAll] at member
  | shape :: others => by
      rcases List.mem_append.mp member with member | member
      · rcases parent_of_mem_treeTokens shape member with ⟨id, parentEq, inside⟩
        refine ⟨id, parentEq, ?_⟩
        simp only [nodeCountAll] at inside ⊢
        omega
      · rcases parent_of_mem_treeTokensAll others member with ⟨id, parentEq, inside⟩
        refine ⟨id, parentEq, ?_⟩
        simp only [Place.after, nodeCountAll] at inside ⊢
        omega

end

mutual

/-- Every node of a piece has the piece's parent, or a node inside the piece. -/
theorem parent_of_mem_treeNodes {place : Place} {parent : Option NodeId} {node : TreeNode}
    (shape : ParseTree) (member : node ∈ treeNodes place parent shape) :
    node.parent = parent ∨
      ∃ id : Nat, node.parent = some id ∧ place.node ≤ id ∧
        id < place.node + shape.nodeCount :=
  match shape with
  | .token _ | .missing _ => by simp [treeNodes] at member
  | .node kind children => by
      rcases List.mem_cons.mp member with rfl | member
      · exact .inl rfl
      · rcases parent_of_mem_treeNodesAll children member with ⟨id, parentEq, inside⟩
        refine .inr ⟨id, parentEq, ?_⟩
        simp only [nodeCount, Place.inside] at inside ⊢
        omega
  | .wrapped kind first rest => by
      rcases List.mem_append.mp member with member | member
      · right
        rcases parent_of_mem_treeNodes first member with parentEq | ⟨id, parentEq, inside⟩
        · refine ⟨place.node + first.nodeCount, parentEq, ?_⟩
          simp only [nodeCount]
          omega
        · refine ⟨id, parentEq, ?_⟩
          simp only [nodeCount]
          omega
      · rcases List.mem_cons.mp member with rfl | member
        · exact .inl rfl
        · rcases parent_of_mem_treeNodesAll rest member with ⟨id, parentEq, inside⟩
          refine .inr ⟨id, parentEq, ?_⟩
          simp only [Place.after, nodeCount, Place.inside] at inside ⊢
          omega

theorem parent_of_mem_treeNodesAll {place : Place} {parent : Nat} {node : TreeNode}
    (shapes : List ParseTree) (member : node ∈ treeNodesAll place parent shapes) :
    ∃ id : Nat, node.parent = some id ∧
      (id = parent ∨ place.node ≤ id ∧ id < place.node + nodeCountAll shapes) :=
  match shapes with
  | [] => by simp [treeNodesAll] at member
  | shape :: others => by
      rcases List.mem_append.mp member with member | member
      · rcases parent_of_mem_treeNodes shape member with parentEq | ⟨id, parentEq, inside⟩
        · exact ⟨parent, parentEq, .inl rfl⟩
        · refine ⟨id, parentEq, .inr ?_⟩
          simp only [nodeCountAll]
          omega
      · rcases parent_of_mem_treeNodesAll others member with ⟨id, parentEq, inside⟩
        refine ⟨id, parentEq, ?_⟩
        simp only [Place.after, nodeCountAll] at inside ⊢
        omega

end

/-- The number of a piece lies in the runs of the piece. -/
theorem element_bounds (place : Place) (shape : ParseTree) :
    (shape.element place).AtOrAfter place ∧
      ¬(shape.element place).AtOrAfter (place.after shape) := by
  cases shape with
  | token leaf => simp [element, Element.AtOrAfter, Place.after, leafCount]
  | missing kind => simp [element, Element.AtOrAfter, Place.after, leafCount]
  | node kind children =>
      simp only [element, Element.AtOrAfter, Place.after, nodeCount]
      omega
  | wrapped kind first rest =>
      simp only [element, Element.AtOrAfter, Place.after, nodeCount]
      omega

theorem atOrAfter_of_mem_elements {place : Place} {shapes : List ParseTree} {element : Element}
    (member : element ∈ elements place shapes) : element.AtOrAfter place := by
  induction shapes generalizing place with
  | nil => simp [elements] at member
  | cons shape others ih =>
      rcases List.mem_cons.mp member with rfl | member
      · exact (element_bounds place shape).1
      · exact (ih member).of_after

theorem elements_nodup (place : Place) (shapes : List ParseTree) :
    (elements place shapes).Nodup := by
  induction shapes generalizing place with
  | nil => simp [elements]
  | cons shape others ih =>
      refine List.nodup_cons.mpr ⟨?_, ih _⟩
      intro member
      exact (element_bounds place shape).2 (atOrAfter_of_mem_elements member)

theorem childElements_nodup (place : Place) (shape : ParseTree) :
    (shape.childElements place).Nodup := by
  cases shape with
  | token leaf => simp [childElements]
  | missing kind => simp [childElements]
  | node kind children => exact elements_nodup _ _
  | wrapped kind first rest =>
      refine List.nodup_cons.mpr ⟨?_, elements_nodup _ _⟩
      intro member
      exact (element_bounds place first).2 (atOrAfter_of_mem_elements member).of_inside

end ParseTree

end QueryLang
