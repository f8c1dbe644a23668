import QueryLang.Proofs.Syntax.FormedTree
import QueryLang.Syntax.View

/-!
# Viewing formed nodes

A view finds the parts it looks for in every node that follows a production of its kind. What it
finds is formed in turn.
-/

namespace QueryLang

/-- The kind of token that a role stands for. -/
def Role.leafKind? : Role → Option Kind
  | .leaf kind => some kind
  | _ => none

/-- Whether a role is that of a node. -/
def Role.isNode (role : Role) : Bool := role.leafKind?.isNone

theorem Production.isNode {damaged : Prop} {role : Role} {kind : Kind} {roles : List Role}
    (production : Production damaged role kind roles) : role.isNode = true := by
  cases production <;> rfl

namespace SyntaxTree

variable {tree : SyntaxTree} {damaged : Prop} {height id : Nat} {role : Role} {kind : Kind}
  {roles : List Role}

/-- The children of a node are formed in these roles. -/
def PartsAt (tree : SyntaxTree) (damaged : Prop) (height id : Nat) (roles : List Role) : Prop :=
  ∃ node, tree.nodes[id]? = some node ∧
    List.Forall₂ (tree.FormedAt damaged height) roles node.children.toList

theorem kind_eq_ok {node : TreeNode} (found : tree.nodes[id]? = some node) :
    tree.kind id = .ok node.kind := by
  simp [SyntaxTree.kind, SyntaxTree.node, found, pure, Except.pure]

theorem node_eq_ok (kindEq : tree.kind id = .ok kind) :
    ∃ node, tree.nodes[id]? = some node ∧ tree.node id = .ok node ∧ node.kind = kind := by
  rw [SyntaxTree.kind, Checked.bind_eq_ok_iff] at kindEq
  rcases kindEq with ⟨node, nodeEq, isKind⟩
  refine ⟨node, ?_, nodeEq, Checked.pure_eq_ok_iff.mp isKind⟩
  rw [SyntaxTree.node] at nodeEq
  split at nodeEq
  · next found => rw [found, Except.ok.inj nodeEq]
  · cases nodeEq

/-- A formed node has a kind that its role allows, and parts as that kind demands. -/
theorem FormedAt.parts (formed : tree.FormedAt damaged height role (.node id)) :
    ∃ lower kind roles, height = lower + 1 ∧ tree.kind id = .ok kind ∧
      Production damaged role kind roles ∧ tree.PartsAt damaged lower id roles := by
  cases height with
  | zero => exact formed.elim
  | succ lower =>
      rcases formed with ⟨node, roles, found, production, children⟩
      exact ⟨lower, node.kind, roles, rfl, kind_eq_ok found, production, node, found, children⟩

theorem FormedAt.inRange (formed : tree.FormedAt damaged height role (.node id)) :
    id < tree.nodes.size := by
  rcases formed.parts with ⟨_, _, _, _, kindEq, _⟩
  rcases node_eq_ok kindEq with ⟨node, found, _⟩
  exact (Array.getElem?_eq_some_iff.mp found).1

theorem FormedAt.isNode (formed : tree.FormedAt damaged height role (.node id)) :
    role.isNode = true := by
  rcases formed.parts with ⟨_, _, _, _, _, production, _⟩
  exact production.isNode

/-- What is formed in a role is formed in a role that allows more. -/
theorem FormedAt.recast {other : Role} (formed : tree.FormedAt damaged height role (.node id))
    (includes : ∀ {kind roles}, Production damaged role kind roles →
      Production damaged other kind roles) : tree.FormedAt damaged height other (.node id) := by
  cases height with
  | zero => exact formed.elim
  | succ lower =>
      rcases formed with ⟨node, roles, found, production, children⟩
      exact ⟨node, roles, found, includes production, children⟩

/-! ### Children -/

theorem forall_of_forall₂ {ids : List NodeId} {relation : Role → Nat → Prop}
    (related : List.Forall₂ relation roles ids) (all : ∀ other ∈ roles, other = role) :
    ∀ id ∈ ids, relation role id := by
  induction related with
  | nil => simp
  | cons first _ ih =>
      simp only [List.forall_mem_cons] at all ⊢
      exact ⟨all.1 ▸ first, ih all.2⟩

theorem forall₂_append {lefts rights : List Role} {ids : List NodeId}
    {relation : Role → Nat → Prop} (related : List.Forall₂ relation (lefts ++ rights) ids) :
    ∃ leftIds rightIds, ids = leftIds ++ rightIds ∧ List.Forall₂ relation lefts leftIds ∧
      List.Forall₂ relation rights rightIds := by
  induction lefts generalizing ids with
  | nil => exact ⟨[], ids, rfl, .nil, related⟩
  | cons role lefts ih =>
      cases related with
      | cons first rest =>
          rcases ih rest with ⟨leftIds, rightIds, rfl, leftRelated, rightRelated⟩
          exact ⟨_ :: leftIds, rightIds, rfl, .cons first leftRelated, rightRelated⟩

theorem forall₂_node? {elements : List Element}
    (formed : List.Forall₂ (tree.FormedAt damaged height) roles elements) :
    List.Forall₂ (fun role (id : Nat) => tree.FormedAt damaged height role (.node id))
      (roles.filter Role.isNode) (elements.filterMap Element.node?) := by
  induction formed with
  | nil => exact .nil
  | @cons role element roles elements first _ ih =>
      cases element with
      | node id =>
          rw [List.filter_cons_of_pos first.isNode]
          exact .cons first ih
      | token id =>
          rcases formedAt_token_iff.mp first with ⟨kind, token, rfl, _⟩
          exact ih

theorem forall₂_token? {elements : List Element}
    (formed : List.Forall₂ (tree.FormedAt damaged height) roles elements) :
    List.Forall₂ (fun kind (id : Nat) => ∃ token, tree.LeafAt damaged kind id token)
      (roles.filterMap Role.leafKind?) (elements.filterMap Element.token?) := by
  induction formed with
  | nil => exact .nil
  | @cons role element roles elements first _ ih =>
      cases element with
      | node id =>
          have notLeaf : role.leafKind? = none := Option.isNone_iff_eq_none.mp first.isNode
          rw [List.filterMap_cons_none notLeaf]
          exact ih
      | token id =>
          rcases formedAt_token_iff.mp first with ⟨kind, token, rfl, leaf⟩
          exact .cons ⟨token, leaf⟩ ih

theorem PartsAt.childNodes (parts : tree.PartsAt damaged height id roles) :
    ∃ ids : List NodeId, tree.childNodes id = .ok ids ∧
      List.Forall₂ (fun role (id : Nat) => tree.FormedAt damaged height role (.node id))
        (roles.filter Role.isNode) ids := by
  rcases parts with ⟨node, found, children⟩
  refine ⟨_, ?_, forall₂_node? children⟩
  simp [SyntaxTree.childNodes, SyntaxTree.node, found, pure, Except.pure]

theorem PartsAt.childTokens (parts : tree.PartsAt damaged height id roles) :
    ∃ ids : List TokenId, tree.childTokens id = .ok ids ∧
      List.Forall₂ (fun kind (id : Nat) => ∃ token, tree.LeafAt damaged kind id token)
        (roles.filterMap Role.leafKind?) ids := by
  rcases parts with ⟨node, found, children⟩
  refine ⟨_, ?_, forall₂_token? children⟩
  simp [SyntaxTree.childTokens, SyntaxTree.node, found, pure, Except.pure]

theorem PartsAt.noNodes (parts : tree.PartsAt damaged height id roles)
    (called : roles.filter Role.isNode = []) : tree.childNodes id = .ok [] := by
  rcases parts.childNodes with ⟨ids, idsEq, formed⟩
  rw [called] at formed
  cases formed
  exact idsEq

theorem PartsAt.oneNode {child : Role} (parts : tree.PartsAt damaged height id roles)
    (called : roles.filter Role.isNode = [child]) :
    ∃ childId : Nat, tree.childNodes id = .ok [childId] ∧
      tree.FormedAt damaged height child (.node childId) := by
  rcases parts.childNodes with ⟨ids, idsEq, formed⟩
  rw [called] at formed
  cases formed with
  | cons first rest =>
      cases rest
      exact ⟨_, idsEq, first⟩

theorem PartsAt.twoNodes {left right : Role} (parts : tree.PartsAt damaged height id roles)
    (called : roles.filter Role.isNode = [left, right]) :
    ∃ leftId rightId : Nat, tree.childNodes id = .ok [leftId, rightId] ∧
      tree.FormedAt damaged height left (.node leftId) ∧
      tree.FormedAt damaged height right (.node rightId) := by
  rcases parts.childNodes with ⟨ids, idsEq, formed⟩
  rw [called] at formed
  cases formed with
  | cons first rest =>
      cases rest with
      | cons second rest =>
          cases rest
          exact ⟨_, _, idsEq, first, second⟩

/-- Where the production calls for child nodes of one role only, all child nodes have it. -/
theorem PartsAt.manyNodes {child : Role} (parts : tree.PartsAt damaged height id roles)
    (called : ∀ role ∈ roles, role.isNode = true → role = child) :
    ∃ ids : List NodeId, tree.childNodes id = .ok ids ∧
      ∀ childId ∈ ids, tree.FormedAt damaged height child (.node childId) := by
  rcases parts.childNodes with ⟨ids, idsEq, formed⟩
  refine ⟨ids, idsEq, forall_of_forall₂ formed fun role member => ?_⟩
  rcases List.mem_filter.mp member with ⟨inRoles, isNode⟩
  exact called role inRoles isNode

theorem childNode?_eq_ok {ids : List NodeId} (index : Nat)
    (children : tree.childNodes id = .ok ids) : tree.childNode? id index = .ok ids[index]? := by
  rw [SyntaxTree.childNode?, children]
  rfl

theorem requireChild_eq_ok {ids : List NodeId} {childId : Nat} (index : Nat)
    (children : tree.childNodes id = .ok ids) (found : ids[index]? = some childId) :
    tree.requireChild id index = .ok childId := by
  simp [SyntaxTree.requireChild, childNode?_eq_ok index children, found, pure, Except.pure]

/-- A token that the production calls for is there. -/
theorem PartsAt.childToken (parts : tree.PartsAt damaged height id roles) (kind : Kind)
    (called : Role.leaf kind ∈ roles) :
    ∃ tokenId token, tree.childToken? id kind = .ok (some tokenId) ∧
      tree.LeafAt damaged kind tokenId token := by
  rcases parts.childTokens with ⟨ids, idsEq, leaves⟩
  have member : kind ∈ roles.filterMap Role.leafKind? :=
    List.mem_filterMap.mpr ⟨_, called, rfl⟩
  have found : ∃ tokenId token, ids.find? (tree.tokenHasKind kind) = some tokenId ∧
      tree.LeafAt damaged kind tokenId token := by
    clear idsEq
    generalize roles.filterMap Role.leafKind? = kinds at member leaves
    induction leaves with
    | nil => simp at member
    | @cons first tokenId kinds ids leaf _ ih =>
        rcases leaf with ⟨token, leaf⟩
        have hasKind : tree.tokenHasKind kind tokenId = (first == kind) := by
          simp [SyntaxTree.tokenHasKind, leaf.found, leaf.kind_eq]
        by_cases same : first = kind
        · subst same
          exact ⟨tokenId, token, by simp [hasKind], leaf⟩
        · have inRest : kind ∈ kinds := by
            rcases List.mem_cons.mp member with isFirst | inRest
            · exact absurd isFirst.symm same
            · exact inRest
          rcases ih inRest with ⟨tokenId, token, foundLater, leafLater⟩
          exact ⟨tokenId, token, by simpa [hasKind, same] using foundLater, leafLater⟩
  rcases found with ⟨tokenId, token, foundToken, leaf⟩
  refine ⟨tokenId, token, ?_, leaf⟩
  simp [SyntaxTree.childToken?, idsEq, foundToken, pure, Except.pure]

theorem requireToken_eq_ok {tokenId : TokenId}
    (found : tree.childToken? id kind = .ok (some tokenId)) :
    tree.requireToken id kind = .ok tokenId := by
  simp [SyntaxTree.requireToken, found, pure, Except.pure]

theorem PartsAt.requireToken (parts : tree.PartsAt damaged height id roles) (kind : Kind)
    (called : Role.leaf kind ∈ roles) : ∃ tokenId, tree.requireToken id kind = .ok tokenId := by
  rcases parts.childToken kind called with ⟨tokenId, _, found, _⟩
  exact ⟨tokenId, requireToken_eq_ok found⟩

end SyntaxTree

end QueryLang
