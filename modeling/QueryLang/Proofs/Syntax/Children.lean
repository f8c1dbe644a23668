import QueryLang.Proofs.Program.Standing
import QueryLang.Proofs.Syntax.Braced
import QueryLang.Proofs.Syntax.Parts

/-!
# The children of a node

The grammar gives each child of a node a role. `HasChildren` lists the children of a node in their
roles, and in the order of their tokens. What is looked for among the children of a node can be
read off that list.
-/

namespace QueryLang

variable {damaged : Prop} {role : Role} {kind : Kind} {roles : List Role}

/-- Whether nodes of a kind can stand in a role. -/
def Role.allows : Role → Kind → Bool
  | .leaf _, _ => false
  | .name, kind => kind == .identifierName
  | .primary, kind | .operand, kind | .expression, kind => kind.isExpression
  | .arguments, kind => kind == .argumentList
  | .fromClause, kind => kind == .fromClause
  | .clause, kind => kind == .fromClause || kind == .whereClause || kind == .letClause
  | .ending, kind => kind == .selectClause || kind == .groupClause
  | .conclusion, kind => kind == .queryConclusion
  | .queryBody, kind => kind == .queryBody
  | .block, kind => kind == .block
  | .statement, kind => kind.isStatement
  | .file, kind => kind == .compilationUnit

theorem Production.allows (production : Production damaged role kind roles) :
    role.allows kind = true := by
  induction production with
  | ofName production => cases production; rfl
  | literal isLiteral => exact Kind.isExpression_of_literalToken? isLiteral
  | ofPrimary _ ih | ofOperand _ ih => exact ih
  | ofFromClause production => cases production; rfl
  | ofBlock production => cases production; rfl
  | _ => rfl

namespace ParseTree

variable {children : List ParseTree} {part whole : ParseTree}

theorem Braced.of_isNode (braced : whole.Braced) (isNode : whole.IsNode kind children) :
    (kind = .block → Unclosing children.dropLast) ∧ BracedAll children := by
  obtain rfl | ⟨first, rest, rfl, rfl⟩ := isNode
  · cases braced with
    | node ends braced => exact ⟨ends, braced⟩
  · cases braced with
    | wrapped notBlock braced => exact ⟨fun isBlock => absurd isBlock notBlock, braced⟩

theorem Braced.of_part (braced : whole.Braced) (isPart : part.PartOf whole) : part.Braced := by
  induction isPart with
  | refl => exact braced
  | inside isNode isChild _ ih =>
    exact ih (bracedAll_iff.mp (braced.of_isNode isNode).2 _ isChild)

end ParseTree

theorem Formed.leafKind?_eq {piece : ParseTree} (formed : Formed damaged role piece) :
    piece.leafKind? = role.leafKind? := by
  cases formed with
  | token | missing => rfl
  | node production | wrapped production =>
    exact (Option.isNone_iff_eq_none.mp production.isNode).symm

/-- Where no piece before the last is a closing brace, no role is that of one. -/
theorem FormedAll.unclosing {children : List ParseTree} (formed : FormedAll damaged roles children)
    (unclosing : ParseTree.Unclosing children.dropLast) :
    ∀ role ∈ roles.dropLast, role ≠ .leaf .closeBraceToken := by
  induction children generalizing roles with
  | nil =>
    cases formed
    simp
  | cons piece rest ih =>
    cases formed with
    | cons head tail =>
      cases tail with
      | nil => simp
      | cons second tail =>
        simp only [List.dropLast_cons_cons, ParseTree.Unclosing, List.forall_mem_cons]
          at unclosing ⊢
        refine ⟨?_, ih (.cons second tail) unclosing.2⟩
        rintro rfl
        exact unclosing.1 head.leafKind?_eq

/-- A child of a node in its role. -/
structure Slot where
  role : Role
  id : Nat

namespace Slot

/-- The child: a token in the role of a token, and a node in any other role. -/
def element (slot : Slot) : Element :=
  if slot.role.isNode then .node slot.id else .token slot.id

/-- The child, if it is a node. -/
def node? (slot : Slot) : Option NodeId :=
  if slot.role.isNode then some slot.id else none

/-- The child, if it is a token. -/
def token? (slot : Slot) : Option TokenId :=
  if slot.role.isNode then none else some slot.id

theorem node?_element (slot : Slot) : slot.element.node? = slot.node? := by
  unfold element node?
  split <;> rfl

theorem token?_element (slot : Slot) : slot.element.token? = slot.token? := by
  unfold element token?
  split <;> rfl

end Slot

namespace SyntaxTree

variable {tree : SyntaxTree} {id : NodeId} {slots : List Slot}

/-- The tree has what the role of a child calls for. -/
def Fills (tree : SyntaxTree) (slot : Slot) : Prop :=
  match slot.role with
  | .leaf kind => ∃ token, tree.tokens[slot.id]? = some token ∧ token.kind = kind
  | role => ∃ kind, tree.kind slot.id = .ok kind ∧ role.allows kind = true

theorem fills_of_allows {id : Nat} (kindEq : tree.kind id = .ok kind)
    (allows : role.allows kind = true) : tree.Fills ⟨role, id⟩ := by
  cases role
  case leaf => cases allows
  all_goals exact ⟨kind, kindEq, allows⟩

/-- The children take the tokens from `start` up to `stop`, one child after the other. -/
inductive InOrder (tree : SyntaxTree) : (start : TokenId) → List Element → (stop : TokenId) → Prop
  | nil {stop : TokenId} : InOrder tree stop [] stop
  | token {id stop : TokenId} {rest : List Element} (tail : InOrder tree (id + 1) rest stop) :
      InOrder tree id (.token id :: rest) stop
  | node {id : NodeId} {node : TreeNode} {stop : TokenId} {rest : List Element}
      (found : tree.nodes[id]? = some node) (tail : InOrder tree node.endToken rest stop) :
      InOrder tree node.firstToken (.node id :: rest) stop

/-- A node has a kind and these children, all of them, in the order of their tokens. -/
def HasChildren (tree : SyntaxTree) (id : NodeId) (kind : Kind) (slots : List Slot) : Prop :=
  ∃ node, tree.nodes[id]? = some node ∧ node.kind = kind ∧
    node.children.toList = slots.map Slot.element ∧ (∀ slot ∈ slots, tree.Fills slot) ∧
    tree.InOrder node.firstToken node.children.toList node.endToken

/-! ### The children of a parsed node -/

section Holding

variable {place : Place} {parent : Option NodeId} {shape : ParseTree}

/-- What a tree holds takes its tokens from where it is on. -/
theorem Holds.inOrder_cons {stop : TokenId} {rest : List Element}
    (holds : tree.Holds place parent shape)
    (tail : tree.InOrder (place.after shape).token rest stop) :
    tree.InOrder place.token (shape.element place :: rest) stop := by
  have node {kind : Kind} {children : List ParseTree} (isNode : shape.IsNode kind children) :
      tree.InOrder place.token (shape.element place :: rest) stop := by
    obtain ⟨id, elementEq, found, _⟩ := holds.node isNode
    rw [elementEq]
    exact .node found tail
  cases shape with
  | token | missing => exact .token tail
  | node kind children => exact node (.inl rfl)
  | wrapped kind first rest => exact node (.inr ⟨first, rest, rfl, rfl⟩)

theorem HoldsAll.inOrder {parent : NodeId} {shapes : List ParseTree}
    (holds : tree.HoldsAll place parent shapes) :
    tree.InOrder place.token (ParseTree.elements place shapes)
      (place.token + ParseTree.leafCountAll shapes) := by
  induction shapes generalizing place with
  | nil => exact .nil
  | cons shape others ih =>
    have tail := ih holds.cons.2
    rw [Place.after, Nat.add_assoc] at tail
    exact holds.cons.1.inOrder_cons tail

/-- The children of a node take the tokens of the node. -/
theorem Holds.inOrder {children : List ParseTree} (holds : tree.Holds place parent shape)
    (isNode : shape.IsNode kind children) :
    tree.InOrder place.token (shape.childElements place) (place.token + shape.leafCount) := by
  obtain rfl | ⟨first, rest, rfl, rfl⟩ := isNode
  · exact holds.inside.inOrder
  · have same : (place.after first).token + ParseTree.leafCountAll rest =
        place.token + (ParseTree.wrapped kind first rest).leafCount := Nat.add_assoc _ _ _
    rw [← same]
    exact holds.wrapped.1.inOrder_cons holds.wrapped.2.inOrder

end Holding

/-- What stands for a formed piece fills its role. -/
theorem StandsFor.exists_slot {element : Element} {piece : ParseTree}
    (stands : tree.StandsFor id element piece) (formed : Formed damaged role piece) :
    ∃ slot : Slot, slot.role = role ∧ slot.element = element ∧ tree.Fills slot := by
  obtain ⟨place, rfl, holds⟩ := stands
  have node {kind : Kind} {children : List ParseTree} (isNode : piece.IsNode kind children) :
      ∃ slot : Slot, slot.role = role ∧ slot.element = piece.element place ∧ tree.Fills slot := by
    obtain ⟨own, elementEq, found, _⟩ := holds.node isNode
    obtain ⟨roles, production, _⟩ := formed.production isNode
    refine ⟨⟨role, own⟩, rfl, ?_, fills_of_allows (kind_eq_ok found) production.allows⟩
    rw [elementEq, Slot.element, if_pos production.isNode]
  cases formed with
  | token leaf => exact ⟨⟨_, place.token⟩, rfl, rfl, _, holds.token, rfl⟩
  | missing kind => exact ⟨⟨_, place.token⟩, rfl, rfl, _, holds.missing, rfl⟩
  | node => exact node (.inl rfl)
  | wrapped => exact node (.inr ⟨_, _, rfl, rfl⟩)

theorem exists_slots {elements : List Element} {pieces : List ParseTree}
    (stand : List.Forall₂ (tree.StandsFor id) elements pieces)
    (formed : FormedAll damaged roles pieces) :
    ∃ slots : List Slot, slots.map Slot.role = roles ∧ slots.map Slot.element = elements ∧
      ∀ slot ∈ slots, tree.Fills slot := by
  induction stand generalizing roles with
  | nil =>
    cases formed
    exact ⟨[], rfl, rfl, by simp⟩
  | cons stands _ ih =>
    cases formed with
    | cons head tail =>
      obtain ⟨slot, rfl, rfl, fills⟩ := stands.exists_slot head
      obtain ⟨slots, rfl, rfl, fillsAll⟩ := ih tail
      exact ⟨slot :: slots, rfl, rfl, List.forall_mem_cons.mpr ⟨fills, fillsAll⟩⟩

/-- Every node has children as a production of its kind has it. In a block, no child before the
last is a closing brace. -/
theorem Shows.exists_children {file : ParseTree} (shows : tree.Shows damaged file)
    (braced : file.Braced) (kindEq : tree.kind id = .ok kind) :
    ∃ role slots, Production damaged role kind (slots.map Slot.role) ∧
      tree.HasChildren id kind slots ∧
      (kind = .block → ∀ role ∈ (slots.map Slot.role).dropLast, role ≠ .leaf .closeBraceToken) := by
  obtain ⟨node, isNode, _, rfl⟩ := node_eq_ok kindEq
  have inRange := (Array.getElem?_eq_some_iff.mp isNode).1
  obtain ⟨place, parent, role, piece, isOwn, part⟩ := shows.exists_part inRange
  obtain ⟨kind, children, isPiece⟩ := isNode_of_element isOwn
  obtain ⟨own, ownEq, found, stand⟩ := part.holds.node isPiece
  rw [isOwn] at ownEq
  cases ownEq
  rw [isNode] at found
  cases found
  obtain ⟨roles, production, formed⟩ := part.formed.production isPiece
  obtain ⟨slots, rfl, elements, fills⟩ := exists_slots stand formed
  have bracedPart := (braced.of_part part.isPart).of_isNode isPiece
  refine ⟨role, slots, production, ⟨_, isNode, rfl, elements.symm, fills, ?_⟩, ?_⟩
  · exact part.holds.inOrder isPiece
  · exact fun isBlock => formed.unclosing (bracedPart.1 isBlock)

/-! ### Looking for a child -/

namespace HasChildren

variable (children : tree.HasChildren id kind slots)

include children

theorem kind_eq : tree.kind id = .ok kind := by
  obtain ⟨node, found, rfl, _⟩ := children
  exact kind_eq_ok found

theorem childNodes : tree.childNodes id = .ok (slots.filterMap Slot.node?) := by
  obtain ⟨node, found, _, elements, _⟩ := children
  rw [SyntaxTree.childNodes, SyntaxTree.node, found, Checked.ok_bind, elements,
    List.filterMap_map]
  exact congrArg (fun find => Except.ok (slots.filterMap find)) (funext Slot.node?_element)

theorem childTokens : tree.childTokens id = .ok (slots.filterMap Slot.token?) := by
  obtain ⟨node, found, _, elements, _⟩ := children
  rw [SyntaxTree.childTokens, SyntaxTree.node, found, Checked.ok_bind, elements,
    List.filterMap_map]
  exact congrArg (fun find => Except.ok (slots.filterMap find)) (funext Slot.token?_element)

theorem fills (slot : Slot) (isSlot : slot ∈ slots) : tree.Fills slot := by
  obtain ⟨_, _, _, _, fills, _⟩ := children
  exact fills slot isSlot

/-- The first child token of a kind is the first child in the role of such a token. -/
theorem childToken? (wanted : Kind) : tree.childToken? id wanted =
    .ok ((slots.find? fun slot => slot.role = .leaf wanted).map Slot.id) := by
  rw [SyntaxTree.childToken?, children.childTokens, Checked.ok_bind]
  have all : ∀ slot ∈ slots, tree.Fills slot := children.fills
  clear children
  refine congrArg Except.ok ?_
  induction slots with
  | nil => rfl
  | cons slot rest ih =>
    rw [List.forall_mem_cons] at all
    obtain ⟨role, own⟩ := slot
    by_cases isLeaf : ∃ leaf, role = .leaf leaf
    · obtain ⟨leaf, rfl⟩ := isLeaf
      obtain ⟨token, found, rfl⟩ := all.1
      have hasKind : tree.tokenHasKind wanted own = (token.kind == wanted) := by
        simp [tokenHasKind, found]
      by_cases same : token.kind = wanted
      · simp [Slot.token?, Role.isNode, Role.leafKind?, hasKind, same]
      · simpa [Slot.token?, Role.isNode, Role.leafKind?, hasKind, same] using ih all.2
    · have isNode : role.isNode = true := by
        cases role
        case leaf leaf => exact absurd ⟨leaf, rfl⟩ isLeaf
        all_goals rfl
      have notWanted : role ≠ .leaf wanted := fun same => isLeaf ⟨wanted, same⟩
      simpa [Slot.token?, isNode, notWanted] using ih all.2

theorem requireToken (wanted : Kind) {token : TokenId}
    (isFirst : (slots.find? fun slot => slot.role = .leaf wanted).map Slot.id = some token) :
    tree.requireToken id wanted = .ok token :=
  requireToken_eq_ok ((children.childToken? wanted).trans (congrArg Except.ok isFirst))

theorem childNode? (index : Nat) :
    tree.childNode? id index = .ok (slots.filterMap Slot.node?)[index]? := by
  rw [SyntaxTree.childNode?, children.childNodes]
  rfl

theorem requireChild {child : NodeId} (index : Nat)
    (isChild : (slots.filterMap Slot.node?)[index]? = some child) :
    tree.requireChild id index = .ok child :=
  requireChild_eq_ok index children.childNodes isChild

end HasChildren

end SyntaxTree

end QueryLang
