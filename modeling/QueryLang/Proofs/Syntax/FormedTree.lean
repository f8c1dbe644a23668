import QueryLang.Proofs.Syntax.Holding
import QueryLang.Proofs.Syntax.Parsing

/-!
# Formed trees

The nodes of a parsed tree follow the productions as the shape of the file does. `FormedAt` says
so about one child of a node and everything below it; the height bounds how deep that goes.
`WellFormed` gathers what holds of every parsed tree, so that nothing after this file looks at
shapes or at runs of nodes.
-/

namespace QueryLang

namespace SyntaxTree

/-- A token of a kind. It is missing only from damaged source, and an identifier that is not
missing has a name. -/
structure LeafAt (tree : SyntaxTree) (damaged : Prop) (kind : Kind) (id : Nat)
    (token : TreeToken) : Prop where
  found : tree.tokens[id]? = some token
  kind_eq : token.kind = kind
  missing : token.isMissing = true → damaged
  named : kind = .identifierToken → token.isMissing = false → token.value.isSome

/-- A child of a node is formed as its role demands, down to its tokens. -/
def FormedAt (tree : SyntaxTree) (damaged : Prop) : (height : Nat) → Role → Element → Prop
  | _, role, .token id => ∃ kind token, role = .leaf kind ∧ tree.LeafAt damaged kind id token
  | 0, _, .node _ => False
  | height + 1, role, .node id =>
    ∃ node roles, tree.nodes[id]? = some node ∧ Production damaged role node.kind roles ∧
      List.Forall₂ (tree.FormedAt damaged height) roles node.children.toList

variable {tree : SyntaxTree} {damaged : Prop}

theorem formedAt_token_iff {height : Nat} {role : Role} {id : Nat} :
    tree.FormedAt damaged height role (.token id) ↔
      ∃ kind token, role = .leaf kind ∧ tree.LeafAt damaged kind id token := by
  cases height <;> exact Iff.rfl

theorem nodeCount_of_isNode {kind : Kind} {children : List ParseTree} {shape : ParseTree}
    (isNode : shape.IsNode kind children) :
    shape.nodeCount = ParseTree.nodeCountAll children + 1 := by
  rcases isNode with rfl | ⟨first, rest, rfl, rfl⟩
  · rfl
  · rfl

theorem Holds.formedAt_token {height : Nat} {place : Place} {parent : Option NodeId}
    {token : Token} (holds : tree.Holds place parent (.token token)) :
    tree.FormedAt damaged height (.leaf token.kind) (.token place.token) := by
  refine formedAt_token_iff.mpr ⟨token.kind, _, rfl, holds.token, rfl, by simp, ?_⟩
  intro isIdentifier _
  simp [ParseTree.tokenValue, isIdentifier]

theorem Holds.formedAt_missing {height : Nat} {place : Place} {parent : Option NodeId}
    {kind : Kind} (holds : tree.Holds place parent (.missing kind)) (isDamaged : damaged) :
    tree.FormedAt damaged height (.leaf kind) (.token place.token) :=
  formedAt_token_iff.mpr ⟨kind, _, rfl, holds.missing, rfl, fun _ => isDamaged, by simp⟩

/-- Where a tree holds a formed piece, it is formed. -/
theorem Holds.formedAt {height : Nat} {place : Place} {parent : Option NodeId} {role : Role}
    {shape : ParseTree} (holds : tree.Holds place parent shape)
    (formed : Formed damaged role shape) (bound : shape.nodeCount ≤ height) :
    tree.FormedAt damaged height role (shape.element place) := by
  induction height generalizing place parent role shape with
  | zero =>
      cases formed with
      | token token => exact holds.formedAt_token
      | missing kind isDamaged => exact holds.formedAt_missing isDamaged
      | node production formed => simp [ParseTree.nodeCount] at bound
      | wrapped production formed => simp [ParseTree.nodeCount] at bound
  | succ height ih =>
      have inner {kind : Kind} {roles : List Role} {children : List ParseTree}
          (isNode : shape.IsNode kind children) (production : Production damaged role kind roles)
          (formed : FormedAll damaged roles children) :
          tree.FormedAt damaged (height + 1) role (shape.element place) := by
        rcases holds.node isNode with ⟨id, elementEq, found, standsFor⟩
        rw [elementEq]
        refine ⟨_, roles, found, production, ?_⟩
        have within : ParseTree.nodeCountAll children ≤ height := by
          rw [nodeCount_of_isNode isNode] at bound
          omega
        clear found elementEq isNode production bound holds
        dsimp only
        generalize shape.childElements place = elements at standsFor ⊢
        induction standsFor generalizing roles with
        | nil =>
            cases formed
            exact .nil
        | cons stands _ ihRest =>
            cases formed with
            | cons formedFirst formedRest =>
                rcases stands with ⟨childPlace, rfl, childHolds⟩
                simp only [ParseTree.nodeCountAll] at within
                exact .cons (ih childHolds formedFirst (by omega))
                  (ihRest formedRest (by omega))
      cases formed with
      | token token => exact holds.formedAt_token
      | missing kind isDamaged => exact holds.formedAt_missing isDamaged
      | node production formed => exact inner (.inl rfl) production formed
      | wrapped production formed => exact inner (.inr ⟨_, _, rfl, rfl⟩) production formed

/-- The parent that a tree has for a child. -/
def parentOf? (tree : SyntaxTree) : Element → Option NodeId
  | .node id => tree.nodes[id]?.bind TreeNode.parent
  | .token id => tree.tokens[id]?.map TreeToken.parent

/-- What holds of every parsed tree. -/
structure WellFormed (tree : SyntaxTree) (damaged : Prop) : Prop where
  text_fits : byteLength tree.text < positionLimit
  tokens_pos : 0 < tree.tokens.size
  root_formed : tree.FormedAt damaged tree.nodes.size .file (.node root)
  root_parent : tree.parentOf? (.node root) = none
  formed : ∀ id : Nat, id < tree.nodes.size →
    ∃ role, tree.FormedAt damaged tree.nodes.size role (.node id)
  reachable : ∀ id : Nat, id < tree.nodes.size → tree.Below root id
  token_within : ∀ {id : Nat} {token}, tree.tokens[id]? = some token →
    token.span.Within tree.text
  token_parent : ∀ {id : Nat} {token}, tree.tokens[id]? = some token →
    token.parent < tree.nodes.size
  node_within : ∀ {id : Nat} {node}, tree.nodes[id]? = some node → node.span.Within tree.text
  node_tokens : ∀ {id : Nat} {node}, tree.nodes[id]? = some node →
    node.firstToken + (node.endToken - node.firstToken) ≤ tree.tokens.size
  node_parent : ∀ {id : Nat} {node parent}, tree.nodes[id]? = some node →
    node.parent = some parent → parent < tree.nodes.size
  child_parent : ∀ {id : Nat} {node}, tree.nodes[id]? = some node →
    ∀ child ∈ node.children.toList, tree.parentOf? child = some id
  children_nodup : ∀ {id : Nat} {node}, tree.nodes[id]? = some node →
    node.children.toList.Nodup

end SyntaxTree

namespace SyntaxTree

theorem isNode_of_element {place : Place} {shape : ParseTree} {id : NodeId}
    (elementEq : shape.element place = .node id) :
    ∃ kind children, shape.IsNode kind children := by
  cases shape with
  | token leaf => simp [ParseTree.element] at elementEq
  | missing kind => simp [ParseTree.element] at elementEq
  | node kind children => exact ⟨kind, children, .inl rfl⟩
  | wrapped kind first rest => exact ⟨kind, first :: rest, .inr ⟨first, rest, rfl, rfl⟩⟩

/-- The piece that a node of a tree stands for. -/
structure HoldsNode (tree : SyntaxTree) (id : Nat) (node : TreeNode) (place : Place)
    (shape : ParseTree) : Prop where
  holds : tree.Holds place node.parent shape
  element_eq : shape.element place = .node id
  span_eq : node.span = .covering (shape.treeTokens place (node.parent.getD root))
  children_eq : node.children = (shape.childElements place).toArray
  firstToken_eq : node.firstToken = place.token
  endToken_eq : node.endToken = place.token + shape.leafCount
  standsFor : ∃ children, List.Forall₂ (tree.StandsFor id) (shape.childElements place) children

theorem Holds.holdsNode {tree : SyntaxTree} {place : Place} {parent : Option NodeId}
    {shape : ParseTree} {id : Nat} {node : TreeNode} (holds : tree.Holds place parent shape)
    (elementEq : shape.element place = .node id) (found : tree.nodes[id]? = some node) :
    tree.HoldsNode id node place shape := by
  rcases isNode_of_element elementEq with ⟨kind, children, isNode⟩
  rcases holds.node isNode with ⟨own, ownEq, foundOwn, standsFor⟩
  rw [elementEq] at ownEq
  cases ownEq
  rw [found] at foundOwn
  cases foundOwn
  exact ⟨holds, elementEq, rfl, rfl, rfl, rfl, children, standsFor⟩

theorem FormedPiece.holdsNode {tree : SyntaxTree} {damaged : Prop} {id : Nat} {node : TreeNode}
    (formed : tree.FormedPiece damaged id) (found : tree.nodes[id]? = some node) :
    ∃ place shape, tree.HoldsNode id node place shape := by
  rcases formed with ⟨place, parent, role, shape, holds, _, elementEq⟩
  exact ⟨place, shape, holds.holdsNode elementEq found⟩

/-- A tree knows the parents of the pieces it holds. -/
theorem Holds.parentOf?_eq {tree : SyntaxTree} {place : Place} {parent : NodeId}
    {shape : ParseTree} (holds : tree.Holds place (some parent) shape) :
    tree.parentOf? (shape.element place) = some parent := by
  cases elementEq : shape.element place with
  | node id =>
      rcases isNode_of_element elementEq with ⟨kind, children, isNode⟩
      rcases holds.node isNode with ⟨own, ownEq, found, _⟩
      rw [elementEq] at ownEq
      cases ownEq
      simp [parentOf?, found]
  | token id =>
      cases shape with
      | token leaf =>
          cases elementEq
          simp [parentOf?, holds.token]
      | missing kind =>
          cases elementEq
          simp [parentOf?, holds.missing]
      | node kind children => simp [ParseTree.element] at elementEq
      | wrapped kind first rest => simp [ParseTree.element] at elementEq

theorem parentOf?_of_mem {tree : SyntaxTree} {parent : NodeId} {elements : List Element}
    {shapes : List ParseTree} (standsFor : List.Forall₂ (tree.StandsFor parent) elements shapes)
    {child : Element} (member : child ∈ elements) : tree.parentOf? child = some parent := by
  induction standsFor with
  | nil => simp at member
  | cons stands _ ih =>
      rcases List.mem_cons.mp member with rfl | member
      · rcases stands with ⟨place, rfl, holds⟩
        exact holds.parentOf?_eq
      · exact ih member

end SyntaxTree

section Parsed

variable {file : FileId} {fileName : String} {source : SourceText} {features : Features}
  {scanned : ScannedText}

/-- The tree of a file holds the file. -/
theorem ParseTree.holds_toTree (shape : ParseTree) :
    (shape.toTree file fileName source features).Holds .start none shape :=
  ⟨⟨[], [], by simp [toTree], rfl⟩, ⟨[], [], by simp [toTree], rfl⟩⟩

/-- A formed file has a well-formed tree. -/
theorem ParseTree.wellFormed_toTree {damaged : Prop} {shape : ParseTree}
    {children : List ParseTree} (isNode : shape = .node .compilationUnit children)
    (formed : Formed damaged .file shape)
    (within : ∀ token ∈ shape.tokens, token.span.Within source.chars) :
    (shape.toTree file fileName source features).WellFormed damaged := by
  generalize treeEq : shape.toTree file fileName source features = tree
  have text : tree.text = source.chars := treeEq ▸ rfl
  have nodes : tree.nodes = (shape.treeNodes .start none).toArray := treeEq ▸ rfl
  have tokens : tree.tokens = (shape.treeTokens .start SyntaxTree.root).toArray := treeEq ▸ rfl
  have nodesSize : tree.nodes.size = shape.nodeCount := by simp [nodes, length_treeNodes]
  have tokensSize : tree.tokens.size = shape.leafCount := by simp [tokens, length_treeTokens]
  have holds : tree.Holds .start none shape := treeEq ▸ shape.holds_toTree
  have atStart : Boundary source.chars Place.start.position := .zero source.chars
  have tokensWithin : TreeBuilder.TokensWithin source.chars tree.tokens.toList := by
    rw [tokens]
    exact treeTokens_within atStart SyntaxTree.root shape within
  have ownPiece {id : Nat} (inRange : id < tree.nodes.size) :
      (∃ top, shape.element .start = .node top ∧ tree.Below top id) ∧
        tree.FormedPiece damaged id := by
    refine holds.exists_node shape formed (Nat.zero_le id) ?_
    show id < 0 + shape.nodeCount
    omega
  have ownNode {id : Nat} {node : TreeNode} (found : tree.nodes[id]? = some node) :=
    (ownPiece (Array.getElem?_eq_some_iff.mp found).1).2.holdsNode found
  have rootElement : shape.element .start = .node SyntaxTree.root := isNode ▸ rfl
  have nonempty : 0 < tree.nodes.size := by
    rw [nodesSize, isNode]
    exact Nat.succ_pos _
  exact {
    text_fits := by rw [text]; exact source.byteLength_lt
    tokens_pos := by rw [tokensSize]; exact formed.leafCount_pos
    root_formed := by
      have rootFormed := holds.formedAt formed (Nat.le_of_eq nodesSize.symm)
      rw [rootElement] at rootFormed
      exact rootFormed
    root_parent := by
      rw [SyntaxTree.parentOf?, nodes, isNode]
      rfl
    formed := by
      intro id inRange
      rcases (ownPiece inRange).2 with ⟨place, parent, role, piece, held, formedPiece, elementEq⟩
      have bound : piece.nodeCount ≤ tree.nodes.size := by
        have run := held.nodes.length_le
        rw [length_treeNodes, Array.length_toList] at run
        omega
      exact ⟨role, elementEq ▸ held.formedAt formedPiece bound⟩
    reachable := by
      intro id inRange
      rcases (ownPiece inRange).1 with ⟨top, topEq, below⟩
      rw [rootElement] at topEq
      cases topEq
      exact below
    token_within := by
      intro id token found
      rw [text]
      exact tokensWithin token (Array.mem_toList_iff.mpr (Array.mem_of_getElem? found))
    token_parent := by
      intro id token found
      have member : token ∈ shape.treeTokens .start SyntaxTree.root := by
        have inTree := Array.mem_of_getElem? found
        simpa [tokens] using inTree
      rcases parent_of_mem_treeTokens shape member with ⟨parent, parentEq, inside⟩
      rw [parentEq]
      simp only [SyntaxTree.root, Place.start] at inside
      show parent < tree.nodes.size
      omega
    node_within := by
      intro id node found
      rcases ownNode found with ⟨place, piece, own⟩
      rw [own.span_eq, text]
      exact TreeBuilder.within_covering fun token member =>
        tokensWithin token (own.holds.tokens.mem member)
    node_tokens := by
      intro id node found
      rcases ownNode found with ⟨place, piece, own⟩
      have run := own.holds.tokens.length_le
      rw [length_treeTokens, Array.length_toList] at run
      rw [own.firstToken_eq, own.endToken_eq]
      show place.token + (place.token + piece.leafCount - place.token) ≤ tree.tokens.size
      omega
    node_parent := by
      intro id node parent found parentEq
      have member : node ∈ shape.treeNodes .start none := by
        have inTree := Array.mem_of_getElem? found
        simpa [nodes] using inTree
      rcases parent_of_mem_treeNodes shape member with noParent | ⟨id, parentIs, inside⟩
      · rw [noParent] at parentEq
        cases parentEq
      · have same : id = parent := Option.some.inj (parentIs.symm.trans parentEq)
        rw [← same]
        simp only [Place.start] at inside
        show id < tree.nodes.size
        omega
    child_parent := by
      intro id node found child member
      rcases ownNode found with ⟨place, piece, own⟩
      rcases own.standsFor with ⟨children, standsFor⟩
      rw [own.children_eq] at member
      exact SyntaxTree.parentOf?_of_mem standsFor member
    children_nodup := by
      intro id node found
      rcases ownNode found with ⟨place, piece, own⟩
      rw [own.children_eq]
      exact childElements_nodup place piece }

/-- Parsing a text that can be scanned gives a well-formed tree. -/
theorem wellFormed_of_scanText (scans : scanText file source = .ok scanned) :
    ((parseTokens file features scanned).shape.toTree file fileName source features).WellFormed
      ((parseTokens file features scanned).diagnostics.hasErrors = true) := by
  have covers := scanText_covers scans
  have faithful := parseTokens_faithful file features covers
  rcases faithful.isNode with ⟨children, isNode⟩
  refine ParseTree.wellFormed_toTree isNode faithful.formed ?_
  intro token member
  rw [faithful.tokens] at member
  have atStart : byteLength [] = 0 := rfl
  exact covers.tiled.within atStart token member

end Parsed

end QueryLang
