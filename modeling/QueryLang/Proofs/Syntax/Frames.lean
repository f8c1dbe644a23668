import QueryLang.Proofs.Lists
import QueryLang.Proofs.Syntax.Nesting
import QueryLang.Proofs.Syntax.Outside

/-!
# The tree around a block

A block of loose tokens is numbered like the rest of its file: what stands in front of it, its own
node, its opening brace, its tokens, and what stands behind it. Leaving the tokens out of the tree
of a `Frame` gives the tree of the block without content, and what is the same as a filled frame
apart from places is a filled frame as well.
-/

namespace QueryLang

/-! ### Pieces one after the other -/

/-- The place after several pieces of source. -/
def Place.afterAll (place : Place) (trees : List ParseTree) : Place :=
  trees.foldl Place.after place

/-- A token of the source in a tree. -/
def TreeToken.ofToken (parent : NodeId) (token : Token) : TreeToken :=
  ⟨token.kind, token.span, ParseTree.tokenValue token, false, parent⟩

namespace ParseTree

variable {parent : NodeId} {left right trees : List ParseTree} {tokens : List Token}

theorem node_afterAll (place : Place) (trees : List ParseTree) :
    (place.afterAll trees).node = place.node + nodeCountAll trees := by
  induction trees generalizing place with
  | nil => rfl
  | cons tree rest ih =>
    rw [Place.afterAll, List.foldl_cons, ← Place.afterAll, ih, nodeCountAll, ← Nat.add_assoc]
    rfl

theorem token_afterAll (place : Place) (trees : List ParseTree) :
    (place.afterAll trees).token = place.token + leafCountAll trees := by
  induction trees generalizing place with
  | nil => rfl
  | cons tree rest ih =>
    rw [Place.afterAll, List.foldl_cons, ← Place.afterAll, ih, leafCountAll, ← Nat.add_assoc]
    rfl

theorem elements_append (place : Place) :
    elements place (left ++ right) =
      elements place left ++ elements (place.afterAll left) right := by
  induction left generalizing place with
  | nil => rfl
  | cons tree rest ih => exact congrArg (tree.element place :: ·) (ih _)

theorem treeNodesAll_append (place : Place) :
    treeNodesAll place parent (left ++ right) =
      treeNodesAll place parent left ++ treeNodesAll (place.afterAll left) parent right := by
  induction left generalizing place with
  | nil => rfl
  | cons tree rest ih =>
    rw [List.cons_append, treeNodesAll, treeNodesAll, ih, List.append_assoc]
    rfl

theorem treeTokensAll_append (place : Place) :
    treeTokensAll place parent (left ++ right) =
      treeTokensAll place parent left ++ treeTokensAll (place.afterAll left) parent right := by
  induction left generalizing place with
  | nil => rfl
  | cons tree rest ih =>
    rw [List.cons_append, treeTokensAll, treeTokensAll, ih, List.append_assoc]
    rfl

/-! ### Loose tokens -/

theorem nodeCountAll_map_token : nodeCountAll (tokens.map .token) = 0 := by
  induction tokens with
  | nil => rfl
  | cons token rest ih => simp [nodeCountAll, nodeCount, ih]

theorem leafCountAll_map_token : leafCountAll (tokens.map .token) = tokens.length := by
  induction tokens with
  | nil => rfl
  | cons token rest ih => simp [leafCountAll, leafCount, ih, Nat.add_comm]

theorem elements_map_token (place : Place) : elements place (tokens.map .token) =
    (List.range' place.token tokens.length).map Element.token := by
  induction tokens generalizing place with
  | nil => rfl
  | cons token rest ih =>
    rw [List.map_cons, elements, ih, List.length_cons, List.range'_succ, List.map_cons]
    rfl

theorem treeNodesAll_map_token (place : Place) :
    treeNodesAll place parent (tokens.map .token) = [] := by
  induction tokens generalizing place with
  | nil => rfl
  | cons token rest ih => exact ih _

theorem treeTokensAll_map_token (place : Place) :
    treeTokensAll place parent (tokens.map .token) = tokens.map (TreeToken.ofToken parent) := by
  induction tokens generalizing place with
  | nil => rfl
  | cons token rest ih => exact congrArg (TreeToken.ofToken parent token :: ·) (ih _)

mutual

/-- The tokens of a piece do not depend on where its own tokens are numbered from. -/
theorem treeTokens_sameNode (parent : NodeId) (tree : ParseTree) {place other : Place}
    (same : other.node = place.node) :
    (treeTokens other parent tree).map TreeToken.unplaced =
      (treeTokens place parent tree).map TreeToken.unplaced :=
  match tree with
  | .token _ | .missing _ => rfl
  | .node _ children => by
      rw [treeTokens, treeTokens, same]
      exact treeTokensAll_sameNode place.node children (congrArg (· + 1) same)
  | .wrapped _ first rest => by
      have opened : (other.after first).node = (place.after first).node :=
        congrArg (· + first.nodeCount) same
      have inside : (other.after first).inside.node = (place.after first).inside.node :=
        congrArg (· + 1) opened
      rw [treeTokens, treeTokens, List.map_append, List.map_append, opened,
        treeTokens_sameNode _ first same, treeTokensAll_sameNode _ rest inside]

theorem treeTokensAll_sameNode (parent : NodeId) (trees : List ParseTree) {place other : Place}
    (same : other.node = place.node) :
    (treeTokensAll other parent trees).map TreeToken.unplaced =
      (treeTokensAll place parent trees).map TreeToken.unplaced :=
  match trees with
  | [] => rfl
  | tree :: rest => by
      have after : (other.after tree).node = (place.after tree).node :=
        congrArg (· + tree.nodeCount) same
      rw [treeTokensAll, treeTokensAll, List.map_append, List.map_append,
        treeTokens_sameNode parent tree same, treeTokensAll_sameNode parent rest after]

end

/-! ### Frames -/

namespace Frame

/-- How many nodes are numbered in front of the block, its own node left out. -/
def nodesBefore : Frame → Nat
  | .block _ => 0
  | .inside _ before frame _ => nodeCountAll before + 1 + frame.nodesBefore

/-- How many tokens are numbered in front of the block. -/
def leavesBefore : Frame → Nat
  | .block _ => 0
  | .inside _ before frame _ => leafCountAll before + frame.leavesBefore

/-- How many tokens are numbered behind the content of the block. -/
def leavesAfter : Frame → Nat
  | .block closeBrace => closeBrace.leafCount
  | .inside _ _ frame after => frame.leavesAfter + leafCountAll after

/-- The brace that closes the block, or what is missing in its place. -/
def closeBrace : Frame → ParseTree
  | .block closeBrace => closeBrace
  | .inside _ _ frame _ => frame.closeBrace

theorem leafCount_fill (frame : Frame) (tokens : List Token) :
    (frame.fill tokens).leafCount = frame.leavesBefore + tokens.length + frame.leavesAfter := by
  induction frame with
  | block closeBrace =>
    simp [fill, leafCount, leafCountAll_append, leafCountAll_map_token, leavesBefore, leavesAfter,
      leafCountAll]
  | inside kind before frame after ih =>
    simp only [fill, leafCount, leafCountAll_append, leafCountAll, ih, leavesBefore, leavesAfter]
    omega

theorem nodeCount_fill (frame : Frame) (tokens others : List Token) :
    (frame.fill tokens).nodeCount = (frame.fill others).nodeCount := by
  induction frame with
  | block closeBrace =>
    simp [fill, nodeCount, nodeCountAll_append, nodeCountAll_map_token]
  | inside kind before frame after ih =>
    simp [fill, nodeCount, nodeCountAll_append, nodeCountAll, ih]

/-- Around the tokens in the block the tokens are the same, whatever these are. -/
theorem treeTokens_fill (frame : Frame) (place : Place) (parent : NodeId) :
    ∃ front back : List TreeToken, front.length = frame.leavesBefore ∧ ∀ tokens, ∃ behind,
      treeTokens place parent (frame.fill tokens) = front ++
        (tokens.map (TreeToken.ofToken (place.node + frame.nodesBefore)) ++ behind) ∧
      behind.map TreeToken.unplaced = back := by
  induction frame generalizing place parent with
  | block closeBrace =>
    refine ⟨[], (treeTokensAll place.inside place.node [closeBrace]).map TreeToken.unplaced, rfl,
      fun tokens => ?_⟩
    let behind := place.inside.afterAll (tokens.map .token)
    have behindNode : behind.node = place.inside.node := by
      rw [node_afterAll, nodeCountAll_map_token, Nat.add_zero]
    refine ⟨treeTokensAll behind place.node [closeBrace], ?_,
      treeTokensAll_sameNode place.node [closeBrace] behindNode⟩
    rw [fill, treeTokens, treeTokensAll_append, treeTokensAll_map_token]
    rfl
  | inside kind before frame after ih =>
    let hole := place.inside.afterAll before
    obtain ⟨front, back, lengthEq, fills⟩ := ih hole place.node
    have holeNode : hole.node + frame.nodesBefore =
        place.node + (Frame.inside kind before frame after).nodesBefore := by
      rw [node_afterAll, nodesBefore, Place.inside]
      dsimp only
      omega
    refine ⟨treeTokensAll place.inside place.node before ++ front, back ++
      (treeTokensAll (hole.after (frame.fill [])) place.node after).map TreeToken.unplaced, ?_, ?_⟩
    · rw [List.length_append, length_treeTokensAll, lengthEq, leavesBefore]
    · intro tokens
      obtain ⟨behind, tokensEq, behindEq⟩ := fills tokens
      refine ⟨behind ++ treeTokensAll (hole.after (frame.fill tokens)) place.node after, ?_, ?_⟩
      · rw [fill, treeTokens, treeTokensAll_append, treeTokensAll, tokensEq, ← holeNode]
        simp only [List.append_assoc]
        rfl
      · rw [List.map_append, behindEq]
        refine congrArg (back ++ ·) (treeTokensAll_sameNode place.node after ?_)
        exact congrArg (hole.node + ·) (frame.nodeCount_fill tokens [])

variable {brace : Token} {content : List Token} {first : Nat}

/-- A node around pieces of source. -/
theorem treeNodes_outside_node {first count : Nat} {place : Place} (parent : Option NodeId)
    {kind : Kind} {pieces others : List ParseTree}
    (children : (elements place.inside pieces).filterMap (Element.outside? first count) =
      elements place.inside others)
    (nodes : (treeNodesAll place.inside place.node pieces).map
        (fun node => (node.outside first count).unplaced) =
      (treeNodesAll place.inside place.node others).map TreeNode.unplaced)
    (starts : place.token < first) (behind : first ≤ place.token + leafCountAll others)
    (leaves : leafCountAll pieces = leafCountAll others + count) :
    (treeNodes place parent (.node kind pieces)).map
        (fun node => (node.outside first count).unplaced) =
      (treeNodes place parent (.node kind others)).map TreeNode.unplaced := by
  have startsAt : numberOutside first count place.token = place.token := if_pos starts
  have ends : numberOutside first count (place.token + leafCountAll pieces) =
      place.token + leafCountAll others := by
    rw [numberOutside, leaves]
    split <;> omega
  rw [treeNodes, treeNodes, List.map_cons, List.map_cons, nodes]
  simp [TreeNode.outside, TreeNode.unplaced, children, startsAt, ends]

/-- The loose tokens are left out of the children of the block. -/
theorem loose_outside (start count : Nat) :
    ((List.range' start (count + 1)).map Element.token).filterMap
        (Element.outside? (start + 1) count) = [.token start] := by
  have notInside : ¬(start + 1 ≤ start ∧ start < start + 1 + count) := by omega
  have before : numberOutside (start + 1) count start = start := if_pos (Nat.lt_succ_self start)
  have brace : Element.outside? (start + 1) count (.token start) = some (.token start) := by
    rw [Element.outside?, if_neg notInside, before]
  rw [List.range'_succ, List.map_cons, List.filterMap_cons_some brace]
  refine congrArg (Element.token start :: ·) (List.filterMap_eq_nil_iff.mpr ?_)
  intro child isChild
  obtain ⟨id, isLoose, rfl⟩ := List.mem_map.mp isChild
  exact if_pos (List.mem_range'_1.mp isLoose)

theorem treeNodes_outside_fill (frame : Frame) (place : Place) (parent : Option NodeId)
    (isFirst : first = place.token + frame.leavesBefore + 1) :
    ((frame.fill (brace :: content)).treeNodes place parent).map
        (fun node => (node.outside first content.length).unplaced) =
      ((frame.fill [brace]).treeNodes place parent).map TreeNode.unplaced := by
  -- Behind the block nodes keep their numbers, and those of tokens fall by how many are left out.
  induction frame generalizing place parent with
  | block closeBrace =>
    rw [leavesBefore, Nat.add_zero] at isFirst
    let behind (tokens : List Token) := place.inside.afterAll (tokens.map .token)
    have behindNode (tokens : List Token) : (behind tokens).node = place.inside.node := by
      rw [node_afterAll, nodeCountAll_map_token, Nat.add_zero]
    have behindToken (tokens : List Token) :
        (behind tokens).token = place.token + tokens.length := by
      rw [token_afterAll, leafCountAll_map_token]
      rfl
    have back : Place.Beside first content.length (leafCountAll [closeBrace])
        (behind (brace :: content)) (behind [brace]) := by
      refine ⟨(behindNode _).trans (behindNode _).symm, .inr ⟨?_, ?_⟩⟩
      · rw [behindToken, List.length_cons]
        omega
      · rw [behindToken, behindToken, List.length_cons, List.length_singleton]
        omega
    refine treeNodes_outside_node parent ?_ ?_ (by omega) ?_ ?_
    · rw [elements_append, elements_append, List.filterMap_append, elements_outside back,
        elements_map_token, elements_map_token, isFirst]
      exact congrArg (· ++ _) (loose_outside place.token content.length)
    · rw [treeNodesAll_append, treeNodesAll_append, treeNodesAll_map_token,
        treeNodesAll_map_token]
      exact treeNodesAll_outside place.node [closeBrace] back
    · rw [leafCountAll_append, leafCountAll_map_token, List.length_singleton]
      omega
    · simp only [leafCountAll_append, leafCountAll_map_token, List.length_cons, List.length_nil]
      omega
  | inside kind before frame after ih =>
    rw [leavesBefore] at isFirst
    let hole := place.inside.afterAll before
    have holeToken : hole.token = place.token + leafCountAll before := token_afterAll _ _
    have insideToken : place.inside.token = place.token := rfl
    have isFirstIn : first = hole.token + frame.leavesBefore + 1 := by omega
    have front : Place.Beside first content.length (leafCountAll before) place.inside
        place.inside := ⟨rfl, .inl ⟨by omega, rfl⟩⟩
    have leaves : (frame.fill (brace :: content)).leafCount =
        (frame.fill [brace]).leafCount + content.length := by
      rw [leafCount_fill, leafCount_fill, List.length_cons, List.length_singleton]
      omega
    have back : Place.Beside first content.length (leafCountAll after)
        (hole.after (frame.fill (brace :: content))) (hole.after (frame.fill [brace])) := by
      refine ⟨congrArg (hole.node + ·) (frame.nodeCount_fill _ _), .inr ⟨?_, ?_⟩⟩
      · rw [isFirstIn, Place.after, leafCount_fill, List.length_cons]
        dsimp only
        omega
      · rw [Place.after, Place.after, leaves, Nat.add_assoc]
    have child : Element.outside? first content.length (.node hole.node) =
        some (.node hole.node) := rfl
    have element (tokens : List Token) : (frame.fill tokens).element hole = .node hole.node := by
      cases frame <;> rfl
    refine treeNodes_outside_node parent ?_ ?_ (by omega) ?_ ?_
    · rw [elements_append, elements_append, List.filterMap_append, elements_outside front,
        elements, elements, element, element, List.filterMap_cons_some child, elements_outside back]
    · rw [treeNodesAll_append, treeNodesAll_append, List.map_append, List.map_append,
        treeNodesAll_outside place.node before front, treeNodesAll, treeNodesAll, List.map_append,
        List.map_append, ih hole (some place.node) isFirstIn,
        treeNodesAll_outside place.node after back]
    · rw [leafCountAll_append, leafCountAll, leafCount_fill, List.length_singleton]
      omega
    · simp only [leafCountAll_append, leafCountAll, leaves]
      omega

/-- Leaving the content of the block out of the tree gives the tree of the block without content. -/
theorem outside_toTree (frame : Frame) (brace : Token) (content : List Token) (file : FileId)
    (fileName : String) (source other : SourceText) (features : Features) :
    (((frame.fill (brace :: content)).toTree file fileName source features).outside
        (frame.leavesBefore + 1) content.length).Alike
      ((frame.fill [brace]).toTree file fileName other features) where
  nodes := by
    have starts : frame.leavesBefore + 1 = Place.start.token + frame.leavesBefore + 1 := by
      rw [show Place.start.token = 0 from rfl, Nat.zero_add]
    simp only [SyntaxTree.outside, toTree, List.map_toArray, List.map_map]
    exact congrArg List.toArray (frame.treeNodes_outside_fill .start none starts)
  tokens := by
    obtain ⟨front, back, lengthEq, fills⟩ := frame.treeTokens_fill .start SyntaxTree.root
    obtain ⟨behind, tokensEq, behindEq⟩ := fills (brace :: content)
    obtain ⟨otherBehind, otherEq, otherBehindEq⟩ := fills [brace]
    let opening := TreeToken.ofToken (Place.start.node + frame.nodesBefore) brace
    let loose := content.map (TreeToken.ofToken (Place.start.node + frame.nodesBefore))
    have looseLength : loose.length = content.length := List.length_map _
    have split : treeTokens .start SyntaxTree.root (frame.fill (brace :: content)) =
        (front ++ [opening]) ++ (loose ++ behind) := by
      rw [tokensEq]
      simp [opening, loose]
    have frontLength : (front ++ [opening]).length = frame.leavesBefore + 1 := by
      rw [List.length_append, lengthEq, List.length_singleton]
    have sameOutside : front ++ [opening] ++ behind = front ++ ([opening] ++ behind) :=
      List.append_assoc ..
    simp only [SyntaxTree.outside, toTree]
    rw [split, ← frontLength, ← looseLength, extract_append_extract, otherEq, List.map_toArray,
      List.map_toArray, sameOutside, List.map_append, List.map_append, List.map_append,
      List.map_append, behindEq, otherBehindEq]
    rfl

/-- Filled frames that are the same apart from places and from the tokens they are filled with have
trees that are the same apart from these. -/
theorem outside_alike {frame other : Frame} {brace otherBrace : Token} {filling : List Token}
    (alike : (other.fill (otherBrace :: filling)).Alike (frame.fill (brace :: filling)))
    (content : List Token) (file : FileId) (fileName : String) (source changed : SourceText)
    (features : Features) :
    (((frame.fill (brace :: content)).toTree file fileName source features).outside
        (frame.leavesBefore + 1) content.length).Alike
      (((other.fill (otherBrace :: filling)).toTree file fileName changed features).outside
        (frame.leavesBefore + 1) filling.length) := by
  have outside := frame.outside_toTree brace content file fileName source source features
  have outsideAgain := frame.outside_toTree brace filling file fileName source source features
  have alikeAgain := (alike.toTree file fileName changed source features).outside
    (frame.leavesBefore + 1) filling.length
  exact outside.trans (alikeAgain.trans outsideAgain).symm

/-! ### The tokens of a file -/

/-- The tokens in front of those in the block. -/
def tokensBefore : Frame → List Token
  | .block _ => []
  | .inside _ before frame _ => tokensOfAll before ++ frame.tokensBefore

/-- The tokens behind those in the block. -/
def tokensAfter : Frame → List Token
  | .block closeBrace => closeBrace.tokens
  | .inside _ _ frame after => frame.tokensAfter ++ tokensOfAll after

theorem tokens_fill (frame : Frame) (tokens : List Token) :
    (frame.fill tokens).tokens = frame.tokensBefore ++ (tokens ++ frame.tokensAfter) := by
  induction frame with
  | block closeBrace =>
    rw [fill, ParseTree.tokens, tokensOfAll_append, tokensOfAll_map_token, tokensOfAll_singleton]
    rfl
  | inside kind before frame after ih =>
    rw [fill, ParseTree.tokens, tokensOfAll_append, tokensOfAll, ih, tokensBefore, tokensAfter]
    simp only [List.append_assoc]

/-- Frames with as much of everything in front of the block. -/
structure SameFront (frame other : Frame) : Prop where
  nodesBefore : frame.nodesBefore = other.nodesBefore
  leavesBefore : frame.leavesBefore = other.leavesBefore
  tokensBefore : frame.tokensBefore.length = other.tokensBefore.length

end Frame

theorem unplacedAll_eq_map (trees : List ParseTree) :
    unplacedAll trees = trees.map ParseTree.unplaced := by
  induction trees with
  | nil => rfl
  | cons tree rest ih => exact congrArg (tree.unplaced :: ·) ih

mutual

theorem length_tokens_unplaced (tree : ParseTree) :
    tree.unplaced.tokens.length = tree.tokens.length :=
  match tree with
  | .token _ | .missing _ => rfl
  | .node _ children => length_tokensOfAll_unplaced children
  | .wrapped _ first rest => by
      rw [unplaced, ParseTree.tokens, ParseTree.tokens, List.length_append, List.length_append,
        length_tokens_unplaced first, length_tokensOfAll_unplaced rest]

theorem length_tokensOfAll_unplaced (trees : List ParseTree) :
    (tokensOfAll (unplacedAll trees)).length = (tokensOfAll trees).length :=
  match trees with
  | [] => rfl
  | tree :: rest => by
      rw [unplacedAll, tokensOfAll, tokensOfAll, List.length_append, List.length_append,
        length_tokens_unplaced tree, length_tokensOfAll_unplaced rest]

end

/-- What is the same as tokens apart from places consists of such tokens. -/
theorem exists_tokens_of_unplaced {trees : List ParseTree} {tokens : List Token}
    (same : trees.map ParseTree.unplaced = (tokens.map .token).map ParseTree.unplaced) :
    ∃ others : List Token, trees = others.map .token ∧
      others.map Token.unplaced = tokens.map Token.unplaced := by
  induction trees generalizing tokens with
  | nil =>
    rw [List.map_nil, eq_comm, List.map_eq_nil_iff, List.map_eq_nil_iff] at same
    exact ⟨[], rfl, by rw [same]⟩
  | cons tree rest ih =>
    obtain ⟨token, others, rfl⟩ : ∃ token others, tokens = token :: others := by
      refine List.exists_cons_of_ne_nil ?_
      rintro rfl
      cases same
    rw [List.map_cons, List.map_cons, List.map_cons, List.cons.injEq] at same
    obtain ⟨leaf, rfl, leafEq⟩ : ∃ leaf, tree = .token leaf ∧ leaf.unplaced = token.unplaced := by
      cases tree with
      | token leaf => exact ⟨leaf, rfl, ParseTree.token.inj same.1⟩
      | missing | node | wrapped => cases same.1
    obtain ⟨leaves, rfl, leavesEq⟩ := ih same.2
    exact ⟨leaf :: leaves, rfl, congrArg₂ List.cons leafEq leavesEq⟩

/-- What is the same as a filled frame apart from places is one. -/
theorem Alike.exists_fill {frame : Frame} {tokens : List Token} {tree : ParseTree}
    (alike : tree.Alike (frame.fill tokens)) :
    ∃ (other : Frame) (others : List Token), tree = other.fill others ∧
      others.map Token.unplaced = tokens.map Token.unplaced ∧ other.SameFront frame := by
  induction frame generalizing tree with
  | block closeBrace =>
    cases tree with
    | token | missing | wrapped => cases alike
    | node kind children =>
      obtain ⟨rfl, same⟩ := ParseTree.node.inj alike
      rw [unplacedAll_eq_map, unplacedAll_eq_map, List.map_append, List.map_eq_append_iff] at same
      obtain ⟨front, back, rfl, frontEq, backEq⟩ := same
      obtain ⟨others, rfl, othersEq⟩ := exists_tokens_of_unplaced frontEq
      obtain ⟨other, rfl, _⟩ := List.map_eq_singleton_iff.mp backEq
      exact ⟨.block other, others, rfl, othersEq, rfl, rfl, rfl⟩
  | inside kind before frame after ih =>
    cases tree with
    | token | missing | wrapped => cases alike
    | node own children =>
      obtain ⟨rfl, same⟩ := ParseTree.node.inj alike
      rw [unplacedAll_eq_map, unplacedAll_eq_map, List.map_append, List.map_eq_append_iff] at same
      obtain ⟨front, back, rfl, frontEq, backEq⟩ := same
      obtain ⟨inner, rest, rfl, innerEq, _⟩ := List.map_eq_cons_iff.mp backEq
      obtain ⟨other, others, rfl, othersEq, sameFront⟩ := ih innerEq
      rw [← unplacedAll_eq_map, ← unplacedAll_eq_map] at frontEq
      have nodes := congrArg nodeCountAll frontEq
      have leaves := congrArg leafCountAll frontEq
      have tokensEq := congrArg (fun trees => (tokensOfAll trees).length) frontEq
      simp only [nodeCountAll_unplaced] at nodes
      simp only [leafCountAll_unplaced] at leaves
      simp only [length_tokensOfAll_unplaced] at tokensEq
      refine ⟨.inside own front other rest, others, rfl, othersEq, ?_, ?_, ?_⟩
      · simp only [Frame.nodesBefore, nodes, sameFront.nodesBefore]
      · simp only [Frame.leavesBefore, leaves, sameFront.leavesBefore]
      · simp only [Frame.tokensBefore, List.length_append, tokensEq, sameFront.tokensBefore]

end ParseTree

end QueryLang
