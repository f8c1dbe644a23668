import QueryLang.Proofs.Lists
import QueryLang.Proofs.Syntax.Frames
import QueryLang.Proofs.Syntax.Parts

/-!
# Skipped blocks in a tree

`SyntaxTree.InBlocks` counts the blocks around a node, and `IsOpenedBy` says which token opens a
block. A file that is a filled frame has a node for its block: `IsSkippedBlock` says that the tokens
with which the frame is filled are the loose children of this node, between its braces.
-/

namespace QueryLang

namespace SyntaxTree

/-- So many blocks stand around a node. -/
inductive InBlocks (tree : SyntaxTree) : (count : Nat) → (id : Nat) → Prop
  | root : InBlocks tree 0 root
  | inBlock {count parent child} (inside : InBlocks tree count parent)
      (isBlock : tree.kind parent = .ok .block) (isChild : tree.IsChildOf (.node child) parent) :
      InBlocks tree (count + 1) child
  | inOther {count parent child kind} (inside : InBlocks tree count parent)
      (isOther : tree.kind parent = .ok kind) (notBlock : kind ≠ .block)
      (isChild : tree.IsChildOf (.node child) parent) : InBlocks tree count child

/-- The node is a block, and its first child is the token `opening`, a brace of the source. -/
structure IsOpenedBy (tree : SyntaxTree) (id opening : Nat) (brace : Token) : Prop where
  isBlock : tree.kind id = .ok .block
  isFirst : tree.nodes[id]?.bind (·.children[0]?) = some (.token opening)
  token : tree.tokens[opening]? = some (.ofToken id brace)

/-- The node is a block, and its children are tokens: the one that opens it, the loose ones, and a
closing brace, or where it is missing. -/
structure IsSkippedBlock (tree : SyntaxTree) (id opening : Nat) (brace : Token)
    (loose : List Token) : Prop where
  block : ∃ node, tree.nodes[id]? = some node ∧ node.kind = .block ∧
    node.children.toList = (List.range' opening (loose.length + 2)).map Element.token
  tokens : StandsAt tree.tokens.toList ((brace :: loose).map (TreeToken.ofToken id)) opening
  closing : ∃ token, tree.tokens[opening + (loose.length + 1)]? = some token ∧
    token.kind = .closeBraceToken ∧ token.parent = id

instance (tree : SyntaxTree) (child : Element) (parent : Nat) :
    Decidable (tree.IsChildOf child parent) :=
  decidable_of_iff (tree.nodes[parent]?.any (child ∈ ·.children.toList) = true)
    (by simp [IsChildOf, Option.any_eq_true])

variable {tree : SyntaxTree} {damaged : Prop} {file : ParseTree} {count id opening : Nat}
  {brace : Token}

/-- Where every node is a block and has the next one as child, the first one being in the file, the
blocks stand one in the other. -/
theorem inBlocks_of_nested (isFile : tree.kind root = .ok .compilationUnit)
    (isFirst : tree.IsChildOf (.node 1) root)
    (nested : ∀ id < count, tree.kind (id + 1) = .ok .block ∧
      tree.IsChildOf (.node (id + 2)) (id + 1)) : tree.InBlocks count (count + 1) := by
  induction count with
  | zero => exact .inOther .root isFile (by decide) isFirst
  | succ count ih =>
    obtain ⟨isBlock, isChild⟩ := nested count (Nat.lt_succ_self count)
    exact .inBlock (ih fun id inRange => nested id (Nat.lt_succ_of_lt inRange)) isBlock isChild

/-! ### Opened blocks -/

/-- Around a child of a node stand the blocks around the node, and the node itself if it is one. -/
theorem HoldsPart.exists_child {place : Place} {parent : Option NodeId} {role : Role}
    {piece : ParseTree} {kind : Kind} {child : Nat}
    (part : tree.HoldsPart damaged file place parent role piece)
    (within : piece.Within count file) (isOwn : piece.element place = .node id)
    (isKind : tree.kind id = .ok kind) (isChild : tree.IsChildOf (.node child) id) :
    ∃ place parent role inner, inner.element place = .node child ∧
      tree.HoldsPart damaged file place parent role inner ∧
      inner.Within (count + if kind = .block then 1 else 0) file := by
  obtain ⟨own, _, _, _, _, inner, _, childAt⟩ := part.child isOwn isChild
  obtain ⟨place, isInner, held⟩ := childAt.holdsPart
  have innerWithin := within.of_child childAt.isNode List.mem_append_cons_self
  rw [childAt.kind_eq, Except.ok.injEq] at isKind
  exact ⟨place, _, _, inner, isInner, held, isKind ▸ innerWithin⟩

/-- A node with blocks around it stands for a part of the file with blocks around it. -/
theorem Shows.exists_within (shows : tree.Shows damaged file) (inBlocks : tree.InBlocks count id) :
    ∃ place parent role piece, piece.element place = .node id ∧
      tree.HoldsPart damaged file place parent role piece ∧ piece.Within count file := by
  induction inBlocks with
  | root => exact ⟨_, _, _, file, shows.root, shows.whole, .here⟩
  | inBlock _ isBlock isChild ih =>
    obtain ⟨_, _, _, piece, isOwn, part, within⟩ := ih
    exact part.exists_child within isOwn isBlock isChild
  | inOther _ isOther notBlock isChild ih =>
    obtain ⟨_, _, _, piece, isOwn, part, within⟩ := ih
    obtain ⟨_, _, _, inner, isInner, held, within⟩ :=
      part.exists_child within isOwn isOther isChild
    rw [if_neg notBlock, Nat.add_zero] at within
    exact ⟨_, _, _, inner, isInner, held, within⟩

/-- The token that opens a block of the tree opens a block of the file. -/
theorem Shows.exists_opens (shows : tree.Shows damaged file) (inBlocks : tree.InBlocks count id)
    (isOpened : tree.IsOpenedBy id opening brace) :
    ∃ leaf, leaf.span = brace.span ∧ file.Opens leaf count := by
  obtain ⟨place, parent, role, piece, isOwn, part, within⟩ := shows.exists_within inBlocks
  -- The first child of the node is the brace, so that of the piece is a token of the file.
  obtain ⟨kind, children, isNode⟩ := isNode_of_element isOwn
  obtain ⟨own, ownEq, found, standsFor⟩ := part.holds.node isNode
  rw [isOwn] at ownEq
  cases ownEq
  have isBlock := isOpened.isBlock
  rw [kind_eq_ok found, Except.ok.injEq] at isBlock
  subst isBlock
  have isFirst := isOpened.isFirst
  rw [found, Option.bind_some, List.getElem?_toArray] at isFirst
  generalize piece.childElements place = elements at isFirst standsFor
  cases standsFor with
  | nil => cases isFirst
  | cons stands _ =>
    obtain rfl := Option.some.inj isFirst
    obtain ⟨innerPlace, isOwn, held⟩ := stands
    obtain ⟨leaf, rfl, _, sameSpan⟩ := held.token_of_real isOwn.symm isOpened.token rfl
    exact ⟨leaf, sameSpan, piece, _, isNode, within⟩

/-- Two blocks are not opened by one token of the source. -/
theorem LaidOut.opening_unique (laidOut : tree.LaidOut) {other otherOpening : Nat}
    (isToken : tree.tokens[opening]? = some (.ofToken id brace))
    (isOther : tree.tokens[otherOpening]? = some (.ofToken other brace)) :
    other = id ∧ otherOpening = opening := by
  have notBefore {first second firstParent secondParent : Nat}
      (isFirst : tree.tokens[first]? = some (.ofToken firstParent brace))
      (isSecond : tree.tokens[second]? = some (.ofToken secondParent brace)) :
      ¬first < second := by
    intro before
    have precedes := laidOut.precedes isFirst isSecond before rfl rfl
    exact absurd precedes.ordered (Nat.not_le_of_lt (Nat.lt_add_of_pos_right precedes.nonempty))
  obtain rfl : otherOpening = opening :=
    Nat.le_antisymm (Nat.not_lt.mp (notBefore isToken isOther))
      (Nat.not_lt.mp (notBefore isOther isToken))
  rw [isToken, Option.some.injEq] at isOther
  exact ⟨(congrArg TreeToken.parent isOther).symm, rfl⟩

/-! ### Filled frames -/

theorem HoldsAll.drop {place : Place} {parent : NodeId} {before after : List ParseTree}
    (holds : tree.HoldsAll place parent (before ++ after)) :
    tree.HoldsAll (place.afterAll before) parent after := by
  induction before generalizing place with
  | nil => exact holds
  | cons tree rest ih => exact ih holds.cons.2

/-- The tree holds the block of a frame. -/
theorem Holds.hole {frame : ParseTree.Frame} {tokens : List Token} {place : Place}
    {parent : Option NodeId} (holds : tree.Holds place parent (frame.fill tokens)) :
    ∃ hole outer, hole.node = place.node + frame.nodesBefore ∧
      hole.token = place.token + frame.leavesBefore ∧
      tree.Holds hole outer (.node .block (tokens.map .token ++ [frame.closeBrace])) := by
  induction frame generalizing place parent with
  | block closeBrace => exact ⟨place, parent, rfl, rfl, holds⟩
  | inside kind before frame after ih =>
    have inside : tree.Holds (place.inside.afterAll before) (some place.node)
        (frame.fill tokens) := holds.inside.drop.cons.1
    obtain ⟨hole, outer, nodeEq, tokenEq, held⟩ := ih inside
    rw [ParseTree.node_afterAll] at nodeEq
    rw [ParseTree.token_afterAll] at tokenEq
    refine ⟨hole, outer, ?_, ?_, held⟩
    · rw [nodeEq, ParseTree.Frame.nodesBefore, Place.inside]
      dsimp only
      omega
    · rw [tokenEq, ParseTree.Frame.leavesBefore, Place.inside]
      dsimp only
      omega

end SyntaxTree

theorem Production.closing_of_block {damaged : Prop} {role : Role} {kind : Kind} {roles : List Role}
    (production : Production damaged role kind roles) (isBlock : kind = .block) :
    ∃ front, roles = front ++ [.leaf .closeBraceToken] := by
  induction production with
  | ofName _ ih | ofPrimary _ ih | ofOperand _ ih | ofFromClause _ ih | ofBlock _ ih =>
    exact ih isBlock
  | block => exact ⟨_ :: _, rfl⟩
  | literal isLiteral =>
    subst isBlock
    cases isLiteral
  | _ => cases isBlock

namespace ParseTree.Frame

variable {damaged : Prop} {role : Role} {frame : Frame} {tokens : List Token}

/-- The block of a formed frame ends with a closing brace. -/
theorem formed_closeBrace (formed : Formed damaged role (frame.fill tokens)) :
    Formed damaged (.leaf .closeBraceToken) frame.closeBrace := by
  induction frame generalizing role with
  | block closeBrace =>
    obtain ⟨roles, production, formedAll⟩ := formed.production (.inl rfl)
    obtain ⟨front, rfl⟩ := production.closing_of_block rfl
    obtain ⟨lefts, own, rights, rolesEq, _, rightLength, formedLast⟩ := formedAll.split
    obtain rfl : rights = [] := List.eq_nil_of_length_eq_zero rightLength
    obtain ⟨_, isOwn⟩ := List.append_inj' rolesEq rfl
    obtain rfl := (List.singleton_inj.mp isOwn)
    exact formedLast
  | inside kind before frame after ih =>
    obtain ⟨roles, _, formedAll⟩ := formed.production (.inl rfl)
    obtain ⟨_, own, _, _, _, _, formedInner⟩ := formedAll.split
    exact ih formedInner

end ParseTree.Frame

namespace SyntaxTree

variable {tree : SyntaxTree} {damaged : Prop} {role : Role} {piece : ParseTree}
  {frame : ParseTree.Frame} {brace : Token} {loose : List Token} {place : Place}
  {parent : Option NodeId}

/-- The closing brace of a block, or where it is missing. -/
theorem Holds.closing (holds : tree.Holds place parent piece)
    (formed : Formed damaged (.leaf .closeBraceToken) piece) :
    piece.element place = .token place.token ∧
    ∃ token, tree.tokens[place.token]? = some token ∧ token.kind = .closeBraceToken ∧
      token.parent = parent.getD root := by
  generalize isLeaf : Role.leaf .closeBraceToken = own at formed
  cases formed with
  | token leaf => exact ⟨rfl, _, holds.token, (Role.leaf.inj isLeaf).symm, rfl⟩
  | missing kind => exact ⟨rfl, _, holds.missing, (Role.leaf.inj isLeaf).symm, rfl⟩
  | node production | wrapped production =>
    subst isLeaf
    cases production

/-- A tree has the tokens with which a frame is filled as children of a block. -/
theorem isSkippedBlock (formed : Formed damaged role (frame.fill (brace :: loose)))
    (holds : tree.Holds .start none (frame.fill (brace :: loose))) :
    tree.IsSkippedBlock frame.nodesBefore frame.leavesBefore brace loose := by
  obtain ⟨hole, outer, nodeEq, tokenEq, held⟩ := holds.hole
  rw [show Place.start.node + frame.nodesBefore = frame.nodesBefore from Nat.zero_add _] at nodeEq
  rw [show Place.start.token + frame.leavesBefore = frame.leavesBefore from Nat.zero_add _]
    at tokenEq
  let tokens : List ParseTree := (brace :: loose).map .token
  have behindToken : (hole.inside.afterAll tokens).token =
      frame.leavesBefore + (loose.length + 1) := by
    rw [ParseTree.token_afterAll, ParseTree.leafCountAll_map_token]
    exact congrArg (· + (loose.length + 1)) tokenEq
  have inside : tree.HoldsAll hole.inside hole.node (tokens ++ [frame.closeBrace]) := held.inside
  obtain ⟨closeElement, close, isClose, closeKind, closeParent⟩ :=
    inside.drop.cons.1.closing (ParseTree.Frame.formed_closeBrace formed)
  rw [behindToken] at closeElement isClose
  obtain ⟨own, ownEq, found, _⟩ := held.node (.inl rfl)
  cases ownEq
  refine ⟨⟨_, nodeEq ▸ found, rfl, ?_⟩, ?_, close, isClose, closeKind, ?_⟩
  · have elements : ParseTree.elements hole.inside (tokens ++ [frame.closeBrace]) =
        (List.range' frame.leavesBefore (loose.length + 1)).map Element.token ++
          [.token (frame.leavesBefore + (loose.length + 1))] := by
      rw [ParseTree.elements_append, ParseTree.elements_map_token, ParseTree.elements, closeElement,
        ← tokenEq]
      rfl
    have split : List.range' frame.leavesBefore (loose.length + 2) =
        List.range' frame.leavesBefore (loose.length + 1) ++
          [frame.leavesBefore + (loose.length + 1)] := List.range'_1_concat
    rw [split, List.map_append]
    exact elements
  · have stands := inside.tokens
    rw [ParseTree.treeTokensAll_append, ParseTree.treeTokensAll_map_token, nodeEq] at stands
    exact tokenEq ▸ stands.left
  · rw [closeParent]
    exact nodeEq

/-- In a file that is a filled frame the brace opens the block of the frame. -/
theorem IsOpenedBy.isFrame {id opening : Nat} (isOpened : tree.IsOpenedBy id opening brace)
    (shows : tree.Shows damaged (frame.fill (brace :: loose))) :
    frame.nodesBefore = id ∧ frame.leavesBefore = opening := by
  have isToken := (isSkippedBlock shows.whole.formed shows.whole.holds).tokens.getElem?_eq
  rw [Array.getElem?_toList] at isToken
  exact shows.laidOut.opening_unique isOpened.token isToken

theorem LaidOut.nodup (laidOut : tree.LaidOut) : (tree.realTokens.map TreeToken.placed).Nodup := by
  refine laidOut.precede.imp fun precedes same => ?_
  have nonempty := precedes.nonempty
  have ordered := precedes.ordered
  rw [same] at nonempty ordered
  omega

/-- Without the loose tokens the tree has all tokens of the source but these. -/
theorem IsSkippedBlock.realTokens_outside {id opening : Nat}
    (skipped : tree.IsSkippedBlock id opening brace loose) (laidOut : tree.LaidOut) :
    (tree.outside (opening + 1) loose.length).realTokens.map TreeToken.placed =
      (tree.realTokens.map TreeToken.placed).filter (· ∉ loose.map Token.placed) := by
  obtain ⟨before, after, split, rfl⟩ := skipped.tokens
  obtain ⟨front, frontEq⟩ : ∃ front, front = before ++ [TreeToken.ofToken id brace] := ⟨_, rfl⟩
  have tokensEq : tree.tokens.toList =
      front ++ (loose.map (TreeToken.ofToken id) ++ after) := by
    rw [split, frontEq]
    simp
  have outsideEq : (tree.outside (before.length + 1) loose.length).tokens.toList =
      front ++ after := by
    have frontLength : front.length = before.length + 1 := frontEq ▸ List.length_append
    have extracts := extract_append_extract front
      (loose.map (TreeToken.ofToken id)) after
    rw [← tokensEq, Array.toArray_toList, frontLength, List.length_map] at extracts
    exact congrArg Array.toList extracts
  have realInside := ParseTree.placed_treeTokensAll .start id (loose.map .token)
  rw [ParseTree.treeTokensAll_map_token, ParseTree.tokensOfAll_map_token] at realInside
  have real : tree.realTokens.map TreeToken.placed =
      (front.filter TreeToken.isReal).map TreeToken.placed ++
        (loose.map Token.placed ++ (after.filter TreeToken.isReal).map TreeToken.placed) := by
    rw [realTokens, tokensEq, List.filter_append, List.filter_append, List.map_append,
      List.map_append, realInside]
  have distinct := laidOut.nodup
  rw [real] at distinct ⊢
  rw [filter_notMem_middle distinct, realTokens, outsideEq, List.filter_append, List.map_append]

end SyntaxTree

end QueryLang
