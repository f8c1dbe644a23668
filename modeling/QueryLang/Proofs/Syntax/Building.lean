import QueryLang.Proofs.Checked
import QueryLang.Proofs.Lists
import QueryLang.Proofs.Syntax.Numbering

/-!
# What building gives

Building a parse tree numbers it: the open node gets the piece as its next child, and the piece's
runs of nodes and tokens are added at the ends of the two arrays. Adoption moves the first child
of a wrapped node under that node, so in the end it is numbered as if it had been a child of the
wrapped node from the start.
-/

namespace QueryLang

section RealTokens

variable {tokens : Array TreeToken} {count start : Nat}

/-- The first token of a range that stands in the source is found by its number. -/
theorem firstRealToken?_eq_ok (bound : start + count ≤ tokens.size) :
    ∃ found, firstRealToken? tokens count start = .ok found ∧
      (∀ id : Nat, found = some id → start ≤ id ∧ id < start + count) ∧
      found.map (tokens.getD · default) =
        ((tokens.toList.drop start).take count).find? TreeToken.isReal := by
  induction count generalizing start with
  | zero => exact ⟨none, rfl, by simp, by simp⟩
  | succ count ih =>
      have inRange : start < tokens.size := by omega
      have slice : (tokens.toList.drop start).take (count + 1) =
          tokens[start] :: (tokens.toList.drop (start + 1)).take count := by
        rw [List.drop_eq_getElem_cons (by simpa using inRange)]
        simp
      rw [firstRealToken?, Array.getElem?_eq_getElem inRange, slice]
      cases missing : tokens[start].isMissing with
      | true =>
          have shifted : start + 1 + count ≤ tokens.size := by omega
          rcases ih shifted with ⟨found, foundEq, range, value⟩
          refine ⟨found, by simpa [missing] using foundEq, ?_, ?_⟩
          · intro id member
            have := range id member
            omega
          · rw [value]
            simp [TreeToken.isReal, missing]
      | false =>
          refine ⟨some start, by simp [missing], by simp, ?_⟩
          simp [TreeToken.isReal, missing, Array.getD, inRange]

/-- The last token of a range that stands in the source is found by its number. -/
theorem lastRealToken?_eq_ok (bound : start + count ≤ tokens.size) :
    ∃ found, lastRealToken? tokens count start = .ok found ∧
      (∀ id : Nat, found = some id → start ≤ id ∧ id < start + count) ∧
      found.map (tokens.getD · default) =
        ((tokens.toList.drop start).take count).reverse.find? TreeToken.isReal := by
  induction count with
  | zero => exact ⟨none, rfl, by simp, by simp⟩
  | succ count ih =>
      have inRange : start + count < tokens.size := by omega
      have slice : (tokens.toList.drop start).take (count + 1) =
          (tokens.toList.drop start).take count ++ [tokens[start + count]] := by
        rw [List.take_succ_eq_append_getElem (by simp; omega)]
        simp
      rw [lastRealToken?, Array.getElem?_eq_getElem inRange, slice]
      cases missing : tokens[start + count].isMissing with
      | true =>
          rcases ih (by omega) with ⟨found, foundEq, range, value⟩
          refine ⟨found, by simpa [missing] using foundEq, ?_, ?_⟩
          · intro id member
            have := range id member
            omega
          · rw [value]
            simp [TreeToken.isReal, missing]
      | false =>
          refine ⟨some (start + count), by simp [missing], by simp, ?_⟩
          simp [TreeToken.isReal, missing, Array.getD, inRange]

end RealTokens

namespace TreeBuilder

variable {chars : List Char} {tokens new : List TreeToken}

/-- The tokens of a builder stand in the text. -/
def TokensWithin (chars : List Char) (tokens : List TreeToken) : Prop :=
  ∀ token ∈ tokens, token.span.Within chars

/-- The span of the newest tokens. -/
theorem coveredSpan_eq_ok (fits : byteLength chars < positionLimit)
    (within : TokensWithin chars new) :
    coveredSpan (tokens ++ new).toArray tokens.length = .ok (.covering new) := by
  have bound : tokens.length + new.length ≤ (tokens ++ new).toArray.size := by simp
  rcases firstRealToken?_eq_ok bound with ⟨first, firstEq, _, firstValue⟩
  rcases lastRealToken?_eq_ok bound with ⟨last, lastEq, _, lastValue⟩
  have width : (tokens ++ new).toArray.size - tokens.length = new.length := by simp
  simp only [List.drop_left, List.take_length] at firstValue lastValue
  rw [coveredSpan]
  simp only [width, firstEq, lastEq, Checked.ok_bind]
  rw [Span.covering, ← firstValue, ← lastValue]
  have firstToken : (tokens ++ new)[tokens.length]? = new.head? := by
    simp [List.getElem?_append_right, List.head?_eq_getElem?]
  cases first with
  | none => simp [pure, Except.pure, firstToken]
  | some first =>
      cases last with
      | none => simp [pure, Except.pure, firstToken]
      | some last =>
          have firstWithin := within _ (List.mem_of_find?_eq_some firstValue.symm)
          have lastWithin := within _
            (List.mem_reverse.mp (List.mem_of_find?_eq_some lastValue.symm))
          exact firstWithin.union_eq_ok lastWithin fits

theorem lastStop_eq (position : Nat) (tokens : List TreeToken) :
    TreeToken.lastStop position tokens =
      ((tokens.reverse.find? TreeToken.isReal).map
        fun token => token.span.start + token.span.length).getD position := by
  rw [TreeToken.lastStop, List.foldl_eq_foldr_reverse]
  induction tokens.reverse with
  | nil => rfl
  | cons token rest ih =>
      rw [List.foldr_cons, ih, List.find?_cons, TreeToken.isReal]
      cases token.isMissing <;> rfl

/-- A missing token is put where the last token ends that stands in the source. -/
theorem missingPosition_eq_ok {builder : TreeBuilder} (fits : byteLength chars < positionLimit)
    (holds : builder.tokens = tokens.toArray) (within : TokensWithin chars tokens) :
    builder.missingPosition = .ok (TreeToken.lastStop 0 tokens) := by
  have lastReal : builder.tokens.findRev? (fun token => !token.isMissing) =
      tokens.reverse.find? TreeToken.isReal := by
    rw [holds, Array.findRev?_eq_find?_reverse, List.reverse_toArray, List.find?_toArray]
    rfl
  rw [missingPosition, lastReal, lastStop_eq]
  cases found : tokens.reverse.find? TreeToken.isReal with
  | none => rfl
  | some token =>
      have member := List.mem_reverse.mp (List.mem_of_find?_eq_some found)
      exact (within token member).stop_eq_ok fits

theorem boundary_lastStop {position : Nat} (boundary : Boundary chars position)
    (within : TokensWithin chars tokens) :
    Boundary chars (TreeToken.lastStop position tokens) := by
  rw [lastStop_eq]
  cases found : tokens.reverse.find? TreeToken.isReal with
  | none => exact boundary
  | some token =>
      exact (within token (List.mem_reverse.mp (List.mem_of_find?_eq_some found))).stop_boundary

theorem within_covering (within : TokensWithin chars tokens) :
    (Span.covering tokens).Within chars := by
  rw [Span.covering]
  split
  · next first last foundFirst foundLast =>
    exact (within first (List.mem_of_find?_eq_some foundFirst)).hull
      (within last (List.mem_reverse.mp (List.mem_of_find?_eq_some foundLast)))
  · apply Span.Within.empty
    cases tokens with
    | nil => exact .zero chars
    | cons token rest => exact (within token List.mem_cons_self).start_boundary

theorem TokensWithin.append (within : TokensWithin chars tokens)
    (withinNew : TokensWithin chars new) : TokensWithin chars (tokens ++ new) := by
  intro token member
  rcases List.mem_append.mp member with member | member
  · exact within token member
  · exact withinNew token member

end TreeBuilder

namespace ParseTree

variable {chars : List Char}

mutual

/-- The tokens of a tree stand in the text when the tokens of its source do. -/
theorem treeTokens_within {place : Place} (boundary : Boundary chars place.position)
    (parent : NodeId) (tree : ParseTree) (within : ∀ token ∈ tree.tokens, token.span.Within chars) :
    TreeBuilder.TokensWithin chars (treeTokens place parent tree) :=
  match tree with
  | .token leaf => by simpa [treeTokens, TreeBuilder.TokensWithin, tokens] using within
  | .missing kind => by
      simpa [treeTokens, TreeBuilder.TokensWithin] using Span.Within.empty boundary
  | .node kind children => by
      have boundaryInside : Boundary chars place.inside.position := boundary
      exact treeTokensAll_within boundaryInside place.node children within
  | .wrapped kind first rest => by
      simp only [tokens, List.mem_append] at within
      have withinFirst := treeTokens_within boundary (place.after first).node first
        fun token member => within token (.inl member)
      have boundaryAfter : Boundary chars (place.after first).inside.position := by
        show Boundary chars (place.after first).position
        rw [← lastStop_treeTokens place (place.after first).node first]
        exact TreeBuilder.boundary_lastStop boundary withinFirst
      exact withinFirst.append (treeTokensAll_within boundaryAfter _ rest
        fun token member => within token (.inr member))

theorem treeTokensAll_within {place : Place} (boundary : Boundary chars place.position)
    (parent : NodeId) (trees : List ParseTree)
    (within : ∀ token ∈ tokensOfAll trees, token.span.Within chars) :
    TreeBuilder.TokensWithin chars (treeTokensAll place parent trees) :=
  match trees with
  | [] => by simp [treeTokensAll, TreeBuilder.TokensWithin]
  | tree :: rest => by
      simp only [tokensOfAll, List.mem_append] at within
      have withinFirst := treeTokens_within boundary parent tree
        fun token member => within token (.inl member)
      have boundaryAfter : Boundary chars (place.after tree).position := by
        rw [← lastStop_treeTokens place parent tree]
        exact TreeBuilder.boundary_lastStop boundary withinFirst
      exact withinFirst.append (treeTokensAll_within boundaryAfter parent rest
        fun token member => within token (.inr member))

end

end ParseTree

/-- A builder seen from its innermost open node: the nodes before and after it, the tokens so far,
and the other open nodes. -/
structure OpenNode where
  before : List TreeNode
  node : TreeNode
  after : List TreeNode
  tokens : List TreeToken
  outer : List NodeId

namespace OpenNode

/-- The builder that is seen. -/
def builder (opened : OpenNode) : TreeBuilder where
  nodes := (opened.before ++ opened.node :: opened.after).toArray
  tokens := opened.tokens.toArray
  openNodes := opened.before.length :: opened.outer

/-- The number of the open node. -/
def id (opened : OpenNode) : Nat := opened.before.length

/-- Where the next piece of source is numbered from. -/
def place (opened : OpenNode) : Place where
  node := opened.before.length + 1 + opened.after.length
  token := opened.tokens.length
  position := TreeToken.lastStop 0 opened.tokens

/-- The open node with further children, whose nodes and tokens come last. -/
def add (opened : OpenNode) (children : List Element) (nodes : List TreeNode)
    (tokens : List TreeToken) : OpenNode :=
  { opened with
    node := { opened.node with children := opened.node.children ++ children.toArray }
    after := opened.after ++ nodes
    tokens := opened.tokens ++ tokens }

/-- The open node with a piece of source as its next child. -/
def addTree (opened : OpenNode) (tree : ParseTree) : OpenNode :=
  opened.add [tree.element opened.place] (tree.treeNodes opened.place (some opened.id))
    (tree.treeTokens opened.place opened.id)

/-- The open node with several pieces of source as its next children. -/
def addTrees (opened : OpenNode) (trees : List ParseTree) : OpenNode :=
  opened.add (ParseTree.elements opened.place trees)
    (ParseTree.treeNodesAll opened.place opened.id trees)
    (ParseTree.treeTokensAll opened.place opened.id trees)

/-- A node opened as the next child of the open node. -/
def start (opened : OpenNode) (kind : Kind) : OpenNode where
  before := opened.before ++
    { opened.node with children := opened.node.children.push (.node opened.place.node) } ::
      opened.after
  node := ⟨kind, .empty 0, some opened.id, #[], opened.tokens.length, opened.tokens.length⟩
  after := []
  tokens := opened.tokens
  outer := opened.id :: opened.outer

/-- A node opened around a first child. -/
def wrap (opened : OpenNode) (kind : Kind) (first : ParseTree) : OpenNode where
  before := opened.before ++
    { opened.node with
      children := opened.node.children.push (.node (opened.place.after first).node) } ::
      (opened.after ++ first.treeNodes opened.place (some (opened.place.after first).node))
  node := ⟨kind, .empty 0, some opened.id, #[first.element opened.place], opened.tokens.length,
    opened.tokens.length⟩
  after := []
  tokens := opened.tokens ++ first.treeTokens opened.place (opened.place.after first).node
  outer := opened.id :: opened.outer

@[simp]
theorem id_addTree (opened : OpenNode) (tree : ParseTree) :
    (opened.addTree tree).id = opened.id :=
  rfl

@[simp]
theorem place_addTree (opened : OpenNode) (tree : ParseTree) :
    (opened.addTree tree).place = opened.place.after tree := by
  ext
  · have nodes := tree.length_treeNodes opened.place (some opened.id)
    simp only [addTree, add, place, Place.after, List.length_append] at nodes ⊢
    omega
  · have tokens := tree.length_treeTokens opened.place opened.id
    simp only [addTree, add, place, Place.after, List.length_append] at tokens ⊢
    omega
  · rw [← tree.lastStop_treeTokens opened.place opened.id]
    exact TreeToken.lastStop_append _ _ _

theorem addTrees_cons (opened : OpenNode) (tree : ParseTree) (rest : List ParseTree) :
    opened.addTrees (tree :: rest) = (opened.addTree tree).addTrees rest := by
  simp [addTrees, place_addTree, ParseTree.elements, ParseTree.treeNodesAll,
    ParseTree.treeTokensAll]
  simp [addTree, add]

@[simp]
theorem id_start (opened : OpenNode) (kind : Kind) :
    (opened.start kind).id = opened.place.node := by
  simp only [start, id, place, List.length_append, List.length_cons]
  omega

@[simp]
theorem place_start (opened : OpenNode) (kind : Kind) :
    (opened.start kind).place = opened.place.inside := by
  ext
  · simp only [start, place, Place.inside, List.length_append, List.length_cons, List.length_nil]
    omega
  · rfl
  · rfl

@[simp]
theorem id_wrap (opened : OpenNode) (kind : Kind) (first : ParseTree) :
    (opened.wrap kind first).id = (opened.place.after first).node := by
  have nodes := first.length_treeNodes opened.place (some (opened.place.after first).node)
  simp only [wrap, id, place, Place.after, List.length_append, List.length_cons] at nodes ⊢
  omega

@[simp]
theorem place_wrap (opened : OpenNode) (kind : Kind) (first : ParseTree) :
    (opened.wrap kind first).place = (opened.place.after first).inside := by
  ext
  · have nodes := first.length_treeNodes opened.place (some (opened.place.after first).node)
    simp only [wrap, place, Place.inside, Place.after, List.length_append, List.length_cons,
      List.length_nil] at nodes ⊢
    omega
  · have tokens := first.length_treeTokens opened.place (opened.place.after first).node
    simp only [wrap, place, Place.inside, Place.after, List.length_append] at tokens ⊢
    omega
  · have stops := first.lastStop_treeTokens opened.place (opened.place.after first).node
    show TreeToken.lastStop 0 (opened.tokens ++ _) = _
    rw [TreeToken.lastStop_append]
    exact stops

/-! ### The steps of a builder -/

theorem current_builder (opened : OpenNode) : opened.builder.current = .ok opened.id :=
  rfl

theorem node_builder (opened : OpenNode) :
    opened.builder.nodes[opened.id]? = some opened.node := by
  simp [builder, id]

theorem pushToken_builder (opened : OpenNode) (kind : Kind) (span : Span)
    (value : Option String) (isMissing : Bool) :
    opened.builder.pushToken kind span value isMissing =
      .ok (opened.add [.token opened.place.token] []
        [⟨kind, span, value, isMissing, opened.id⟩]).builder := by
  rw [TreeBuilder.pushToken, current_builder, Checked.ok_bind]
  simp [TreeBuilder.addChild, builder, id, add, place, modify_length_append, pure, Except.pure]

theorem startNode_builder (opened : OpenNode) (kind : Kind) :
    opened.builder.startNode kind = (opened.start kind).builder := by
  simp [TreeBuilder.startNode, TreeBuilder.addChild, builder, start, id, place,
    modify_length_append, Nat.add_comm 1, Nat.add_assoc]

theorem checkpoint_builder (opened : OpenNode) :
    opened.builder.checkpoint = .ok ⟨opened.node.children.size, opened.tokens.length⟩ := by
  rw [TreeBuilder.checkpoint, current_builder, Checked.ok_bind, node_builder]
  rfl

/-- What a closed node adds to the builder. -/
theorem finishNode_builder {chars : List Char} (fits : byteLength chars < positionLimit)
    (opened : OpenNode) {tokens new : List TreeToken} (split : opened.tokens = tokens ++ new)
    (starts : opened.node.firstToken = tokens.length)
    (within : TreeBuilder.TokensWithin chars new) :
    opened.builder.finishNode = .ok {
      nodes := (opened.before ++ { opened.node with
        span := .covering new, endToken := tokens.length + new.length } :: opened.after).toArray
      tokens := opened.tokens.toArray
      openNodes := opened.outer } := by
  have covered : TreeBuilder.coveredSpan opened.builder.tokens opened.node.firstToken =
      .ok (.covering new) := by
    rw [starts]
    simp only [builder, split]
    exact TreeBuilder.coveredSpan_eq_ok fits within
  have openNodes : opened.builder.openNodes = opened.id :: opened.outer := rfl
  have size : opened.builder.tokens.size = tokens.length + new.length := by
    simp [builder, split]
  rw [TreeBuilder.finishNode]
  simp only [openNodes, node_builder, covered, size, Checked.ok_bind]
  simp [builder, id, modify_length_append, pure, Except.pure]

/-- Adopting the first child of a wrapped node numbers it as a child of that node. -/
theorem adopt_builder (opened : OpenNode) (first : ParseTree) (adopter : NodeId) :
    TreeBuilder.adopt adopter (opened.addTree first).builder (first.element opened.place) =
      { nodes := (opened.before ++ (opened.addTree first).node ::
          (opened.after ++ first.treeNodes opened.place (some adopter))).toArray
        tokens := (opened.tokens ++ first.treeTokens opened.place adopter).toArray
        openNodes := opened.id :: opened.outer } := by
  have nodes (left right : List TreeNode) (new : TreeNode) (index : Nat)
      (atIndex : index = opened.before.length + 1 + opened.after.length + left.length)
      (node : TreeNode) (change : TreeNode → TreeNode) :
      (opened.before ++ node :: (opened.after ++ (left ++ new :: right))).modify index change =
        opened.before ++ node :: (opened.after ++ (left ++ change new :: right)) := by
    have split : opened.before ++ node :: (opened.after ++ (left ++ new :: right)) =
        (opened.before ++ node :: (opened.after ++ left)) ++ new :: right := by simp
    rw [split, modify_append_cons (by simp [atIndex]; omega)]
    simp
  cases first with
  | token leaf =>
      simp [TreeBuilder.adopt, ParseTree.element, addTree, add, builder, ParseTree.treeNodes,
        ParseTree.treeTokens, id, place, modify_length_append]
  | missing kind =>
      simp [TreeBuilder.adopt, ParseTree.element, addTree, add, builder, ParseTree.treeNodes,
        ParseTree.treeTokens, id, place, modify_length_append]
  | node kind children =>
      have adopted right new := nodes [] right new opened.place.node rfl
      simp only [List.nil_append] at adopted
      simp [TreeBuilder.adopt, ParseTree.element, addTree, add, builder, ParseTree.treeNodes,
        ParseTree.treeTokens, id, adopted]
  | wrapped kind first rest =>
      have atIndex : (opened.place.after first).node = opened.before.length + 1 +
          opened.after.length +
          (first.treeNodes opened.place (some (opened.place.after first).node)).length := by
        rw [ParseTree.length_treeNodes]
        rfl
      simp [TreeBuilder.adopt, ParseTree.element, addTree, add, builder, ParseTree.treeNodes,
        ParseTree.treeTokens, id, nodes _ _ _ _ atIndex]

/-- A node opened at a checkpoint before the first child takes that child over. -/
theorem startNodeAt_builder (opened : OpenNode) (kind : Kind) (first : ParseTree) :
    (opened.addTree first).builder.startNodeAt
        ⟨opened.node.children.size, opened.tokens.length⟩ kind =
      .ok (opened.wrap kind first).builder := by
  have adopted := opened.adopt_builder first (opened.place.after first).node
  have node : (opened.addTree first).builder.nodes[opened.id]? =
      some (opened.addTree first).node := (opened.addTree first).node_builder
  have current : (opened.addTree first).builder.current = .ok opened.id :=
    (opened.addTree first).current_builder
  have children : (opened.addTree first).node.children =
      opened.node.children.push (first.element opened.place) := by
    simp [addTree, add]
  have size : (opened.addTree first).builder.nodes.size = (opened.place.after first).node := by
    simp [addTree, add, builder, place, Place.after, ParseTree.length_treeNodes]
    omega
  have taken : (opened.node.children.push (first.element opened.place)).extract
      opened.node.children.size = #[first.element opened.place] := by
    apply Array.toList_inj.mp
    simp
  have kept : (opened.node.children.push (first.element opened.place)).take
      opened.node.children.size = opened.node.children := by
    apply Array.toList_inj.mp
    simp
  rw [TreeBuilder.startNodeAt]
  simp only [current, node, children, size, taken, kept, Checked.ok_bind]
  rw [if_neg (by simp)]
  simp only [List.foldl_toArray, List.foldl_cons, List.foldl_nil, adopted]
  simp [wrap, builder, id, modify_length_append, addTree, add]
  rw [ParseTree.length_treeNodes]
  show opened.before.length + 1 + opened.after.length + first.nodeCount = _
  omega

end OpenNode

namespace ParseTree

variable {chars : List Char}

mutual

/-- Building a piece of source adds it to the open node. -/
theorem build_eq_ok (fits : byteLength chars < positionLimit) (opened : OpenNode)
    (withinBefore : TreeBuilder.TokensWithin chars opened.tokens) (tree : ParseTree)
    (within : ∀ token ∈ tree.tokens, token.span.Within chars) :
    build opened.builder tree = .ok (opened.addTree tree).builder :=
  match tree with
  | .token leaf => opened.pushToken_builder leaf.kind leaf.span (tokenValue leaf) false
  | .missing kind => by
      rw [build, TreeBuilder.missingToken,
        TreeBuilder.missingPosition_eq_ok fits rfl withinBefore, Checked.ok_bind,
        opened.pushToken_builder]
      rfl
  | .node kind children => by
      have boundary : Boundary chars (opened.start kind).place.position :=
        TreeBuilder.boundary_lastStop (.zero chars) withinBefore
      have withinNew := treeTokensAll_within boundary (opened.start kind).id children within
      have finished := ((opened.start kind).addTrees children).finishNode_builder fits rfl rfl
        withinNew
      rw [build, opened.startNode_builder,
        buildAll_eq_ok fits (opened.start kind) withinBefore children within, Checked.ok_bind,
        finished]
      simp only [OpenNode.addTrees, OpenNode.id_start, OpenNode.place_start,
        length_treeTokensAll]
      simp [OpenNode.addTree, OpenNode.add, OpenNode.start, OpenNode.builder, OpenNode.id,
        OpenNode.place, treeNodes, treeTokens, element]
  | .wrapped kind first rest => by
      simp only [tokens, List.mem_append] at within
      have withinFirst : ∀ token ∈ first.tokens, token.span.Within chars :=
        fun token member => within token (.inl member)
      have withinRest : ∀ token ∈ tokensOfAll rest, token.span.Within chars :=
        fun token member => within token (.inr member)
      have boundary : Boundary chars opened.place.position :=
        TreeBuilder.boundary_lastStop (.zero chars) withinBefore
      have withinTaken := treeTokens_within boundary (opened.place.after first).node first
        withinFirst
      have withinWrapped : TreeBuilder.TokensWithin chars (opened.wrap kind first).tokens :=
        withinBefore.append withinTaken
      have boundaryWrapped : Boundary chars (opened.wrap kind first).place.position :=
        TreeBuilder.boundary_lastStop (.zero chars) withinWrapped
      have withinNew := withinTaken.append
        (treeTokensAll_within boundaryWrapped (opened.wrap kind first).id rest withinRest)
      have finished := ((opened.wrap kind first).addTrees rest).finishNode_builder fits
        (List.append_assoc _ _ _) rfl withinNew
      rw [build, opened.checkpoint_builder, Checked.ok_bind,
        build_eq_ok fits opened withinBefore first withinFirst, Checked.ok_bind,
        opened.startNodeAt_builder, Checked.ok_bind,
        buildAll_eq_ok fits (opened.wrap kind first) withinWrapped rest withinRest,
        Checked.ok_bind, finished]
      simp only [OpenNode.addTrees, OpenNode.id_wrap, OpenNode.place_wrap,
        length_treeTokensAll, List.length_append]
      simp [OpenNode.addTree, OpenNode.add, OpenNode.wrap, OpenNode.builder, OpenNode.id,
        treeNodes, treeTokens, element, length_treeTokens]
      exact ⟨rfl, (Nat.add_assoc _ _ _).symm⟩

/-- Building pieces of source adds them to the open node. -/
theorem buildAll_eq_ok (fits : byteLength chars < positionLimit) (opened : OpenNode)
    (withinBefore : TreeBuilder.TokensWithin chars opened.tokens) (trees : List ParseTree)
    (within : ∀ token ∈ tokensOfAll trees, token.span.Within chars) :
    buildAll opened.builder trees = .ok (opened.addTrees trees).builder :=
  match trees with
  | [] => by simp [buildAll, OpenNode.addTrees, OpenNode.add, elements, treeNodesAll, treeTokensAll]
  | tree :: rest => by
      simp only [tokensOfAll, List.mem_append] at within
      have withinFirst : ∀ token ∈ tree.tokens, token.span.Within chars :=
        fun token member => within token (.inl member)
      have withinRest : ∀ token ∈ tokensOfAll rest, token.span.Within chars :=
        fun token member => within token (.inr member)
      have withinTree : TreeBuilder.TokensWithin chars (opened.addTree tree).tokens := by
        refine withinBefore.append ?_
        exact treeTokens_within (TreeBuilder.boundary_lastStop (.zero chars) withinBefore)
          opened.id tree withinFirst
      rw [buildAll, build_eq_ok fits opened withinBefore tree withinFirst, Checked.ok_bind,
        buildAll_eq_ok fits (opened.addTree tree) withinTree rest withinRest,
        opened.addTrees_cons]

end

/-- Building a file gives its two runs. -/
theorem build_root (fits : byteLength chars < positionLimit) (kind : Kind)
    (children : List ParseTree) (within : ∀ token ∈ tokensOfAll children, token.span.Within chars) :
    build .empty (.node kind children) = .ok {
      nodes := (treeNodes .start none (.node kind children)).toArray
      tokens := (treeTokens .start 0 (.node kind children)).toArray
      openNodes := [] } := by
  let root : OpenNode := ⟨[], ⟨kind, .empty 0, none, #[], 0, 0⟩, [], [], []⟩
  have opened : TreeBuilder.empty.startNode kind = root.builder := rfl
  have noTokens : TreeBuilder.TokensWithin chars root.tokens := by
    simp [TreeBuilder.TokensWithin, root]
  have boundary : Boundary chars root.place.position := .zero chars
  have withinNew := treeTokensAll_within boundary root.id children within
  have finished := (root.addTrees children).finishNode_builder fits rfl rfl withinNew
  rw [build, opened, buildAll_eq_ok fits root noTokens children within, Checked.ok_bind, finished]
  have place : root.place = Place.start.inside := rfl
  have id : root.id = Place.start.node := rfl
  simp only [OpenNode.addTrees, place, id, length_treeTokensAll]
  simp [OpenNode.add, root, treeNodes, treeTokens, Place.start]

end ParseTree

end QueryLang
