import QueryLang.Proofs.Syntax.FormedTree
import QueryLang.Proofs.Syntax.TreeTokens

/-!
# Walking through a tree

`SyntaxTree.Walks` goes from a child through everything below it, in the order of the source. In a
parsed tree such a walk from the root comes to every node and every token once, and to the tokens
in the order of their numbers. What a node says of its tokens and its span agrees with the walk
from that node.
-/

namespace QueryLang

namespace SyntaxTree

mutual

/-- What a walk from a child comes to: the child, and then what is below it. -/
inductive Walks (tree : SyntaxTree) : Element → List Element → Prop
  | token {id : TokenId} (inside : id < tree.tokens.size) : Walks tree (.token id) [.token id]
  | node {id : NodeId} {node : TreeNode} {visited : List Element}
      (found : tree.nodes[id]? = some node) (below : WalksAll tree node.children.toList visited) :
      Walks tree (.node id) (.node id :: visited)

/-- What walks from several children come to, one after the other. -/
inductive WalksAll (tree : SyntaxTree) : List Element → List Element → Prop
  | nil : WalksAll tree [] []
  | cons {child : Element} {children visited others : List Element}
      (first : Walks tree child visited) (rest : WalksAll tree children others) :
      WalksAll tree (child :: children) (visited ++ others)

end

variable {tree : SyntaxTree}

mutual

/-- There is one way to walk. -/
theorem Walks.unique {child : Element} {visited others : List Element}
    (walks : tree.Walks child visited) (again : tree.Walks child others) : visited = others :=
  match walks, again with
  | .token _, .token _ => rfl
  | .node found below, .node foundAgain belowAgain => by
      rw [found] at foundAgain
      cases foundAgain
      rw [WalksAll.unique below belowAgain]

theorem WalksAll.unique {children visited others : List Element}
    (walks : tree.WalksAll children visited) (again : tree.WalksAll children others) :
    visited = others :=
  match walks, again with
  | .nil, .nil => rfl
  | .cons first rest, .cons firstAgain restAgain => by
      rw [Walks.unique first firstAgain, WalksAll.unique rest restAgain]

end

/-- The element is a child of a node of the tree. -/
def IsChildOf (tree : SyntaxTree) (child : Element) (parent : NodeId) : Prop :=
  ∃ node, tree.nodes[parent]? = some node ∧ child ∈ node.children.toList

mutual

/-- Where a walk does not start, it came from a parent. -/
theorem Walks.eq_or_isChildOf {start element : Element} {visited : List Element}
    (walks : tree.Walks start visited) (member : element ∈ visited) :
    element = start ∨ ∃ parent, tree.IsChildOf element parent :=
  match walks with
  | .token _ => .inl (List.mem_singleton.mp member)
  | .node found below => by
      rcases List.mem_cons.mp member with rfl | member
      · exact .inl rfl
      · rcases WalksAll.mem_or_isChildOf below member with isChild | isBelow
        · exact .inr ⟨_, _, found, isChild⟩
        · exact .inr isBelow

theorem WalksAll.mem_or_isChildOf {children visited : List Element} {element : Element}
    (walks : tree.WalksAll children visited) (member : element ∈ visited) :
    element ∈ children ∨ ∃ parent, tree.IsChildOf element parent :=
  match walks with
  | .cons first rest => by
      rcases List.mem_append.mp member with member | member
      · rcases Walks.eq_or_isChildOf first member with rfl | isBelow
        · exact .inl (List.mem_cons_self ..)
        · exact .inr isBelow
      · rcases WalksAll.mem_or_isChildOf rest member with isChild | isBelow
        · exact .inl (List.mem_cons_of_mem _ isChild)
        · exact .inr isBelow

end

end SyntaxTree

namespace SyntaxTree

variable {tree : SyntaxTree} {id : Nat} {parent : NodeId}

theorem node_lt_of_parentOf? (parentEq : tree.parentOf? (.node id) = some parent) :
    id < tree.nodes.size := by
  rcases Option.bind_eq_some_iff.mp parentEq with ⟨node, found, _⟩
  exact (Array.getElem?_eq_some_iff.mp found).1

theorem token_lt_of_parentOf? (parentEq : tree.parentOf? (.token id) = some parent) :
    id < tree.tokens.size := by
  rcases Option.map_eq_some_iff.mp parentEq with ⟨token, found, _⟩
  exact (Array.getElem?_eq_some_iff.mp found).1

end SyntaxTree

namespace Element

theorem mem_of_node? {elements : List Element} {id : NodeId}
    (member : id ∈ elements.filterMap node?) : .node id ∈ elements := by
  rcases List.mem_filterMap.mp member with ⟨element, isElement, isNode⟩
  cases element with
  | node own =>
      cases isNode
      exact isElement
  | token own => cases isNode

theorem mem_of_token? {elements : List Element} {id : TokenId}
    (member : id ∈ elements.filterMap token?) : .token id ∈ elements := by
  rcases List.mem_filterMap.mp member with ⟨element, isElement, isToken⟩
  cases element with
  | node own => cases isToken
  | token own =>
      cases isToken
      exact isElement

end Element

/-! ### Walking through a piece of source -/

namespace ParseTree

mutual

/-- The numbers that a piece of source gets, in the order of a walk through it. -/
def visits (place : Place) : ParseTree → List Element
  | .token _ | .missing _ => [.token place.token]
  | .node _ children => .node place.node :: visitsAll place.inside children
  | .wrapped _ first rest =>
    let opened := place.after first
    .node opened.node :: (visits place first ++ visitsAll opened.inside rest)

/-- The numbers that several pieces of source get. -/
def visitsAll (place : Place) : List ParseTree → List Element
  | [] => []
  | shape :: others => visits place shape ++ visitsAll (place.after shape) others

end

mutual

/-- A walk comes to the tokens in the order of their numbers. -/
theorem tokens_visits (place : Place) (shape : ParseTree) :
    (visits place shape).filterMap Element.token? = List.range' place.token shape.leafCount :=
  match shape with
  | .token _ | .missing _ => rfl
  | .node _ children => tokens_visitsAll place.inside children
  | .wrapped _ first rest => by
      have others := tokens_visitsAll (place.after first).inside rest
      simp only [visits, List.filterMap_cons, Element.token?, List.filterMap_append,
        tokens_visits place first, others, leafCount]
      exact List.range'_append_1

theorem tokens_visitsAll (place : Place) (shapes : List ParseTree) :
    (visitsAll place shapes).filterMap Element.token? =
      List.range' place.token (leafCountAll shapes) :=
  match shapes with
  | [] => rfl
  | shape :: others => by
      rw [visitsAll, List.filterMap_append, tokens_visits place shape,
        tokens_visitsAll (place.after shape) others]
      exact List.range'_append_1

end

mutual

/-- A walk comes to every node of a piece once. A node that was wrapped around another one has the
later number, although it comes first. -/
theorem nodes_visits (place : Place) (shape : ParseTree) :
    ((visits place shape).filterMap Element.node?).Perm
      (List.range' place.node shape.nodeCount) :=
  match shape with
  | .token _ | .missing _ => .nil
  | .node _ children => (nodes_visitsAll place.inside children).cons place.node
  | .wrapped kind first rest => by
      let opened := place.after first
      have inFirst := nodes_visits place first
      have inRest := nodes_visitsAll opened.inside rest
      have numbers : List.range' place.node (ParseTree.wrapped kind first rest).nodeCount =
          List.range' place.node first.nodeCount ++
            opened.node :: List.range' opened.inside.node (nodeCountAll rest) := by
        rw [nodeCount, Nat.add_assoc, ← List.range'_append_1]
        rfl
      simp only [visits, List.filterMap_cons, Element.node?, List.filterMap_append]
      rw [numbers]
      exact ((inFirst.append inRest).cons opened.node).trans List.perm_middle.symm

theorem nodes_visitsAll (place : Place) (shapes : List ParseTree) :
    ((visitsAll place shapes).filterMap Element.node?).Perm
      (List.range' place.node (nodeCountAll shapes)) :=
  match shapes with
  | [] => .nil
  | shape :: others => by
      have inFirst := nodes_visits place shape
      have inRest := nodes_visitsAll (place.after shape) others
      rw [visitsAll, List.filterMap_append, nodeCountAll, ← List.range'_append_1]
      exact inFirst.append inRest

end

end ParseTree

namespace SyntaxTree

variable {tree : SyntaxTree}

mutual

/-- A tree can be walked through at every piece that it holds. -/
theorem Holds.walks {place : Place} {parent : Option NodeId} (shape : ParseTree)
    (holds : tree.Holds place parent shape) :
    tree.Walks (shape.element place) (shape.visits place) :=
  match shape with
  | .token _ => .token (Array.getElem?_eq_some_iff.mp holds.token).1
  | .missing _ => .token (Array.getElem?_eq_some_iff.mp holds.missing).1
  | .node kind children => by
      rcases holds.node (.inl rfl) with ⟨own, ownEq, found, _⟩
      cases ownEq
      exact .node found (HoldsAll.walksAll children holds.inside)
  | .wrapped kind first rest => by
      rcases holds.node (.inr ⟨first, rest, rfl, rfl⟩) with ⟨own, ownEq, found, _⟩
      cases ownEq
      rcases holds.wrapped with ⟨holdsFirst, holdsRest⟩
      exact .node found (.cons (Holds.walks first holdsFirst) (HoldsAll.walksAll rest holdsRest))

theorem HoldsAll.walksAll {place : Place} {parent : NodeId} (shapes : List ParseTree)
    (holds : tree.HoldsAll place parent shapes) :
    tree.WalksAll (ParseTree.elements place shapes) (ParseTree.visitsAll place shapes) :=
  match shapes with
  | [] => .nil
  | shape :: others => by
      rcases holds.cons with ⟨holdsFirst, holdsRest⟩
      exact .cons (Holds.walks shape holdsFirst) (HoldsAll.walksAll others holdsRest)

end

/-! ### The tokens that stand in the source -/

/-- Whether a token stands in the source. -/
def isPresent (tree : SyntaxTree) (id : TokenId) : Bool :=
  tree.tokens[id]?.any TreeToken.isReal

theorem firstRealToken?_eq_find? {count start : Nat} (bound : start + count ≤ tree.tokens.size) :
    firstRealToken? tree.tokens count start =
      .ok ((List.range' start count).find? tree.isPresent) := by
  induction count generalizing start with
  | zero => rfl
  | succ count ih =>
      have inRange : start < tree.tokens.size := by omega
      have others := ih (by omega : start + 1 + count ≤ tree.tokens.size)
      have present : tree.isPresent start = tree.tokens[start].isReal := by
        simp [isPresent, inRange]
      rw [firstRealToken?, Array.getElem?_eq_getElem inRange, List.range'_succ]
      cases missing : tree.tokens[start].isMissing with
      | true => simpa [missing, present, TreeToken.isReal] using others
      | false => simp [missing, present, TreeToken.isReal]

theorem lastRealToken?_eq_find? {count start : Nat} (bound : start + count ≤ tree.tokens.size) :
    lastRealToken? tree.tokens count start =
      .ok ((List.range' start count).reverse.find? tree.isPresent) := by
  induction count with
  | zero => rfl
  | succ count ih =>
      have inRange : start + count < tree.tokens.size := by omega
      have others := ih (by omega)
      have present : tree.isPresent (start + count) = tree.tokens[start + count].isReal := by
        simp [isPresent, inRange]
      rw [lastRealToken?, Array.getElem?_eq_getElem inRange, List.range'_1_concat,
        List.reverse_append]
      cases missing : tree.tokens[start + count].isMissing with
      | true => simpa [missing, present, TreeToken.isReal] using others
      | false => simp [missing, present, TreeToken.isReal]

end SyntaxTree

/-- Tokens where none starts before an earlier one ends. -/
def TreeToken.Ordered (tokens : List TreeToken) : Prop :=
  tokens.Pairwise fun token later => token.span.start + token.span.length ≤ later.span.start

/-- The span that covers ordered tokens starts with the first and ends with the last of those that
stand in the source. -/
theorem Span.covering_bounds {tokens : List TreeToken} {first last : TreeToken}
    (ordered : TreeToken.Ordered (tokens.filter TreeToken.isReal))
    (isFirst : tokens.find? TreeToken.isReal = some first)
    (isLast : tokens.reverse.find? TreeToken.isReal = some last) :
    (Span.covering tokens).start = first.span.start ∧
      (Span.covering tokens).start + (Span.covering tokens).length =
        last.span.start + last.span.length := by
  have inOrder : first = last ∨ first.span.start + first.span.length ≤ last.span.start := by
    have isHead : (tokens.filter TreeToken.isReal).head? = some first := by
      rw [List.head?_filter, isFirst]
    have member : last ∈ tokens.filter TreeToken.isReal := by
      refine List.mem_filter.mpr ⟨List.mem_reverse.mp (List.mem_of_find?_eq_some isLast), ?_⟩
      exact List.find?_some isLast
    rcases List.head?_eq_some_iff.mp isHead with ⟨others, split⟩
    rw [split, TreeToken.Ordered, List.pairwise_cons] at ordered
    rw [split] at member
    rcases List.mem_cons.mp member with same | later
    · exact .inl same.symm
    · exact .inr (ordered.1 last later)
  rw [covering, isFirst, isLast]
  simp only [hull]
  rcases inOrder with rfl | before <;> omega

namespace SyntaxTree

/-- A span runs from the start of one token to the end of another one, and it is empty where there
are no tokens. -/
def Runs (tree : SyntaxTree) (span : Span) : (first last : Option TokenId) → Prop
  | some first, some last => ∃ firstToken lastToken, tree.tokens[first]? = some firstToken ∧
      tree.tokens[last]? = some lastToken ∧ span.start = firstToken.span.start ∧
      span.start + span.length = lastToken.span.start + lastToken.span.length
  | none, none => span.length = 0
  | _, _ => False

section HoldsNode

variable {tree : SyntaxTree} {id : Nat} {node : TreeNode} {place : Place} {shape : ParseTree}

namespace HoldsNode

variable (own : tree.HoldsNode id node place shape) (found : tree.nodes[id]? = some node)

include own

theorem walks : tree.Walks (.node id) (shape.visits place) :=
  own.element_eq ▸ own.holds.walks shape

/-- What is left of the numbers of a piece's tokens after its first. -/
theorem count_eq : node.endToken - node.firstToken = shape.leafCount := by
  rw [own.endToken_eq, own.firstToken_eq]
  exact Nat.add_sub_cancel_left place.token shape.leafCount

theorem tokens_bound : node.firstToken + (node.endToken - node.firstToken) ≤ tree.tokens.size := by
  have run := own.holds.tokens.length_le
  rw [ParseTree.length_treeTokens, Array.length_toList] at run
  rw [own.count_eq, own.firstToken_eq]
  exact run

/-- The tokens between a node's bounds are those that the walk comes to. -/
theorem tokens_eq : List.range' node.firstToken (node.endToken - node.firstToken) =
    (shape.visits place).filterMap Element.token? := by
  rw [own.count_eq, own.firstToken_eq, ParseTree.tokens_visits]

/-- The tokens between a node's bounds are those of its piece. -/
theorem slice_eq : (tree.tokens.toList.drop node.firstToken).take
      (node.endToken - node.firstToken) = shape.treeTokens place (node.parent.getD root) := by
  rcases own.holds.tokens with ⟨before, after, split, atStart⟩
  rw [split, own.count_eq, own.firstToken_eq, ← atStart, List.drop_left,
    ← ParseTree.length_treeTokens place (node.parent.getD root) shape, List.take_left]

include found

theorem descendantTokens_eq :
    tree.descendantTokens id = .ok ((shape.visits place).filterMap Element.token?) := by
  simp only [descendantTokens, SyntaxTree.node, found, Checked.ok_bind, own.tokens_eq]
  rfl

theorem firstToken?_eq : tree.firstToken? id =
    .ok (((shape.visits place).filterMap Element.token?).find? tree.isPresent) := by
  simp only [firstToken?, SyntaxTree.node, found, Checked.ok_bind]
  rw [firstRealToken?_eq_find? own.tokens_bound, own.tokens_eq]

theorem lastToken?_eq : tree.lastToken? id =
    .ok (((shape.visits place).filterMap Element.token?).reverse.find? tree.isPresent) := by
  simp only [lastToken?, SyntaxTree.node, found, Checked.ok_bind]
  rw [lastRealToken?_eq_find? own.tokens_bound, own.tokens_eq]

/-- The span of a node runs from its first token to its last. -/
theorem span_runs (ordered : TreeToken.Ordered tree.realTokens) :
    ∃ first last, tree.firstToken? id = .ok first ∧ tree.lastToken? id = .ok last ∧
      tree.Runs node.span first last := by
  have bound := own.tokens_bound
  rcases firstRealToken?_eq_ok bound with ⟨first, firstEq, firstRange, firstValue⟩
  rcases lastRealToken?_eq_ok bound with ⟨last, lastEq, lastRange, lastValue⟩
  rw [own.slice_eq] at firstValue lastValue
  have bothOrNone : last = none ↔ first = none := by
    have noLast := Option.map_eq_none_iff (f := (tree.tokens.getD · default)) (x := last)
    have noFirst := Option.map_eq_none_iff (f := (tree.tokens.getD · default)) (x := first)
    rw [← noLast, ← noFirst, lastValue, firstValue]
    simp only [List.find?_eq_none, List.mem_reverse]
  refine ⟨first, last, ?_, ?_, ?_⟩
  · simp only [firstToken?, SyntaxTree.node, found, Checked.ok_bind, firstEq]
  · simp only [lastToken?, SyntaxTree.node, found, Checked.ok_bind, lastEq]
  rw [own.span_eq]
  cases first with
  | none =>
      rw [bothOrNone.mpr rfl, Span.covering, ← firstValue]
      rfl
  | some first =>
      cases last with
      | none => cases bothOrNone.mp rfl
      | some last =>
          have present {id : Nat}
              (inside : id < node.firstToken + (node.endToken - node.firstToken)) :
              tree.tokens[id]? = some (tree.tokens.getD id default) := by
            have inTree := Nat.lt_of_lt_of_le inside bound
            simp [inTree]
          have inOrder : TreeToken.Ordered
              ((shape.treeTokens place (node.parent.getD root)).filter TreeToken.isReal) := by
            rcases own.holds.tokens with ⟨before, after, split, _⟩
            refine List.Pairwise.sublist (List.Sublist.filter _ ?_) ordered
            rw [split]
            exact (List.sublist_append_left _ _).trans (List.sublist_append_right _ _)
          exact ⟨_, _, present (firstRange first rfl).2, present (lastRange last rfl).2,
            Span.covering_bounds inOrder firstValue.symm lastValue.symm⟩

end HoldsNode

end HoldsNode

/-- A tree of nodes and tokens in the order of the source. -/
structure OrderedTree (tree : SyntaxTree) : Prop where
  /-- The walk from the root comes to every node once, and to every token in order. -/
  visits : ∃ visited, tree.Walks (.node root) visited ∧
    (visited.filterMap Element.node?).Perm (List.range tree.nodes.size) ∧
    visited.filterMap Element.token? = List.range tree.tokens.size
  root_parent : tree.parentOf? (.node root) = none
  parent_iff : ∀ child parent, tree.parentOf? child = some parent ↔ tree.IsChildOf child parent
  walks : ∀ id, id < tree.nodes.size → ∃ below, tree.Walks (.node id) below
  tokens_below : ∀ id below, tree.Walks (.node id) below →
    tree.descendantTokens id = .ok (below.filterMap Element.token?)
  first_below : ∀ id below, tree.Walks (.node id) below →
    tree.firstToken? id = .ok ((below.filterMap Element.token?).find? tree.isPresent)
  last_below : ∀ id below, tree.Walks (.node id) below →
    tree.lastToken? id = .ok ((below.filterMap Element.token?).reverse.find? tree.isPresent)
  span_runs : ∀ id, id < tree.nodes.size → ∃ span first last, tree.span id = .ok span ∧
    tree.firstToken? id = .ok first ∧ tree.lastToken? id = .ok last ∧ tree.Runs span first last

end SyntaxTree

section Parsed

variable {file : FileId} {fileName : String} {source : SourceText} {features : Features}
  {scanned : ScannedText}

/-- A formed file with its tokens in order has an ordered tree. -/
theorem ParseTree.orderedTree_toTree {damaged : Prop} {shape : ParseTree} {tree : SyntaxTree}
    (treeEq : shape.toTree file fileName source features = tree)
    (rootElement : shape.element .start = .node SyntaxTree.root)
    (formed : Formed damaged .file shape) (wellFormed : tree.WellFormed damaged)
    (ordered : TreeToken.Ordered tree.realTokens) : tree.OrderedTree := by
  have holds : tree.Holds .start none shape := treeEq ▸ shape.holds_toTree
  have nodesSize : tree.nodes.size = shape.nodeCount := by
    rw [← treeEq, toTree, List.size_toArray, length_treeNodes]
  have tokensSize : tree.tokens.size = shape.leafCount := by
    rw [← treeEq, toTree, List.size_toArray, length_treeTokens]
  have walk : tree.Walks (.node SyntaxTree.root) (shape.visits .start) :=
    rootElement ▸ holds.walks shape
  have nodes : ((shape.visits .start).filterMap Element.node?).Perm
      (List.range tree.nodes.size) := by
    rw [nodesSize, List.range_eq_range']
    exact nodes_visits .start shape
  have tokens : (shape.visits .start).filterMap Element.token? =
      List.range tree.tokens.size := by
    rw [tokensSize, List.range_eq_range']
    exact tokens_visits .start shape
  have ownNode {id : Nat} {node : TreeNode} (found : tree.nodes[id]? = some node) :
      ∃ place piece, tree.HoldsNode id node place piece := by
    have inRange := (Array.getElem?_eq_some_iff.mp found).1
    have bound : id < (Place.start.after shape).node := by
      show id < 0 + shape.nodeCount
      omega
    exact (holds.exists_node shape formed (Nat.zero_le id) bound).2.holdsNode found
  have exists_node {id : Nat} (inRange : id < tree.nodes.size) :
      ∃ node, tree.nodes[id]? = some node :=
    ⟨_, Array.getElem?_eq_getElem inRange⟩
  exact {
    visits := ⟨shape.visits .start, walk, nodes, tokens⟩
    root_parent := wellFormed.root_parent
    parent_iff := by
      intro child parent
      constructor
      · intro parentEq
        have visited : child ∈ shape.visits .start := by
          cases child with
          | node id =>
              have inRange := SyntaxTree.node_lt_of_parentOf? parentEq
              exact Element.mem_of_node? (nodes.mem_iff.mpr (List.mem_range.mpr inRange))
          | token id =>
              have inRange := SyntaxTree.token_lt_of_parentOf? parentEq
              exact Element.mem_of_token? (tokens ▸ List.mem_range.mpr inRange)
        rcases walk.eq_or_isChildOf visited with rfl | ⟨own, node, found, member⟩
        · rw [wellFormed.root_parent] at parentEq
          cases parentEq
        · have same := wellFormed.child_parent found child member
          rw [parentEq] at same
          cases same
          exact ⟨node, found, member⟩
      · rintro ⟨node, found, member⟩
        exact wellFormed.child_parent found child member
    walks := by
      intro id inRange
      rcases exists_node inRange with ⟨node, found⟩
      rcases ownNode found with ⟨place, piece, own⟩
      exact ⟨_, own.walks⟩
    tokens_below := by
      rintro id below (⟨_⟩ | @⟨_, _, _, found, walks⟩)
      rcases ownNode found with ⟨place, piece, own⟩
      rw [← own.walks.unique (.node found walks)]
      exact own.descendantTokens_eq found
    first_below := by
      rintro id below (⟨_⟩ | @⟨_, _, _, found, walks⟩)
      rcases ownNode found with ⟨place, piece, own⟩
      rw [← own.walks.unique (.node found walks)]
      exact own.firstToken?_eq found
    last_below := by
      rintro id below (⟨_⟩ | @⟨_, _, _, found, walks⟩)
      rcases ownNode found with ⟨place, piece, own⟩
      rw [← own.walks.unique (.node found walks)]
      exact own.lastToken?_eq found
    span_runs := by
      intro id inRange
      rcases exists_node inRange with ⟨node, found⟩
      rcases ownNode found with ⟨place, piece, own⟩
      rcases own.span_runs found ordered with ⟨first, last, firstEq, lastEq, runs⟩
      refine ⟨node.span, first, last, ?_, firstEq, lastEq, runs⟩
      simp only [SyntaxTree.span, SyntaxTree.node, found, Checked.ok_bind]
      rfl }

end Parsed

end QueryLang
