import QueryLang.Proofs.Syntax.Shape
import QueryLang.Proofs.Text.Boundary

/-!
# The numbering of parse trees

A parse tree is numbered from a `Place` on, and takes a run of nodes and a run of tokens there.
`treeNodes` and `treeTokens` are these runs. A wrapped node comes after the nodes of its first
child, because it is opened only then.
-/

namespace QueryLang

/-- Where a piece of a tree starts: the numbers of the next node and of the next token, and where
the last token before it ends that stands in the source. -/
@[ext]
structure Place where
  node : Nat
  token : Nat
  position : Nat

/-- Where the numbering of a file starts. -/
def Place.start : Place := ⟨0, 0, 0⟩

/-- The place inside a node that is opened here. -/
def Place.inside (place : Place) : Place := { place with node := place.node + 1 }

/-- Where a token ends. -/
def Token.stop (token : Token) : Nat := token.span.start + token.span.length

/-- Whether a token stands in the source. -/
def TreeToken.isReal (token : TreeToken) : Bool := !token.isMissing

/-- The span of the tokens that stand in the source, from the first to the last of them. Without
any it stands where the first of the tokens does. -/
def Span.covering (tokens : List TreeToken) : Span :=
  match tokens.find? TreeToken.isReal, tokens.reverse.find? TreeToken.isReal with
  | some first, some last => first.span.hull last.span
  | _, _ => .empty ((tokens.head?.map (·.span.start)).getD 0)

namespace ParseTree

mutual

/-- How many nodes a piece of source has. -/
def nodeCount : ParseTree → Nat
  | .token _ | .missing _ => 0
  | .node _ children => nodeCountAll children + 1
  | .wrapped _ first rest => first.nodeCount + nodeCountAll rest + 1

/-- How many nodes several pieces of source have. -/
def nodeCountAll : List ParseTree → Nat
  | [] => 0
  | tree :: rest => tree.nodeCount + nodeCountAll rest

end

mutual

/-- How many tokens a piece of source has, with those that the source lacks. -/
def leafCount : ParseTree → Nat
  | .token _ | .missing _ => 1
  | .node _ children => leafCountAll children
  | .wrapped _ first rest => first.leafCount + leafCountAll rest

/-- How many tokens several pieces of source have, with those that the source lacks. -/
def leafCountAll : List ParseTree → Nat
  | [] => 0
  | tree :: rest => tree.leafCount + leafCountAll rest

end

theorem nodeCountAll_append {left right : List ParseTree} :
    nodeCountAll (left ++ right) = nodeCountAll left + nodeCountAll right := by
  induction left with
  | nil => simp [nodeCountAll]
  | cons tree rest ih => simp [nodeCountAll, ih, Nat.add_assoc]

theorem leafCountAll_append {left right : List ParseTree} :
    leafCountAll (left ++ right) = leafCountAll left + leafCountAll right := by
  induction left with
  | nil => simp [leafCountAll]
  | cons tree rest ih => simp [leafCountAll, ih, Nat.add_assoc]

end ParseTree

namespace Place

/-- The place after a piece of source. -/
def after (place : Place) (tree : ParseTree) : Place where
  node := place.node + tree.nodeCount
  token := place.token + tree.leafCount
  position := tree.tokens.foldl (fun _ token => token.stop) place.position

end Place

namespace ParseTree

/-- The number that a piece of source has as a child. -/
def element (place : Place) : ParseTree → Element
  | .token _ | .missing _ => .token place.token
  | .node _ _ => .node place.node
  | .wrapped _ first _ => .node (place.after first).node

/-- The numbers that several pieces of source have as children. -/
def elements (place : Place) : List ParseTree → List Element
  | [] => []
  | tree :: rest => tree.element place :: elements (place.after tree) rest

mutual

/-- The tokens of a piece of source, which is a child of `parent`. -/
def treeTokens (place : Place) (parent : NodeId) : ParseTree → List TreeToken
  | .token leaf => [⟨leaf.kind, leaf.span, tokenValue leaf, false, parent⟩]
  | .missing kind => [⟨kind, .empty place.position, none, true, parent⟩]
  | .node _ children => treeTokensAll place.inside place.node children
  | .wrapped _ first rest =>
    let opened := place.after first
    treeTokens place opened.node first ++ treeTokensAll opened.inside opened.node rest

/-- The tokens of several pieces of source, which are children of `parent`. -/
def treeTokensAll (place : Place) (parent : NodeId) : List ParseTree → List TreeToken
  | [] => []
  | tree :: rest => treeTokens place parent tree ++ treeTokensAll (place.after tree) parent rest

end

mutual

/-- The nodes of a piece of source, which is a child of `parent` if there is one. -/
def treeNodes (place : Place) (parent : Option NodeId) : ParseTree → List TreeNode
  | .token _ | .missing _ => []
  | .node kind children =>
    { kind
      span := .covering (treeTokensAll place.inside place.node children)
      parent
      children := (elements place.inside children).toArray
      firstToken := place.token
      endToken := place.token + leafCountAll children } ::
      treeNodesAll place.inside place.node children
  | .wrapped kind first rest =>
    let opened := place.after first
    treeNodes place (some opened.node) first ++
      { kind
        span := .covering (treeTokens place opened.node first ++
          treeTokensAll opened.inside opened.node rest)
        parent
        children := (first.element place :: elements opened.inside rest).toArray
        firstToken := place.token
        endToken := opened.token + leafCountAll rest } ::
        treeNodesAll opened.inside opened.node rest

/-- The nodes of several pieces of source, which are children of `parent`. -/
def treeNodesAll (place : Place) (parent : NodeId) : List ParseTree → List TreeNode
  | [] => []
  | tree :: rest =>
    treeNodes place (some parent) tree ++ treeNodesAll (place.after tree) parent rest

end

mutual

theorem length_treeNodes (place : Place) (parent : Option NodeId) (tree : ParseTree) :
    (treeNodes place parent tree).length = tree.nodeCount :=
  match tree with
  | .token _ | .missing _ => rfl
  | .node kind children => by
      simp [treeNodes, nodeCount, length_treeNodesAll place.inside place.node children]
  | .wrapped kind first rest => by
      simp only [treeNodes, nodeCount, List.length_append, List.length_cons,
        length_treeNodes _ _ first, length_treeNodesAll _ _ rest]
      omega

theorem length_treeNodesAll (place : Place) (parent : NodeId) (trees : List ParseTree) :
    (treeNodesAll place parent trees).length = nodeCountAll trees :=
  match trees with
  | [] => rfl
  | tree :: rest => by
      simp [treeNodesAll, nodeCountAll, length_treeNodes _ _ tree, length_treeNodesAll _ _ rest]

end

mutual

theorem length_treeTokens (place : Place) (parent : NodeId) (tree : ParseTree) :
    (treeTokens place parent tree).length = tree.leafCount :=
  match tree with
  | .token _ | .missing _ => rfl
  | .node kind children => by
      simp [treeTokens, leafCount, length_treeTokensAll place.inside place.node children]
  | .wrapped kind first rest => by
      simp [treeTokens, leafCount, length_treeTokens _ _ first, length_treeTokensAll _ _ rest]

theorem length_treeTokensAll (place : Place) (parent : NodeId) (trees : List ParseTree) :
    (treeTokensAll place parent trees).length = leafCountAll trees :=
  match trees with
  | [] => rfl
  | tree :: rest => by
      simp [treeTokensAll, leafCountAll, length_treeTokens _ _ tree,
        length_treeTokensAll _ _ rest]

end

end ParseTree

/-- A formed piece has a token, even if the source lacks it. -/
theorem Formed.leafCount_pos {damaged : Prop} {role : Role} {tree : ParseTree}
    (formed : Formed damaged role tree) : 0 < tree.leafCount :=
  match formed with
  | .token _ => Nat.one_pos
  | .missing _ _ => Nat.one_pos
  | .node production formed => by
      cases formed with
      | nil => exact absurd rfl production.roles_ne_nil
      | cons head _ => exact Nat.lt_of_lt_of_le head.leafCount_pos (Nat.le_add_right _ _)
  | .wrapped _ (.cons head _) => Nat.lt_of_lt_of_le head.leafCount_pos (Nat.le_add_right _ _)

/-- Where the last of the tokens ends that stands in the source, or else an earlier position. -/
def TreeToken.lastStop (position : Nat) (tokens : List TreeToken) : Nat :=
  tokens.foldl (fun last token =>
    if token.isMissing then last else token.span.start + token.span.length) position

theorem TreeToken.lastStop_append (position : Nat) (tokens more : List TreeToken) :
    lastStop position (tokens ++ more) = lastStop (lastStop position tokens) more :=
  List.foldl_append

namespace ParseTree

mutual

theorem lastStop_treeTokens (place : Place) (parent : NodeId) (tree : ParseTree) :
    TreeToken.lastStop place.position (treeTokens place parent tree) =
      (place.after tree).position :=
  match tree with
  | .token _ | .missing _ => rfl
  | .node kind children =>
      lastStop_treeTokensAll place.inside place.node children
  | .wrapped kind first rest => by
      rw [treeTokens, TreeToken.lastStop_append, lastStop_treeTokens _ _ first]
      have others := lastStop_treeTokensAll (place.after first).inside (place.after first).node rest
      simpa [Place.after, tokens, Place.inside] using others

theorem lastStop_treeTokensAll (place : Place) (parent : NodeId) (trees : List ParseTree) :
    TreeToken.lastStop place.position (treeTokensAll place parent trees) =
      (tokensOfAll trees).foldl (fun _ token => token.stop) place.position :=
  match trees with
  | [] => rfl
  | tree :: rest => by
      rw [treeTokensAll, TreeToken.lastStop_append, lastStop_treeTokens _ _ tree,
        lastStop_treeTokensAll _ _ rest, tokensOfAll, List.foldl_append]
      rfl

end

end ParseTree

end QueryLang
