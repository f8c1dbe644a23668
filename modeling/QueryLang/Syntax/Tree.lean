import QueryLang.Syntax.Features
import QueryLang.Text.Source

/-!
# Syntax trees

A `SyntaxTree` keeps its nodes and tokens in two arrays and refers to them by index. Tokens are
in document order, so the tokens of a node are a range of indices. A token that the source lacks
is *missing*: it has no width and stands right after the token before it.

An index that the tree does not have is a fault.
-/

namespace QueryLang

/-- The index of a node in its tree. -/
abbrev NodeId := Nat

/-- The index of a token in its tree. -/
abbrev TokenId := Nat

/-- A child of a node. -/
inductive Element
  | node (id : NodeId)
  | token (id : TokenId)
deriving DecidableEq, Inhabited

namespace Element

/-- The node that the child is. -/
def node? : Element → Option NodeId
  | node id => some id
  | token _ => none

/-- The token that the child is. -/
def token? : Element → Option TokenId
  | node _ => none
  | token id => some id

end Element

/-- A token of a tree. Identifiers have their text as value. -/
structure TreeToken where
  kind : Kind
  span : Span
  value : Option String
  isMissing : Bool
  parent : NodeId
deriving DecidableEq, Inhabited

/-- A node of a tree. Its span runs from its first to its last token that is not missing; the
tokens below it are those from `firstToken` up to, but not including, `endToken`. -/
structure TreeNode where
  kind : Kind
  span : Span
  parent : Option NodeId
  children : Array Element
  firstToken : TokenId
  endToken : TokenId
deriving DecidableEq, Inhabited

/-- The first of the `count` tokens from `start` on that stands in the source. -/
def firstRealToken? (tokens : Array TreeToken) : (count start : Nat) → Checked (Option TokenId)
  | 0, _ => .ok none
  | count + 1, start =>
    match tokens[start]? with
    | some token =>
      if token.isMissing then firstRealToken? tokens count (start + 1) else .ok (some start)
    | none => .error .outOfRange

/-- The last of the `count` tokens from `start` on that stands in the source. -/
def lastRealToken? (tokens : Array TreeToken) : (count start : Nat) → Checked (Option TokenId)
  | 0, _ => .ok none
  | count + 1, start =>
    match tokens[start + count]? with
    | some token =>
      if token.isMissing then lastRealToken? tokens count start else .ok (some (start + count))
    | none => .error .outOfRange

/-- A parsed source file. The root is node 0. -/
structure SyntaxTree where
  file : FileId
  fileName : String
  text : List Char
  features : Features
  nodes : Array TreeNode
  tokens : Array TreeToken
deriving Inhabited

namespace SyntaxTree

/-- The root of every tree. -/
def root : NodeId := 0

/-- The node with an index. -/
def node (tree : SyntaxTree) (id : NodeId) : Checked TreeNode :=
  match tree.nodes[id]? with
  | some node => .ok node
  | none => .error .outOfRange

/-- The token with an index. -/
def token (tree : SyntaxTree) (id : TokenId) : Checked TreeToken :=
  match tree.tokens[id]? with
  | some token => .ok token
  | none => .error .outOfRange

/-- The kind of a node. -/
def kind (tree : SyntaxTree) (id : NodeId) : Checked Kind := do
  return (← tree.node id).kind

/-- The span of a node. -/
def span (tree : SyntaxTree) (id : NodeId) : Checked Span := do
  return (← tree.node id).span

/-- How many bytes a node takes, without the trivia around it. -/
def width (tree : SyntaxTree) (id : NodeId) : Checked Nat := do
  return (← tree.span id).length

/-- The nodes of a kind, by index. -/
def nodesOfKind (tree : SyntaxTree) (kind : Kind) : List NodeId :=
  (List.range tree.nodes.size).filter fun id => tree.nodes[id]?.any (·.kind == kind)

/-- The node that a node is a child of. -/
def parent (tree : SyntaxTree) (id : NodeId) : Checked (Option NodeId) := do
  return (← tree.node id).parent

/-- The children of a node that are nodes, in order. -/
def childNodes (tree : SyntaxTree) (id : NodeId) : Checked (List NodeId) := do
  return (← tree.node id).children.toList.filterMap Element.node?

/-- The children of a node that are tokens, in order. -/
def childTokens (tree : SyntaxTree) (id : NodeId) : Checked (List TokenId) := do
  return (← tree.node id).children.toList.filterMap Element.token?

/-- Whether a token has a kind. -/
def tokenHasKind (tree : SyntaxTree) (kind : Kind) (id : TokenId) : Bool :=
  (tree.tokens[id]?.map TreeToken.kind) == some kind

/-- The first child token of a kind. -/
def childToken? (tree : SyntaxTree) (id : NodeId) (kind : Kind) : Checked (Option TokenId) := do
  return (← tree.childTokens id).find? (tree.tokenHasKind kind)

/-- The child node with a number, counted from zero among the child nodes. -/
def childNode? (tree : SyntaxTree) (id : NodeId) (index : Nat) : Checked (Option NodeId) := do
  return (← tree.childNodes id)[index]?

/-- The nodes from a node up to the root, at most `limit` steps above it. -/
def ancestorsWithin (tree : SyntaxTree) : Nat → NodeId → Checked (List NodeId)
  | 0, id => .ok [id]
  | limit + 1, id => do
    match ← tree.parent id with
    | some parent => return id :: (← tree.ancestorsWithin limit parent)
    | none => return [id]

/-- A node followed by each node around it, up to the root. -/
def ancestors (tree : SyntaxTree) (id : NodeId) : Checked (List NodeId) :=
  tree.ancestorsWithin tree.nodes.size id

/-- The first node of a kind in a list of nodes. -/
def findKind? (tree : SyntaxTree) (kind : Kind) : List NodeId → Checked (Option NodeId)
  | [] => .ok none
  | id :: rest => do
    if (← tree.kind id) = kind then return some id else tree.findKind? kind rest

/-- The nearest node of a kind around a token. -/
def ancestorOfKind? (tree : SyntaxTree) (token : TokenId) (kind : Kind) :
    Checked (Option NodeId) := do
  tree.findKind? kind (← tree.ancestors (← tree.token token).parent)

/-- All tokens below a node, missing ones included. -/
def descendantTokens (tree : SyntaxTree) (id : NodeId) : Checked (List TokenId) := do
  let node ← tree.node id
  return List.range' node.firstToken (node.endToken - node.firstToken)

/-- The first token of a node that is not missing. -/
def firstToken? (tree : SyntaxTree) (id : NodeId) : Checked (Option TokenId) := do
  let node ← tree.node id
  firstRealToken? tree.tokens (node.endToken - node.firstToken) node.firstToken

/-- The last token of a node that is not missing. -/
def lastToken? (tree : SyntaxTree) (id : NodeId) : Checked (Option TokenId) := do
  let node ← tree.node id
  lastRealToken? tree.tokens (node.endToken - node.firstToken) node.firstToken

/-- A span as a place in the file. -/
def location (tree : SyntaxTree) (span : Span) : Location := ⟨tree.file, span⟩

/-- The place of a token. -/
def tokenLocation (tree : SyntaxTree) (id : TokenId) : Checked Location := do
  return tree.location (← tree.token id).span

/-- The source at a span. -/
def textAt (tree : SyntaxTree) (span : Span) : Checked String := do
  return String.ofList (← sliceBytes tree.text span.start (← span.stop))

/-- The source of a node. -/
def nodeText (tree : SyntaxTree) (id : NodeId) : Checked String := do
  tree.textAt (← tree.span id)

/-- The source of a token. -/
def tokenText (tree : SyntaxTree) (id : TokenId) : Checked String := do
  tree.textAt (← tree.token id).span

/-- Whether some path of `levels` steps leads down from a node to a node below it. -/
def reachesDown (tree : SyntaxTree) : Nat → NodeId → Bool
  | 0, _ => true
  | levels + 1, id =>
    match tree.childNodes id with
    | .ok children => children.any (tree.reachesDown levels)
    | .error _ => false

/-- Whether a node below `id` lies more than `limit` levels deep. -/
def exceedsDepth (tree : SyntaxTree) (id : NodeId) (limit : Nat) : Bool :=
  tree.reachesDown (limit + 1) id

end SyntaxTree

end QueryLang
