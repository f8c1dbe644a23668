import QueryLang.Syntax.Tree

/-!
# Building trees

A `TreeBuilder` makes a tree in document order. `startNode` opens a node below the node that is
open, tokens go into the open node, and `finishNode` closes it. A `Checkpoint` remembers a place
among the children of the open node, and `startNodeAt` opens a node there that adopts the
children added since: a left operand becomes a child only after its operator is seen.

Nodes are numbered as they are opened, so an adopting node has a larger number than what it
adopts.
-/

namespace QueryLang

/-- A place among the children of an open node. -/
structure Checkpoint where
  childIndex : Nat
  tokenIndex : TokenId
deriving DecidableEq, Inhabited

/-- A tree under construction. The open nodes are listed innermost first. -/
structure TreeBuilder where
  nodes : Array TreeNode
  tokens : Array TreeToken
  openNodes : List NodeId
deriving Inhabited

namespace TreeBuilder

/-- A builder that has built nothing. -/
def empty : TreeBuilder := ⟨#[], #[], []⟩

/-- The innermost open node. -/
def current (builder : TreeBuilder) : Checked NodeId :=
  match builder.openNodes with
  | id :: _ => .ok id
  | [] => .error .noOpenNode

/-- Adds a child at the end of a node's children. -/
def addChild (builder : TreeBuilder) (parent : NodeId) (child : Element) : TreeBuilder :=
  { builder with
    nodes := builder.nodes.modify parent fun node =>
      { node with children := node.children.push child } }

/-- Opens a node in the open node, or a root if none is open. -/
def startNode (builder : TreeBuilder) (kind : Kind) : TreeBuilder :=
  let id := builder.nodes.size
  let parent := builder.openNodes.head?
  let first := builder.tokens.size
  let opened : TreeBuilder :=
    { builder with
      nodes := builder.nodes.push ⟨kind, .empty 0, parent, #[], first, first⟩
      openNodes := id :: builder.openNodes }
  match parent with
  | some parent => opened.addChild parent (.node id)
  | none => opened

/-- The place at the end of the open node's children. -/
def checkpoint (builder : TreeBuilder) : Checked Checkpoint := do
  let parent ← builder.current
  match builder.nodes[parent]? with
  | some node => .ok ⟨node.children.size, builder.tokens.size⟩
  | none => .error .outOfRange

/-- Makes `parent` the parent of a child. -/
def adopt (parent : NodeId) (builder : TreeBuilder) (child : Element) : TreeBuilder :=
  match child with
  | .node id =>
    { builder with nodes := builder.nodes.modify id ({ · with parent := some parent }) }
  | .token id =>
    { builder with tokens := builder.tokens.modify id ({ · with parent := parent }) }

/-- Opens a node that adopts every child of the open node from the checkpoint on. -/
def startNodeAt (builder : TreeBuilder) (place : Checkpoint) (kind : Kind) :
    Checked TreeBuilder := do
  let parent ← builder.current
  let some node := builder.nodes[parent]? | .error .outOfRange
  if node.children.size < place.childIndex then
    .error .outOfRange
  else
    let id := builder.nodes.size
    let adopted := node.children.extract place.childIndex
    let builder := adopted.foldl (adopt id) builder
    let kept := (node.children.take place.childIndex).push (.node id)
    .ok { builder with
      nodes := (builder.nodes.modify parent ({ · with children := kept })).push
        ⟨kind, .empty 0, some parent, adopted, place.tokenIndex, place.tokenIndex⟩
      openNodes := id :: builder.openNodes }

/-- Adds a token to the open node. -/
def pushToken (builder : TreeBuilder) (kind : Kind) (span : Span) (value : Option String)
    (isMissing : Bool) : Checked TreeBuilder := do
  let parent ← builder.current
  let id := builder.tokens.size
  let builder := { builder with
    tokens := builder.tokens.push ⟨kind, span, value, isMissing, parent⟩ }
  return builder.addChild parent (.token id)

/-- Adds a token of the source to the open node. -/
def token (builder : TreeBuilder) (kind : Kind) (span : Span) (value : Option String) :
    Checked TreeBuilder :=
  builder.pushToken kind span value false

/-- Where a missing token stands: right after the last token of the source. -/
def missingPosition (builder : TreeBuilder) : Checked Nat :=
  match builder.tokens.findRev? fun token => !token.isMissing with
  | some token => token.span.stop
  | none => .ok 0

/-- Adds a token that the source lacks to the open node. -/
def missingToken (builder : TreeBuilder) (kind : Kind) : Checked TreeBuilder := do
  let position ← builder.missingPosition
  builder.pushToken kind (.empty position) none true

/-- The span from the first to the last of the tokens from `start` on that stand in the source.
Without any, the span is empty and stands where the first of the tokens does. -/
def coveredSpan (tokens : Array TreeToken) (start : TokenId) : Checked Span := do
  let count := tokens.size - start
  match ← firstRealToken? tokens count start, ← lastRealToken? tokens count start with
  | some first, some last => (tokens.getD first default).span.union (tokens.getD last default).span
  | _, _ => return .empty ((tokens[start]?.map fun token => token.span.start).getD 0)

/-- Closes the open node and fixes its span and its range of tokens. -/
def finishNode (builder : TreeBuilder) : Checked TreeBuilder := do
  let id :: outer := builder.openNodes | .error .nothingToFinish
  let some node := builder.nodes[id]? | .error .outOfRange
  let stop := builder.tokens.size
  let span ← coveredSpan builder.tokens node.firstToken
  return { builder with
    nodes := builder.nodes.modify id ({ · with span, endToken := stop })
    openNodes := outer }

/-- The finished tree. All nodes must be closed, and there must be one. -/
def finish (builder : TreeBuilder) (file : FileId) (fileName : String) (text : List Char)
    (features : Features) : Checked SyntaxTree :=
  if !builder.openNodes.isEmpty then .error .openNodesLeft
  else if builder.nodes.isEmpty then .error .noRoot
  else .ok ⟨file, fileName, text, features, builder.nodes, builder.tokens⟩

end TreeBuilder

end QueryLang
