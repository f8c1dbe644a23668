import QueryLang.Syntax.Token
import QueryLang.Syntax.Tree.Builder

/-!
# Parse trees

A `ParseTree` is the shape of a piece of source: tokens, tokens that the source lacks, and nodes
around them. Parsing makes parse trees; `ParseTree.build` then numbers their nodes and tokens.

An operand comes before the operator that makes it an operand. `wrapped kind first rest` is the
node of such a construct: `first` is built before the node is opened, and the node adopts it.
-/

namespace QueryLang

/-- The shape of a piece of source. -/
inductive ParseTree
  /-- A token of the source. -/
  | token (token : Token)
  /-- A token that the source lacks. -/
  | missing (kind : Kind)
  /-- A node around its children. -/
  | node (kind : Kind) (children : List ParseTree)
  /-- A node opened around its first child once that is complete. -/
  | wrapped (kind : Kind) (first : ParseTree) (rest : List ParseTree)
deriving Inhabited

namespace ParseTree

/-- The value of a token in a tree: the text of an identifier. -/
def tokenValue (token : Token) : Option String :=
  if token.kind = .identifierToken then some token.text else none

mutual

/-- Adds a piece of source to the open node of a builder. -/
def build (builder : TreeBuilder) : ParseTree → Checked TreeBuilder
  | .token leaf => builder.token leaf.kind leaf.span (tokenValue leaf)
  | .missing kind => builder.missingToken kind
  | .node kind children => do
    (← buildAll (builder.startNode kind) children).finishNode
  | .wrapped kind first rest => do
    let place ← builder.checkpoint
    let builder ← build builder first
    (← buildAll (← builder.startNodeAt place kind) rest).finishNode

/-- Adds pieces of source to the open node of a builder, one after the other. -/
def buildAll (builder : TreeBuilder) : List ParseTree → Checked TreeBuilder
  | [] => .ok builder
  | tree :: rest => do
    buildAll (← build builder tree) rest

end

end ParseTree

end QueryLang
