import QueryLang.Diagnostic.Basic
import QueryLang.Names
import QueryLang.Syntax.Parser.Statement
import QueryLang.Syntax.View

/-!
# Dumps

A dump shows a value to a tool as plain data: flags, numbers and texts, in lists and in records
with named fields. A tool only has to write plain data down. Spans and tokens are shown as rows,
trees as two lists of rows by index.
-/

namespace QueryLang

/-- Plain data. -/
inductive Dump
  | absent
  | flag (value : Bool)
  | number (value : Nat)
  | text (value : String)
  | list (items : List Dump)
  | record (fields : List (String × Dump))
deriving Inhabited, BEq

/-- Types whose values can be shown by themselves. -/
class Dumpable (α : Type) where
  dump : α → Dump

namespace Dump

instance [Dumpable α] (value : α) : CoeDep α value Dump := ⟨Dumpable.dump value⟩

instance : OfNat Dump value := ⟨number value⟩
instance : Dumpable Dump := ⟨id⟩
instance : Dumpable Bool := ⟨flag⟩
instance : Dumpable Nat := ⟨number⟩
instance : Dumpable String := ⟨text⟩
instance [Dumpable α] : Dumpable (List α) := ⟨fun items => list (items.map Dumpable.dump)⟩
instance [Dumpable α] : Dumpable (Array α) := ⟨fun items => items.toList⟩
instance [Dumpable α] [Dumpable β] : Dumpable (α × β) := ⟨fun pair => list [pair.1, pair.2]⟩

/-- What is not there is shown as absent. -/
instance [Dumpable α] : Dumpable (Option α) where
  dump
    | some value => value
    | none => absent

end Dump

/-! ### Texts, tokens and trees -/

instance : Dumpable Span := ⟨fun span => (span.start, span.length)⟩

instance : Dumpable Location :=
  ⟨fun location => .list [location.file, location.span.start, location.span.length]⟩

instance : Dumpable LineColumn := ⟨fun place => (place.line, place.column)⟩

instance : Dumpable Category := ⟨fun category => category.name⟩

instance : Dumpable Diagnostic := ⟨fun diagnostic =>
  .list [diagnostic.location, diagnostic.code, diagnostic.category, diagnostic.text]⟩

instance : Dumpable Features := ⟨fun features => features.bits⟩

instance : Dumpable Kind := ⟨fun kind => kind.name⟩

instance : Dumpable Token :=
  ⟨fun token => .list [token.kind, token.span.start, token.span.length, token.text]⟩

instance : Dumpable Element where
  dump
    | .node id => s!"n{id}"
    | .token id => s!"t{id}"

instance : Dumpable ViewPart where
  dump
    | .one id => id
    | .optional id => id
    | .many ids => ids

/-- All that is known about a kind. -/
def Kind.facts (kind : Kind) : Dump :=
  .record [("number", kind.number), ("keyword", kind.isKeyword),
    ("punctuation", kind.isPunctuation), ("token", kind.isToken), ("node", kind.isNode),
    ("word", kind.isWord), ("statement", kind.isStatement), ("clause", kind.isQueryClause),
    ("precedence", kind.binaryPrecedence?), ("keyword_text", kind.keywordText?),
    ("punctuation_text", kind.punctuationText?), ("display", kind.displayText)]

namespace Diagnostics

/-- The diagnostics with their number and that of the errors among them. -/
def facts (diagnostics : Diagnostics) : Dump :=
  .record [("list", diagnostics), ("len", diagnostics.length), ("empty", diagnostics.isEmpty),
    ("has_errors", diagnostics.hasErrors), ("errors", diagnostics.errorCount)]

end Diagnostics

namespace SyntaxTree

/-- The row of a node. -/
def nodeRow (tree : SyntaxTree) (id : NodeId) : Checked Dump := do
  let node ← tree.node id
  let first ← tree.firstToken? id
  let last ← tree.lastToken? id
  return .list [node.kind, node.span.start, node.span.length, node.parent, node.children,
    first, last]

/-- The row of a token. -/
def tokenRow (token : TreeToken) : Dump :=
  .list [token.kind, token.span.start, token.span.length, token.parent, token.isMissing,
    token.value]

/-- All nodes and tokens. -/
def dump (tree : SyntaxTree) : Checked Dump := do
  let nodes ← (List.range tree.nodes.size).mapM tree.nodeRow
  return .record [("nodes", nodes), ("tokens", tree.tokens.map tokenRow)]

/-- How often each kind of node occurs. -/
def kindCounts (tree : SyntaxTree) : Dump :=
  let kinds := tree.nodes.toList.map TreeNode.kind
  .record (kinds.eraseDups.map fun kind => (kind.name, kinds.count kind))

/-- How many nodes, tokens and distinct values of tokens there are. -/
def counts (tree : SyntaxTree) : List (String × Dump) :=
  let values := Names.ofTexts (tree.tokens.toList.filterMap TreeToken.value)
  [("nodes", tree.nodes.size), ("tokens", tree.tokens.size), ("kinds", tree.kindCounts),
   ("interned", values.size)]

/-- The parts of a node seen through a view. -/
def dumpParts (parts : List (String × ViewPart)) : Dump :=
  .record (parts.map fun (name, part) => (name, part))

end SyntaxTree

end QueryLang
