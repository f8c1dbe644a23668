import QueryLang.Dump.Syntax
import QueryLang.Editor.Keywords
import QueryLang.Editor.References

/-!
# Dumps of what an editor shows
-/

namespace QueryLang

instance : Dumpable CompletionItem :=
  ⟨fun item => .list [item.label, "Keyword", item.detail, item.sortText]⟩

instance : Dumpable HoverInfo := ⟨fun info => (info.contents, info.range)⟩

instance : Dumpable Highlight := ⟨fun highlight =>
  .list [highlight.fileName, highlight.span.start, highlight.span.length,
    highlight.isDefinition]⟩

/-- What surrounds a caret, with the keywords that it can be completed to. The offers are these
keywords in the order of conclusions: `yield`, `do`, `return`. -/
def CaretContext.facts (context : CaretContext) (tree : SyntaxTree) : Checked Dump := do
  let before ← context.beforeTarget? tree
  let kind ← context.targetKind? tree
  let parent ← context.targetParentKind? tree
  let keywords := (← tree.recommendKeywords context.position).map CompletionItem.label
  return .record [("left", context.left), ("target", context.target), ("kind", kind),
    ("parent", parent), ("statement", context.isStatement),
    ("global", context.isGlobalStatement), ("again", before), ("keywords", keywords),
    ("offers", ["yield", "do", "return"].filter keywords.contains)]

end QueryLang
