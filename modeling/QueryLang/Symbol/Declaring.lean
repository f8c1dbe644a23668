import QueryLang.Symbol.Basic
import QueryLang.Syntax.Tree.Search

/-!
# From a symbol back to its declaration

Symbols keep no reference into a tree. The node that declares a symbol is found again from the
symbol's first location.
-/

namespace QueryLang

namespace Symbol

/-- The node of a tree that declares a symbol, if its first location lies in that tree's file.
The location has to be an identifier's, and for a conclusion variable the node has to be the
conclusion. -/
def declaringNode? (symbol : Symbol) (tree : SyntaxTree) : Checked (Option NodeId) := do
  match symbol.firstLocation? with
  | none => return none
  | some location =>
    if location.file ≠ tree.file then
      return none
    else
      let token ← tree.token (← tree.findToken location.start)
      if token.kind ≠ .identifierToken then
        .error .declarationNotAnIdentifier
      else if symbol.kind = .queryConclusionVariable
          && (← tree.kind token.parent) ≠ .queryConclusion then
        .error .declarationNotAConclusion
      else
        return some token.parent

end Symbol

end QueryLang
