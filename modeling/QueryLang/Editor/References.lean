import QueryLang.Compilation.Model
import QueryLang.Symbol.Display

/-!
# Hovering and highlighting

What an editor shows about the symbol under the caret: its one-line text, and every place in the
file that declares the symbol or refers to it.
-/

namespace QueryLang

/-- What is shown when hovering over a symbol: a text, and where the file declares the symbol. -/
structure HoverInfo where
  contents : String
  range : Option Span
deriving DecidableEq, Inhabited

/-- A place that stands for a symbol. -/
structure Highlight where
  fileName : String
  span : Span
  isDefinition : Bool
deriving DecidableEq, Inhabited

namespace SemanticModel

/-- What to show about the symbol at a position. -/
def hover? (model : SemanticModel) (unit : BoundUnit) (types : TypeTable) (position : Nat) :
    Checked (Option HoverInfo) := do
  match ← model.symbolAt? unit position with
  | none => return none
  | some symbol =>
    let contents ← symbol.display types (unit.symbolType? symbol)
    let inFile := symbol.firstLocation?.filter (·.file == model.tree.file)
    return some ⟨contents, inFile.map Location.span⟩

/-- The places in the file that stand for the symbol at a position. -/
def highlights (model : SemanticModel) (unit : BoundUnit) (position : Nat) :
    Checked (List Highlight) := do
  match ← model.symbolAt? unit position with
  | none => return []
  | some symbol =>
    let definition := symbol.firstLocation?.map Location.span
    let spans ← model.referenceSpans unit symbol
    return spans.map fun span => ⟨model.tree.fileName, span, some span == definition⟩

end SemanticModel

end QueryLang
