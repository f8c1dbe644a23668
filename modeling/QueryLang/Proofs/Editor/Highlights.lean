import QueryLang.Editor.References
import QueryLang.Proofs.Compilation.Beginning
import QueryLang.Proofs.Compilation.Carrying
import QueryLang.Proofs.Lists

/-!
# Highlights

The identifiers of a file fall into classes by the symbols that they stand for, and highlighting
shows the class of the identifier at the caret. So every place that is shown leads back to the same
highlights, and the places do not overlap. For a variable of the file exactly one of them is the
definition, and for a global none.
-/

namespace QueryLang

/-! ### The spans of a symbol -/

/-- One span is in front of another one, with a gap between them. -/
def Span.IsBefore (left right : Span) : Prop := left.start + left.length < right.start

theorem Span.IsBefore.trans {left middle right : Span} (first : left.IsBefore middle)
    (second : middle.IsBefore right) : left.IsBefore right := by
  unfold Span.IsBefore at *
  omega

/-! ### Places that are shown -/

namespace Highlight

variable {fileName : String} {definition : Option Span} {spans : List Span}

end Highlight

namespace SemanticModel

variable {model : SemanticModel} {unit : BoundUnit} {damaged : Prop} {globals : List Symbol}
  {position : Nat} {symbol other : Symbol}

section

variable (isOf : unit.IsOf model.tree damaged globals)

include isOf

end

/-- What is shown at a position where `found` is found: the places of one symbol, in order and
apart from each other, one of them at the position. At each place the same is shown. -/
structure Shows (model : SemanticModel) (unit : BoundUnit) (globals : List Symbol)
    (position : Nat) (found : Option Symbol) (shown : List Highlight) : Prop where
  found_eq : model.symbolAt? unit position = .ok found
  shown_eq : model.highlights unit position = .ok shown
  nonempty_iff : shown ≠ [] ↔ found.isSome
  apart : shown.Pairwise fun left right => left.span.IsBefore right.span
  touches : found.isSome → ∃ highlight ∈ shown, highlight.span.touches position = .ok true
  definitions : shown.countP Highlight.isDefinition ≤ 1
  ofVariable : ∀ symbol ∈ found, symbol.kind.usesIdentity →
    shown.countP Highlight.isDefinition = 1
  ofGlobal : ∀ symbol ∈ found, symbol ∈ globals → shown.countP Highlight.isDefinition = 0
  variableOrGlobal : ∀ symbol ∈ found, symbol.kind.usesIdentity ∨ symbol ∈ globals
  closed : ∀ highlight ∈ shown, ∀ other, highlight.span.touches other = .ok true →
    model.highlights unit other = .ok shown

section

variable (isOf : unit.IsOf model.tree damaged globals)
  (unlocated : ∀ symbol ∈ globals, symbol.firstLocation? = none)
  (structural : ∀ symbol ∈ globals, symbol.kind.usesIdentity = false)

include isOf unlocated structural

end

end SemanticModel

namespace Compilation

end Compilation

end QueryLang
