import QueryLang.Symbol.Basic

/-!
# The one-line text of a symbol

What is shown for a symbol under the caret: its kind, its type and its name, in the form that
its kind has.
-/

namespace QueryLang

namespace Symbol

/-- The name of a member after the name of its container, if that has one. -/
def qualifiedName (symbol : Symbol) : String :=
  match symbol.container? with
  | some container =>
    if container.text.isEmpty then symbol.text else s!"{container.text}.{symbol.text}"
  | none => symbol.text

/-- The type and the name of a variable after a word for its kind. A type that is known only
from the reference is given with it. -/
def displayVariable (symbol : Symbol) (types : TypeTable) (known : Option TypeId)
    (word : String) : Checked String := do
  match symbol.type?.or known with
  | some type => return s!"({word}) {← types.display type} {symbol.text}"
  | none => return s!"({word}) {symbol.text}"

/-- The one-line text of a symbol. -/
def display (symbol : Symbol) (types : TypeTable) (known : Option TypeId) : Checked String := do
  match symbol.data with
  | .namespace => return s!"namespace {symbol.text}"
  | .namedType _ => return s!"type {symbol.text}"
  | .method returnType parameterTypes =>
    let parameters := ", ".intercalate (← parameterTypes.mapM types.display)
    let result ← types.display returnType
    return s!"{result} {symbol.qualifiedName}({parameters})"
  | .field type => return s!"(field) {← types.display type} {symbol.qualifiedName}"
  | .property type => return s!"(property) {← types.display type} {symbol.qualifiedName}"
  | .parameter _ _ _ => symbol.displayVariable types known "parameter"
  | .lambda parameters =>
    let names := ", ".intercalate (parameters.map LambdaParameter.name)
    return s!"({names}) => ..."
  | .localVariable _ => symbol.displayVariable types known "local variable"
  | .label => return s!"(label) {symbol.text}"
  | .rangeVariable _ => symbol.displayVariable types known "range variable"
  | .queryConclusionVariable => symbol.displayVariable types known "query variable"

/-- The kind and the name of a symbol, with its first place if it has one. -/
def label (symbol : Symbol) : String :=
  match symbol.firstLocation? with
  | some location =>
    s!"{symbol.kind.name} {symbol.text}@{location.file}:{location.span.start}+{location.span.length}"
  | none => s!"{symbol.kind.name} {symbol.text}"

end Symbol

end QueryLang
