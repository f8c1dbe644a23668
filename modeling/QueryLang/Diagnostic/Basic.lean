import QueryLang.Text.LineMap
import QueryLang.Text.Replace
import QueryLang.Text.Span

/-!
# Diagnostics

A `DiagnosticMessage` is a template with a code and a category. Filling its placeholders gives
the text of a `Diagnostic`, which may have a location. Diagnostics are collected in the order in
which they are reported and sorted by place only when they are shown.
-/

namespace QueryLang

/-- How serious a diagnostic is. -/
inductive Category
  | warning
  | error
  | suggestion
  | message
deriving DecidableEq, Inhabited

namespace Category

/-- All categories. -/
def all : List Category := [warning, error, suggestion, message]

/-- The word for a category. -/
def name : Category → String
  | warning => "warning"
  | error => "error"
  | suggestion => "suggestion"
  | message => "message"

/-- The category that a word stands for. -/
def ofName? (text : String) : Option Category := all.find? (·.name == text)

end Category

/-- A kind of diagnostic. The template holds placeholders: a number in braces, from zero on. -/
structure DiagnosticMessage where
  code : Nat
  category : Category
  template : String
deriving DecidableEq, Inhabited

/-- The placeholder with a number. -/
def placeholder (index : Nat) : List Char :=
  '{' :: (Nat.toDigits 10 index ++ ['}'])

/-- Replaces the placeholders from `index` on, one argument after the other. Each replacement
looks at the whole text so far, so a placeholder inside an earlier argument is replaced too. -/
def fillPlaceholders (index : Nat) (text : List Char) : List String → List Char
  | [] => text
  | argument :: rest =>
    fillPlaceholders (index + 1) (replaceAll (placeholder index) argument.toList text) rest

/-- A template with its placeholders replaced by the arguments. -/
def formatMessage (template : String) (arguments : List String) : String :=
  String.ofList (fillPlaceholders 0 template.toList arguments)

/-- One report to the user. -/
structure Diagnostic where
  location : Option Location
  text : String
  code : Nat
  category : Category
deriving DecidableEq, Inhabited

/-- A number with leading zeros up to four digits. -/
def fourDigits (number : Nat) : String :=
  let digits := Nat.toDigits 10 number
  String.ofList (List.replicate (4 - digits.length) '0' ++ digits)

namespace Diagnostic

/-- A diagnostic of a kind, with the arguments of its template. -/
def ofMessage (location : Option Location) (message : DiagnosticMessage)
    (arguments : List String) : Diagnostic :=
  { location
    text := formatMessage message.template arguments
    code := message.code
    category := message.category }

/-- A diagnostic at a place. -/
def located (location : Location) (message : DiagnosticMessage)
    (arguments : List String) : Diagnostic :=
  ofMessage (some location) message arguments

/-- Whether the diagnostic is an error. -/
def isError (diagnostic : Diagnostic) : Bool :=
  diagnostic.category == .error

/-- The diagnostic without its place: `error QL0103: …`. -/
def summary (diagnostic : Diagnostic) : String :=
  s!"{diagnostic.category.name} QL{fourDigits diagnostic.code}: {diagnostic.text}"

/-- The diagnostic with file, line and column, both counted from one, when it has a place. The
line and the column have the range of positions. -/
def render (diagnostic : Diagnostic) (fileName : String) (lines : LineMap) : Checked String :=
  match diagnostic.location with
  | some location => do
    let place ← lines.findPlace location.start
    let line ← addPositions place.line 1
    let column ← addPositions place.column 1
    return s!"{fileName}({line},{column}): {diagnostic.summary}"
  | none => return diagnostic.summary

/-- What diagnostics are ordered by: file, then start. Those without a place come first. -/
def place (diagnostic : Diagnostic) : Nat × Nat :=
  match diagnostic.location with
  | some location => (location.file, location.start)
  | none => (0, 0)

/-- Whether a diagnostic may stand before another. -/
def precedes (left right : Diagnostic) : Bool :=
  left.place.1 < right.place.1
    || (left.place.1 == right.place.1 && left.place.2 ≤ right.place.2)

end Diagnostic

/-- Diagnostics in the order in which they were reported. -/
abbrev Diagnostics := List Diagnostic

namespace Diagnostics

/-- The diagnostics by file and position. Those at the same place keep their order. -/
def sorted (diagnostics : Diagnostics) : Diagnostics :=
  diagnostics.mergeSort Diagnostic.precedes

/-- How many of the diagnostics are errors. -/
def errorCount (diagnostics : Diagnostics) : Nat :=
  diagnostics.countP Diagnostic.isError

/-- Whether one of the diagnostics is an error. -/
def hasErrors (diagnostics : Diagnostics) : Bool :=
  diagnostics.any Diagnostic.isError

end Diagnostics

end QueryLang
