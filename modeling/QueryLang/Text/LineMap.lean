import QueryLang.Halving
import QueryLang.Text.Span

/-!
# Line maps

A `LineMap` knows where the lines of a text start. It answers the line and column of a byte
offset, both counted from zero and columns in bytes. Only a line feed ends a line.

`lineOf` and `lineColumn` say which line and column a position has. `findLine` and `findPlace` find
them by halving the lines, which needs the starts to be in order.
-/

namespace QueryLang

/-- A line and a column, both counted from zero. -/
structure LineColumn where
  line : Nat
  column : Nat
deriving DecidableEq, Inhabited

/-- The offsets at which the lines after the first one start, in order. The first line starts at
offset zero. -/
structure LineMap where
  laterStarts : List Nat
deriving DecidableEq, Inhabited

/-- What a search for a number among numbers in order finds. -/
inductive SearchResult
  /-- The number stands at the index. -/
  | found (index : Nat)
  /-- The number is not there, and would be put in at the index. -/
  | missing (index : Nat)
deriving DecidableEq

namespace LineMap

/-- The offsets just past each line feed, for a text that starts at `offset`. They are kept in the
range of positions. -/
def startsFrom (offset : Nat) : List Char → List Nat
  | [] => []
  | char :: rest =>
    let next := offset + char.utf8Size
    if char = '\n' then truncateToPosition next :: startsFrom next rest else startsFrom next rest

/-- The line map of a text. -/
def ofText (text : String) : LineMap :=
  ⟨startsFrom 0 text.toList⟩

/-- How many lines the text has. A text without line feed has one. -/
def lineCount (map : LineMap) : Nat :=
  map.laterStarts.length + 1

/-- The line that holds a position. -/
def lineOf (map : LineMap) (position : Nat) : Nat :=
  (map.laterStarts.takeWhile (· ≤ position)).length

/-- Where a line starts. -/
def lineStart (map : LineMap) (line : Nat) : Nat :=
  (0 :: map.laterStarts).getD line 0

/-- The line and column of a position. Positions past the text count on in the last line. -/
def lineColumn (map : LineMap) (position : Nat) : LineColumn :=
  let line := map.lineOf position
  ⟨line, position - map.lineStart line⟩

/-- Where a line starts, if there is such a line. -/
def checkedStart (map : LineMap) (line : Nat) : Checked Nat :=
  match (0 :: map.laterStarts)[line]? with
  | some start => .ok start
  | none => .error .outOfRange

/-- Looks for a position among the starts of the lines. -/
def search (map : LineMap) (position : Nat) : Checked SearchResult := do
  let startsBy (line : Nat) : Checked Bool := do return (← map.checkedStart line) ≤ position
  match ← partitionIndex startsBy map.lineCount with
  | 0 => return .missing 0
  | line + 1 =>
    if (← map.checkedStart line) = position then return .found line
    else return .missing (line + 1)

/-- Finds the line that holds a position: the line that starts there, or the one before the place
of such a line. -/
def findLine (map : LineMap) (position : Nat) : Checked Nat := do
  match ← map.search position with
  | .found line => return truncateToPosition line
  | .missing line => return truncateToPosition (← subtractPositions line 1)

/-- Finds the line and column of a position. -/
def findPlace (map : LineMap) (position : Nat) : Checked LineColumn := do
  let line ← map.findLine position
  return ⟨line, ← subtractPositions position (← map.checkedStart line)⟩

end LineMap

end QueryLang
