import QueryLang.Fault

/-!
# Spans and locations

A position is a byte offset from the start of a text and has 32 bits. A `Span` is a start and a
length; its end is a sum, and `Span.stop` checks that the sum is still a position. A `Location`
adds the file, so that it can serve as the identity of a declaration.
-/

namespace QueryLang

/-- One more than the largest position, which has 32 bits. -/
def positionLimit : Nat := 4294967296

/-- Two lengths laid end to end, as a position. -/
def addPositions (left right : Nat) : Checked Nat :=
  if left + right < positionLimit then .ok (left + right) else .error .positionOverflow

/-- A number less another one. Nothing is less than zero. -/
def subtractPositions (left right : Nat) : Checked Nat :=
  if right ≤ left then .ok (left - right) else .error .positionOverflow

/-- The last 32 bits of a number. They are the number itself if it is a position. -/
def truncateToPosition (number : Nat) : Nat := number % positionLimit

/-- A stretch of a text: the offset of its first byte, and its length in bytes. -/
structure Span where
  start : Nat
  length : Nat
deriving DecidableEq, Inhabited

namespace Span

/-- The span without any byte at a position. -/
def empty (position : Nat) : Span := ⟨position, 0⟩

/-- The position just past the span. -/
def stop (span : Span) : Checked Nat :=
  addPositions span.start span.length

/-- The span between two positions. -/
def ofBounds (start stop : Nat) : Checked Span :=
  if start ≤ stop then .ok ⟨start, stop - start⟩ else .error .reversedSpan

/-- Whether the span holds no byte. -/
def isEmpty (span : Span) : Bool := span.length == 0

/-- Whether the position lies inside the span. A position before the start is refused without
looking at the end. -/
def contains (span : Span) (position : Nat) : Checked Bool := do
  if span.start ≤ position then
    return position < (← span.stop)
  else
    return false

/-- Whether the position lies inside the span or touches either end. -/
def touches (span : Span) (position : Nat) : Checked Bool := do
  if span.start ≤ position then
    return position ≤ (← span.stop)
  else
    return false

/-- The smallest span that covers both spans. -/
def union (left right : Span) : Checked Span := do
  let leftStop ← left.stop
  let rightStop ← right.stop
  ofBounds (min left.start right.start) (max leftStop rightStop)

/-- The span as the range of its positions: `3..7`. -/
def rangeText (span : Span) : Checked String := do
  return s!"{span.start}..{← span.stop}"

/-- The span as a half-open interval: `[3, 7)`. -/
def intervalText (span : Span) : Checked String := do
  return s!"[{span.start}, {← span.stop})"

@[simp]
theorem stop_eq_ok_iff (span : Span) (position : Nat) :
    span.stop = .ok position ↔
      span.start + span.length = position ∧ position < positionLimit := by
  unfold stop addPositions
  split
  · simp only [Except.ok.injEq]; omega
  · simp only [reduceCtorEq, false_iff]; omega

end Span

/-- The number of a file in its compilation. -/
abbrev FileId := Nat

/-- A span in one file. -/
structure Location where
  file : FileId
  span : Span
deriving DecidableEq, Inhabited

namespace Location

/-- Where the location starts in its file. -/
def start (location : Location) : Nat := location.span.start

/-- The location with its file: `file#2@3..7`. -/
def text (location : Location) : Checked String := do
  return s!"file#{location.file}@{← location.span.rangeText}"

end Location

end QueryLang
