import QueryLang.Proofs.Checked
import QueryLang.Text.Source

/-!
# Character boundaries

A text can be cut at a byte offset where characters meet. A span between two such offsets can be
cut out, and its end is a position.
-/

namespace QueryLang

/-- Characters of the text meet at the byte offset. -/
def Boundary (chars : List Char) (position : Nat) : Prop :=
  ∃ before after, chars = before ++ after ∧ byteLength before = position

namespace Boundary

variable {chars : List Char} {position : Nat}

theorem zero (chars : List Char) : Boundary chars 0 := ⟨[], chars, rfl, rfl⟩

theorem le_byteLength (boundary : Boundary chars position) : position ≤ byteLength chars := by
  rcases boundary with ⟨before, after, rfl, rfl⟩
  simp

end Boundary

theorem eq_nil_of_byteLength_eq_zero {chars : List Char} (empty : byteLength chars = 0) :
    chars = [] := by
  cases chars with
  | nil => rfl
  | cons char rest =>
      have size := char.utf8Size_pos
      rw [byteLength_cons] at empty
      omega

theorem splitBytes_append (before after : List Char) :
    splitBytes (byteLength before) (before ++ after) = .ok (before, after) := by
  induction before with
  | nil => cases after <;> simp [splitBytes]
  | cons char rest ih =>
      have size := char.utf8Size_pos
      obtain ⟨count, counted⟩ : ∃ count, byteLength (char :: rest) = count + 1 :=
        ⟨byteLength (char :: rest) - 1, by rw [byteLength_cons]; omega⟩
      have fits : char.utf8Size ≤ count + 1 := by
        rw [← counted, byteLength_cons]
        omega
      have left : count + 1 - char.utf8Size = byteLength rest := by
        rw [← counted, byteLength_cons]
        omega
      rw [counted, List.cons_append, splitBytes, if_pos fits, left, ih]
      rfl

/-- A part of a text is cut out between its offsets. -/
theorem sliceBytes_append (before part after : List Char) :
    sliceBytes (before ++ (part ++ after)) (byteLength before)
      (byteLength before + byteLength part) = .ok part := by
  rw [sliceBytes, if_pos (Nat.le_add_right ..), splitBytes_append, Nat.add_sub_cancel_left]
  show (splitBytes (byteLength part) (part ++ after)).bind _ = _
  rw [splitBytes_append]
  rfl

/-- Of two parts at the start of a text, the longer one starts with the shorter one. -/
theorem append_eq_append_of_byteLength_le {before after upTo rest : List Char}
    (sameText : before ++ after = upTo ++ rest) (ordered : byteLength before ≤ byteLength upTo) :
    ∃ part, upTo = before ++ part ∧ after = part ++ rest := by
  rcases List.append_eq_append_iff.mp sameText with ⟨part, upToEq, afterEq⟩ |
    ⟨part, beforeEq, restEq⟩
  · exact ⟨part, upToEq, afterEq⟩
  · have noPart : part = [] := by
      apply eq_nil_of_byteLength_eq_zero
      rw [beforeEq, byteLength_append] at ordered
      omega
    subst noPart
    exact ⟨[], by simpa using beforeEq.symm, by simpa using restEq.symm⟩

/-- Between two boundaries the text can be cut out. -/
theorem sliceBytes_eq_ok {chars : List Char} {start stop : Nat} (ordered : start ≤ stop)
    (startBoundary : Boundary chars start) (stopBoundary : Boundary chars stop) :
    ∃ part, sliceBytes chars start stop = .ok part := by
  rcases startBoundary with ⟨before, rest, rfl, rfl⟩
  rcases stopBoundary with ⟨upTo, after, sameText, rfl⟩
  rcases append_eq_append_of_byteLength_le sameText ordered with ⟨part, rfl, rfl⟩
  refine ⟨part, ?_⟩
  rw [byteLength_append]
  exact sliceBytes_append before part after

namespace Span

/-- The smallest span around two spans. -/
def hull (left right : Span) : Span :=
  ⟨min left.start right.start, max (left.start + left.length) (right.start + right.length) -
    min left.start right.start⟩

/-- The span starts and ends between characters of the text. -/
structure Within (chars : List Char) (span : Span) : Prop where
  start_boundary : Boundary chars span.start
  stop_boundary : Boundary chars (span.start + span.length)

namespace Within

variable {chars : List Char} {span : Span}

theorem empty {position : Nat} (boundary : Boundary chars position) :
    (Span.empty position).Within chars :=
  ⟨boundary, boundary⟩

theorem stop_eq_ok (within : span.Within chars) (fits : byteLength chars < positionLimit) :
    span.stop = .ok (span.start + span.length) := by
  rw [stop_eq_ok_iff]
  exact ⟨rfl, Nat.lt_of_le_of_lt within.stop_boundary.le_byteLength fits⟩

theorem touches_eq_ok (within : span.Within chars) (fits : byteLength chars < positionLimit)
    (position : Nat) : ∃ answer, span.touches position = .ok answer := by
  rw [touches, within.stop_eq_ok fits]
  split
  · exact ⟨_, rfl⟩
  · exact ⟨_, rfl⟩

theorem union_eq_ok {left right : Span} (leftWithin : left.Within chars)
    (rightWithin : right.Within chars) (fits : byteLength chars < positionLimit) :
    left.union right = .ok (left.hull right) := by
  have ordered : min left.start right.start ≤
      max (left.start + left.length) (right.start + right.length) := by omega
  rw [Span.union, leftWithin.stop_eq_ok fits, rightWithin.stop_eq_ok fits]
  exact if_pos ordered

theorem hull {left right : Span} (leftWithin : left.Within chars)
    (rightWithin : right.Within chars) : (left.hull right).Within chars := by
  have ordered : min left.start right.start ≤
      max (left.start + left.length) (right.start + right.length) := by omega
  constructor
  · rcases Nat.le_total left.start right.start with order | order
    · simpa [Span.hull, Nat.min_eq_left order] using leftWithin.start_boundary
    · simpa [Span.hull, Nat.min_eq_right order] using rightWithin.start_boundary
  · rw [Span.hull, Nat.add_sub_cancel' ordered]
    rcases Nat.le_total (left.start + left.length) (right.start + right.length) with
      order | order
    · simpa [Nat.max_eq_right order] using rightWithin.stop_boundary
    · simpa [Nat.max_eq_left order] using leftWithin.stop_boundary

end Within

end Span

/-- The location is in the file, between characters of its text. -/
structure Location.InText (file : FileId) (chars : List Char) (location : Location) : Prop where
  file_eq : location.file = file
  within : location.span.Within chars

end QueryLang
