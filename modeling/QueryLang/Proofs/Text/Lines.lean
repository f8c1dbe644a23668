import Mathlib.Data.List.TakeWhile
import Mathlib.Data.Prod.Lex
import QueryLang.Proofs.Halving
import QueryLang.Text.LineMap
import QueryLang.Text.Source

/-!
# Lines of a text

The lines of a text start in order, and the line that is found for a position starts at the position
or in front of it. So its column is what is left from there to the position.

In terms of the bytes of the text, the line of a position is the number of line feeds in front of
it, and its column is counted from behind the last of these. No two positions share a line and a
column, and a later position has a later line or a larger column.
-/

namespace QueryLang

/-! ### Line feeds -/

/-- The byte that ends a line. -/
def lineFeed : UInt8 := 10

namespace SourceText

/-- The text in UTF-8. -/
def bytes (text : SourceText) : List UInt8 :=
  text.toString.toUTF8.data.toList

/-- The offsets of the line feeds in front of a position, in order. -/
def lineFeedsBefore (text : SourceText) (position : Nat) : List Nat :=
  (text.bytes.idxsOf lineFeed).filter (· < position)

/-- Where the line of a position starts: just past the last line feed in front of it, or at the
start of the text if there is none. -/
def lineStartBefore (text : SourceText) (position : Nat) : Nat :=
  match (text.lineFeedsBefore position).getLast? with
  | some offset => offset + 1
  | none => 0

/-- How many line feeds are in front of a position, and how far it is from the last of them. -/
def placeOf (text : SourceText) (position : Nat) : LineColumn :=
  ⟨(text.lineFeedsBefore position).length, position - text.lineStartBefore position⟩

theorem bytes_eq (text : SourceText) : text.bytes = text.chars.flatMap String.utf8EncodeChar := by
  simp [bytes, SourceText.toString, List.utf8Encode]

end SourceText

theorem length_flatMap_utf8EncodeChar (chars : List Char) :
    (chars.flatMap String.utf8EncodeChar).length = byteLength chars := by
  induction chars with
  | nil => rfl
  | cons char rest ih =>
      rw [List.flatMap_cons, List.length_append, String.length_utf8EncodeChar, ih, byteLength_cons]

/-- The bytes of a longer character have their first bit set, so only a line feed has its byte. -/
theorem lineFeed_mem_utf8EncodeChar {char : Char} :
    lineFeed ∈ String.utf8EncodeChar char ↔ char = '\n' := by
  have notLarge (number : Nat) (isLarge : 128 ≤ number) (isByte : number < 256) :
      lineFeed ≠ UInt8.ofNat number := by
    intro isSame
    have sameNumber := congrArg UInt8.toNat isSame
    rw [UInt8.toNat_ofNat', Nat.mod_eq_of_lt isByte] at sameNumber
    exact absurd (sameNumber ▸ isLarge : 128 ≤ lineFeed.toNat) (by decide)
  refine ⟨fun hasByte => ?_, fun isLineFeed => by rw [isLineFeed]; decide⟩
  unfold String.utf8EncodeChar at hasByte
  dsimp only at hasByte
  split at hasByte
  · next isSmall =>
      have isSame := congrArg UInt8.toNat (List.mem_singleton.mp hasByte)
      rw [UInt8.toNat_ofNat', Nat.mod_eq_of_lt (by omega)] at isSame
      exact Char.ext (UInt32.toNat_inj.mp isSame.symm)
  · exfalso
    repeat' split at hasByte
    all_goals
      simp only [List.mem_cons, List.not_mem_nil, or_false] at hasByte
    · rcases hasByte with isByte | isByte
      all_goals exact notLarge _ (by omega) (by omega) isByte
    · rcases hasByte with isByte | isByte | isByte
      all_goals exact notLarge _ (by omega) (by omega) isByte
    · rcases hasByte with isByte | isByte | isByte | isByte
      all_goals exact notLarge _ (by omega) (by omega) isByte

theorem idxsOf_lineFeed_utf8EncodeChar (char : Char) (offset : Nat) :
    (String.utf8EncodeChar char).idxsOf lineFeed offset =
      if char = '\n' then [offset] else [] := by
  split
  · next isLineFeed =>
      rw [isLineFeed]
      rfl
  · next notLineFeed =>
      refine List.idxsOf_eq_nil_iff.mpr fun byte isByte => beq_eq_false_iff_ne.mpr ?_
      rintro rfl
      exact notLineFeed (lineFeed_mem_utf8EncodeChar.mp isByte)

namespace LineMap

variable {map : LineMap} {position line : Nat}

/-- The starts of lines are the offsets just past the line feeds. -/
theorem startsFrom_eq {offset : Nat} {chars : List Char}
    (fits : offset + byteLength chars < positionLimit) :
    startsFrom offset chars =
      ((chars.flatMap String.utf8EncodeChar).idxsOf lineFeed offset).map (· + 1) := by
  induction chars generalizing offset with
  | nil => rfl
  | cons char rest ih =>
      rw [byteLength_cons] at fits
      rw [List.flatMap_cons, List.idxsOf_append, List.map_append, String.length_utf8EncodeChar,
        idxsOf_lineFeed_utf8EncodeChar, startsFrom, ih (by omega)]
      split
      · next isLineFeed =>
          subst isLineFeed
          have small : offset + 1 < positionLimit := by
            have isOne : '\n'.utf8Size = 1 := by decide
            omega
          exact congrArg (· :: _) (Nat.mod_eq_of_lt small)
      · rfl

theorem startsFrom_eq_nil {offset : Nat} {chars : List Char} (noLineFeed : '\n' ∉ chars) :
    startsFrom offset chars = [] := by
  induction chars generalizing offset with
  | nil => rfl
  | cons char rest ih =>
      rw [List.mem_cons, not_or] at noLineFeed
      rw [startsFrom]
      split
      · next isLineFeed => exact absurd isLineFeed.symm noLineFeed.1
      · exact ih noLineFeed.2

theorem laterStarts_ofText (text : SourceText) :
    (ofText text.toString).laterStarts = (text.bytes.idxsOf lineFeed).map (· + 1) := by
  have fits := text.byteLength_lt
  rw [text.bytes_eq, ← startsFrom_eq (by omega), ofText, SourceText.toString, String.toList_ofList]

/-! ### Lines in order -/

/-- Each line starts behind the starts of the lines before it. -/
def InOrder (map : LineMap) : Prop :=
  (0 :: map.laterStarts).Pairwise (· < ·)

theorem ofText_inOrder (text : SourceText) : (ofText text.toString).InOrder := by
  rw [InOrder, laterStarts_ofText, List.pairwise_cons, List.pairwise_map]
  refine ⟨fun start isStart => ?_, List.pairwise_idxsOf.imp Nat.succ_lt_succ⟩
  rcases List.mem_map.mp isStart with ⟨offset, _, rfl⟩
  exact Nat.succ_pos offset

/-- There are no more line feeds than bytes. -/
theorem lineCount_ofText_le (text : SourceText) :
    (ofText text.toString).lineCount ≤ positionLimit := by
  rw [lineCount, laterStarts_ofText, List.length_map, List.length_idxsOf]
  calc text.bytes.count lineFeed + 1
    _ ≤ text.bytes.length + 1 := Nat.succ_le_succ List.count_le_length
    _ = byteLength text.chars + 1 := by rw [text.bytes_eq, length_flatMap_utf8EncodeChar]
    _ ≤ positionLimit := text.byteLength_lt

/-- Numbers in order from `first` on grow at least as fast as their indices. -/
theorem le_getElem_of_inOrder {first : Nat} {rest : List Nat}
    (inOrder : (first :: rest).Pairwise (· < ·)) {index : Nat}
    (inRange : index < (first :: rest).length) : first + index ≤ (first :: rest)[index] := by
  induction index generalizing first rest with
  | zero => exact Nat.le_refl _
  | succ index ih =>
      cases rest with
      | nil => simp at inRange
      | cons next rest =>
          have isBehind : first < next := List.rel_of_pairwise_cons inOrder List.mem_cons_self
          have further := ih inOrder.tail (Nat.lt_of_succ_lt_succ inRange)
          rw [List.getElem_cons_succ]
          omega

/-- The line of a position is one of the lines. -/
theorem lineOf_lt_lineCount (map : LineMap) (position : Nat) :
    map.lineOf position < map.lineCount :=
  Nat.lt_succ_of_le (List.takeWhile_prefix _).length_le

theorem lineStart_eq {line : Nat} (isLine : line < (0 :: map.laterStarts).length) :
    map.lineStart line = (0 :: map.laterStarts)[line] :=
  (List.getElem_eq_getD 0).symm

/-- A line starts behind as many bytes as there are lines before it, at least. -/
theorem InOrder.le_lineStart (inOrder : map.InOrder) (isLine : line < map.lineCount) :
    line ≤ map.lineStart line := by
  rw [lineStart_eq isLine]
  have grows := le_getElem_of_inOrder inOrder isLine
  rwa [Nat.zero_add] at grows

/-- Of numbers in order, those up to a bound are the ones in front. -/
theorem getElem_le_iff_of_inOrder {numbers : List Nat} (inOrder : numbers.Pairwise (· < ·))
    {index : Nat} (inRange : index < numbers.length) (bound : Nat) :
    numbers[index] ≤ bound ↔ index < (numbers.takeWhile (· ≤ bound)).length := by
  induction numbers generalizing index with
  | nil => cases inRange
  | cons first rest ih =>
      by_cases notBehind : first ≤ bound
      · rw [List.takeWhile_cons_of_pos (by simpa using notBehind), List.length_cons]
        cases index with
        | zero => exact iff_of_true notBehind (Nat.succ_pos _)
        | succ index =>
            rw [List.getElem_cons_succ, ih inOrder.tail (Nat.lt_of_succ_lt_succ inRange),
              Nat.succ_lt_succ_iff]
      · rw [List.takeWhile_cons_of_neg (by simpa using notBehind)]
        have grows := le_getElem_of_inOrder inOrder inRange
        exact iff_of_false (by omega) (Nat.not_lt_zero index)

/-- The lines up to that of a position are those that do not start behind it. -/
theorem InOrder.lineStart_le_iff (inOrder : map.InOrder) (isLine : line < map.lineCount)
    (position : Nat) : map.lineStart line ≤ position ↔ line ≤ map.lineOf position := by
  rw [lineStart_eq isLine, getElem_le_iff_of_inOrder inOrder isLine,
    List.takeWhile_cons_of_pos (by simp), List.length_cons, lineOf, Nat.lt_succ_iff]

theorem InOrder.lineStart_lineOf_le (inOrder : map.InOrder) (position : Nat) :
    map.lineStart (map.lineOf position) ≤ position :=
  (inOrder.lineStart_le_iff (map.lineOf_lt_lineCount position) position).mpr (Nat.le_refl _)

/-- The line of a position is the last of those that start in front of it or at it. -/
theorem lineStart_lineOf (map : LineMap) (position : Nat) :
    map.lineStart (map.lineOf position) =
      (map.laterStarts.takeWhile (· ≤ position)).getLast?.getD 0 := by
  let starts := map.laterStarts.takeWhile (· ≤ position)
  let behind := map.laterStarts.dropWhile (· ≤ position)
  have isLast : (0 :: starts)[starts.length]? = some (starts.getLast?.getD 0) := by
    rw [← List.getLast?_cons, List.getLast?_eq_getElem?]
    rfl
  calc map.lineStart (map.lineOf position)
    _ = ((0 :: map.laterStarts)[starts.length]?).getD 0 := List.getD_eq_getElem?_getD
    _ = ((0 :: (starts ++ behind))[starts.length]?).getD 0 := by
        rw [List.takeWhile_append_dropWhile]
    _ = ((0 :: starts)[starts.length]?).getD 0 := by
        rw [← List.cons_append, List.getElem?_append_left (Nat.lt_succ_self _)]
    _ = starts.getLast?.getD 0 := by rw [isLast]; rfl

/-- The line and the column of a position lead back to it. -/
theorem InOrder.lineStart_add_column (inOrder : map.InOrder) (position : Nat) :
    map.lineStart (map.lineColumn position).line + (map.lineColumn position).column = position :=
  Nat.add_sub_cancel' (inOrder.lineStart_lineOf_le position)

/-! ### Searching -/

theorem checkedStart_eq (isLine : line < map.lineCount) :
    map.checkedStart line = .ok (map.lineStart line) := by
  have isStart := List.getElem?_eq_getElem (l := 0 :: map.laterStarts) isLine
  rw [checkedStart, isStart, lineStart_eq isLine]

/-- Halving stops behind the line of the position. -/
theorem InOrder.partitionIndex_eq (inOrder : map.InOrder) (position : Nat) :
    partitionIndex (fun line => do return (← map.checkedStart line) ≤ position) map.lineCount =
      .ok (map.lineOf position + 1) := by
  have answers : ∀ line < map.lineCount,
      (do return decide ((← map.checkedStart line) ≤ position) : Checked Bool) =
        .ok (decide (line ≤ map.lineOf position)) := by
    intro line isLine
    rw [checkedStart_eq isLine, Checked.ok_bind]
    exact congrArg Except.ok (decide_eq_decide.mpr (inOrder.lineStart_le_iff isLine position))
  have isLine := map.lineOf_lt_lineCount position
  rcases QueryLang.partitionIndex_eq answers (by simp; omega) (Nat.succ_pos _) with
    ⟨index, inRange, isIndex, isBefore_iff⟩
  simp only [decide_eq_true_eq] at isBefore_iff
  have isAfter := (isBefore_iff _ isLine).mp (Nat.le_refl _)
  have isLast := (isBefore_iff (index - 1) (by omega)).mpr (by omega)
  rw [isIndex]
  congr 1
  omega

/-- The line of a position is found, whether it starts at the position or in front of it. -/
theorem InOrder.findLine_eq (inOrder : map.InOrder) (fits : map.lineCount ≤ positionLimit)
    (position : Nat) : map.findLine position = .ok (map.lineOf position) := by
  have isLine := map.lineOf_lt_lineCount position
  have isSame : truncateToPosition (map.lineOf position) = map.lineOf position :=
    Nat.mod_eq_of_lt (Nat.lt_of_lt_of_le isLine fits)
  rw [findLine, search, inOrder.partitionIndex_eq, Checked.ok_bind]
  dsimp only
  rw [checkedStart_eq isLine, Checked.ok_bind]
  split
  · exact congrArg Except.ok isSame
  · exact congrArg Except.ok isSame

theorem InOrder.findPlace_eq (inOrder : map.InOrder) (fits : map.lineCount ≤ positionLimit)
    (position : Nat) : map.findPlace position = .ok (map.lineColumn position) := by
  rw [findPlace, inOrder.findLine_eq fits, Checked.ok_bind,
    checkedStart_eq (map.lineOf_lt_lineCount position), Checked.ok_bind, subtractPositions,
    if_pos (inOrder.lineStart_lineOf_le position)]
  rfl

end LineMap

/-! ### Places of a text -/

namespace SourceText

variable {position later : Nat}

/-- Of numbers in order, those below a bound are the ones in front. -/
theorem filter_eq_takeWhile_of_inOrder {numbers : List Nat} (inOrder : numbers.Pairwise (· < ·))
    (bound : Nat) : numbers.filter (· < bound) = numbers.takeWhile (· < bound) := by
  induction numbers with
  | nil => rfl
  | cons first rest ih =>
      by_cases isBelow : first < bound
      · rw [List.filter_cons_of_pos (by simpa using isBelow),
          List.takeWhile_cons_of_pos (by simpa using isBelow), ih inOrder.tail]
      · rw [List.takeWhile_cons_of_neg (by simpa using isBelow), List.filter_eq_nil_iff]
        refine List.forall_mem_cons.mpr ⟨by simpa using isBelow, fun number isLater => ?_⟩
        have isBehind := List.rel_of_pairwise_cons inOrder isLater
        simp only [decide_eq_true_eq]
        omega

/-- The lines that start up to a position are those behind the line feeds in front of it. -/
theorem takeWhile_laterStarts (text : SourceText) (position : Nat) :
    (LineMap.ofText text.toString).laterStarts.takeWhile (· ≤ position) =
      (text.lineFeedsBefore position).map (· + 1) := by
  rw [LineMap.laterStarts_ofText, List.takeWhile_map, lineFeedsBefore,
    filter_eq_takeWhile_of_inOrder List.pairwise_idxsOf]
  rfl

theorem lineColumn_ofText (text : SourceText) (position : Nat) :
    (LineMap.ofText text.toString).lineColumn position = text.placeOf position := by
  have startEq : (LineMap.ofText text.toString).lineStart
      ((LineMap.ofText text.toString).lineOf position) = text.lineStartBefore position := by
    rw [LineMap.lineStart_lineOf, text.takeWhile_laterStarts, List.getLast?_map, lineStartBefore]
    cases (text.lineFeedsBefore position).getLast? with
    | none => rfl
    | some offset => rfl
  rw [LineMap.lineColumn, startEq, LineMap.lineOf, text.takeWhile_laterStarts, List.length_map]
  rfl

/-- No line starts behind its positions. -/
theorem lineStartBefore_le (text : SourceText) (position : Nat) :
    text.lineStartBefore position ≤ position := by
  rw [lineStartBefore]
  split
  · next offset isLast =>
      exact of_decide_eq_true (List.mem_filter.mp (List.mem_of_getLast? isLast)).2
  · exact Nat.zero_le _

/-- There are more line feeds in front of a later position, or it is in the same line. -/
theorem placeOf_strictMono (text : SourceText) :
    StrictMono fun position =>
      toLex ((text.placeOf position).line, (text.placeOf position).column) := by
  intro position later isLater
  have areBefore : (text.lineFeedsBefore position).Sublist (text.lineFeedsBefore later) := by
    refine List.monotone_filter_right _ fun offset isBefore => ?_
    simp only [decide_eq_true_eq] at isBefore ⊢
    omega
  rw [Prod.Lex.toLex_lt_toLex]
  rcases Nat.lt_or_eq_of_le areBefore.length_le with more | same
  · exact .inl more
  · refine .inr ⟨same, ?_⟩
    have sameStart : text.lineStartBefore position = text.lineStartBefore later := by
      rw [lineStartBefore, lineStartBefore, areBefore.eq_of_length same]
    have startLe := text.lineStartBefore_le position
    show position - text.lineStartBefore position < later - text.lineStartBefore later
    omega

/-- The line map of a text is exact. For each position, also past the end of the text, it finds the
line whose number is that of the line feeds in front of the position, and the column that is counted
from behind the last of these. So a later position has a later place. -/
theorem lineMap_exact (text : SourceText) :
    (∀ position,
      (LineMap.ofText text.toString).findLine position =
        .ok (text.lineFeedsBefore position).length ∧
      (LineMap.ofText text.toString).findPlace position = .ok (text.placeOf position)) ∧
    StrictMono fun position =>
      toLex ((text.placeOf position).line, (text.placeOf position).column) := by
  refine ⟨fun position => ?_, text.placeOf_strictMono⟩
  have inOrder := LineMap.ofText_inOrder text
  have fits := LineMap.lineCount_ofText_le text
  have isPlace := text.lineColumn_ofText position
  have isLine : (LineMap.ofText text.toString).lineOf position =
      (text.lineFeedsBefore position).length := congrArg LineColumn.line isPlace
  rw [inOrder.findLine_eq fits, inOrder.findPlace_eq fits, isLine, isPlace]
  exact ⟨rfl, rfl⟩

end SourceText

end QueryLang
