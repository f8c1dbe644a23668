import QueryLang.Text.Span

/-!
# Source texts

A source text is measured in UTF-8 bytes, and its length is a position, so every offset in it is
one. `sliceBytes` cuts out the characters between two byte offsets; a cut past the end or inside
a character is a fault.
-/

namespace QueryLang

/-- How many bytes characters take in UTF-8. -/
def byteLength (chars : List Char) : Nat :=
  chars.foldr (fun char length => char.utf8Size + length) 0

@[simp]
theorem byteLength_nil : byteLength [] = 0 := rfl

@[simp]
theorem byteLength_cons (char : Char) (rest : List Char) :
    byteLength (char :: rest) = char.utf8Size + byteLength rest := rfl

@[simp]
theorem byteLength_append (left right : List Char) :
    byteLength (left ++ right) = byteLength left + byteLength right := by
  induction left with
  | nil => simp
  | cons char rest hypothesis => simp [hypothesis, Nat.add_assoc]

@[simp]
theorem byteLength_replicate (count : Nat) (char : Char) :
    byteLength (List.replicate count char) = count * char.utf8Size := by
  induction count with
  | zero => simp
  | succ count ih => rw [List.replicate_succ, byteLength_cons, ih, Nat.succ_mul, Nat.add_comm]

/-- The text of a source file. -/
structure SourceText where
  chars : List Char
  byteLength_lt : byteLength chars < positionLimit

namespace SourceText

/-- A string as a source text, unless it is too long. -/
def ofString? (text : String) : Option SourceText :=
  let chars := text.toList
  if fits : byteLength chars < positionLimit then some ⟨chars, fits⟩ else none

/-- The text without any character. -/
def empty : SourceText := ⟨[], by decide⟩

instance : Inhabited SourceText := ⟨empty⟩

/-- The text as a string. -/
def toString (source : SourceText) : String :=
  String.ofList source.chars

end SourceText

/-- Splits a text after a number of bytes. It fails past the end and inside a character. -/
def splitBytes (count : Nat) (chars : List Char) : Checked (List Char × List Char) :=
  match count, chars with
  | 0, chars => .ok ([], chars)
  | _ + 1, [] => .error .outOfRange
  | count + 1, char :: rest =>
    if char.utf8Size ≤ count + 1 then do
      let (before, after) ← splitBytes (count + 1 - char.utf8Size) rest
      .ok (char :: before, after)
    else
      .error .outOfRange
termination_by structural chars

/-- The part of a text between two byte offsets. -/
def sliceBytes (chars : List Char) (start stop : Nat) : Checked (List Char) :=
  if start ≤ stop then do
    let (_, rest) ← splitBytes start chars
    let (part, _) ← splitBytes (stop - start) rest
    .ok part
  else
    .error .outOfRange

end QueryLang
