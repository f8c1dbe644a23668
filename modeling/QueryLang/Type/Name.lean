import QueryLang.Text.CodePoint

/-!
# Type names

A type is written as a name, or as `seq<…>` around the name of the element type. White space
around any of these names does not count. Reading a written type gives the innermost name and
how many times `seq<…>` is wrapped around it.
-/

namespace QueryLang

/-- What stands between `seq<` and the final `>`, if the text has that form. -/
def sequenceElement? : List Char → Option (List Char)
  | 's' :: 'e' :: 'q' :: '<' :: rest =>
    if rest.getLast? = some '>' then some rest.dropLast else none
  | _ => none

theorem length_lt_of_sequenceElement? {text element : List Char}
    (found : sequenceElement? text = some element) : element.length < text.length := by
  unfold sequenceElement? at found
  split at found
  · split at found
    · simp only [Option.some.injEq] at found
      subst found
      simp only [List.length_dropLast, List.length_cons]
      omega
    · simp at found
  · simp at found

theorem length_trimStart_le (text : List Char) : (trimStart text).length ≤ text.length :=
  (List.dropWhile_sublist _).length_le

theorem length_trim_le (text : List Char) : (trim text).length ≤ text.length := by
  have inner := length_trimStart_le text
  have outer := length_trimStart_le (trimStart text).reverse
  simp only [List.length_reverse] at outer
  simp only [trim, List.length_reverse]
  omega

/-- A written type: a name, and the number of `seq<…>` around it. -/
structure TypeName where
  base : List Char
  depth : Nat
deriving DecidableEq, Inhabited

namespace TypeName

/-- Reads a written type. -/
def ofText (text : List Char) : TypeName :=
  match found : sequenceElement? (trim text) with
  | some element =>
    let inner := ofText element
    ⟨inner.base, inner.depth + 1⟩
  | none => ⟨trim text, 0⟩
termination_by text.length
decreasing_by
  exact Nat.lt_of_lt_of_le (length_lt_of_sequenceElement? found) (length_trim_le text)

end TypeName

end QueryLang
