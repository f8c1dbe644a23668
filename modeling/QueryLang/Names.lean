/-!
# Name tables

A `Names` table gives every distinct text a number, in the order in which texts were first
entered. Entering a text again gives its number again, so two entered texts are equal exactly
when their numbers are.
-/

namespace QueryLang

/-- The distinct texts entered so far, by number. -/
structure Names where
  texts : Array String
deriving Inhabited

namespace Names

/-- The table without any text. -/
def empty : Names := ⟨#[]⟩

/-- The number of a text, if it was entered. -/
def get? (names : Names) (text : String) : Option Nat :=
  names.texts.idxOf? text

/-- The text with a number. -/
def resolve? (names : Names) (key : Nat) : Option String :=
  names.texts[key]?

/-- The number of a text, which is entered if it is new, and the table afterwards. -/
def intern (names : Names) (text : String) : Nat × Names :=
  match names.get? text with
  | some key => (key, names)
  | none => (names.texts.size, ⟨names.texts.push text⟩)

/-- How many texts were entered. -/
def size (names : Names) : Nat := names.texts.size

/-- Whether no text was entered. -/
def isEmpty (names : Names) : Bool := names.texts.isEmpty

/-- The table after entering a list of texts in order. -/
def ofTexts (texts : List String) : Names :=
  texts.foldl (fun names text => (names.intern text).2) empty

/-- A one-line description of the table. -/
def describe (names : Names) : String :=
  s!"StringInterner \x7b len: {names.size} \x7d"

end Names

end QueryLang
