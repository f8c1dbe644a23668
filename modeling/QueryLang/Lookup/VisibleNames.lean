/-!
# Visible names

The names that completion can offer at a point, each with a number of type arguments, in the
order in which the scopes contributed them. A name is listed once for each number.
-/

namespace QueryLang

/-- Names with their numbers of type arguments. -/
structure VisibleNames where
  entries : List (String × Nat)
deriving DecidableEq, Inhabited

namespace VisibleNames

/-- No name. -/
def empty : VisibleNames := ⟨[]⟩

/-- Whether a name is listed with a number of type arguments. -/
def contains (names : VisibleNames) (name : String) (arity : Nat) : Bool :=
  names.entries.contains (name, arity)

/-- The names with one more. -/
def add (names : VisibleNames) (name : String) (arity : Nat) : VisibleNames :=
  if names.contains name arity then names else ⟨names.entries ++ [(name, arity)]⟩

/-- The names alone. -/
def toList (names : VisibleNames) : List String := names.entries.map Prod.fst

/-- The names in alphabetical order. -/
def sorted (names : VisibleNames) : VisibleNames :=
  ⟨names.entries.mergeSort fun left right => left.1 ≤ right.1⟩

/-- How many entries there are. -/
def size (names : VisibleNames) : Nat := names.entries.length

end VisibleNames

end QueryLang
