import QueryLang.Symbol.Equality

/-!
# Sets of symbols

A `SymbolSet` holds symbols up to `Symbol.sameSymbol`. Each is filed under a fingerprint and is
found only under that. A fingerprint shows the containers of a symbol, so it is out of date once
one of them is gone. The symbols are filed anew only when the set runs out of room.
-/

namespace QueryLang

/-- Symbols, each with the fingerprint that it had when it was filed, and the number of symbols
that the set has room for. -/
structure SymbolSet where
  entries : List (List Trait × Symbol)
  room : Nat
deriving Inhabited

namespace SymbolSet

/-- The set without any symbol. -/
def empty : SymbolSet := ⟨[], 0⟩

/-- How many symbols the set holds. -/
def size (set : SymbolSet) : Nat := set.entries.length

/-- The symbols of the set. -/
def toList (set : SymbolSet) : List Symbol := set.entries.map Prod.snd

/-- Whether an entry stands for a symbol. `view` gives the symbols as they are seen now. -/
def holds (view : Symbol → Symbol) (symbol : Symbol) (entry : List Trait × Symbol) : Bool :=
  entry.1 == (view symbol).fingerprint && (view entry.2).sameSymbol (view symbol)

/-- The symbol of the set that a symbol is the same as. -/
def find? (set : SymbolSet) (view : Symbol → Symbol) (symbol : Symbol) : Option Symbol :=
  (set.entries.find? (holds view symbol)).map Prod.snd

/-- Whether the set holds a symbol. -/
def contains (set : SymbolSet) (view : Symbol → Symbol) (symbol : Symbol) : Bool :=
  (set.find? view symbol).isSome

/-- The next size of a set that is full: 3, 7, 14, 28, and so on. -/
def nextRoom (room : Nat) : Nat :=
  if room = 0 then 3 else if room = 3 then 7 else 2 * room

/-- The set with more room. Its symbols are filed under the fingerprints that they have now. -/
def enlarge (set : SymbolSet) (view : Symbol → Symbol) : SymbolSet where
  entries := set.entries.map fun (_, symbol) => ((view symbol).fingerprint, symbol)
  room := nextRoom set.room

/-- The set with room for one more symbol. -/
def reserve (set : SymbolSet) (view : Symbol → Symbol) : SymbolSet :=
  if set.size < set.room then set else set.enlarge view

/-- The set with a symbol, which is put in if the set does not hold it. -/
def insert (set : SymbolSet) (view : Symbol → Symbol) (symbol : Symbol) : SymbolSet :=
  let set := set.reserve view
  if set.contains view symbol then set
  else { set with entries := set.entries ++ [((view symbol).fingerprint, symbol)] }

/-- The set without a symbol. -/
def erase (set : SymbolSet) (view : Symbol → Symbol) (symbol : Symbol) : SymbolSet :=
  { set with entries := set.entries.eraseP (holds view symbol) }

end SymbolSet

end QueryLang
