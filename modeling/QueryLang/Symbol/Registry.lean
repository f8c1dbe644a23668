import QueryLang.Symbol.Set

/-!
# Registries of symbols

A registry files symbols under names and keeps a set of them. What it holds is what there is:
containers are not held by what they contain, so a symbol that is dropped disappears from the
containers of others, unless the set or a lambda still holds it.
-/

namespace QueryLang

/-- Symbols under names, the earliest filed first, and a set of symbols. -/
structure SymbolRegistry where
  named : List (String × Symbol)
  set : SymbolSet
deriving Inhabited

namespace SymbolRegistry

/-- The registry without any symbol. -/
def empty : SymbolRegistry := ⟨[], .empty⟩

/-- Files a symbol under a name, in the place of what had that name. -/
def file (registry : SymbolRegistry) (name : String) (symbol : Symbol) : SymbolRegistry :=
  { registry with named := registry.named.filter (·.1 != name) ++ [(name, symbol)] }

/-- Files a symbol under a name, and its parameters under that name and their number. -/
def fileWithParameters (registry : SymbolRegistry) (name : String) (symbol : Symbol) :
    SymbolRegistry :=
  symbol.parameters.zipIdx.foldl
    (fun registry (parameter, index) => registry.file s!"{name}.{index}" parameter)
    (registry.file name symbol)

/-- Forgets what a name stands for. -/
def drop (registry : SymbolRegistry) (name : String) : SymbolRegistry :=
  { registry with named := registry.named.filter (·.1 != name) }

/-- Whether a declaration is still held: filed, in the set, or a parameter of a lambda that is
one of these. -/
def holds (registry : SymbolRegistry) (id : Nat) : Bool :=
  (registry.named.map Prod.snd ++ registry.set.toList).any fun symbol =>
    symbol.id == id || symbol.parameters.any (·.id == id)

/-- A symbol with those of its containers that are still there. -/
def view (registry : SymbolRegistry) (symbol : Symbol) : Symbol := symbol.heldBy registry.holds

/-- The symbol that a name stands for, as it is seen now. -/
def find? (registry : SymbolRegistry) (name : String) : Option Symbol :=
  (registry.named.lookup name).map registry.view

/-- The least name of a symbol. -/
def nameOf? (registry : SymbolRegistry) (symbol : Symbol) : Option String :=
  ((registry.named.filter (·.2.id == symbol.id)).map Prod.fst).mergeSort.head?

/-- Puts a symbol into the set. -/
def insert (registry : SymbolRegistry) (symbol : Symbol) : SymbolRegistry :=
  { registry with set := registry.set.insert registry.view symbol }

/-- Takes a symbol out of the set. -/
def erase (registry : SymbolRegistry) (symbol : Symbol) : SymbolRegistry :=
  { registry with set := registry.set.erase registry.view symbol }

/-- The symbol of the set that a symbol is the same as. -/
def stored? (registry : SymbolRegistry) (symbol : Symbol) : Option Symbol :=
  registry.set.find? registry.view symbol

end SymbolRegistry

end QueryLang
