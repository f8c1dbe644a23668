import QueryLang.Symbol.Basic

/-!
# When two symbols are the same

Three relations answer this, from the strictest reading of a declaration to the loosest:

* `declaresSame` compares declarations. Kinds that are told apart by place are the same when
  their places are; the others when kind, name and signature agree. In both cases the
  containers have to agree too.
* `equivalent` is looser for methods: overloads differ by their parameters only, so the type
  that a method returns does not count.
* `sameSymbol` is what the user means. Variables and labels are compared by identity, all other
  kinds by `equivalent`.

Equal symbols have the same `fingerprint`, whichever relation makes them equal.
-/

namespace QueryLang

/-- Kinds whose declarations are told apart by their place in the source. -/
def SymbolKind.isPlaced (kind : SymbolKind) : Bool :=
  kind.usesIdentity || kind == .lambda

namespace SymbolData

/-- Whether two symbols of one kind have the same signature. -/
def sameSignature : SymbolData → SymbolData → Bool
  | method leftReturn leftTypes, method rightReturn rightTypes =>
    leftReturn == rightReturn && leftTypes == rightTypes
  | parameter leftType leftOrdinal leftRef, parameter rightType rightOrdinal rightRef =>
    leftType == rightType && leftOrdinal == rightOrdinal && leftRef == rightRef
  | left, right => left.kind == right.kind && left.type? == right.type?

/-- Whether two symbols of one kind have the same signature as far as overloads go. -/
def sameOverload : SymbolData → SymbolData → Bool
  | method _ leftTypes, method _ rightTypes => leftTypes == rightTypes
  | left, right => left.sameSignature right

end SymbolData

namespace Declaration

/-- Whether two declarations agree, apart from what is around them. -/
def agrees (left right : Declaration) : Bool :=
  left.kind == right.kind &&
    if left.kind.isPlaced then
      left.firstLocation? == right.firstLocation?
    else
      left.name == right.name && left.data.sameSignature right.data

/-- Whether two declarations agree in kind, name and parameters, apart from what is around
them. -/
def overlaps (left right : Declaration) : Bool :=
  left.kind == right.kind && left.name == right.name && left.data.sameOverload right.data

end Declaration

/-- Whether two chains of declarations agree one by one. -/
def chainsAgree : List Declaration → List Declaration → Bool
  | [], [] => true
  | left :: leftRest, right :: rightRest => left.agrees right && chainsAgree leftRest rightRest
  | [], _ :: _ | _ :: _, [] => false

/-- Whether two chains of declarations overlap one by one. From the first that is told apart by
place, they have to agree. -/
def chainsOverlap : List Declaration → List Declaration → Bool
  | [], [] => true
  | left :: leftRest, right :: rightRest =>
    if left.kind.isPlaced then
      chainsAgree (left :: leftRest) (right :: rightRest)
    else
      left.overlaps right && chainsOverlap leftRest rightRest
  | [], _ :: _ | _ :: _, [] => false

/-- What a declaration adds to a fingerprint. -/
inductive Trait
  | place (location : Option Location)
  | named (kind : SymbolKind) (name : String)
deriving DecidableEq

/-- The trait of a declaration: its place if it is told apart by place, else kind and name. -/
def Declaration.trait (declaration : Declaration) : Trait :=
  if declaration.kind.isPlaced then
    .place declaration.firstLocation?
  else
    .named declaration.kind declaration.name

namespace Symbol

/-- The declarations that make up a symbol, from the symbol's own outwards. -/
def chain (symbol : Symbol) : List Declaration :=
  symbol.declaration :: symbol.containers

/-- Whether two symbols are the same declaration. -/
def declaresSame (left right : Symbol) : Bool :=
  chainsAgree left.chain right.chain

/-- Whether two symbols are the same up to where they are declared. -/
def equivalent (left right : Symbol) : Bool :=
  chainsOverlap left.chain right.chain

/-- Whether two symbols are what the user calls the same. -/
def sameSymbol (left right : Symbol) : Bool :=
  if left.kind.usesIdentity then left == right else left.equivalent right

/-- What a symbol is filed under. -/
def fingerprint (symbol : Symbol) : List Trait :=
  symbol.chain.map Declaration.trait

end Symbol

end QueryLang
