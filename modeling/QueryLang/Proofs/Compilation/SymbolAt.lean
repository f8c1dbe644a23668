import QueryLang.Proofs.Compilation.Beginning
import QueryLang.Proofs.Compilation.Carrying
import QueryLang.Proofs.Lists

/-!
# The symbol at a position

A position touches at most one identifier. What is found there is the symbol that the bound file
declares with the identifier; if it declares none, the symbol that the bound expression at the
identifier's node refers to; and otherwise nothing. From a symbol that is declared one gets back
to its identifier and to the node that declares it.
-/

namespace QueryLang

/-- From a symbol that an identifier declares one gets back to the identifier, and to the node
around it, which is one that declares such symbols. -/
structure SyntaxTree.LeadsBack (tree : SyntaxTree) (id : Nat) (token : TreeToken)
    (symbol : Symbol) : Prop where
  location : symbol.firstLocation? = some (tree.location token.span)
  node : symbol.declaringNode? tree = .ok (some token.parent)
  sort : ∃ kind, tree.kind token.parent = .ok kind ∧ kind.Declares symbol.kind
  identifier : tree.childToken? token.parent .identifierToken = .ok (some id)

namespace BoundUnit

variable {unit : BoundUnit} {tree : SyntaxTree} {damaged : Prop} {globals : List Symbol}
  {id : Nat} {token : TreeToken} {symbol other : Symbol}

/-- The file declares a symbol with an identifier. -/
def DeclaresWith (unit : BoundUnit) (tree : SyntaxTree) (id : Nat) (token : TreeToken)
    (symbol : Symbol) : Prop :=
  ∃ node, tree.IdentifierOf node id token ∧ (node, symbol) ∈ declarationSites unit.parts

/-- A bound expression refers to a symbol at the node of a token. -/
def RefersWith (unit : BoundUnit) (token : TreeToken) (symbol : Symbol) : Prop :=
  ∃ expr, .expression expr ∈ unit.parts ∧ expr.node = token.parent ∧ expr.symbol? = some symbol

/-- What an identifier stands for in a bound file. -/
inductive StandsFor (unit : BoundUnit) (tree : SyntaxTree) (id : Nat) (token : TreeToken) :
    Option Symbol → Prop
  | declared {symbol : Symbol} (declares : unit.DeclaresWith tree id token symbol)
      (only : ∀ other, unit.DeclaresWith tree id token other → other = symbol) :
      StandsFor unit tree id token (some symbol)
  | referenced {symbol : Symbol} (notDeclared : ∀ other, ¬ unit.DeclaresWith tree id token other)
      (refers : unit.RefersWith token symbol)
      (only : ∀ other, unit.RefersWith token other → other = symbol) :
      StandsFor unit tree id token (some symbol)
  | nothing (notDeclared : ∀ other, ¬ unit.DeclaresWith tree id token other)
      (notReferenced : ∀ other, ¬ unit.RefersWith token other) : StandsFor unit tree id token none

namespace IsOf

variable (isOf : unit.IsOf tree damaged globals)

include isOf

theorem declaresWith_unique (declares : unit.DeclaresWith tree id token symbol)
    (declaresOther : unit.DeclaresWith tree id token other) : other = symbol := by
  obtain ⟨node, own, isSite⟩ := declares
  obtain ⟨otherNode, otherOwn, isOtherSite⟩ := declaresOther
  rw [← otherOwn.parent_eq, own.parent_eq] at isOtherSite
  exact isOf.site_unique isOtherSite isSite

theorem refersWith_unique (refers : unit.RefersWith token symbol)
    (refersOther : unit.RefersWith token other) : other = symbol := by
  have isReference := mem_references.mpr refers
  have isOther := mem_references.mpr refersOther
  exact isOf.mark_unique (List.mem_append_right _ isOther) (List.mem_append_right _ isReference)

theorem declarationAt?_eq_some_iff (isIdentifier : tree.IsIdentifier id token) :
    unit.declarationAt? token.span.start = some symbol ↔
      unit.DeclaresWith tree id token symbol := by
  constructor
  · intro found
    exact isOf.declaration_at found isIdentifier rfl
  · intro declares
    have isSome : (unit.declarationAt? token.span.start).isSome := by
      obtain ⟨node, own, isSite⟩ := declares
      obtain ⟨same, sameToken, isOwn, location⟩ := isOf.site_identifier isSite
      cases own.child.symm.trans isOwn.child
      cases own.isIdentifier.isToken.symm.trans isOwn.isIdentifier.isToken
      refine List.find?_isSome.mpr ⟨symbol, mem_declarations.mpr ⟨node, isSite⟩, ?_⟩
      simp [location, Location.start, SyntaxTree.location]
    obtain ⟨found, isFound⟩ := Option.isSome_iff_exists.mp isSome
    have declaresFound := isOf.declaration_at isFound isIdentifier rfl
    rw [isFound, isOf.declaresWith_unique declares declaresFound]

theorem referenceAt?_eq_some_iff :
    unit.referenceAt? token.parent = some symbol ↔ unit.RefersWith token symbol := by
  have refersWith_of_lookup {symbol : Symbol}
      (found : unit.referenceAt? token.parent = some symbol) : unit.RefersWith token symbol := by
    exact mem_references.mp (mem_of_lookup_eq_some found)
  constructor
  · exact refersWith_of_lookup
  · intro refers
    cases found : unit.referenceAt? token.parent with
    | none =>
      have absent := List.lookup_eq_none_iff.mp found _ (mem_references.mpr refers)
      simp at absent
    | some first => rw [isOf.refersWith_unique refers (refersWith_of_lookup found)]

/-- The two indices together have what an identifier stands for. -/
theorem standsFor (isIdentifier : tree.IsIdentifier id token) :
    unit.StandsFor tree id token
      ((unit.declarationAt? token.span.start).or (unit.referenceAt? token.parent)) := by
  cases declared : unit.declarationAt? token.span.start with
  | some symbol =>
    have declares := (isOf.declarationAt?_eq_some_iff isIdentifier).mp declared
    exact .declared declares fun other => isOf.declaresWith_unique declares
  | none =>
    have notDeclared (other : Symbol) : ¬ unit.DeclaresWith tree id token other := by
      rw [← isOf.declarationAt?_eq_some_iff isIdentifier, declared]
      rintro ⟨⟩
    rw [Option.none_or]
    cases referenced : unit.referenceAt? token.parent with
    | some symbol =>
      have refers := isOf.referenceAt?_eq_some_iff.mp referenced
      exact .referenced notDeclared refers fun other => isOf.refersWith_unique refers
    | none =>
      refine .nothing notDeclared fun other => ?_
      rw [← isOf.referenceAt?_eq_some_iff, referenced]
      rintro ⟨⟩

/-- From where an identifier is one gets to its node. -/
theorem declaringNode?_eq {kind : Kind} (isIdentifier : tree.IsIdentifier id token)
    (location : symbol.firstLocation? = some (tree.location token.span))
    (kindEq : tree.kind token.parent = .ok kind)
    (isConclusion : symbol.kind = .queryConclusionVariable → kind = .queryConclusion) :
    symbol.declaringNode? tree = .ok (some token.parent) := by
  have tokenEq : tree.token id = .ok token := by rw [SyntaxTree.token, isIdentifier.isToken]
  have found : tree.findToken (tree.location token.span).start = .ok id :=
    isOf.laidOut.findToken_start isOf.wellFormed isIdentifier.isToken isIdentifier.isReal
  rw [Symbol.declaringNode?, location]
  dsimp only
  rw [if_neg (by simp [SyntaxTree.location]), found, Checked.ok_bind, tokenEq, Checked.ok_bind,
    if_neg (by simp [isIdentifier.kind]), kindEq, Checked.ok_bind,
    if_neg (by simpa using isConclusion)]
  rfl

theorem leadsBack (declares : unit.DeclaresWith tree id token symbol) :
    tree.LeadsBack id token symbol := by
  obtain ⟨node, own, isSite⟩ := declares
  have declaresSymbol := isOf.places.declares _ isSite
  obtain ⟨same, sameToken, isOwn, location⟩ := isOf.site_identifier isSite
  cases own.child.symm.trans isOwn.child
  cases own.isIdentifier.isToken.symm.trans isOwn.isIdentifier.isToken
  have child := own.child
  rw [← own.parent_eq] at declaresSymbol child
  obtain ⟨kind, kindEq, sort⟩ := declaresSymbol.sort
  exact ⟨location,
    isOf.declaringNode?_eq own.isIdentifier location kindEq sort.conclusion_iff.mpr,
    ⟨kind, kindEq, sort⟩, child⟩

end IsOf

end BoundUnit

namespace SemanticModel

variable {model : SemanticModel} {unit : BoundUnit} {damaged : Prop} {globals : List Symbol}

/-- What is found at a position: nothing where no identifier of the source is, and otherwise what
the only identifier there stands for. -/
inductive Finds (model : SemanticModel) (unit : BoundUnit) (position : Nat) :
    Option Symbol → Prop
  | nowhere (untouched : ∀ id token, model.tree.IsIdentifier id token →
      ¬ token.span.IsTouchedBy position) : Finds model unit position none
  | identifier {id : Nat} {token : TreeToken} {found : Option Symbol}
      (isIdentifier : model.tree.IsIdentifier id token)
      (touched : token.span.IsTouchedBy position)
      (only : ∀ other otherToken, model.tree.IsIdentifier other otherToken →
        otherToken.span.IsTouchedBy position → other = id)
      (standsFor : unit.StandsFor model.tree id token found) : Finds model unit position found

end SemanticModel

namespace Compilation

end Compilation

end QueryLang
