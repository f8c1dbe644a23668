import QueryLang.Proofs.Binding.Declaring
import QueryLang.Proofs.Compilation.Model
import QueryLang.Proofs.Compilation.Names
import QueryLang.Proofs.Lists
import QueryLang.Proofs.Symbol.Sameness
import QueryLang.Proofs.Syntax.Layout

/-!
# Where symbols occur

An identifier stands for at most one symbol: the one that its node declares, or the one that its
node refers to. The symbol at a position is the one that the identifier there stands for, and the
spans of a symbol are those of the identifiers that stand for it.
-/

namespace QueryLang

namespace SyntaxTree

variable {tree : SyntaxTree} {damaged : Prop} {node : NodeId} {id : Nat} {token : TreeToken}

/-- The identifier of a node, which stands in the source. -/
structure IdentifierOf (tree : SyntaxTree) (node : NodeId) (id : Nat) (token : TreeToken) :
    Prop where
  child : tree.childToken? node .identifierToken = .ok (some id)
  isIdentifier : tree.IsIdentifier id token
  parent_eq : token.parent = node

/-- A child token that is there is an identifier of its node. -/
theorem WellFormed.identifierOf (wellFormed : tree.WellFormed damaged)
    (found : tree.childToken? node .identifierToken = .ok (some id))
    (isToken : tree.token id = .ok token) (isReal : token.isMissing = false) :
    tree.IdentifierOf node id token := by
  have isOwn : tree.tokens[id]? = some token := by
    rw [SyntaxTree.token] at isToken
    split at isToken
    · next other isOther => rw [isOther, Except.ok.inj isToken]
    · cases isToken
  rcases Checked.bind_eq_ok_iff.mp found with ⟨tokens, tokensEq, foundEq⟩
  have isFound := Checked.pure_eq_ok_iff.mp foundEq
  have hasKind := List.find?_some isFound
  have isChild := List.mem_of_find?_eq_some isFound
  rcases Checked.bind_eq_ok_iff.mp tokensEq with ⟨inner, innerEq, childrenEq⟩
  rw [← Checked.pure_eq_ok_iff.mp childrenEq] at isChild
  rcases List.mem_filterMap.mp isChild with ⟨element, isElement, isTokenElement⟩
  have innerFound : tree.nodes[node]? = some inner := by
    rw [SyntaxTree.node] at innerEq
    split at innerEq
    · next other isOther => rw [isOther, Except.ok.inj innerEq]
    · cases innerEq
  have parentEq := wellFormed.child_parent innerFound element isElement
  cases element with
  | node other => cases isTokenElement
  | token other =>
      cases isTokenElement
      rw [parentOf?, isOwn] at parentEq
      rw [tokenHasKind, isOwn] at hasKind
      exact ⟨found, ⟨isOwn, by simpa using hasKind, isReal⟩, Option.some.inj parentEq⟩

/-- A reference has an identifier. -/
theorem IsReference.identifierOf (isReference : tree.IsReference node)
    (wellFormed : tree.WellFormed damaged) :
    ∃ id token, tree.IdentifierOf node id token := by
  rcases isReference.names with ⟨name, names⟩
  rw [Names, nameAt?] at names
  split at names
  · next id found =>
      split at names
      · next token isToken =>
          split at names
          · cases names
          · next present =>
              exact ⟨id, token, wellFormed.identifierOf found isToken (by simpa using present)⟩
      · cases names
  · cases names
  · cases names

/-- A name consists of its identifier. -/
theorem WellFormed.children_of_name (wellFormed : tree.WellFormed damaged)
    (kindEq : tree.kind node = .ok .identifierName) :
    ∃ inner child, tree.nodes[node]? = some inner ∧ inner.children.toList = [child] := by
  rcases wellFormed.partsOf kindEq with ⟨lower, role, roles, _, production, inner, found, formed⟩
  rw [production.roles_of_identifierName rfl] at formed
  rcases List.forall₂_cons_left_iff.mp formed with ⟨child, rest, _, noRest, childrenEq⟩
  rw [List.forall₂_nil_left_iff.mp noRest] at childrenEq
  exact ⟨inner, child, found, childrenEq⟩

/-- The only child of a name is its identifier. -/
theorem IdentifierOf.children_eq (own : tree.IdentifierOf node id token)
    (wellFormed : tree.WellFormed damaged) (ordered : tree.OrderedTree)
    (kindEq : tree.kind node = .ok .identifierName) :
    ∃ inner, tree.nodes[node]? = some inner ∧ inner.children.toList = [.token id] := by
  rcases wellFormed.children_of_name kindEq with ⟨inner, child, found, childrenEq⟩
  have parentEq : tree.parentOf? (.token id) = some node := by
    rw [parentOf?, own.isIdentifier.isToken, ← own.parent_eq]
    rfl
  rcases (ordered.parent_iff _ _).mp parentEq with ⟨other, isOther, isChild⟩
  cases found.symm.trans isOther
  rw [childrenEq, List.mem_singleton] at isChild
  exact ⟨inner, found, by rw [childrenEq, isChild]⟩

/-- The span of a name is that of its identifier. -/
theorem IdentifierOf.span_eq (own : tree.IdentifierOf node id token)
    (wellFormed : tree.WellFormed damaged) (ordered : tree.OrderedTree)
    (kindEq : tree.kind node = .ok .identifierName) : tree.span node = .ok token.span := by
  rcases own.children_eq wellFormed ordered kindEq with ⟨inner, found, childrenEq⟩
  have isToken := own.isIdentifier.isToken
  have walks : tree.Walks (.node node) [.node node, .token id] := by
    refine .node found ?_
    rw [childrenEq]
    exact .cons (.token (Array.getElem?_eq_some_iff.mp isToken).1) .nil
  have isPresent := isPresent_iff.mpr ⟨token, isToken, own.isIdentifier.isReal⟩
  rcases ordered.span_runs node (Array.getElem?_eq_some_iff.mp found).1 with
    ⟨span, first, last, spanEq, firstEq, lastEq, runs⟩
  rw [ordered.first_below node _ walks] at firstEq
  rw [ordered.last_below node _ walks] at lastEq
  have tokensBelow : [Element.node node, .token id].filterMap Element.token? = [id] := rfl
  have isFirst : [id].find? tree.isPresent = some id := List.find?_cons_of_pos isPresent
  rw [tokensBelow, isFirst] at firstEq
  rw [tokensBelow, List.reverse_singleton, isFirst] at lastEq
  rw [← Except.ok.inj firstEq, ← Except.ok.inj lastEq] at runs
  rcases runs with ⟨firstToken, lastToken, isFirstToken, isLastToken, starts, stops⟩
  cases isToken.symm.trans isFirstToken
  cases isToken.symm.trans isLastToken
  have lengthEq : span.length = token.span.length := by omega
  rw [spanEq]
  exact congrArg Except.ok (congrArg₂ Span.mk starts lengthEq)

end SyntaxTree

/-! ### Names that resolve -/

/-- Of the visible declarations of a name one is the innermost. -/
theorem innermost_unique {tree : SyntaxTree} {visible inner outer before after : List NodeId}
    {declaration other : NodeId} {name : String} (split : visible = inner ++ declaration :: outer)
    (isNamed : tree.Names declaration name) (noneInside : ∀ node ∈ inner, ¬tree.Names node name)
    (otherSplit : visible = before ++ other :: after) (otherNamed : tree.Names other name)
    (noneBefore : ∀ node ∈ before, ¬tree.Names node name) : declaration = other := by
  have isFirst {inner outer : List NodeId} {declaration : NodeId}
      (split : visible = inner ++ declaration :: outer) (isNamed : tree.Names declaration name)
      (noneInside : ∀ node ∈ inner, ¬tree.Names node name) :
      visible.find? (fun node => tree.nameAt? node == some name) = some declaration := by
    refine List.find?_eq_some_iff_append.mpr
      ⟨beq_iff_eq.mpr isNamed, inner, outer, split, fun node inside => ?_⟩
    simpa [SyntaxTree.Names] using noneInside node inside
  exact Option.some.inj ((isFirst split isNamed noneInside).symm.trans
    (isFirst otherSplit otherNamed noneBefore))

/-- A name stands for one symbol, if every node declares one symbol at most. -/
theorem ResolvesTo.unique {tree : SyntaxTree} {declared : List (NodeId × Symbol)}
    {globals : List Symbol} {visible : List NodeId} {name : String} {found other : Option Symbol}
    (functional : ∀ node left right, (node, left) ∈ declared → (node, right) ∈ declared →
      left = right)
    (resolves : ResolvesTo tree declared globals visible name found)
    (resolvesOther : ResolvesTo tree declared globals visible name other) : found = other := by
  cases resolves with
  | innermost split isNamed noneInside isDeclared =>
      cases resolvesOther with
      | innermost otherSplit otherNamed otherNone otherDeclared =>
          cases innermost_unique split isNamed noneInside otherSplit otherNamed otherNone
          rw [functional _ _ _ isDeclared otherDeclared]
      | host noneVisible decides =>
          exact absurd isNamed (noneVisible _ (by simp [split]))
  | host noneVisible decides =>
      cases resolvesOther with
      | innermost split isNamed noneInside isDeclared =>
          exact absurd isNamed (noneVisible _ (by simp [split]))
      | host otherNone otherDecides =>
          cases decides.symm.trans otherDecides
          rfl

/-! ### The symbols of a bound file -/

namespace BoundUnit

/-- The nodes that declare symbols or refer to them, with the symbols. -/
def marks (unit : BoundUnit) : List (NodeId × Symbol) :=
  declarationSites unit.parts ++ unit.references

/-- An identifier stands for a symbol. -/
def Occurs (unit : BoundUnit) (tree : SyntaxTree) (id : Nat) (token : TreeToken)
    (symbol : Symbol) : Prop :=
  ∃ node, tree.IdentifierOf node id token ∧ (node, symbol) ∈ unit.marks

/-- A unit is what binding gives for a tree that was parsed. -/
structure IsOf (unit : BoundUnit) (tree : SyntaxTree) (damaged : Prop) (globals : List Symbol) :
    Prop where
  wellFormed : tree.WellFormed damaged
  ordered : tree.OrderedTree
  laidOut : tree.LaidOut
  places : tree.Places [SyntaxTree.root] (declarationSites unit.parts) unit.parts
  resolved : ∀ part ∈ unit.parts, part.Resolved tree (declarationSites unit.parts) globals

variable {unit : BoundUnit} {tree : SyntaxTree} {damaged : Prop} {globals : List Symbol}
  {node : NodeId} {id : Nat} {token : TreeToken} {symbol other : Symbol}

theorem mem_references : (node, symbol) ∈ unit.references ↔
    ∃ expr, .expression expr ∈ unit.parts ∧ expr.node = node ∧ expr.symbol? = some symbol := by
  rw [references, List.mem_filterMap]
  constructor
  · rintro ⟨part, isPart, isReference⟩
    cases part with
    | block node | statement inner => cases isReference
    | expression expr =>
        rcases Option.map_eq_some_iff.mp isReference with ⟨own, ownEq, same⟩
        cases same
        exact ⟨expr, isPart, rfl, ownEq⟩
  · rintro ⟨expr, isPart, rfl, symbolEq⟩
    exact ⟨.expression expr, isPart, by rw [BoundPart.reference?, symbolEq]; rfl⟩

theorem mem_declarations :
    symbol ∈ unit.declarations ↔ ∃ node, (node, symbol) ∈ declarationSites unit.parts := by
  have declarationsEq : unit.declarations = (declarationSites unit.parts).map Prod.snd := by
    rw [declarationSites, List.map_flatMap]
    exact List.flatMap_congr fun part _ => part.sites_symbols.symm
  simp [declarationsEq]

namespace IsOf

variable (isOf : unit.IsOf tree damaged globals)

include isOf

theorem site_unique (isSite : (node, symbol) ∈ declarationSites unit.parts)
    (isOther : (node, other) ∈ declarationSites unit.parts) : symbol = other :=
  congrArg Prod.snd (List.inj_on_of_nodup_map isOf.places.nodup isSite isOther rfl)

theorem isReference (isReference : (node, symbol) ∈ unit.references) : tree.IsReference node := by
  rcases List.mem_filterMap.mp isReference with ⟨part, isPart, isOwn⟩
  exact isOf.places.references part isPart _ isOwn

/-- What a reference stands for is what is visible. -/
theorem resolvesTo (isReference : (node, symbol) ∈ unit.references) {name : String}
    (names : tree.Names node name) :
    ∃ visible, tree.VisibleAt node visible ∧
      ResolvesTo tree (declarationSites unit.parts) globals visible name (some symbol) := by
  rcases mem_references.mp isReference with ⟨expr, isPart, rfl, symbolEq⟩
  have resolved := isOf.resolved _ isPart (isOf.isReference isReference).kind_eq name names
  rwa [symbolEq] at resolved

/-- A node stands for one symbol. -/
theorem mark_unique (isMark : (node, symbol) ∈ unit.marks) (isOther : (node, other) ∈ unit.marks) :
    symbol = other := by
  have notBoth {left right : Symbol} (isSite : (node, left) ∈ declarationSites unit.parts)
      (isReference : (node, right) ∈ unit.references) : False :=
    (isOf.places.declares _ isSite).notName (isOf.isReference isReference).kind_eq
  rcases List.mem_append.mp isMark with isSite | isReference
  · rcases List.mem_append.mp isOther with isOtherSite | isOtherReference
    · exact isOf.site_unique isSite isOtherSite
    · exact (notBoth isSite isOtherReference).elim
  · rcases List.mem_append.mp isOther with isOtherSite | isOtherReference
    · exact (notBoth isOtherSite isReference).elim
    · rcases (isOf.isReference isReference).names with ⟨name, names⟩
      rcases isOf.resolvesTo isReference names with ⟨visible, sees, resolves⟩
      rcases isOf.resolvesTo isOtherReference names with ⟨others, seesOthers, resolvesOther⟩
      rw [sees.unique isOf.wellFormed seesOthers] at resolvesOther
      exact Option.some.inj (resolves.unique (fun _ _ _ => isOf.site_unique) resolvesOther)

/-- A declaration has the place of its node's identifier. -/
theorem site_identifier (isSite : (node, symbol) ∈ declarationSites unit.parts) :
    ∃ id token, tree.IdentifierOf node id token ∧
      symbol.firstLocation? = some (tree.location token.span) := by
  rcases (isOf.places.declares _ isSite).token with ⟨id, token, found, isToken, isReal, locations⟩
  refine ⟨id, token, isOf.wellFormed.identifierOf found isToken isReal, ?_⟩
  exact congrArg List.head? locations

/-- An identifier stands for one symbol. -/
theorem occurs_unique (occurs : unit.Occurs tree id token symbol)
    (occursOther : unit.Occurs tree id token other) : symbol = other := by
  rcases occurs with ⟨node, own, isMark⟩
  rcases occursOther with ⟨otherNode, otherOwn, isOtherMark⟩
  rw [← otherOwn.parent_eq, own.parent_eq] at isOtherMark
  exact isOf.mark_unique isMark isOtherMark

/-- A declaration whose identifier starts where another one does is at the same identifier. -/
theorem declaration_at {start : Nat} (found : unit.declarationAt? start = some symbol)
    (isIdentifier : tree.IsIdentifier id token) (startEq : token.span.start = start) :
    ∃ node, tree.IdentifierOf node id token ∧ (node, symbol) ∈ declarationSites unit.parts := by
  rcases mem_declarations.mp (List.mem_of_find?_eq_some found) with ⟨node, isSite⟩
  rcases isOf.site_identifier isSite with ⟨own, ownToken, isOwn, location⟩
  have starts := List.find?_some found
  rw [location] at starts
  have sameStart : ownToken.span.start = start := by
    simpa [Location.start, SyntaxTree.location] using starts
  have touchesOwn : ownToken.span.IsTouchedBy start := ⟨by omega, by omega⟩
  have touches : token.span.IsTouchedBy start := ⟨by omega, by omega⟩
  have same := isOf.laidOut.identifier_unique isOwn.isIdentifier isIdentifier touchesOwn touches
  subst same
  have sameToken := isOwn.isIdentifier.isToken.symm.trans isIdentifier.isToken
  cases sameToken
  exact ⟨node, isOwn, isSite⟩

end IsOf

end BoundUnit

/-- Binding a parsed tree gives its unit. -/
theorem SemanticModel.bind_isOf {model : SemanticModel} {damaged : Prop} {globals : List Symbol}
    (kinds : HostKinds globals) (unbound : model.bound = none)
    (isRoot : model.binder.scopes = [.global globals]) (wellFormed : model.tree.WellFormed damaged)
    (ordered : model.tree.OrderedTree) (laidOut : model.tree.LaidOut) (isCancelled : Bool) :
    (model.bind isCancelled).Yields fun result => result.1.IsOf model.tree damaged globals := by
  have places : (model.bind isCancelled).Yields fun result => model.tree.Places [SyntaxTree.root]
      (declarationSites result.1.parts) result.1.parts := by
    rw [SemanticModel.bind, unbound]
    refine .next fun before => ?_
    refine (Binding.Yields.collecting (bindFile_places wellFormed)).bind ?_
    rintro ⟨block, diagnostics⟩ places
    exact .next fun _ => .pure places
  have resolves := SemanticModel.bind_resolves kinds unbound wellFormed isCancelled
  rw [isRoot] at resolves
  refine (places.and resolves).mono fun result both => ?_
  exact ⟨wellFormed, ordered, laidOut, both.1,
    both.2 (declarationSites result.1.parts) .host (List.Subset.refl _)⟩

/-! ### The identifier at a position -/

namespace SemanticModel

variable {model : SemanticModel} {damaged : Prop} {position id : Nat} {token : TreeToken}

section

variable (wellFormed : model.tree.WellFormed damaged)

include wellFormed

end

end SemanticModel

end QueryLang
