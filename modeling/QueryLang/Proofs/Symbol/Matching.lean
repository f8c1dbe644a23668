import Mathlib.Data.List.Forall2
import Mathlib.Logic.Relator
import QueryLang.Proofs.Lists
import QueryLang.Symbol.Equality

/-!
# Symbols that match

Symbols are alike when they differ in the numbers of their declarations and in the indices of their
types only, and which numbers and types belong together is given. As long as no number and no type
has two partners, a symbol has at most one that is like it, so that asking whether two symbols are
equal has the same answer on both sides.
-/

namespace QueryLang

theorem biUnique_of_eq_iff {α : Type} {alike : α → α → Prop}
    (eqIff : ∀ {left right other otherRight : α}, alike left right → alike other otherRight →
      (left = other ↔ right = otherRight)) : Relator.BiUnique alike :=
  ⟨fun _ _ _ first second => (eqIff first second).mpr rfl,
    fun _ _ _ first second => (eqIff first second).mp rfl⟩

theorem eq_iff_of_biUnique {α β : Type} {alike : α → β → Prop} (unique : Relator.BiUnique alike)
    {left other : α} {right otherRight : β} (first : alike left right)
    (second : alike other otherRight) : left = other ↔ right = otherRight :=
  Relator.rel_eq unique first second

theorem beq_eq_of_biUnique {α : Type} [BEq α] [LawfulBEq α] {alike : α → α → Prop}
    (unique : Relator.BiUnique alike) {left right other otherRight : α} (first : alike left right)
    (second : alike other otherRight) : (left == other) = (right == otherRight) := by
  rw [Bool.eq_iff_iff, beq_iff_eq, beq_iff_eq]
  exact eq_iff_of_biUnique unique first second

theorem Option.Rel.biUnique {α : Type} {alike : α → α → Prop} (unique : Relator.BiUnique alike) :
    Relator.BiUnique (Option.Rel alike) := by
  refine biUnique_of_eq_iff fun first second => ?_
  cases first with
  | none => cases second <;> simp
  | some alike =>
      cases second with
      | none => simp
      | some other => simpa using eq_iff_of_biUnique unique alike other

variable {types weaker : TypeId → TypeId → Prop} {ids weakerIds : Nat → Nat → Prop}

/-- Parameters of lambdas that differ in numbers and in the indices of types only. -/
structure LambdaParameter.Alike (types : TypeId → TypeId → Prop) (ids : Nat → Nat → Prop)
    (parameter other : LambdaParameter) : Prop where
  id : ids parameter.id other.id
  name : parameter.name = other.name
  location : parameter.location = other.location
  type : types parameter.type other.type
  refKind : parameter.refKind = other.refKind

/-- Data that differ in numbers and in the indices of types only. -/
inductive SymbolData.Alike (types : TypeId → TypeId → Prop) (ids : Nat → Nat → Prop) :
    SymbolData → SymbolData → Prop
  | «namespace» : Alike types ids .namespace .namespace
  | namedType {type other : TypeId} (type_alike : types type other) :
      Alike types ids (.namedType type) (.namedType other)
  | method {type other : TypeId} {parameters others : List TypeId} (type_alike : types type other)
      (parameters_alike : List.Forall₂ types parameters others) :
      Alike types ids (.method type parameters) (.method other others)
  | field {type other : TypeId} (type_alike : types type other) :
      Alike types ids (.field type) (.field other)
  | property {type other : TypeId} (type_alike : types type other) :
      Alike types ids (.property type) (.property other)
  | parameter {type other : TypeId} (type_alike : types type other) (ordinal : Nat)
      (refKind : RefKind) :
      Alike types ids (.parameter type ordinal refKind) (.parameter other ordinal refKind)
  | lambda {parameters others : List LambdaParameter}
      (parameters_alike : List.Forall₂ (LambdaParameter.Alike types ids) parameters others) :
      Alike types ids (.lambda parameters) (.lambda others)
  | localVariable {type other : TypeId} (type_alike : types type other) :
      Alike types ids (.localVariable type) (.localVariable other)
  | label : Alike types ids .label .label
  | rangeVariable {type other : TypeId} (type_alike : types type other) :
      Alike types ids (.rangeVariable type) (.rangeVariable other)
  | queryConclusionVariable : Alike types ids .queryConclusionVariable .queryConclusionVariable

/-- Declarations that differ in numbers and in the indices of types only. -/
structure Declaration.Alike (types : TypeId → TypeId → Prop) (ids : Nat → Nat → Prop)
    (declaration other : Declaration) : Prop where
  id : ids declaration.id other.id
  name : declaration.name = other.name
  locations : declaration.locations = other.locations
  accessibility : declaration.accessibility = other.accessibility
  modifiers : declaration.modifiers = other.modifiers
  data : declaration.data.Alike types ids other.data

/-- Symbols that differ in numbers and in the indices of types only. -/
structure Symbol.Alike (types : TypeId → TypeId → Prop) (ids : Nat → Nat → Prop)
    (symbol other : Symbol) : Prop where
  declaration : symbol.declaration.Alike types ids other.declaration
  containers : List.Forall₂ (Declaration.Alike types ids) symbol.containers other.containers

/-! ### More types and numbers that match -/

section Mono

variable (implies : ∀ type other, types type other → weaker type other)
  (impliesIds : ∀ number other, ids number other → weakerIds number other)

include implies impliesIds

theorem LambdaParameter.Alike.mono {parameter other : LambdaParameter}
    (alike : parameter.Alike types ids other) : parameter.Alike weaker weakerIds other :=
  ⟨impliesIds _ _ alike.id, alike.name, alike.location, implies _ _ alike.type, alike.refKind⟩

theorem SymbolData.Alike.mono {data other : SymbolData} (alike : data.Alike types ids other) :
    data.Alike weaker weakerIds other := by
  cases alike with
  | «namespace» => exact .namespace
  | namedType type_alike => exact .namedType (implies _ _ type_alike)
  | method type_alike parameters_alike =>
      exact .method (implies _ _ type_alike) (parameters_alike.imp implies)
  | field type_alike => exact .field (implies _ _ type_alike)
  | property type_alike => exact .property (implies _ _ type_alike)
  | parameter type_alike ordinal refKind =>
      exact .parameter (implies _ _ type_alike) ordinal refKind
  | lambda parameters_alike =>
      exact .lambda (parameters_alike.imp fun _ _ => LambdaParameter.Alike.mono implies impliesIds)
  | localVariable type_alike => exact .localVariable (implies _ _ type_alike)
  | label => exact .label
  | rangeVariable type_alike => exact .rangeVariable (implies _ _ type_alike)
  | queryConclusionVariable => exact .queryConclusionVariable

theorem Declaration.Alike.mono {declaration other : Declaration}
    (alike : declaration.Alike types ids other) : declaration.Alike weaker weakerIds other :=
  ⟨impliesIds _ _ alike.id, alike.name, alike.locations, alike.accessibility, alike.modifiers,
    alike.data.mono implies impliesIds⟩

theorem Symbol.Alike.mono {symbol other : Symbol} (alike : symbol.Alike types ids other) :
    symbol.Alike weaker weakerIds other :=
  ⟨alike.declaration.mono implies impliesIds,
    alike.containers.imp fun _ _ => Declaration.Alike.mono implies impliesIds⟩

end Mono

/-! ### At most one partner -/

section Unique

variable (uniqueTypes : Relator.BiUnique types) (uniqueIds : Relator.BiUnique ids)

include uniqueTypes uniqueIds

theorem LambdaParameter.Alike.biUnique : Relator.BiUnique (LambdaParameter.Alike types ids) := by
  refine biUnique_of_eq_iff ?_
  rintro ⟨id, name, location, type, refKind⟩ ⟨_, _, _, _, _⟩ ⟨_, _, _, _, _⟩ ⟨_, _, _, _, _⟩
    ⟨idAlike, rfl, rfl, typeAlike, rfl⟩ ⟨otherId, rfl, rfl, otherType, rfl⟩
  rw [LambdaParameter.mk.injEq, LambdaParameter.mk.injEq,
    eq_iff_of_biUnique uniqueIds idAlike otherId,
    eq_iff_of_biUnique uniqueTypes typeAlike otherType]

theorem SymbolData.Alike.biUnique : Relator.BiUnique (SymbolData.Alike types ids) := by
  have sameType {type other partner otherPartner : TypeId} (alike : types type partner)
      (otherAlike : types other otherPartner) : type = other ↔ partner = otherPartner :=
    eq_iff_of_biUnique uniqueTypes alike otherAlike
  refine biUnique_of_eq_iff fun first second => ?_
  cases first with
  | «namespace» | label | queryConclusionVariable => cases second <;> simp
  | namedType alike | field alike | property alike | localVariable alike | rangeVariable alike =>
      cases second with
      | namedType other | field other | property other | localVariable other
      | rangeVariable other => simp [sameType alike other]
      | _ => simp
  | method alike parametersAlike =>
      cases second with
      | method other othersAlike =>
          simp [sameType alike other,
            eq_iff_of_biUnique uniqueTypes.forall₂ parametersAlike othersAlike]
      | _ => simp
  | parameter alike ordinal refKind =>
      cases second with
      | parameter other otherOrdinal otherRefKind => simp [sameType alike other]
      | _ => simp
  | lambda parametersAlike =>
      cases second with
      | lambda othersAlike =>
          simp [eq_iff_of_biUnique (LambdaParameter.Alike.biUnique uniqueTypes uniqueIds).forall₂
            parametersAlike othersAlike]
      | _ => simp

theorem Declaration.Alike.biUnique : Relator.BiUnique (Declaration.Alike types ids) := by
  refine biUnique_of_eq_iff ?_
  rintro ⟨id, name, locations, accessibility, modifiers, data⟩ ⟨_, _, _, _, _, _⟩
    ⟨_, _, _, _, _, _⟩ ⟨_, _, _, _, _, _⟩ ⟨idAlike, rfl, rfl, rfl, rfl, dataAlike⟩
    ⟨otherId, rfl, rfl, rfl, rfl, otherData⟩
  rw [Declaration.mk.injEq, Declaration.mk.injEq, eq_iff_of_biUnique uniqueIds idAlike otherId,
    eq_iff_of_biUnique (SymbolData.Alike.biUnique uniqueTypes uniqueIds) dataAlike otherData]

/-- No symbol is like two others. -/
theorem Symbol.Alike.biUnique : Relator.BiUnique (Symbol.Alike types ids) := by
  have declarations := Declaration.Alike.biUnique uniqueTypes uniqueIds
  refine biUnique_of_eq_iff ?_
  rintro ⟨declaration, containers⟩ ⟨_, _⟩ ⟨_, _⟩ ⟨_, _⟩ ⟨alike, around⟩ ⟨other, otherAround⟩
  rw [Symbol.mk.injEq, Symbol.mk.injEq, eq_iff_of_biUnique declarations alike other,
    eq_iff_of_biUnique declarations.forall₂ around otherAround]

end Unique

/-! ### At least one partner -/

/-- The numbers of parameters inside data. -/
def SymbolData.numbers : SymbolData → List Nat
  | .lambda parameters => parameters.map (·.id)
  | _ => []

/-- The numbers of a declaration and of its parameters. -/
def Declaration.numbers (declaration : Declaration) : List Nat :=
  declaration.id :: declaration.data.numbers

/-- All numbers of a symbol, with those of the declarations around it. -/
def Symbol.numbers (symbol : Symbol) : List Nat :=
  (symbol.declaration :: symbol.containers).flatMap (·.numbers)

section Total

theorem SymbolData.exists_alike {data : SymbolData}
    (total : ∀ number ∈ data.numbers, ∃ other, ids number other) :
    ∃ other, data.Alike Eq ids other := by
  cases data with
  | «namespace» => exact ⟨_, .namespace⟩
  | namedType => exact ⟨_, .namedType rfl⟩
  | method => exact ⟨_, .method rfl (List.forall₂_refl _)⟩
  | field => exact ⟨_, .field rfl⟩
  | property => exact ⟨_, .property rfl⟩
  | parameter => exact ⟨_, .parameter rfl _ _⟩
  | localVariable => exact ⟨_, .localVariable rfl⟩
  | label => exact ⟨_, .label⟩
  | rangeVariable => exact ⟨_, .rangeVariable rfl⟩
  | queryConclusionVariable => exact ⟨_, .queryConclusionVariable⟩
  | lambda parameters =>
      have each : ∀ parameter ∈ parameters, ∃ other, LambdaParameter.Alike Eq ids parameter other := by
        intro parameter member
        rcases total parameter.id (List.mem_map_of_mem member) with ⟨number, numbers⟩
        exact ⟨{ parameter with id := number }, numbers, rfl, rfl, rfl, rfl⟩
      rcases exists_forall₂ each with ⟨others, alike⟩
      exact ⟨_, .lambda alike⟩

theorem Declaration.exists_alike {declaration : Declaration}
    (total : ∀ number ∈ declaration.numbers, ∃ other, ids number other) :
    ∃ other, declaration.Alike Eq ids other := by
  rw [numbers, List.forall_mem_cons] at total
  rcases total with ⟨⟨number, numbers⟩, inData⟩
  rcases SymbolData.exists_alike inData with ⟨data, alike⟩
  exact ⟨{ declaration with id := number, data }, numbers, rfl, rfl, rfl, rfl, alike⟩

/-- A symbol is like another one if all its numbers have partners. -/
theorem Symbol.exists_alike {symbol : Symbol}
    (total : ∀ number ∈ symbol.numbers, ∃ other, ids number other) :
    ∃ other, symbol.Alike Eq ids other := by
  have each : ∀ declaration ∈ symbol.declaration :: symbol.containers,
      ∃ other, Declaration.Alike Eq ids declaration other := by
    intro declaration member
    exact Declaration.exists_alike fun number isOwn =>
      total number (List.mem_flatMap.mpr ⟨declaration, member, isOwn⟩)
  rw [List.forall_mem_cons] at each
  rcases each with ⟨⟨declaration, alike⟩, around⟩
  rcases exists_forall₂ around with ⟨containers, others⟩
  exact ⟨⟨declaration, containers⟩, alike, others⟩

end Total

/-! ### What symbols that are alike share -/

theorem SymbolData.Alike.kind {data other : SymbolData} (alike : data.Alike types ids other) :
    data.kind = other.kind := by
  cases alike <;> rfl

theorem SymbolData.Alike.type? {data other : SymbolData} (alike : data.Alike types ids other) :
    Option.Rel types data.type? other.type? := by
  cases alike with
  | «namespace» | label | queryConclusionVariable | lambda => exact .none
  | namedType type_alike | field type_alike | property type_alike | localVariable type_alike
  | rangeVariable type_alike | parameter type_alike | method type_alike => exact .some type_alike

theorem Declaration.Alike.kind {declaration other : Declaration}
    (alike : declaration.Alike types ids other) : declaration.kind = other.kind :=
  alike.data.kind

theorem Declaration.Alike.firstLocation? {declaration other : Declaration}
    (alike : declaration.Alike types ids other) :
    declaration.firstLocation? = other.firstLocation? := by
  rw [Declaration.firstLocation?, Declaration.firstLocation?, alike.locations]

namespace Symbol.Alike

variable {symbol other container otherContainer : Symbol}

theorem kind (alike : symbol.Alike types ids other) : symbol.kind = other.kind :=
  alike.declaration.data.kind

theorem name (alike : symbol.Alike types ids other) : symbol.name = other.name :=
  alike.declaration.name

theorem text (alike : symbol.Alike types ids other) : symbol.text = other.text := by
  have sameKind : symbol.declaration.kind = other.declaration.kind := alike.kind
  rw [Symbol.text, Symbol.text, Declaration.text, Declaration.text, sameKind,
    alike.declaration.name]

theorem type? (alike : symbol.Alike types ids other) :
    Option.Rel types symbol.type? other.type? :=
  alike.declaration.data.type?

/-- The type of a symbol, or a default type. -/
theorem getD_type? (alike : symbol.Alike types ids other) {type otherType : TypeId}
    (default : types type otherType) :
    types (symbol.type?.getD type) (other.type?.getD otherType) := by
  have related := alike.type?
  generalize symbol.type? = found at related ⊢
  generalize other.type? = otherFound at related ⊢
  cases related with
  | none => exact default
  | some type_alike => exact type_alike

/-- A symbol that is declared in alike symbols under numbers that belong together. -/
theorem located (alike : container.Alike types ids otherContainer) {id otherId : Nat}
    (idAlike : ids id otherId) (name : String) (location : Location) {data otherData : SymbolData}
    (dataAlike : data.Alike types ids otherData) :
    (Symbol.located id name container location data).Alike types ids
      (Symbol.located otherId name otherContainer location otherData) :=
  ⟨⟨idAlike, rfl, rfl, rfl, rfl, dataAlike⟩, .cons alike.declaration alike.containers⟩

theorem firstLocation? (alike : symbol.Alike types ids other) :
    symbol.firstLocation? = other.firstLocation? :=
  alike.declaration.firstLocation?

/-- The parameters of lambdas. -/
theorem parameters (alike : symbol.Alike types ids other) :
    List.Forall₂ (Symbol.Alike types ids) symbol.parameters other.parameters := by
  have dataAlike : symbol.data.Alike types ids other.data := alike.declaration.data
  rw [Symbol.parameters, Symbol.parameters]
  generalize symbol.data = data at dataAlike ⊢
  generalize other.data = otherData at dataAlike ⊢
  cases dataAlike with
  | lambda parameters_alike =>
      rw [List.forall₂_iff_get] at parameters_alike ⊢
      rcases parameters_alike with ⟨sameLength, each⟩
      refine ⟨by simpa using sameLength, fun index inLeft inRight => ?_⟩
      have own := each index (by simpa using inLeft) (by simpa using inRight)
      simp only [List.get_eq_getElem, List.getElem_mapIdx] at own ⊢
      rw [← own.name, ← own.location, ← own.refKind]
      exact alike.located own.id _ _ (.parameter own.type index _)
  | _ => exact .nil

end Symbol.Alike

/-! ### Equality -/

section Equality

variable (uniqueTypes : Relator.BiUnique types) (uniqueIds : Relator.BiUnique ids)

include uniqueTypes

theorem SymbolData.Alike.sameSignature_eq {data other second otherSecond : SymbolData}
    (alike : data.Alike types ids other) (seconds : second.Alike types ids otherSecond) :
    data.sameSignature second = other.sameSignature otherSecond := by
  have sameType {type other partner otherPartner : TypeId} (alike : types type partner)
      (otherAlike : types other otherPartner) : (type == other) = (partner == otherPartner) :=
    beq_eq_of_biUnique uniqueTypes alike otherAlike
  have byType : (data.kind == second.kind && data.type? == second.type?) =
      (other.kind == otherSecond.kind && other.type? == otherSecond.type?) := by
    rw [alike.kind, seconds.kind,
      beq_eq_of_biUnique (Option.Rel.biUnique uniqueTypes) alike.type? seconds.type?]
  cases alike with
  | method type_alike parameters_alike =>
      cases seconds with
      | method other_alike others_alike =>
          rw [sameSignature, sameSignature, sameType type_alike other_alike,
            beq_eq_of_biUnique uniqueTypes.forall₂ parameters_alike others_alike]
      | _ => exact byType
  | parameter type_alike =>
      cases seconds with
      | parameter other_alike => rw [sameSignature, sameSignature, sameType type_alike other_alike]
      | _ => exact byType
  | _ => cases seconds <;> exact byType

theorem SymbolData.Alike.sameOverload_eq {data other second otherSecond : SymbolData}
    (alike : data.Alike types ids other) (seconds : second.Alike types ids otherSecond) :
    data.sameOverload second = other.sameOverload otherSecond := by
  have sameSignature := alike.sameSignature_eq uniqueTypes seconds
  cases alike with
  | method type_alike parameters_alike =>
      cases seconds with
      | method other_alike others_alike =>
          exact beq_eq_of_biUnique uniqueTypes.forall₂ parameters_alike others_alike
      | _ => exact sameSignature
  | _ => cases seconds <;> exact sameSignature

theorem Declaration.Alike.agrees_eq {declaration other second otherSecond : Declaration}
    (alike : declaration.Alike types ids other) (seconds : second.Alike types ids otherSecond) :
    declaration.agrees second = other.agrees otherSecond := by
  rw [Declaration.agrees, Declaration.agrees, alike.kind, seconds.kind, alike.firstLocation?,
    seconds.firstLocation?, alike.name, seconds.name,
    alike.data.sameSignature_eq uniqueTypes seconds.data]

theorem Declaration.Alike.overlaps_eq {declaration other second otherSecond : Declaration}
    (alike : declaration.Alike types ids other) (seconds : second.Alike types ids otherSecond) :
    declaration.overlaps second = other.overlaps otherSecond := by
  rw [Declaration.overlaps, Declaration.overlaps, alike.kind, seconds.kind, alike.name,
    seconds.name, alike.data.sameOverload_eq uniqueTypes seconds.data]

theorem chainsAgree_eq {chain other second otherSecond : List Declaration}
    (alike : List.Forall₂ (Declaration.Alike types ids) chain other)
    (seconds : List.Forall₂ (Declaration.Alike types ids) second otherSecond) :
    chainsAgree chain second = chainsAgree other otherSecond := by
  induction alike generalizing second otherSecond with
  | nil => cases seconds <;> rfl
  | cons first _ ih =>
      cases seconds with
      | nil => rfl
      | cons firstSecond rest =>
          rw [chainsAgree, chainsAgree, first.agrees_eq uniqueTypes firstSecond, ih rest]

theorem chainsOverlap_eq {chain other second otherSecond : List Declaration}
    (alike : List.Forall₂ (Declaration.Alike types ids) chain other)
    (seconds : List.Forall₂ (Declaration.Alike types ids) second otherSecond) :
    chainsOverlap chain second = chainsOverlap other otherSecond := by
  induction alike generalizing second otherSecond with
  | nil => cases seconds <;> rfl
  | cons first rest ih =>
      cases seconds with
      | nil => rfl
      | cons firstSecond restSecond =>
          rw [chainsOverlap, chainsOverlap, first.kind, first.overlaps_eq uniqueTypes firstSecond,
            ih restSecond,
            chainsAgree_eq uniqueTypes (.cons first rest) (.cons firstSecond restSecond)]

include uniqueIds

/-- Whether two symbols are the same has the same answer on both sides. -/
theorem Symbol.Alike.sameSymbol_eq {symbol other second otherSecond : Symbol}
    (alike : symbol.Alike types ids other) (seconds : second.Alike types ids otherSecond) :
    symbol.sameSymbol second = other.sameSymbol otherSecond := by
  have equivalent : symbol.equivalent second = other.equivalent otherSecond :=
    chainsOverlap_eq uniqueTypes (.cons alike.declaration alike.containers)
      (.cons seconds.declaration seconds.containers)
  rw [Symbol.sameSymbol, Symbol.sameSymbol, alike.kind, equivalent,
    beq_eq_of_biUnique (Symbol.Alike.biUnique uniqueTypes uniqueIds) alike seconds]

end Equality

end QueryLang
