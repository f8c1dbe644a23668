import QueryLang.Symbol.Equality

/-!
# Symbols as keys

Each of the three relations between symbols comes with a hash of its own, and what a hash is fed
depends on the kinds along the chain: from the first declaration that is told apart by place on,
all three are fed what the strictest one is. A relation can key a table when it is an equivalence
and equal symbols are fed alike. The relations between single declarations come first, then the
chains, by induction on the chain, then the symbols.
-/

namespace QueryLang

/-! ### Declarations on their own -/

namespace SymbolData

theorem sameSignature_refl (data : SymbolData) : data.sameSignature data := by
  cases data <;> simp [sameSignature]

theorem sameOverload_refl (data : SymbolData) : data.sameOverload data := by
  cases data <;> simp [sameOverload, sameSignature_refl]

theorem sameSignature_symm {data other : SymbolData} (same : data.sameSignature other) :
    other.sameSignature data := by
  cases data <;> cases other <;> simp_all [sameSignature, kind, type?]

theorem sameOverload_symm {data other : SymbolData} (same : data.sameOverload other) :
    other.sameOverload data := by
  cases data <;> cases other <;> simp_all [sameOverload, sameSignature, kind, type?]

theorem sameSignature_trans {data middle other : SymbolData} (first : data.sameSignature middle)
    (second : middle.sameSignature other) : data.sameSignature other := by
  cases data <;> cases middle <;> simp [sameSignature, kind, type?] at first <;>
    cases other <;> simp_all [sameSignature, kind, type?]

theorem sameOverload_trans {data middle other : SymbolData} (first : data.sameOverload middle)
    (second : middle.sameOverload other) : data.sameOverload other := by
  cases data <;> cases middle <;> simp [sameOverload, sameSignature, kind, type?] at first <;>
    cases other <;> simp_all [sameOverload, sameSignature, kind, type?]

/-- Overloads differ by their parameters only, so signatures that agree are never overloads. -/
theorem sameOverload_of_sameSignature {data other : SymbolData} (same : data.sameSignature other) :
    data.sameOverload other := by
  cases data <;> cases other <;> simp_all [sameOverload, sameSignature, kind, type?]

end SymbolData

namespace Declaration

variable {declaration middle other : Declaration}

theorem kind_of_agrees (agree : declaration.agrees other) : declaration.kind = other.kind := by
  simp only [agrees, Bool.and_eq_true, beq_iff_eq] at agree
  exact agree.1

theorem kind_of_overlaps (overlap : declaration.overlaps other) :
    declaration.kind = other.kind := by
  simp only [overlaps, Bool.and_eq_true, beq_iff_eq] at overlap
  exact overlap.1.1

theorem agrees_iff_of_isPlaced (placed : declaration.kind.isPlaced) :
    declaration.agrees other ↔
      declaration.kind = other.kind ∧ declaration.firstLocation? = other.firstLocation? := by
  simp [agrees, placed]

theorem agrees_iff_of_not_isPlaced (notPlaced : declaration.kind.isPlaced = false) :
    declaration.agrees other ↔
      declaration.kind = other.kind ∧ declaration.name = other.name ∧
        declaration.data.sameSignature other.data := by
  simp [agrees, notPlaced]

theorem overlaps_iff : declaration.overlaps other ↔
    declaration.kind = other.kind ∧ declaration.name = other.name ∧
      declaration.data.sameOverload other.data := by
  simp [overlaps, and_assoc]

theorem agrees_refl (declaration : Declaration) : declaration.agrees declaration := by
  cases placed : declaration.kind.isPlaced with
  | true => exact (agrees_iff_of_isPlaced placed).mpr ⟨rfl, rfl⟩
  | false =>
    exact (agrees_iff_of_not_isPlaced placed).mpr
      ⟨rfl, rfl, SymbolData.sameSignature_refl declaration.data⟩

theorem agrees_symm (agree : declaration.agrees other) : other.agrees declaration := by
  have sameKind := kind_of_agrees agree
  cases placed : declaration.kind.isPlaced with
  | true =>
    obtain ⟨-, location⟩ := (agrees_iff_of_isPlaced placed).mp agree
    exact (agrees_iff_of_isPlaced (sameKind ▸ placed)).mpr ⟨sameKind.symm, location.symm⟩
  | false =>
    obtain ⟨-, name, signature⟩ := (agrees_iff_of_not_isPlaced placed).mp agree
    exact (agrees_iff_of_not_isPlaced (sameKind ▸ placed)).mpr
      ⟨sameKind.symm, name.symm, SymbolData.sameSignature_symm signature⟩

theorem agrees_trans (first : declaration.agrees middle) (second : middle.agrees other) :
    declaration.agrees other := by
  have sameKind := kind_of_agrees first
  cases placed : declaration.kind.isPlaced with
  | true =>
    obtain ⟨-, location⟩ := (agrees_iff_of_isPlaced placed).mp first
    obtain ⟨nextKind, nextLocation⟩ := (agrees_iff_of_isPlaced (sameKind ▸ placed)).mp second
    exact (agrees_iff_of_isPlaced placed).mpr
      ⟨sameKind.trans nextKind, location.trans nextLocation⟩
  | false =>
    obtain ⟨-, name, signature⟩ := (agrees_iff_of_not_isPlaced placed).mp first
    obtain ⟨nextKind, nextName, nextSignature⟩ :=
      (agrees_iff_of_not_isPlaced (sameKind ▸ placed)).mp second
    exact (agrees_iff_of_not_isPlaced placed).mpr
      ⟨sameKind.trans nextKind, name.trans nextName,
        SymbolData.sameSignature_trans signature nextSignature⟩

theorem overlaps_refl (declaration : Declaration) : declaration.overlaps declaration :=
  overlaps_iff.mpr ⟨rfl, rfl, SymbolData.sameOverload_refl declaration.data⟩

theorem overlaps_symm (overlap : declaration.overlaps other) : other.overlaps declaration := by
  obtain ⟨kind, name, overload⟩ := overlaps_iff.mp overlap
  exact overlaps_iff.mpr ⟨kind.symm, name.symm, SymbolData.sameOverload_symm overload⟩

theorem overlaps_trans (first : declaration.overlaps middle) (second : middle.overlaps other) :
    declaration.overlaps other := by
  obtain ⟨kind, name, overload⟩ := overlaps_iff.mp first
  obtain ⟨nextKind, nextName, nextOverload⟩ := overlaps_iff.mp second
  exact overlaps_iff.mpr
    ⟨kind.trans nextKind, name.trans nextName, SymbolData.sameOverload_trans overload nextOverload⟩

/-- Where place does not count, declarations that agree overlap. -/
theorem overlaps_of_agrees (notPlaced : declaration.kind.isPlaced = false)
    (agree : declaration.agrees other) : declaration.overlaps other := by
  obtain ⟨kind, name, signature⟩ := (agrees_iff_of_not_isPlaced notPlaced).mp agree
  exact overlaps_iff.mpr ⟨kind, name, SymbolData.sameOverload_of_sameSignature signature⟩

theorem trait_of_agrees (agree : declaration.agrees other) :
    declaration.trait = other.trait := by
  have sameKind := kind_of_agrees agree
  cases placed : declaration.kind.isPlaced with
  | true =>
    obtain ⟨-, location⟩ := (agrees_iff_of_isPlaced placed).mp agree
    simp [trait, ← sameKind, placed, location]
  | false =>
    obtain ⟨-, name, -⟩ := (agrees_iff_of_not_isPlaced placed).mp agree
    simp [trait, ← sameKind, placed, name]

/-- The trait of a declaration that is not told apart by place has no more than kind and name. -/
theorem trait_of_overlaps (notPlaced : declaration.kind.isPlaced = false)
    (overlap : declaration.overlaps other) : declaration.trait = other.trait := by
  obtain ⟨sameKind, name, -⟩ := overlaps_iff.mp overlap
  simp [trait, ← sameKind, notPlaced, name]

end Declaration

/-! ### Chains of declarations -/

section Chains

variable {chain middle other : List Declaration}

theorem chainsAgree_refl (chain : List Declaration) : chainsAgree chain chain := by
  induction chain with
  | nil => rfl
  | cons declaration rest ih => simp [chainsAgree, Declaration.agrees_refl, ih]

theorem chainsAgree_symm (agree : chainsAgree chain other) : chainsAgree other chain := by
  induction chain generalizing other with
  | nil => cases other <;> simp_all [chainsAgree]
  | cons declaration rest ih =>
    cases other with
    | nil => simp [chainsAgree] at agree
    | cons otherDeclaration otherRest =>
      simp only [chainsAgree, Bool.and_eq_true] at agree ⊢
      exact ⟨Declaration.agrees_symm agree.1, ih agree.2⟩

theorem chainsAgree_trans (first : chainsAgree chain middle) (second : chainsAgree middle other) :
    chainsAgree chain other := by
  induction chain generalizing middle other with
  | nil => cases middle <;> simp_all [chainsAgree]
  | cons declaration rest ih =>
    cases middle with
    | nil => simp [chainsAgree] at first
    | cons middleDeclaration middleRest =>
      cases other with
      | nil => simp [chainsAgree] at second
      | cons otherDeclaration otherRest =>
        simp only [chainsAgree, Bool.and_eq_true] at first second ⊢
        exact ⟨Declaration.agrees_trans first.1 second.1, ih first.2 second.2⟩

theorem chainsOverlap_refl (chain : List Declaration) : chainsOverlap chain chain := by
  induction chain with
  | nil => rfl
  | cons declaration rest ih =>
    simp [chainsOverlap, chainsAgree_refl, Declaration.overlaps_refl, ih]

theorem chainsOverlap_cons {declaration otherDeclaration : Declaration}
    {rest otherRest : List Declaration} (notPlaced : declaration.kind.isPlaced = false) :
    chainsOverlap (declaration :: rest) (otherDeclaration :: otherRest) ↔
      declaration.overlaps otherDeclaration ∧ chainsOverlap rest otherRest := by
  simp [chainsOverlap, notPlaced]

theorem chainsOverlap_cons_of_isPlaced {declaration : Declaration} {rest : List Declaration}
    (placed : declaration.kind.isPlaced) :
    chainsOverlap (declaration :: rest) other ↔ chainsAgree (declaration :: rest) other := by
  cases other <;> simp [chainsOverlap, chainsAgree, placed]

theorem head_kind_of_chainsAgree {declaration otherDeclaration : Declaration}
    {rest otherRest : List Declaration}
    (agree : chainsAgree (declaration :: rest) (otherDeclaration :: otherRest)) :
    declaration.kind = otherDeclaration.kind := by
  simp only [chainsAgree, Bool.and_eq_true] at agree
  exact Declaration.kind_of_agrees agree.1

theorem chainsOverlap_symm (overlap : chainsOverlap chain other) : chainsOverlap other chain := by
  induction chain generalizing other with
  | nil => cases other <;> simp_all [chainsOverlap]
  | cons declaration rest ih =>
    cases other with
    | nil => simp [chainsOverlap] at overlap
    | cons otherDeclaration otherRest =>
      cases placed : declaration.kind.isPlaced with
      | true =>
        -- The heads have one kind, so the chains have to agree from the other side as well.
        have agree := (chainsOverlap_cons_of_isPlaced placed).mp overlap
        have otherPlaced := head_kind_of_chainsAgree agree ▸ placed
        exact (chainsOverlap_cons_of_isPlaced otherPlaced).mpr (chainsAgree_symm agree)
      | false =>
        obtain ⟨heads, rests⟩ := (chainsOverlap_cons placed).mp overlap
        have otherPlaced := Declaration.kind_of_overlaps heads ▸ placed
        exact (chainsOverlap_cons otherPlaced).mpr ⟨Declaration.overlaps_symm heads, ih rests⟩

theorem chainsOverlap_trans (first : chainsOverlap chain middle)
    (second : chainsOverlap middle other) : chainsOverlap chain other := by
  induction chain generalizing middle other with
  | nil => cases middle <;> simp_all [chainsOverlap]
  | cons declaration rest ih =>
    cases middle with
    | nil => simp [chainsOverlap] at first
    | cons middleDeclaration middleRest =>
      cases other with
      | nil => simp [chainsOverlap] at second
      | cons otherDeclaration otherRest =>
        cases placed : declaration.kind.isPlaced with
        | true =>
          have agree := (chainsOverlap_cons_of_isPlaced placed).mp first
          have middlePlaced := head_kind_of_chainsAgree agree ▸ placed
          have nextAgree := (chainsOverlap_cons_of_isPlaced middlePlaced).mp second
          exact (chainsOverlap_cons_of_isPlaced placed).mpr (chainsAgree_trans agree nextAgree)
        | false =>
          obtain ⟨heads, rests⟩ := (chainsOverlap_cons placed).mp first
          have middlePlaced := Declaration.kind_of_overlaps heads ▸ placed
          obtain ⟨nextHeads, nextRests⟩ := (chainsOverlap_cons middlePlaced).mp second
          exact (chainsOverlap_cons placed).mpr
            ⟨Declaration.overlaps_trans heads nextHeads, ih rests nextRests⟩

theorem chainsOverlap_of_chainsAgree (agree : chainsAgree chain other) :
    chainsOverlap chain other := by
  induction chain generalizing other with
  | nil => cases other <;> simp_all [chainsAgree, chainsOverlap]
  | cons declaration rest ih =>
    cases other with
    | nil => simp [chainsAgree] at agree
    | cons otherDeclaration otherRest =>
      cases placed : declaration.kind.isPlaced with
      | true => exact (chainsOverlap_cons_of_isPlaced placed).mpr agree
      | false =>
        simp only [chainsAgree, Bool.and_eq_true] at agree
        exact (chainsOverlap_cons placed).mpr
          ⟨Declaration.overlaps_of_agrees placed agree.1, ih agree.2⟩

/-! ### What the hashes are fed -/

/-- What the hash of a declaration in its containers is fed, from the innermost out. -/
def agreementFeed : List Declaration → List Trait
  | [] => []
  | declaration :: rest => declaration.trait :: agreementFeed rest

/-- What the hash for overlapping is fed: kinds and names, up to the first declaration that is told
apart by place. From there on it is fed what the other hash is. -/
def overlapFeed : List Declaration → List Trait
  | [] => []
  | declaration :: rest =>
    if declaration.kind.isPlaced then
      agreementFeed (declaration :: rest)
    else
      .named declaration.kind declaration.name :: overlapFeed rest

theorem agreementFeed_eq (chain : List Declaration) :
    agreementFeed chain = chain.map Declaration.trait := by
  induction chain with
  | nil => rfl
  | cons declaration rest ih => simp [agreementFeed, ih]

theorem overlapFeed_eq (chain : List Declaration) :
    overlapFeed chain = chain.map Declaration.trait := by
  induction chain with
  | nil => rfl
  | cons declaration rest ih =>
    cases placed : declaration.kind.isPlaced with
    | true => simp [overlapFeed, placed, agreementFeed_eq]
    | false => simp [overlapFeed, placed, Declaration.trait, ih]

theorem traits_of_chainsAgree (agree : chainsAgree chain other) :
    chain.map Declaration.trait = other.map Declaration.trait := by
  induction chain generalizing other with
  | nil => cases other <;> simp_all [chainsAgree]
  | cons declaration rest ih =>
    cases other with
    | nil => simp [chainsAgree] at agree
    | cons otherDeclaration otherRest =>
      simp only [chainsAgree, Bool.and_eq_true] at agree
      simp [Declaration.trait_of_agrees agree.1, ih agree.2]

theorem traits_of_chainsOverlap (overlap : chainsOverlap chain other) :
    chain.map Declaration.trait = other.map Declaration.trait := by
  induction chain generalizing other with
  | nil => cases other <;> simp_all [chainsOverlap]
  | cons declaration rest ih =>
    cases other with
    | nil => simp [chainsOverlap] at overlap
    | cons otherDeclaration otherRest =>
      cases placed : declaration.kind.isPlaced with
      | true => exact traits_of_chainsAgree ((chainsOverlap_cons_of_isPlaced placed).mp overlap)
      | false =>
        obtain ⟨heads, rests⟩ := (chainsOverlap_cons placed).mp overlap
        simp [Declaration.trait_of_overlaps placed heads, ih rests]

end Chains

/-! ### Symbols -/

namespace Symbol

variable {symbol other : Symbol}

/-- What the hash of a symbol is fed by itself. -/
def declarationFeed (symbol : Symbol) : List Trait := agreementFeed symbol.chain

/-- What the hash of a symbol is fed where symbols are compared by `equivalent`. -/
def equivalenceFeed (symbol : Symbol) : List Trait := overlapFeed symbol.chain

/-- What the hash of a symbol is fed where symbols are compared by `sameSymbol`. -/
def keyFeed (symbol : Symbol) : List Trait :=
  if symbol.kind.usesIdentity then symbol.declarationFeed else symbol.equivalenceFeed

/-- A fingerprint is what each of the three hashes is fed. -/
theorem feeds_eq_fingerprint (symbol : Symbol) :
    symbol.declarationFeed = symbol.fingerprint ∧ symbol.equivalenceFeed = symbol.fingerprint ∧
      symbol.keyFeed = symbol.fingerprint := by
  have declaration : symbol.declarationFeed = symbol.fingerprint := agreementFeed_eq symbol.chain
  have equivalence : symbol.equivalenceFeed = symbol.fingerprint := overlapFeed_eq symbol.chain
  refine ⟨declaration, equivalence, ?_⟩
  unfold keyFeed
  split
  · exact declaration
  · exact equivalence

theorem equivalent_of_declaresSame (same : symbol.declaresSame other) :
    symbol.equivalent other :=
  chainsOverlap_of_chainsAgree same

theorem kind_of_equivalent (same : symbol.equivalent other) : symbol.kind = other.kind := by
  cases placed : symbol.kind.isPlaced with
  | true => exact head_kind_of_chainsAgree ((chainsOverlap_cons_of_isPlaced placed).mp same)
  | false => exact Declaration.kind_of_overlaps ((chainsOverlap_cons placed).mp same).1

theorem sameSymbol_iff_of_usesIdentity (identity : symbol.kind.usesIdentity) :
    symbol.sameSymbol other ↔ symbol = other := by
  simp [sameSymbol, identity]

theorem sameSymbol_iff_of_not_usesIdentity (structural : symbol.kind.usesIdentity = false) :
    symbol.sameSymbol other ↔ symbol.equivalent other := by
  simp [sameSymbol, structural]

theorem equivalent_of_sameSymbol (same : symbol.sameSymbol other) : symbol.equivalent other := by
  cases identity : symbol.kind.usesIdentity with
  | true =>
    rw [(sameSymbol_iff_of_usesIdentity identity).mp same]
    exact chainsOverlap_refl other.chain
  | false => exact (sameSymbol_iff_of_not_usesIdentity identity).mp same

theorem declaresSame_equivalence : Equivalence fun symbol other : Symbol =>
    symbol.declaresSame other where
  refl symbol := chainsAgree_refl symbol.chain
  symm := chainsAgree_symm
  trans := chainsAgree_trans

theorem equivalent_equivalence : Equivalence fun symbol other : Symbol =>
    symbol.equivalent other where
  refl symbol := chainsOverlap_refl symbol.chain
  symm := chainsOverlap_symm
  trans := chainsOverlap_trans

theorem sameSymbol_refl (symbol : Symbol) : symbol.sameSymbol symbol := by
  cases identity : symbol.kind.usesIdentity with
  | true => exact (sameSymbol_iff_of_usesIdentity identity).mpr rfl
  | false =>
    exact (sameSymbol_iff_of_not_usesIdentity identity).mpr (equivalent_equivalence.refl symbol)

theorem sameSymbol_symm (same : symbol.sameSymbol other) : other.sameSymbol symbol := by
  have sameKind := kind_of_equivalent (equivalent_of_sameSymbol same)
  cases identity : symbol.kind.usesIdentity with
  | true =>
    rw [(sameSymbol_iff_of_usesIdentity identity).mp same]
    exact sameSymbol_refl other
  | false =>
    have equivalent := (sameSymbol_iff_of_not_usesIdentity identity).mp same
    exact (sameSymbol_iff_of_not_usesIdentity (sameKind ▸ identity)).mpr
      (equivalent_equivalence.symm equivalent)

theorem sameSymbol_trans {middle : Symbol} (first : symbol.sameSymbol middle)
    (second : middle.sameSymbol other) : symbol.sameSymbol other := by
  cases identity : symbol.kind.usesIdentity with
  | true =>
    rw [(sameSymbol_iff_of_usesIdentity identity).mp first]
    exact second
  | false =>
    exact (sameSymbol_iff_of_not_usesIdentity identity).mpr
      (equivalent_equivalence.trans (equivalent_of_sameSymbol first)
        (equivalent_of_sameSymbol second))

theorem sameSymbol_equivalence : Equivalence fun symbol other : Symbol =>
    symbol.sameSymbol other :=
  ⟨sameSymbol_refl, sameSymbol_symm, sameSymbol_trans⟩

theorem fingerprint_of_equivalent (same : symbol.equivalent other) :
    symbol.fingerprint = other.fingerprint :=
  traits_of_chainsOverlap same

/-- A relation that can key a table that hashes `feed`: an equivalence under which equal symbols
are fed alike. -/
structure Keys (same : Symbol → Symbol → Bool) (feed : Symbol → List Trait) : Prop where
  equivalence : Equivalence fun symbol other => same symbol other
  sameFeed : ∀ symbol other, same symbol other → feed symbol = feed other

theorem Keys.of_le_equivalent {same : Symbol → Symbol → Bool} {feed : Symbol → List Trait}
    (equivalence : Equivalence fun symbol other : Symbol => (same symbol other : Prop))
    (loosest : ∀ symbol other, same symbol other → symbol.equivalent other)
    (feeds : ∀ symbol, feed symbol = symbol.fingerprint) : Keys same feed where
  equivalence := equivalence
  sameFeed symbol other related := by
    rw [feeds, feeds]
    exact fingerprint_of_equivalent (loosest symbol other related)

/-- Each of the three relations between symbols can key a table with its own hash, and
`equivalent` is the loosest of them. -/
theorem relations_key_tables :
    Keys declaresSame declarationFeed ∧ Keys equivalent equivalenceFeed ∧
      Keys sameSymbol keyFeed ∧
      (∀ symbol other : Symbol, symbol.declaresSame other → symbol.equivalent other) ∧
      (∀ symbol other : Symbol, symbol.sameSymbol other → symbol.equivalent other) := by
  have declares : ∀ symbol other : Symbol, symbol.declaresSame other → symbol.equivalent other :=
    fun _ _ => equivalent_of_declaresSame
  have means : ∀ symbol other : Symbol, symbol.sameSymbol other → symbol.equivalent other :=
    fun _ _ => equivalent_of_sameSymbol
  refine ⟨?declaresSame, ?equivalent, ?sameSymbol, declares, means⟩
  case declaresSame =>
    exact Keys.of_le_equivalent declaresSame_equivalence declares fun symbol =>
      (feeds_eq_fingerprint symbol).1
  case equivalent =>
    exact Keys.of_le_equivalent equivalent_equivalence (fun _ _ same => same) fun symbol =>
      (feeds_eq_fingerprint symbol).2.1
  case sameSymbol =>
    exact Keys.of_le_equivalent sameSymbol_equivalence means fun symbol =>
      (feeds_eq_fingerprint symbol).2.2

end Symbol

end QueryLang
