import QueryLang.Editor.References
import QueryLang.Proofs.Binding.Statement
import QueryLang.Proofs.Lists

/-!
# Questions about bound files

A bound file that can be relied on answers every question: which symbol stands at a position,
what to show about it, and where else it stands.
-/

namespace QueryLang

variable {tree : SyntaxTree} {table : TypeTable} {calm damaged : Prop}

/-! ### The symbols of a bound tree -/

theorem BoundClause.AllReliable.symbol {clauses : List BoundClause}
    (reliable : BoundClause.AllReliable tree table calm clauses) :
    ∀ symbol ∈ clauses.filterMap BoundClause.symbol?, symbol.Reliable table calm := by
  induction clauses with
  | nil => simp
  | cons clause rest ih =>
      intro symbol member
      rcases List.mem_filterMap.mp member with ⟨own, inClauses, isSymbol⟩
      rcases List.mem_cons.mp inClauses with rfl | inRest
      · have ownReliable := reliable.1
        cases own with
        | fromClause node found source | letClause node found source =>
            exact ownReliable.1 symbol isSymbol
        | whereClause node condition | selectClause node selected | groupClause node element key =>
            cases isSymbol
      · exact ih reliable.2 symbol (List.mem_filterMap.mpr ⟨own, inRest, isSymbol⟩)

namespace BoundPart

variable {part : BoundPart}

theorem Reliable.declared (reliable : part.Reliable tree table calm) :
    ∀ symbol ∈ part.declared, symbol.Reliable table calm := by
  cases part with
  | block node => simp [BoundPart.declared]
  | statement statement =>
      cases statement with
      | localDeclaration node found value =>
          cases found with
          | none => simp [BoundPart.declared]
          | some symbol => simpa [BoundPart.declared] using reliable.1
      | _ => simp [BoundPart.declared]
  | expression expr =>
      cases expr with
      | query node clauses conclusion type =>
          refine List.forall_mem_append.mpr ⟨BoundClause.AllReliable.symbol reliable.1, ?_⟩
          cases conclusion with
          | absent => simp [BoundConclusion.symbol?]
          | present node symbol type lambda bodyNode value diagnostics =>
              simpa [BoundConclusion.symbol?] using reliable.2.1.1
      | _ => simp [BoundPart.declared]

theorem Reliable.reference (reliable : part.Reliable tree table calm) :
    ∀ reference ∈ part.reference?, tree.HasNode reference.1 ∧
      reference.2.Reliable table calm := by
  cases part with
  | block node | statement statement => simp [reference?]
  | expression expr =>
      cases expr with
      | localVariable node symbol type | field node symbol type | rangeVariable node symbol type =>
          simpa [reference?, BoundExpr.symbol?, BoundExpr.node] using
            ⟨reliable.1, reliable.2.1⟩
      | parameter reference =>
          simpa [reference?, BoundExpr.symbol?, BoundExpr.node] using
            ⟨reliable.node, reliable.parameter⟩
      | conclusionVariable symbol reference =>
          simpa [reference?, BoundExpr.symbol?, BoundExpr.node] using
            ⟨reliable.2.node, reliable.1⟩
      | _ => simp [reference?, BoundExpr.symbol?]

theorem Reliable.conclusionType (reliable : part.Reliable tree table calm) :
    ∀ found ∈ part.conclusionType?, table.Has calm found.2 := by
  cases part with
  | block node | statement statement => simp [conclusionType?]
  | expression expr =>
      cases expr with
      | conclusionVariable symbol reference => simpa [conclusionType?] using reliable.2.type
      | query node clauses conclusion type =>
          cases conclusion with
          | absent => simp [conclusionType?]
          | present node symbol type lambda bodyNode value diagnostics =>
              simpa [conclusionType?] using reliable.2.1.2.1
      | _ => simp [conclusionType?]

end BoundPart

/-- A symbol that can be relied on has a text. -/
theorem Symbol.display_gives {symbol : Symbol} (sound : table.Sound)
    (reliable : symbol.Reliable table calm) {known : Option TypeId}
    (knownHas : ∀ type ∈ known, table.Has calm type) :
    (symbol.display table known).Gives fun _ => True := by
  have text {type : TypeId} (member : type ∈ symbol.data.types) :
      (table.display type).Gives fun _ => True :=
    sound.display_gives (reliable type member).1
  have variableText (word : String) :
      (symbol.displayVariable table known word).Gives fun _ => True := by
    unfold Symbol.displayVariable
    split
    · next type isType =>
        have has : table.Has calm type := by
          rcases Option.or_eq_some_iff.mp isType with own | ⟨_, isKnown⟩
          · exact reliable type (SymbolData.mem_types own)
          · exact knownHas type isKnown
        exact (sound.display_gives has.1).bind fun _ _ => .pure trivial
    · exact .pure trivial
  unfold Symbol.display
  cases dataEq : symbol.data with
  | «namespace» | namedType type | lambda parameters | label => exact .pure trivial
  | method returnType parameterTypes =>
      rw [dataEq] at text
      refine Checked.Gives.bind (.mapM fun type member =>
        text (List.mem_cons_of_mem _ member)) fun parameters _ => ?_
      exact (text (List.mem_cons_self ..)).bind fun result _ => .pure trivial
  | field type | property type =>
      rw [dataEq] at text
      exact (text (List.mem_singleton_self type)).bind fun typeText _ => .pure trivial
  | parameter type ordinal refKind => exact variableText _
  | localVariable type => exact variableText _
  | rangeVariable type => exact variableText _
  | queryConclusionVariable => exact variableText _

namespace BoundUnit

/-- Every part of a bound file can be relied on. -/
def Reliable (unit : BoundUnit) (tree : SyntaxTree) (table : TypeTable) (calm : Prop) : Prop :=
  ∀ part ∈ unit.parts, part.Reliable tree table calm

variable {unit : BoundUnit} (reliable : unit.Reliable tree table calm)

include reliable

theorem Reliable.declaration : ∀ symbol ∈ unit.declarations, symbol.Reliable table calm := by
  intro symbol member
  rcases List.mem_flatMap.mp member with ⟨part, inUnit, isDeclared⟩
  exact (reliable part inUnit).declared symbol isDeclared

theorem Reliable.reference : ∀ reference ∈ unit.references,
    tree.HasNode reference.1 ∧ reference.2.Reliable table calm := by
  intro reference member
  rcases List.mem_filterMap.mp member with ⟨part, inUnit, isReference⟩
  exact (reliable part inUnit).reference reference isReference

theorem Reliable.symbolType {symbol : Symbol} (symbolReliable : symbol.Reliable table calm) :
    ∀ type ∈ unit.symbolType? symbol, table.Has calm type := by
  intro type isType
  unfold symbolType? at isType
  split at isType
  · next own isOwn =>
      rw [← Option.some.inj isType]
      exact symbolReliable own (SymbolData.mem_types isOwn)
  · rcases Option.map_eq_some_iff.mp isType with ⟨found, isFound, rfl⟩
    rcases List.mem_filterMap.mp (List.mem_of_find?_eq_some isFound) with
      ⟨part, inUnit, isConclusion⟩
    exact (reliable part inUnit).conclusionType found isConclusion

end BoundUnit

/-! ### Answers -/

namespace SemanticModel

variable {model : SemanticModel} {unit : BoundUnit} {position : Nat}

theorem isIdentifierAt_gives (wellFormed : model.tree.WellFormed damaged) {id : Nat}
    (inRange : id < model.tree.tokens.size) :
    (model.isIdentifierAt position id).Gives fun _ => True := by
  rcases SyntaxTree.token_eq_ok inRange with ⟨token, found, tokenEq⟩
  rw [isIdentifierAt, tokenEq, Checked.ok_bind]
  split
  · exact wellFormed.touches_gives found position
  · exact .pure trivial

theorem identifierAt?_gives (wellFormed : model.tree.WellFormed damaged) :
    (model.identifierAt? position).Gives model.tree.HasToken := by
  refine Checked.Gives.bind (wellFormed.findToken_gives position) fun token inRange => ?_
  refine Checked.Gives.bind (wellFormed.tokenLeftOf?_gives position) fun left leftInTree => ?_
  refine (isIdentifierAt_gives wellFormed inRange).bind fun isHere _ => ?_
  split
  · refine .pure ?_
    rintro _ ⟨⟩
    exact inRange
  · cases left with
    | none => exact .pure (by rintro _ ⟨⟩)
    | some left =>
        refine (isIdentifierAt_gives wellFormed (leftInTree left rfl)).bind fun isLeft _ => ?_
        split
        · exact .pure leftInTree
        · exact .pure (by rintro _ ⟨⟩)

variable (model) (position)

theorem symbolAt?_gives (wellFormed : model.tree.WellFormed damaged)
    (reliable : unit.Reliable model.tree table calm) :
    (model.symbolAt? unit position).Gives fun found =>
      ∀ symbol ∈ found, symbol.Reliable table calm := by
  refine (identifierAt?_gives wellFormed).bind fun identifier inTree => ?_
  cases identifier with
  | none => exact .pure (by simp)
  | some id =>
      rcases SyntaxTree.token_eq_ok (inTree id rfl) with ⟨token, _, tokenEq⟩
      simp only [tokenEq, Checked.ok_bind]
      refine .pure fun symbol isFound => ?_
      rcases Option.or_eq_some_iff.mp isFound with isDeclared | ⟨_, isReferenced⟩
      · exact reliable.declaration symbol (List.mem_of_find?_eq_some isDeclared)
      · exact (reliable.reference (token.parent, symbol) (mem_of_lookup_eq_some isReferenced)).2

theorem referenceSpans_gives (reliable : unit.Reliable model.tree table calm) (symbol : Symbol) :
    (model.referenceSpans unit symbol).Gives fun _ => True := by
  have spanGives : ∀ reference ∈ unit.references.filter (·.2.sameSymbol symbol),
      (model.tree.span reference.1).Gives fun _ => True := by
    intro reference member
    have isNode := (reliable.reference reference (List.mem_of_mem_filter member)).1
    rcases SyntaxTree.WellFormed.nodeOf_eq_ok isNode with ⟨node, _, nodeEq⟩
    rw [SyntaxTree.span, nodeEq]
    exact .pure trivial
  exact (Checked.Gives.mapM spanGives).bind fun spans _ => .pure trivial

theorem hover?_gives (sound : table.Sound) (wellFormed : model.tree.WellFormed damaged)
    (reliable : unit.Reliable model.tree table calm) :
    (model.hover? unit table position).Gives fun _ => True := by
  refine (model.symbolAt?_gives position wellFormed reliable).bind fun found isReliable => ?_
  cases found with
  | none => exact .pure trivial
  | some symbol =>
      have symbolReliable := isReliable symbol rfl
      exact (symbol.display_gives sound symbolReliable (reliable.symbolType symbolReliable)).bind
        fun contents _ => .pure trivial

theorem highlights_gives (wellFormed : model.tree.WellFormed damaged)
    (reliable : unit.Reliable model.tree table calm) :
    (model.highlights unit position).Gives fun _ => True := by
  refine (model.symbolAt?_gives position wellFormed reliable).bind fun found _ => ?_
  cases found with
  | none => exact .pure trivial
  | some symbol =>
      exact (model.referenceSpans_gives reliable symbol).bind fun spans _ => .pure trivial

end SemanticModel

end QueryLang
