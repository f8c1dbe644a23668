import QueryLang.Proofs.Bound.Reliable
import QueryLang.Proofs.Lookup.Scope
import QueryLang.Binding.Expression

/-!
# Binding names

What scopes have to provide so that names can be bound, and what a bound name then is. An answer
that is no good is reported, so a name is bad only when the calm is over.
-/

namespace QueryLang

/-- The scope of a conclusion can be relied on: its variable has one parameter. -/
structure ConclusionScope.Reliable (scope : ConclusionScope) (table : TypeTable) (calm : Prop) :
    Prop where
  type : table.Has calm scope.type
  parameter : ∃ parameter, scope.parameterOf scope.symbol = .ok parameter ∧
    parameter.Reliable table calm

/-- A scope can be relied on. What can be called in it has a type. -/
def Scope.Reliable (table : TypeTable) (calm : Prop) : Scope → Prop
  | .global symbols | .locals symbols =>
    ∀ symbol ∈ symbols, symbol.Reliable table calm ∧ symbol.kind ≠ .lambda
  | .rangeVariable symbol _ => symbol.Reliable table calm
  | .conclusion scope => scope.Reliable table calm

/-- A binder can be relied on, and its request is not cancelled. -/
structure Binder.Reliable (binder : Binder) (table : TypeTable) (calm : Prop) : Prop where
  live : binder.isCancelled = false
  scopes : ∀ scope ∈ binder.scopes, scope.Reliable table calm

/-- The nodes of the conclusions among the parts of a bound tree, in order. -/
def lambdaNodes (parts : List BoundPart) : List NodeId :=
  parts.filterMap fun part => part.lambda?.map BoundConclusionLambda.node

@[simp]
theorem lambdaNodes_nil : lambdaNodes [] = [] := rfl

@[simp]
theorem lambdaNodes_append (left right : List BoundPart) :
    lambdaNodes (left ++ right) = lambdaNodes left ++ lambdaNodes right :=
  List.filterMap_append

section

variable {table later : TypeTable} {calm calmer : Prop} {tree : SyntaxTree} {symbol : Symbol}

theorem Scope.Reliable.advance {scope : Scope} (reliable : scope.Reliable table calm)
    (advance : table.Advance calm later calmer) : scope.Reliable later calmer := by
  cases scope with
  | global symbols | locals symbols =>
      exact fun symbol member =>
        ⟨(reliable symbol member).1.advance advance, (reliable symbol member).2⟩
  | rangeVariable symbol kind => exact Symbol.Reliable.advance reliable advance
  | conclusion scope =>
      rcases reliable with ⟨type, parameter, parameterEq, isReliable⟩
      exact ⟨advance.has type, parameter, parameterEq, isReliable.advance advance⟩

theorem Binder.Reliable.advance {binder : Binder} (reliable : binder.Reliable table calm)
    (advance : table.Advance calm later calmer) : binder.Reliable later calmer :=
  ⟨reliable.live, fun scope member => (reliable.scopes scope member).advance advance⟩

theorem Binder.Reliable.push {binder : Binder} (reliable : binder.Reliable table calm)
    {scope : Scope} (isReliable : scope.Reliable table calm) :
    (binder.push scope).Reliable table calm :=
  ⟨reliable.live, List.forall_mem_cons.mpr ⟨isReliable, reliable.scopes⟩⟩

/-! ### Symbols by kind -/

theorem Symbol.kind_eq (symbol : Symbol) : symbol.kind = symbol.data.kind := rfl

theorem SymbolData.mem_types {data : SymbolData} {type : TypeId} (isType : data.type? = some type) :
    type ∈ data.types := by
  cases data <;> simp_all [SymbolData.type?, SymbolData.types]

theorem Symbol.isSome_type? (symbol : Symbol)
    (typed : symbol.kind ∉ [.namespace, .lambda, .label, .queryConclusionVariable]) :
    symbol.type?.isSome := by
  rw [symbol.kind_eq] at typed
  rw [Symbol.type?]
  cases dataEq : symbol.data <;> simp_all [SymbolData.kind, SymbolData.type?]

theorem Symbol.Reliable.type_has (reliable : symbol.Reliable table calm)
    (typed : symbol.type?.isSome) : table.Has calm (symbol.type?.getD .error) := by
  rcases Option.isSome_iff_exists.mp typed with ⟨type, isType⟩
  rw [isType]
  exact reliable type (SymbolData.mem_types isType)

theorem Symbol.reliable_of_isConclusionVariable
    (isVariable : symbol.kind = .queryConclusionVariable) :
    symbol.Reliable table calm := by
  have noTypes : symbol.data.types = [] := by
    rw [symbol.kind_eq] at isVariable
    cases dataEq : symbol.data <;> simp_all [SymbolData.kind, SymbolData.types]
  intro type member
  rw [noTypes] at member
  cases member

/-- What a lookup can find in scopes that can be relied on. -/
theorem Scope.IsCandidate.reliable {scopes : List Scope} {name : String}
    (candidate : Scope.IsCandidate scopes name symbol)
    (reliable : ∀ scope ∈ scopes, scope.Reliable table calm) :
    symbol.Reliable table calm ∧ symbol.kind ≠ .lambda := by
  rcases candidate with ⟨_, scope, inScopes, inScope⟩
  have isReliable := reliable scope inScopes
  cases scope with
  | global symbols | locals symbols => exact isReliable symbol inScope
  | rangeVariable own kind =>
      rw [List.mem_singleton.mp inScope]
      exact ⟨isReliable, by rw [kind]; decide⟩
  | conclusion own =>
      rw [List.mem_singleton.mp inScope]
      exact ⟨Symbol.reliable_of_isConclusionVariable own.symbol_kind,
        by rw [own.symbol_kind]; decide⟩

end

section

variable {state : BindingState} {calm : Prop} {tree : SyntaxTree} {binder : Binder} {site : Site}
  {symbol : Symbol} {name : String} {location : Location}

/-- What binding a leaf of a program gives. -/
def LeafOutcome (tree : SyntaxTree) (calm : Prop) (table : TypeTable) (bound : BoundExpr) : Prop :=
  bound.Reliable tree table calm ∧ lambdaNodes bound.walk = []

theorem bad_outcome {table : TypeTable} (notCalm : ¬calm) (node : NodeId) :
    LeafOutcome tree calm table (.bad node []) :=
  ⟨⟨notCalm, trivial⟩, rfl⟩

theorem conclusionReference?_gives {table : TypeTable} {scopes : List Scope} {node : NodeId}
    (isNode : tree.HasNode node) (isVariable : symbol.kind = .queryConclusionVariable)
    (reliable : ∀ scope ∈ scopes, scope.Reliable table calm) :
    (conclusionReference? node symbol scopes).Gives fun found => ∀ bound ∈ found,
      LeafOutcome tree calm table bound := by
  induction scopes with
  | nil => exact .ok (by simp)
  | cons scope outer ih =>
      rw [List.forall_mem_cons] at reliable
      cases scope with
      | global symbols | locals symbols | rangeVariable own kind => exact ih reliable.2
      | conclusion scope =>
          rw [conclusionReference?]
          split
          · next same =>
              have isOwn : symbol = scope.symbol := by
                simpa [Symbol.sameSymbol, isVariable, SymbolKind.usesIdentity] using same
              rcases reliable.1.parameter with ⟨parameter, parameterEq, parameterReliable⟩
              rw [isOwn, parameterEq, Checked.ok_bind]
              refine .pure ?_
              rintro _ ⟨⟩
              exact ⟨⟨Symbol.reliable_of_isConclusionVariable scope.symbol_kind, isNode,
                parameterReliable, reliable.1.type⟩, rfl⟩
          · exact ih reliable.2

theorem bindReference_keeps (ready : state.types.Ready calm)
    (reliable : binder.Reliable state.types calm) (isNode : tree.HasNode site.node)
    (symbolReliable : symbol.Reliable state.types calm) :
    (bindReference binder site name location symbol).Keeps state calm fun calmer table bound =>
      LeafOutcome tree calmer table bound := by
  have misused : (do
      Binding.report location .usedLike [name, symbol.kind.displayName, "variable"]
      return .bad site.node [] : Binding BoundExpr).Keeps state calm
        fun calmer table bound => LeafOutcome tree calmer table bound := by
    refine (Binding.report_keeps ready.sound rfl).bind fun _ after calmer advance notCalm => ?_
    exact .pure advance.sound (bad_outcome notCalm site.node)
  have typeHas (typed : symbol.type?.isSome) :
      state.types.Has calm (symbol.type?.getD .error) :=
    symbolReliable.type_has typed
  rw [bindReference]
  cases kindEq : symbol.kind with
  | localVariable | field | property | rangeVariable =>
      exact .pure ready.sound
        ⟨⟨isNode, symbolReliable, typeHas (symbol.isSome_type? (by simp [kindEq]))⟩, rfl⟩
  | parameter =>
      exact .pure ready.sound
        ⟨⟨isNode, symbolReliable, typeHas (symbol.isSome_type? (by simp [kindEq]))⟩, rfl⟩
  | queryConclusionVariable =>
      refine .bind_lift (conclusionReference?_gives isNode kindEq reliable.scopes) ?_
      intro found isGood
      cases found with
      | none =>
          refine (Binding.report_keeps ready.sound rfl).bind ?_
          intro _ after calmer advance notCalm
          exact .pure advance.sound (bad_outcome notCalm site.node)
      | some bound => exact .pure ready.sound (isGood bound rfl)
  | «namespace» | namedType | method | lambda | label =>
      rw [kindEq] at misused
      exact misused

theorem LookupResult.reportFailure_keeps (result : LookupResult) (sound : state.types.Sound) :
    (result.reportFailure name location).Keeps state calm fun calmer _ _ => ¬calmer := by
  unfold reportFailure
  split
  · exact Binding.report_keeps sound rfl
  · exact Binding.report_keeps sound rfl
  · exact Binding.report_keeps sound rfl
  · exact Binding.report_keeps sound rfl

/-- A name that is used as a value is bound well. -/
theorem bindName_keeps {identifier : Identifier} (ready : state.types.Ready calm)
    (reliable : binder.Reliable state.types calm) (isNode : tree.HasNode site.node)
    (present : identifier.name = none → ¬calm) :
    (bindName binder site identifier).Keeps state calm fun calmer table bound =>
      LeafOutcome tree calmer table bound := by
  unfold bindName
  split
  · next noName => exact .pure ready.sound (bad_outcome (present noName) site.node)
  · next name isName =>
      refine .bind_lift Scope.lookupThrough_gives fun result madeOf => ?_
      split
      · next symbol isAnswer =>
          have symbolReliable := (madeOf.answer isAnswer).1.reliable reliable.scopes
          exact bindReference_keeps ready reliable isNode symbolReliable.1
      · refine (result.reportFailure_keeps ready.sound).bind ?_
        intro _ after calmer advance notCalm
        exact .pure advance.sound (bad_outcome notCalm site.node)

end

end QueryLang
