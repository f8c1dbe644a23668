import QueryLang.Proofs.Binding.Declaring
import QueryLang.Proofs.Binding.Telling

/-!
# What carries the variables of conclusions

The value of a conclusion's variable is carried by the parameter of the conclusion's lambda. A
reference to the variable is looked up by its name, and the scope that knows the parameter is then
found by the identity of the variable. `Carried` says that both find the same: every reference is
carried by the lambda of the conclusion that declares its variable, in a body of that conclusion,
and has the type that the query has before its conclusion.

That type is a structural one. It is found again in every later table, so `Settles` speaks of all
tables from which nothing was forgotten.
-/

namespace QueryLang

/-! ### Types that are found again -/

namespace TypeTable

/-- A later table has every structural type of a table, at the same index. -/
def Remembers (table later : TypeTable) : Prop :=
  ∀ key type, table.structural.lookup key = some type → later.structural.lookup key = some type

variable {table later last : TypeTable} {key : StructuralKey}

namespace Remembers

theorem refl : table.Remembers table := fun _ _ => id

theorem trans (first : table.Remembers later) (second : later.Remembers last) :
    table.Remembers last :=
  fun key type found => second key type (first key type found)

/-- Only a type that is not there is added. -/
theorem intern : table.Remembers (table.intern key).2 := by
  intro other type found
  unfold TypeTable.intern
  split
  · exact found
  · next absent =>
      have different : (other == key) = false := by
        rw [beq_eq_false_iff_ne]
        rintro rfl
        cases absent.symm.trans found
      simp [push, List.lookup_cons, different, found]

/-- A type that was asked for is found again. -/
theorem intern_again (remembers : (table.intern key).2.Remembers later) :
    later.intern key = ((table.intern key).1, later) := by
  have known : (table.intern key).2.structural.lookup key = some (table.intern key).1 := by
    unfold TypeTable.intern
    split
    · next found => exact found
    · simp [push]
  rw [TypeTable.intern, remembers _ _ known]

end Remembers

/-- The type that the last clause of a query gives it. -/
def ofClauses (table : TypeTable) : List BoundClause → TypeId × TypeTable
  | [] => (.error, table)
  | .selectClause _ selected :: _ => table.sequence selected.type
  | .groupClause _ element key :: _ =>
    let (grouping, table) := table.grouping key.type element.type
    table.sequence grouping
  | .fromClause _ _ _ :: rest | .whereClause _ _ :: rest | .letClause _ _ _ :: rest =>
    table.ofClauses rest

end TypeTable

/-! ### Steps -/

namespace Binding

variable {α β : Type}

/-- A step forgets no structural type, and what it gives is good with every table that remembers
the types after it. -/
def Settles (step : Binding α) (good : TypeTable → α → Prop) : Prop :=
  ∀ state value after, ExceptT.run step state = (.ok value, after) →
    state.types.Remembers after.types ∧ ∀ table, after.types.Remembers table → good table value

namespace Settles

variable {middle : TypeTable → α → Prop} {good : TypeTable → β → Prop}

theorem pure {value : β} (isGood : ∀ table, good table value) : Settles (pure value) good := by
  intro state result after ran
  cases ran
  exact ⟨.refl, fun table _ => isGood table⟩

theorem bind {first : Binding α} {second : α → Binding β} (settles : first.Settles middle)
    (next : ∀ value, (∃ table, middle table value) →
      (second value).Settles fun table result => middle table value → good table result) :
    (first >>= second).Settles good := by
  intro state result after ran
  rcases run_bind_eq_ok ran with ⟨value, between, ranFirst, ranSecond⟩
  rcases settles state value between ranFirst with ⟨remembers, isMiddle⟩
  rcases next value ⟨_, isMiddle _ .refl⟩ between result after ranSecond with ⟨later, isGood⟩
  refine ⟨remembers.trans later, fun table others => ?_⟩
  exact isGood table others (isMiddle table (later.trans others))

theorem bind_lift {operation : Checked α} {second : α → Binding β}
    (next : ∀ value, operation = .ok value → (second value).Settles good) :
    ((liftM operation : Binding α) >>= second).Settles good := by
  cases operation with
  | error fault =>
      intro state result after ran
      cases ran
  | ok value => exact next value rfl

theorem mono {step : Binding β} {better : TypeTable → β → Prop} (settles : step.Settles good)
    (implies : ∀ table value, good table value → better table value) : step.Settles better := by
  intro state value after ran
  rcases settles state value after ran with ⟨remembers, isGood⟩
  exact ⟨remembers, fun table others => implies table value (isGood table others)⟩

/-- A step that adds no types. -/
theorem of_reportsOnly {step : Binding β} {own : β → Prop} {codes : List Nat}
    (only : step.ReportsOnly codes) (yields : step.Yields own) :
    step.Settles fun _ value => own value := by
  intro state value after ran
  refine ⟨?_, fun _ _ => yields state value after ran⟩
  rw [(only state value after ran).1]
  exact .refl

/-- A step that adds no types comes first. -/
theorem quiet_bind {first : Binding α} {second : α → Binding β} {own : α → Prop}
    {codes : List Nat} (only : first.ReportsOnly codes) (yields : first.Yields own)
    (next : ∀ value, own value → (second value).Settles good) : (first >>= second).Settles good :=
  (of_reportsOnly only yields).bind fun value isOwn =>
    (next value isOwn.choose_spec).mono fun _ _ isGood _ => isGood

theorem collecting {step : Binding α} (settles : step.Settles middle) :
    (Binding.collecting step).Settles fun table result => middle table result.1 := by
  intro state result last ran
  rcases run_collecting_eq_ok ran with ⟨value, after, ranStep, rfl, rfl⟩
  exact settles { state with diagnostics := [] } value after ranStep

end Settles

theorem sequenceType_settles {element : TypeId} :
    (sequenceType element).Settles fun table type => table.sequence element = (type, table) := by
  intro state type after ran
  cases ran
  exact ⟨.intern, fun table remembers => remembers.intern_again⟩

theorem groupingType_settles {key element : TypeId} :
    (groupingType key element).Settles fun table type =>
      table.grouping key element = (type, table) := by
  intro state type after ran
  cases ran
  exact ⟨.intern, fun table remembers => remembers.intern_again⟩

end Binding

open Binding

/-! ### References and their carriers -/

/-- An expression stands for the variable of a conclusion: for the only parameter of the
conclusion's lambda, which the source does not name. -/
structure BoundExpr.IsCarriedBy (expr : BoundExpr) (lambda variableSymbol : Symbol)
    (type : TypeId) (parameter : Symbol) : Prop where
  isReference : expr = .conclusionVariable variableSymbol ⟨expr.node, parameter, type, true⟩
  isOnly : lambda.parameters = [parameter]
  isFirst : parameter.ordinal? = some 0
  hasName : parameter.name = variableSymbol.name
  hasType : parameter.type? = some type

/-- Among some parts is the query with a conclusion at a node. In the conclusion's body stands the
expression, for the conclusion's variable and with the type that the clauses give. -/
def BoundExpr.CarriedAt (expr : BoundExpr) (table : TypeTable) (parts : List BoundPart)
    (node : NodeId) : Prop :=
  ∃ query clauses variableSymbol type lambda bodyNode value diagnostics queryType parameter,
    .expression (.query query clauses (.present node variableSymbol type lambda bodyNode value
      diagnostics) queryType) ∈ parts ∧
    .expression expr ∈ value.walk ∧ table.ofClauses clauses = (type, table) ∧
    expr.IsCarriedBy lambda variableSymbol type parameter

/-- The scope of a conclusion is made for it: the lambda has one parameter, for the variable. -/
structure ConclusionScope.IsMade (scope : ConclusionScope) (parameter : Symbol) : Prop where
  isOnly : scope.lambda.parameters = [parameter]
  hasName : parameter.name = scope.symbol.name
  dataEq : parameter.data = .parameter scope.type 0 .none

/-- The conclusion of a scope. -/
def Scope.conclusion? : Scope → Option ConclusionScope
  | .conclusion scope => some scope
  | .global _ | .locals _ | .rangeVariable _ _ => none

/-- The conclusions in whose bodies a binder is. -/
def Binder.conclusions (binder : Binder) : List ConclusionScope :=
  binder.scopes.filterMap Scope.conclusion?

/-- A binder is in the bodies of these conclusions, whose scopes are made for them. -/
structure Binder.Knows (binder : Binder) (known : List ConclusionScope) : Prop where
  conclusions_eq : binder.conclusions = known
  made : ∀ scope ∈ known, ∃ parameter, scope.IsMade parameter

/-- A reference to the variable of a conclusion is carried by one of these scopes. -/
def BoundExpr.CarriedIn (expr : BoundExpr) (known : List ConclusionScope) : Prop :=
  ∀ own ∈ expr.symbol?, own.kind = .queryConclusionVariable → ∃ scope ∈ known,
    scope.symbol = own ∧
      ∃ parameter, expr.IsCarriedBy scope.lambda scope.symbol scope.type parameter

/-- All references to variables of conclusions among some parts are carried: by one of these
scopes, or by a query among the parts. -/
def Carried (table : TypeTable) (known : List ConclusionScope) (parts : List BoundPart) : Prop :=
  ∀ expr, .expression expr ∈ parts →
    (∃ node, expr.CarriedAt table parts node) ∨ expr.CarriedIn known

section

variable {table : TypeTable} {known : List ConclusionScope} {parts others : List BoundPart}
  {expr : BoundExpr} {node : NodeId}

theorem BoundExpr.CarriedAt.mono (carried : expr.CarriedAt table parts node)
    (subset : parts ⊆ others) : expr.CarriedAt table others node := by
  rcases carried with ⟨query, clauses, own, type, lambda, bodyNode, value, diagnostics, queryType,
    parameter, isPart, rest⟩
  exact ⟨query, clauses, own, type, lambda, bodyNode, value, diagnostics, queryType, parameter,
    subset isPart, rest⟩

/-- A reference in the body of a conclusion stands for the conclusion's own variable, or for that
of a conclusion further out. -/
theorem BoundExpr.CarriedIn.cons_cases {scope : ConclusionScope}
    (carried : expr.CarriedIn (scope :: known)) :
    expr.CarriedIn known ∨
      ∃ parameter, expr.IsCarriedBy scope.lambda scope.symbol scope.type parameter := by
  by_cases isOwn : ∃ parameter, expr.IsCarriedBy scope.lambda scope.symbol scope.type parameter
  · exact .inr isOwn
  · refine .inl fun symbol isSymbol isVariable => ?_
    rcases carried symbol isSymbol isVariable with ⟨other, isScope, sameSymbol, isOther⟩
    rcases List.mem_cons.mp isScope with rfl | isOuter
    · exact absurd isOther isOwn
    · exact ⟨other, isOuter, sameSymbol, isOther⟩

namespace Carried

theorem nil : Carried table known [] := by
  intro expr isPart
  cases isPart

theorem append (left : Carried table known parts) (right : Carried table known others) :
    Carried table known (parts ++ others) := by
  intro expr isPart
  rcases List.mem_append.mp isPart with inLeft | inRight
  · refine (left expr inLeft).imp_left ?_
    rintro ⟨node, carried⟩
    exact ⟨node, carried.mono (List.subset_append_left _ _)⟩
  · refine (right expr inRight).imp_left ?_
    rintro ⟨node, carried⟩
    exact ⟨node, carried.mono (List.subset_append_right _ _)⟩

/-- One more part that is no reference. -/
theorem part {own : BoundPart} (carried : Carried table known parts)
    (notReference : own.reference? = none) : Carried table known (own :: parts) := by
  intro expr isPart
  rcases List.mem_cons.mp isPart with rfl | isOther
  · refine .inr fun symbol isSymbol => ?_
    rw [BoundPart.reference?, isSymbol] at notReference
    cases notReference
  · refine (carried expr isOther).imp_left ?_
    rintro ⟨node, isCarried⟩
    exact ⟨node, isCarried.mono (List.subset_cons_self _ _)⟩

end Carried

/-- The references in the body of a conclusion are carried: by one of these scopes, by a query in
the body, or by the conclusion's own lambda, with the type that the query has before it. -/
def BoundConclusion.Carries (conclusion : BoundConclusion) (table : TypeTable)
    (known : List ConclusionScope) (type : TypeId) : Prop :=
  match conclusion with
  | .absent => True
  | .present _ variableSymbol ownType lambda _ value _ => ownType = type ∧
    ∀ expr, .expression expr ∈ value.walk →
      (∃ node, expr.CarriedAt table value.walk node) ∨ expr.CarriedIn known ∨
        ∃ parameter, expr.IsCarriedBy lambda variableSymbol type parameter

theorem BoundConclusion.Carries.query {conclusion : BoundConclusion} {type queryType : TypeId}
    {clauses : List BoundClause} (carries : conclusion.Carries table known type)
    (inner : Carried table known (walkClauses clauses))
    (gives : table.ofClauses clauses = (type, table)) :
    Carried table known (BoundExpr.query node clauses conclusion queryType).walk := by
  cases conclusion with
  | absent => exact (inner.append .nil).part rfl
  | present own variableSymbol ownType lambda bodyNode value diagnostics =>
      rcases carries with ⟨rfl, carries⟩
      have body : value.walk ⊆ (BoundExpr.query node clauses (.present own variableSymbol ownType
          lambda bodyNode value diagnostics) queryType).walk := by
        intro part inBody
        simp [BoundExpr.walk, BoundConclusion.walk, inBody]
      intro expr isPart
      rw [BoundExpr.walk, BoundConclusion.walk] at isPart
      rcases List.mem_cons.mp isPart with isQuery | isInside
      · refine .inr fun symbol isSymbol => ?_
        cases isQuery
        cases isSymbol
      · rcases List.mem_append.mp isInside with inClauses | inConclusion
        · refine (inner expr inClauses).imp_left ?_
          rintro ⟨at', carried⟩
          refine ⟨at', carried.mono fun part isClause => ?_⟩
          simp [BoundExpr.walk, isClause]
        · have inBody : .expression expr ∈ value.walk := by simpa using inConclusion
          rcases carries expr inBody with ⟨other, carried⟩ | isKnown | ⟨parameter, isOwn⟩
          · exact .inl ⟨other, carried.mono body⟩
          · exact .inr isKnown
          · refine .inl ⟨own, node, clauses, variableSymbol, ownType, lambda, bodyNode, value,
              diagnostics, queryType, parameter, ?_, inBody, gives, isOwn⟩
            rw [BoundExpr.walk]
            exact List.mem_cons_self

theorem BoundExpr.IsAround.carried (isAround : expr.IsAround node parts)
    (noSymbol : expr.symbol? = none) (inner : Carried table known parts) :
    Carried table known expr.walk := by
  rw [isAround.walk_eq]
  exact inner.part (BoundPart.reference?_eq_none noSymbol)

/-! ### Names -/

variable {binder : Binder} {site : Site} {identifier : Identifier}

theorem Binder.Knows.pushRangeVariable (knows : binder.Knows known) (found : Option RangeVariable) :
    (binder.pushRangeVariable found).Knows known := by
  cases found with
  | none => exact knows
  | some own => exact ⟨knows.conclusions_eq, knows.made⟩

theorem Binder.Knows.pushConclusion (knows : binder.Knows known) {scope : ConclusionScope}
    {parameter : Symbol} (isMade : scope.IsMade parameter) :
    (binder.pushConclusion scope).Knows (scope :: known) := by
  constructor
  · rw [← knows.conclusions_eq]
    rfl
  · exact List.forall_mem_cons.mpr ⟨⟨parameter, isMade⟩, knows.made⟩

/-- The parameter that a scope finds by name is the one that it was made with. -/
theorem ConclusionScope.IsMade.parameterOf {scope : ConclusionScope} {parameter found : Symbol}
    (isMade : scope.IsMade parameter) {symbol : Symbol}
    (foundEq : scope.parameterOf symbol = .ok found) : found = parameter := by
  rw [ConclusionScope.parameterOf, isMade.isOnly] at foundEq
  split at foundEq
  · next single isSingle =>
      have isFound : single = found := Except.ok.inj foundEq
      have member : single ∈ [parameter] := by
        refine List.mem_of_mem_filter (p := (·.name == symbol.name)) ?_
        rw [isSingle]
        exact List.mem_singleton_self single
      rw [← isFound, List.mem_singleton.mp member]
  · cases foundEq

/-- A reference to the variable of a conclusion is carried by the scope that introduces it. -/
theorem conclusionReference?_carried {scopes : List Scope} {symbol : Symbol} {bound : BoundExpr}
    (made : ∀ scope ∈ scopes.filterMap Scope.conclusion?, ∃ parameter, scope.IsMade parameter)
    (isVariable : symbol.kind = .queryConclusionVariable)
    (found : conclusionReference? site.node symbol scopes = .ok (some bound)) :
    ∃ scope ∈ scopes.filterMap Scope.conclusion?, scope.symbol = symbol ∧
      ∃ parameter, bound.IsCarriedBy scope.lambda scope.symbol scope.type parameter := by
  induction scopes with
  | nil => cases found
  | cons scope outer ih =>
      cases scope with
      | global symbols | locals symbols | rangeVariable own kind => exact ih made found
      | conclusion own =>
          rw [show List.filterMap Scope.conclusion? (.conclusion own :: outer) =
            own :: outer.filterMap Scope.conclusion? from rfl, List.forall_mem_cons] at made
          rw [conclusionReference?] at found
          split at found
          · next same =>
              have isOwn : symbol = own.symbol := by
                simpa [Symbol.sameSymbol, isVariable, SymbolKind.usesIdentity] using same
              rcases Checked.bind_eq_ok_iff.mp found with ⟨other, isFound, boundEq⟩
              rcases made.1 with ⟨parameter, isMade⟩
              cases isMade.parameterOf isFound
              cases Checked.pure_eq_ok_iff.mp boundEq
              refine ⟨own, List.mem_cons_self, isOwn.symm, other, rfl, isMade.isOnly, ?_,
                isMade.hasName, ?_⟩
              · rw [Symbol.ordinal?, isMade.dataEq]
              · rw [Symbol.type?, isMade.dataEq]
                rfl
          · rcases ih made.2 found with ⟨scope, isScope, carried⟩
            exact ⟨scope, List.mem_cons_of_mem _ isScope, carried⟩

theorem bindReference_carried (knows : binder.Knows known) {name : String} {location : Location}
    {symbol : Symbol} :
    (bindReference binder site name location symbol).Yields fun bound => bound.CarriedIn known := by
  have otherKind {bound : BoundExpr} (isReference : bound.symbol? = some symbol)
      (other : symbol.kind ≠ .queryConclusionVariable) : bound.CarriedIn known := by
    intro own isOwn isVariable
    cases isReference.symm.trans isOwn
    exact absurd isVariable other
  have isBad : (BoundExpr.bad site.node []).CarriedIn known := by
    intro own isOwn
    cases isOwn
  rw [bindReference]
  cases kindEq : symbol.kind with
  | localVariable | rangeVariable | parameter | field | property =>
      exact .pure (otherKind rfl (by simp [kindEq]))
  | queryConclusionVariable =>
      refine .bind_lift fun found foundEq => ?_
      cases found with
      | none => exact .next fun _ => .pure isBad
      | some bound =>
          refine .pure fun own isOwn _ => ?_
          rw [← knows.conclusions_eq] at *
          rcases conclusionReference?_carried knows.made kindEq foundEq with
            ⟨scope, isScope, sameSymbol, parameter, carried⟩
          rw [carried.isReference] at isOwn
          cases isOwn
          exact ⟨scope, isScope, rfl, parameter, carried⟩
  | «namespace» | namedType | method | lambda | label => exact .next fun _ => .pure isBad

theorem bindName_settles (knows : binder.Knows known) :
    (bindName binder site identifier).Settles fun table bound =>
      Carried table known bound.walk := by
  have carried {bound : BoundExpr} (isAround : bound.IsAround site.node [])
      (isIn : bound.CarriedIn known) (table : TypeTable) : Carried table known bound.walk := by
    intro expr isPart
    rw [isAround.walk_eq] at isPart
    cases List.mem_singleton.mp isPart
    exact .inr isIn
  have isBad : (BoundExpr.bad site.node []).IsAround site.node [] ∧
      (BoundExpr.bad site.node []).CarriedIn known :=
    ⟨⟨rfl, rfl, rfl⟩, fun _ isOwn => by cases isOwn⟩
  have yields : (bindName binder site identifier).Yields fun bound =>
      bound.IsAround site.node [] ∧ bound.CarriedIn known := by
    unfold bindName
    split
    · exact .pure isBad
    · refine .next fun result => ?_
      split
      · refine (bindReference_yields.and (bindReference_carried knows)).mono fun bound both => ?_
        exact ⟨both.1.1, both.2⟩
      · exact .next fun _ => .pure isBad
  refine (Settles.of_reportsOnly bindName_reports yields).mono fun table bound both => ?_
  exact carried both.1 both.2 table

/-! ### Declarations -/

theorem declareConclusionScope_made {declared : ConclusionVariable} {type : TypeId}
    (hasName : identifier.name = some declared.val.name) :
    (declareConclusionScope binder site identifier declared type).Yields fun scope =>
      scope.type = type ∧ scope.symbol = declared.val ∧ ∃ parameter, scope.IsMade parameter := by
  refine .next fun lambdaId => .next fun parameterId => .pure ⟨rfl, rfl, _, rfl, ?_, rfl⟩
  show identifier.name.getD "" = declared.val.name
  rw [hasName]
  rfl

/-! ### Expressions -/

mutual

/-- The references to variables of conclusions in an expression are carried. -/
theorem bindExpr_settles {binder : Binder} {known : List ConclusionScope}
    (knows : binder.Knows known) (expr : Expr) :
    (bindExpr binder expr).Settles fun table bound => Carried table known bound.walk := by
  match expr with
  | .name site identifier =>
      rw [bindExpr]
      exact bindName_settles knows
  | .literal site value =>
      rw [bindExpr]
      have isAround : (BoundExpr.literal site.node value).IsAround site.node [] := ⟨rfl, rfl, rfl⟩
      exact .pure fun table => isAround.carried rfl .nil
  | .parenthesized site inner =>
      rw [bindExpr]
      exact bindExpr_settles knows inner
  | .memberAccess site receiver member =>
      rw [bindExpr]
      refine (bindExpr_settles knows receiver).bind fun bound _ => ?_
      refine (Settles.of_reportsOnly bindMemberAccess_reports
        (bindMemberAccess_yields.and bindMemberAccess_unnamed)).mono ?_
      exact fun table result isResult carried => isResult.1.carried isResult.2 carried
  | .memberCall site receiver member arguments =>
      rw [bindExpr]
      refine (bindExpr_settles knows receiver).bind fun bound _ => ?_
      refine (bindExprs_settle knows arguments).bind fun others _ => ?_
      refine (Settles.of_reportsOnly bindMemberCall_reports
        (bindMemberCall_yields.and bindMemberCall_unnamed)).mono ?_
      exact fun table result isResult othersCarried carried =>
        isResult.1.carried isResult.2 (carried.append othersCarried)
  | .namedCall site callee arguments =>
      rw [bindExpr]
      refine (bindExprs_settle knows arguments).bind fun bound _ => ?_
      refine (Settles.of_reportsOnly bindNamedCall_reports
        (bindNamedCall_yields.and bindNamedCall_unnamed)).mono ?_
      exact fun table result isResult carried => isResult.1.carried isResult.2 carried
  | .valueCall site callee text arguments =>
      rw [bindExpr]
      refine (bindExpr_settles knows callee).bind fun bound _ => ?_
      refine (bindExprs_settle knows arguments).bind fun others _ => ?_
      have isAround : (BoundExpr.bad site.node (bound :: others)).IsAround site.node
          (bound.walk ++ walkAll others) :=
        ⟨rfl, by rw [BoundExpr.walk, walkAll], rfl⟩
      refine .quiet_bind .report_own .anyResult fun _ _ => ?_
      exact .pure fun table othersCarried carried =>
        isAround.carried rfl (carried.append othersCarried)
  | .binary site operator left right =>
      rw [bindExpr]
      refine (bindExpr_settles knows left).bind fun boundLeft _ => ?_
      refine (bindExpr_settles knows right).bind fun boundRight _ => ?_
      refine (Settles.of_reportsOnly bindOperator_reports
        (bindOperator_yields.and bindOperator_unnamed)).mono ?_
      exact fun table result isResult rightCarried leftCarried =>
        isResult.1.carried isResult.2 (leftCarried.append rightCarried)
  | .query site clauses ending conclusion =>
      rw [bindExpr]
      split
      · have isAround : (BoundExpr.bad site.node []).IsAround site.node [] := ⟨rfl, rfl, rfl⟩
        exact .pure fun table => isAround.carried rfl .nil
      · refine (bindClauses_settle knows clauses).bind ?_
        rintro ⟨inner, bound⟩ ⟨_, innerKnows, _⟩
        refine (bindEnding_settles innerKnows ending).bind ?_
        rintro ⟨type, last⟩ -
        refine (bindConclusion_settles knows conclusion).bind ?_
        rintro ⟨boundConclusion, queryType⟩ -
        refine .pure ?_
        rintro table conclusionCarries ⟨endingCarried, isType⟩ ⟨_, clausesCarried, gives⟩
        refine conclusionCarries.query ?_ ((gives last).trans isType)
        rw [walkClauses_append]
        exact clausesCarried.append endingCarried

theorem bindExprs_settle {binder : Binder} {known : List ConclusionScope}
    (knows : binder.Knows known) (exprs : List Expr) :
    (bindExprs binder exprs).Settles fun table bound => Carried table known (walkAll bound) := by
  match exprs with
  | [] =>
      rw [bindExprs]
      exact .pure fun table => .nil
  | expr :: rest =>
      rw [bindExprs]
      refine (bindExpr_settles knows expr).bind fun bound _ => ?_
      refine (bindExprs_settle knows rest).bind fun others _ => ?_
      exact .pure fun table othersCarried carried => carried.append othersCarried

/-- The references in a clause are carried. A clause that is not the last gives no type. -/
theorem bindClause_settles {binder : Binder} {known : List ConclusionScope}
    (knows : binder.Knows known) (clause : Clause) :
    (bindClause binder clause).Settles fun table result =>
      result.1.Knows known ∧ Carried table known result.2.walk ∧
        ∀ rest, table.ofClauses (result.2 :: rest) = table.ofClauses rest := by
  match clause with
  | .fromClause site identifier source =>
      rw [bindClause]
      refine (bindExpr_settles knows source).bind fun bound _ => ?_
      refine .quiet_bind bindElementType_reports .anyResult fun element _ => ?_
      refine .quiet_bind declareRangeVariable_reportsOnly .anyResult fun found _ => ?_
      exact .pure fun table carried => ⟨knows.pushRangeVariable found, carried, fun _ => rfl⟩
  | .whereClause site condition =>
      rw [bindClause]
      refine (bindExpr_settles knows condition).bind fun bound _ => ?_
      exact .pure fun table carried => ⟨knows, carried, fun _ => rfl⟩
  | .letClause site identifier value =>
      rw [bindClause]
      refine (bindExpr_settles knows value).bind fun bound _ => ?_
      refine .quiet_bind declareRangeVariable_reportsOnly .anyResult fun found _ => ?_
      exact .pure fun table carried => ⟨knows.pushRangeVariable found, carried, fun _ => rfl⟩

theorem bindClauses_settle {binder : Binder} {known : List ConclusionScope}
    (knows : binder.Knows known) (clauses : List Clause) :
    (bindClauses binder clauses).Settles fun table result =>
      result.1.Knows known ∧ Carried table known (walkClauses result.2) ∧
        ∀ rest, table.ofClauses (result.2 ++ rest) = table.ofClauses rest := by
  match clauses with
  | [] =>
      rw [bindClauses]
      exact .pure fun table => ⟨knows, .nil, fun _ => rfl⟩
  | clause :: rest =>
      rw [bindClauses]
      refine (bindClause_settles knows clause).bind ?_
      rintro ⟨next, bound⟩ ⟨_, nextKnows, _⟩
      refine (bindClauses_settle nextKnows rest).bind ?_
      rintro ⟨inner, others⟩ -
      refine .pure ?_
      rintro table ⟨innerKnows, othersCarried, othersGive⟩ ⟨_, carried, gives⟩
      refine ⟨innerKnows, carried.append othersCarried, fun last => ?_⟩
      exact (gives (others ++ last)).trans (othersGive last)

/-- The references in the last clause of a query are carried, and it gives the query its type. -/
theorem bindEnding_settles {binder : Binder} {known : List ConclusionScope}
    (knows : binder.Knows known) (ending : QueryEnding) :
    (bindEnding binder ending).Settles fun table result =>
      Carried table known (walkClauses result.2) ∧
        table.ofClauses result.2 = (result.1, table) := by
  match ending with
  | .absent =>
      rw [bindEnding]
      exact .pure fun table => ⟨.nil, rfl⟩
  | .selectClause site selected =>
      rw [bindEnding]
      refine (bindExpr_settles knows selected).bind fun bound _ => ?_
      refine sequenceType_settles.bind fun type _ => .pure fun table isType carried => ?_
      exact ⟨carried.append .nil, isType⟩
  | .groupClause site element key =>
      rw [bindEnding]
      refine (bindExpr_settles knows element).bind fun boundElement _ => ?_
      refine (bindExpr_settles knows key).bind fun boundKey _ => ?_
      refine groupingType_settles.bind fun grouping _ => sequenceType_settles.bind fun type _ => ?_
      refine .pure fun table isType isGrouping keyCarried carried => ?_
      refine ⟨(carried.append keyCarried).append .nil, ?_⟩
      rw [TypeTable.ofClauses, isGrouping]
      exact isType

/-- The references in the body of a conclusion are carried, those to its own variable by its own
lambda. -/
theorem bindConclusion_settles {binder : Binder} {known : List ConclusionScope} {type : TypeId}
    (knows : binder.Knows known) (conclusion : Conclusion) :
    (bindConclusion binder type conclusion).Settles fun table result =>
      result.1.Carries table known type := by
  match conclusion with
  | .absent =>
      rw [bindConclusion]
      exact .pure fun table => trivial
  | .present site identifier body =>
      rw [bindConclusion]
      split
      · exact .pure fun table => trivial
      · next name hasName =>
          refine .quiet_bind declareConclusionVariable_silent declareConclusionVariable_yields
            fun own sameName => ?_
          have named : identifier.name = some own.val.name := by rw [hasName, sameName]
          refine .quiet_bind declareConclusionScope_silent (declareConclusionScope_made named) ?_
          rintro scope ⟨sameType, sameSymbol, parameter, isMade⟩
          refine (bindRoot_settles (knows.pushConclusion isMade) body).collecting.bind ?_
          rintro ⟨value, diagnostics⟩ -
          refine .pure fun table carried => ⟨rfl, fun expr isPart => ?_⟩
          rcases carried expr isPart with isInside | isKnown
          · exact .inl isInside
          · rw [← sameType, ← sameSymbol]
            exact .inr isKnown.cons_cases

theorem bindRoot_settles {binder : Binder} {known : List ConclusionScope}
    (knows : binder.Knows known) (root : RootExpr) :
    (bindRoot binder root).Settles fun table bound => Carried table known bound.walk := by
  match root with
  | .tooDeep site reported =>
      rw [bindRoot]
      have isAround : (BoundExpr.bad site.node []).IsAround site.node [] := ⟨rfl, rfl, rfl⟩
      refine .quiet_bind .report_own .anyResult fun _ _ => ?_
      exact .pure fun table => isAround.carried rfl .nil
  | .expression expr =>
      rw [bindRoot]
      exact bindExpr_settles knows expr

end

/-! ### Statements -/

theorem StatementScope.declareLocal_knows {scope : StatementScope} {type : TypeId}
    (knows : scope.binder.Knows known) :
    (scope.declareLocal identifier type).Yields fun result => result.1.binder.Knows known := by
  refine declareLocal_yields.mono ?_
  rintro ⟨inner, found⟩ isFound
  cases found with
  | none =>
      rw [isFound.2]
      exact knows
  | some own =>
      rw [isFound.2.2]
      exact ⟨knows.conclusions_eq, knows.made⟩

mutual

/-- The references to variables of conclusions in a statement are carried. -/
theorem bindStatement_settles {scope : StatementScope} {known : List ConclusionScope}
    (knows : scope.binder.Knows known) (statement : Statement) :
    (bindStatement scope statement).Settles fun table result =>
      result.1.binder.Knows known ∧ Carried table known result.2.walk := by
  match statement with
  | .localDeclaration site identifier value =>
      rw [bindStatement]
      refine (bindRoot_settles knows value).bind fun bound _ => ?_
      refine .quiet_bind StatementScope.declareLocal_reports
        (StatementScope.declareLocal_knows knows) ?_
      rintro ⟨inner, symbol⟩ innerKnows
      refine .pure fun table carried => ⟨innerKnows, ?_⟩
      rw [BoundStatement.walk]
      exact carried.part rfl
  | .expression site value | .returnValue site (some value) | .yieldReturn site (some value) =>
      rw [bindStatement]
      refine (bindRoot_settles knows value).bind fun bound _ => ?_
      refine .pure fun table carried => ⟨knows, ?_⟩
      rw [BoundStatement.walk]
      exact carried.part rfl
  | .returnValue site none | .yieldBreak site =>
      rw [bindStatement]
      refine .pure fun table => ⟨knows, ?_⟩
      rw [BoundStatement.walk]
      exact Carried.nil.part rfl
  | .yieldReturn site none =>
      rw [bindStatement]
      refine .pure fun table => ⟨knows, ?_⟩
      have isAround : (BoundExpr.bad site.node []).IsAround site.node [] := ⟨rfl, rfl, rfl⟩
      rw [BoundStatement.walk]
      exact (isAround.carried rfl .nil).part rfl
  | .doWhile site bodySite body condition =>
      rw [bindStatement]
      have inBody : (StatementScope.start scope.binder).binder.Knows known := knows
      refine (bindStatements_settle inBody body).bind fun boundBody _ => ?_
      refine (bindRoot_settles knows condition).bind fun bound _ => ?_
      refine .pure fun table carried bodyCarried => ⟨knows, ?_⟩
      rw [BoundStatement.walk]
      exact ((bodyCarried.append carried).part rfl).part rfl
  | .block site statements =>
      rw [bindStatement]
      have inBlock : (StatementScope.start scope.binder).binder.Knows known := knows
      refine (bindStatements_settle inBlock statements).bind fun bound _ => ?_
      refine .pure fun table carried => ⟨knows, ?_⟩
      rw [BoundStatement.walk]
      exact (carried.part rfl).part rfl

theorem bindStatements_settle {scope : StatementScope} {known : List ConclusionScope}
    (knows : scope.binder.Knows known) (statements : List Statement) :
    (bindStatements scope statements).Settles fun table bound =>
      Carried table known (walkStatements bound) := by
  match statements with
  | [] =>
      rw [bindStatements]
      exact .pure fun table => .nil
  | statement :: rest =>
      rw [bindStatements]
      refine .quiet_bind StatementScope.enter_reports StatementScope.enter_yields ?_
      intro entered sameBinder
      have enteredKnows : entered.binder.Knows known := sameBinder ▸ knows
      refine (bindStatement_settles enteredKnows statement).bind ?_
      rintro ⟨next, bound⟩ ⟨_, nextKnows, _⟩
      have afterKnows : (next.after bound).binder.Knows known := by
        rw [StatementScope.binder_after]
        exact nextKnows
      refine (bindStatements_settle afterKnows rest).bind fun others _ => ?_
      exact .pure fun table othersCarried own => own.2.append othersCarried

end

/-- The references to variables of conclusions in a bound file are carried by queries of the
file. -/
theorem bindFile_settles (knows : binder.Knows []) {tree : SyntaxTree} :
    (bindFile binder tree).Settles fun table block => Carried table [] block.walk := by
  refine .bind_lift fun _ _ => .bind_lift fun list _ => ?_
  have start : (StatementScope.start binder).binder.Knows [] := knows
  refine (bindStatements_settle start list.statements).bind fun bound _ => ?_
  exact .pure fun table carried => carried.part rfl

end

end QueryLang
