import QueryLang.Proofs.Binding.Name
import QueryLang.Proofs.Program.Concluding

/-!
# Binding expressions that trees have

Binding gives a bound tree that can be relied on, and finds every conclusion, as long as nothing
that it reports is an error. Each construct is looked at once; what the constructs inside it give
is known by then.
-/

namespace QueryLang

/-- What binding relies on: a ready table and binder, and source that is whole while all is
calm. -/
structure Footing (damaged : Prop) (binder : Binder) (table : TypeTable) (calm : Prop) : Prop where
  ready : table.Ready calm
  binder : binder.Reliable table calm
  whole : calm → ¬damaged

namespace Footing

variable {damaged calm calmer : Prop} {binder : Binder} {table later : TypeTable}

theorem sound (footing : Footing damaged binder table calm) : table.Sound := footing.ready.sound

theorem advance (footing : Footing damaged binder table calm)
    (advance : table.Advance calm later calmer) : Footing damaged binder later calmer :=
  ⟨advance.ready footing.ready, footing.binder.advance advance,
    fun isCalm => footing.whole (advance.implies isCalm)⟩

/-- While all is calm every name is there. -/
theorem present {tree : SyntaxTree} {node : NodeId} {identifier : Identifier}
    (footing : Footing damaged binder table calm)
    (declares : tree.DeclaresAt damaged node identifier) (noName : identifier.name = none) :
    ¬calm :=
  fun isCalm => footing.whole isCalm (declares.present noName)

end Footing

section

variable {state : BindingState} {calm : Prop} {tree : SyntaxTree} {binder : Binder} {site : Site}
  {identifier : Identifier}

/-! ### Members and calls -/

theorem findMember_keeps {type : Nat} {wantsMethod : Bool} {misuse : String → Binding Unit}
    (ready : state.types.Ready calm) (has : state.types.Has calm type)
    (present : identifier.name = none → ¬calm)
    (misuses : ∀ name (after : BindingState) (calmer : Prop), after.types.Sound →
      (misuse name).Keeps after calmer fun calmest _ _ => ¬calmest) :
    (findMember type identifier wantsMethod misuse).Keeps state calm fun calmer table found =>
      (∀ member ∈ found, table.Has calmer member.2) ∧ (found = none → ¬calmer) := by
  unfold findMember
  split
  · next noName => exact .pure ready.sound ⟨by simp, fun _ => present noName⟩
  · next name isName =>
      split
      · next isError => exact .pure ready.sound ⟨by simp, fun _ => has.not_calm ready.sound isError⟩
      · refine (Binding.member?_keeps ready has name).bind ?_
        intro found after calmer advance memberHas
        cases found with
        | none =>
            refine (Binding.displayType_keeps advance.sound (advance.has has).1).bind ?_
            intro text shown calmShown advanceShown _
            refine (Binding.report_keeps advanceShown.sound rfl).bind ?_
            intro _ reported calmReported advanceReported notCalm
            exact .pure advanceReported.sound ⟨by simp, fun _ => notCalm⟩
        | some member =>
            dsimp only
            split
            · exact .pure advance.sound ⟨by simpa using memberHas member rfl, by simp⟩
            · refine (misuses name after calmer advance.sound).bind ?_
              intro _ reported calmReported advanceReported notCalm
              exact .pure advanceReported.sound ⟨by simp, fun _ => notCalm⟩

theorem bindMemberAccess_keeps {receiver : BoundExpr} (ready : state.types.Ready calm)
    (reliable : receiver.Reliable tree state.types calm)
    (present : identifier.name = none → ¬calm) :
    (bindMemberAccess site receiver identifier).Keeps state calm fun calmer table bound =>
      bound.Reliable tree table calmer ∧ lambdaNodes bound.walk = lambdaNodes receiver.walk := by
  refine (findMember_keeps ready (reliable.type_has ready.sound) present ?_).bind ?_
  · intro name after calmer sound
    exact Binding.report_keeps sound rfl
  · intro found after calmer advance outcome
    have receiverReliable := reliable.advance advance
    cases found with
    | none =>
        refine .pure advance.sound ⟨⟨outcome.2 rfl, receiverReliable, trivial⟩, ?_⟩
        simp [BoundExpr.walk, walkAll, lambdaNodes, BoundPart.lambda?]
    | some member =>
        refine .pure advance.sound ⟨⟨receiverReliable, outcome.1 member rfl⟩, ?_⟩
        simp [BoundExpr.walk, lambdaNodes, BoundPart.lambda?]

theorem bindMemberCall_keeps {receiver : BoundExpr} {arguments : List BoundExpr}
    (ready : state.types.Ready calm) (reliable : receiver.Reliable tree state.types calm)
    (argumentsReliable : BoundExpr.AllReliable tree state.types calm arguments)
    (present : identifier.name = none → ¬calm) :
    (bindMemberCall site receiver identifier arguments).Keeps state calm fun calmer table bound =>
      bound.Reliable tree table calmer ∧
        lambdaNodes bound.walk = lambdaNodes receiver.walk ++ lambdaNodes (walkAll arguments) := by
  refine (findMember_keeps ready (reliable.type_has ready.sound) present ?_).bind ?_
  · intro name after calmer sound
    exact Binding.report_keeps sound rfl
  · intro found after calmer advance outcome
    have receiverReliable := reliable.advance advance
    have allReliable := BoundExpr.AllReliable.advance advance argumentsReliable
    cases found with
    | none =>
        refine .pure advance.sound ⟨⟨outcome.2 rfl, receiverReliable, allReliable⟩, ?_⟩
        simp [BoundExpr.walk, walkAll, lambdaNodes, BoundPart.lambda?]
    | some member =>
        refine .pure advance.sound ⟨⟨receiverReliable, allReliable, outcome.1 member rfl⟩, ?_⟩
        simp [BoundExpr.walk, lambdaNodes, BoundPart.lambda?]

theorem bindNamedCall_keeps {arguments : List BoundExpr} (ready : state.types.Ready calm)
    (reliable : binder.Reliable state.types calm)
    (argumentsReliable : BoundExpr.AllReliable tree state.types calm arguments)
    (present : identifier.name = none → ¬calm) :
    (bindNamedCall binder site identifier arguments).Keeps state calm fun calmer table bound =>
      bound.Reliable tree table calmer ∧
        lambdaNodes bound.walk = lambdaNodes (walkAll arguments) := by
  unfold bindNamedCall
  split
  · next noName =>
      refine .pure ready.sound ⟨⟨present noName, argumentsReliable⟩, ?_⟩
      simp [BoundExpr.walk, lambdaNodes, BoundPart.lambda?]
  · next name isName =>
      refine .bind_lift Scope.lookupThrough_gives fun result madeOf => ?_
      split
      · next method isAnswer =>
          rcases madeOf.answer isAnswer with ⟨candidate, isViable⟩
          rcases candidate.reliable reliable.scopes with ⟨methodReliable, notLambda⟩
          have isInvocable := Verdict.isInvocable_of_viable isViable
          have typed : method.type?.isSome := by
            refine method.isSome_type? ?_
            cases kindEq : method.kind <;> simp_all [SymbolKind.isInvocable]
          refine .pure ready.sound ⟨⟨argumentsReliable, methodReliable.type_has typed⟩, ?_⟩
          simp [BoundExpr.walk, lambdaNodes, BoundPart.lambda?]
      · refine (result.reportFailure_keeps ready.sound).bind ?_
        intro _ after calmer advance notCalm
        refine .pure advance.sound
          ⟨⟨notCalm, BoundExpr.AllReliable.advance advance argumentsReliable⟩, ?_⟩
        simp [BoundExpr.walk, lambdaNodes, BoundPart.lambda?]

/-! ### Operators -/

theorem mem_of_operatorType? {operator : Kind} {left right type : TypeId}
    (isType : operatorType? operator left right = some type) :
    type ∈ [TypeId.int, .string, .bool] := by
  unfold operatorType? at isType
  dsimp only at isType
  split at isType <;> (try split_ifs at isType) <;> cases isType <;> simp

theorem operatorType?_has {operator : Kind} {left right type : TypeId} {table : TypeTable}
    (sound : table.Sound) (isType : operatorType? operator left right = some type) :
    table.Has calm type := by
  have result := mem_of_operatorType? isType
  simp only [List.mem_cons, List.not_mem_nil, or_false] at result
  rcases result with rfl | rfl | rfl
  · exact sound.int_has
  · exact sound.string_has
  · exact sound.bool_has

theorem bindOperator_keeps {operator : Operator} {left right : BoundExpr}
    (ready : state.types.Ready calm) (leftReliable : left.Reliable tree state.types calm)
    (rightReliable : right.Reliable tree state.types calm) :
    (bindOperator site operator left right).Keeps state calm fun calmer table bound =>
      bound.Reliable tree table calmer ∧
        lambdaNodes bound.walk = lambdaNodes left.walk ++ lambdaNodes right.walk := by
  have leftHas := leftReliable.type_has ready.sound
  have rightHas := rightReliable.type_has ready.sound
  have walkEq (type : TypeId) :
      lambdaNodes (BoundExpr.binary site.node operator.kind left right type).walk =
        lambdaNodes left.walk ++ lambdaNodes right.walk := by
    simp [BoundExpr.walk, lambdaNodes, BoundPart.lambda?]
  unfold bindOperator
  dsimp only
  split
  · next isError =>
      have notCalm : ¬calm := by
        rcases Bool.or_eq_true_iff.mp isError with leftError | rightError
        · exact leftHas.not_calm ready.sound leftError
        · exact rightHas.not_calm ready.sound rightError
      exact .pure ready.sound
        ⟨⟨leftReliable, rightReliable, ready.sound.error_has notCalm⟩, walkEq .error⟩
  · split
    · next type isType =>
        exact .pure ready.sound
          ⟨⟨leftReliable, rightReliable, operatorType?_has ready.sound isType⟩, walkEq type⟩
    · refine (Binding.displayType_keeps ready.sound leftHas.1).bind ?_
      intro leftText _ _ advanceLeft _
      refine (Binding.displayType_keeps advanceLeft.sound (advanceLeft.has rightHas).1).bind ?_
      intro rightText _ _ advanceRight _
      refine (Binding.report_keeps advanceRight.sound rfl).bind ?_
      intro _ after calmer advance notCalm
      have whole := (advanceLeft.trans advanceRight).trans advance
      exact .pure advance.sound ⟨⟨leftReliable.advance whole, rightReliable.advance whole,
        advance.sound.error_has notCalm⟩, walkEq .error⟩

/-! ### Variables of queries -/

theorem bindElementType_keeps {source : BoundExpr} {location : Location}
    (ready : state.types.Ready calm) (reliable : source.Reliable tree state.types calm) :
    (bindElementType source location).Keeps state calm fun calmer table type =>
      table.Has calmer type := by
  have has := reliable.type_has ready.sound
  unfold bindElementType
  split
  · next isError =>
      exact .pure ready.sound (ready.sound.error_has (has.not_calm ready.sound isError))
  · refine .bind_get (.bind_lift (ready.sound.element?_gives has) fun found elementHas => ?_)
    cases found with
    | none =>
        refine (Binding.displayType_keeps ready.sound has.1).bind ?_
        intro text shown calmShown advanceShown _
        refine (Binding.report_keeps advanceShown.sound rfl).bind ?_
        intro _ after calmer advance notCalm
        exact .pure advance.sound (advance.sound.error_has notCalm)
    | some element => exact .pure ready.sound (elementHas element rfl)

theorem declareRangeVariable_keeps {type : Nat} (ready : state.types.Ready calm)
    (has : state.types.Has calm type) :
    (declareRangeVariable binder identifier type).Keeps state calm fun calmer table declared =>
      ∀ found ∈ declared, found.val.Reliable table calmer := by
  unfold declareRangeVariable
  split
  · exact .pure ready.sound (by simp)
  · next name isName =>
      refine .bind_lift Scope.lookupThrough_gives fun existing _ => ?_
      have declare {middle : BindingState} {calmMiddle : Prop}
          (advance : state.types.Advance calm middle.types calmMiddle) : (do
            let id ← Binding.freshId
            return some ⟨.located id name binder.container identifier.location
              (.rangeVariable type), rfl⟩ : Binding (Option RangeVariable)).Keeps middle
          calmMiddle fun calmer table declared =>
            ∀ found ∈ declared, found.val.Reliable table calmer := by
        refine (Binding.freshId_keeps advance.sound).bind fun id after calmer advanceId _ => ?_
        refine .pure advanceId.sound ?_
        rintro _ ⟨⟩ own member
        rw [List.mem_singleton.mp member]
        exact advanceId.has (advance.has has)
      dsimp only
      split
      · refine (Binding.report_keeps ready.sound rfl).bind fun _ after calmer advance _ => ?_
        exact declare advance
      · exact declare (.refl ready.sound)

theorem symbols_reliable {table : TypeTable} {declared : Option RangeVariable}
    (isReliable : ∀ found ∈ declared, found.val.Reliable table calm) :
    ∀ found ∈ declared.map Subtype.val, found.Reliable table calm := by
  intro found member
  rcases Option.map_eq_some_iff.mp member with ⟨own, isOwn, rfl⟩
  exact isReliable own isOwn

theorem Binder.Reliable.pushRangeVariable {table : TypeTable}
    (reliable : binder.Reliable table calm) {declared : Option RangeVariable}
    (isReliable : ∀ found ∈ declared, found.val.Reliable table calm) :
    (binder.pushRangeVariable declared).Reliable table calm := by
  cases declared with
  | none => exact reliable
  | some found => exact reliable.push (isReliable found rfl)

theorem declareConclusionVariable_keeps {name : String} {location : Location}
    (sound : state.types.Sound) :
    (declareConclusionVariable binder name location).Keeps state calm fun _ _ declared =>
      declared.val.name = name := by
  refine (Binding.freshId_keeps sound).bind fun id after calmer advance _ => ?_
  exact .pure advance.sound rfl

theorem ConclusionScope.parameterOf_eq_ok {scope : ConclusionScope} {symbol parameter : Symbol}
    (only : scope.lambda.parameters.filter (·.name == symbol.name) = [parameter]) :
    scope.parameterOf symbol = .ok parameter := by
  rw [parameterOf, only]

/-- The lambda of a conclusion has one parameter, and it carries the name of the variable. -/
theorem declareConclusionScope_keeps {declared : ConclusionVariable} {type : Nat}
    (sound : state.types.Sound) (has : state.types.Has calm type)
    (named : identifier.name.getD "" = declared.val.name) :
    (declareConclusionScope binder site identifier declared type).Keeps state calm
      fun calmer table scope => scope.symbol = declared.val ∧ scope.Reliable table calmer := by
  refine (Binding.freshId_keeps sound).bind fun lambdaId between calmBetween advanceFirst _ => ?_
  refine (Binding.freshId_keeps advanceFirst.sound).bind ?_
  intro parameterId after calmer advance _
  have typeHas := advance.has (advanceFirst.has has)
  let parameter : LambdaParameter :=
    { id := parameterId, name := identifier.name.getD "", location := identifier.location
      type, refKind := .none }
  let lambda := Symbol.ofLambda lambdaId binder.container site.location [parameter]
  refine .pure advance.sound ⟨rfl, typeHas, .located parameterId (identifier.name.getD "") lambda
    identifier.location (.parameter type 0 .none), ?_, ?_⟩
  · have sameName : (identifier.name.getD "" == declared.val.name) = true := by
      rw [named]
      exact beq_self_eq_true _
    exact ConclusionScope.parameterOf_eq_ok (List.filter_cons_of_pos sameName)
  · intro own member
    rw [List.mem_singleton.mp member]
    exact typeHas

end

/-! ### Expressions -/

/-- The node of a bound conclusion, if there is one. -/
def BoundConclusion.nodes : BoundConclusion → List NodeId
  | .absent => []
  | .present node _ _ _ _ _ _ => [node]

theorem lambdaNodes_query (node : NodeId) (clauses : List BoundClause)
    (conclusion : BoundConclusion) (type : TypeId) :
    lambdaNodes (BoundExpr.query node clauses conclusion type).walk =
      conclusion.nodes ++ (lambdaNodes (walkClauses clauses) ++ lambdaNodes conclusion.walk) := by
  cases conclusion <;>
    simp [BoundExpr.walk, lambdaNodes, BoundPart.lambda?, BoundConclusion.nodes,
      BoundConclusion.walk]

theorem BoundClause.allReliable_append {tree : SyntaxTree} {table : TypeTable} {calm : Prop}
    {left right : List BoundClause} (leftReliable : BoundClause.AllReliable tree table calm left)
    (rightReliable : BoundClause.AllReliable tree table calm right) :
    BoundClause.AllReliable tree table calm (left ++ right) := by
  induction left with
  | nil => exact rightReliable
  | cons clause rest ih => exact ⟨leftReliable.1, ih leftReliable.2⟩

/-- What binding an expression has to give. -/
structure Expr.Outcome (tree : SyntaxTree) (expr : Expr) (calm : Prop) (table : TypeTable)
    (bound : BoundExpr) : Prop where
  reliable : bound.Reliable tree table calm
  concludes : calm → expr.Concludes (lambdaNodes bound.walk)

/-- What binding expressions has to give. -/
structure Expr.AllOutcome (tree : SyntaxTree) (exprs : List Expr) (calm : Prop)
    (table : TypeTable) (bound : List BoundExpr) : Prop where
  reliable : BoundExpr.AllReliable tree table calm bound
  concludes : calm → Expr.AllConclude exprs (lambdaNodes (walkAll bound))

/-- What binding a clause has to give, with the binder for the clauses after it. -/
structure Clause.Outcome (tree : SyntaxTree) (clause : Clause) (calm : Prop) (table : TypeTable)
    (result : Binder × BoundClause) : Prop where
  binder : result.1.Reliable table calm
  reliable : result.2.Reliable tree table calm
  concludes : calm → clause.Concludes (lambdaNodes result.2.walk)

/-- What binding clauses has to give, with the binder inside all of them. -/
structure Clause.AllOutcome (tree : SyntaxTree) (clauses : List Clause) (calm : Prop)
    (table : TypeTable) (result : Binder × List BoundClause) : Prop where
  binder : result.1.Reliable table calm
  reliable : BoundClause.AllReliable tree table calm result.2
  concludes : calm → Clause.AllConclude clauses (lambdaNodes (walkClauses result.2))

/-- What binding the last clause of a query has to give, with the type of the query. -/
structure QueryEnding.Outcome (tree : SyntaxTree) (ending : QueryEnding) (calm : Prop)
    (table : TypeTable) (result : TypeId × List BoundClause) : Prop where
  type : table.Has calm result.1
  reliable : BoundClause.AllReliable tree table calm result.2
  concludes : calm → ending.Concludes (lambdaNodes (walkClauses result.2))

/-- What binding the conclusion of a query has to give, with the type of the query. -/
structure Conclusion.Outcome (tree : SyntaxTree) (conclusion : Conclusion) (calm : Prop)
    (table : TypeTable) (result : BoundConclusion × TypeId) : Prop where
  type : table.Has calm result.2
  reliable : result.1.Reliable tree table calm
  nodes : calm → result.1.nodes = conclusion.nodes
  concludes : calm → conclusion.Concludes (lambdaNodes result.1.walk)

/-- What binding a root expression has to give. -/
structure RootExpr.Outcome (tree : SyntaxTree) (root : RootExpr) (calm : Prop)
    (table : TypeTable) (bound : BoundExpr) : Prop where
  reliable : bound.Reliable tree table calm
  concludes : calm → root.Concludes (lambdaNodes bound.walk)

section

variable {tree : SyntaxTree} {damaged : Prop}

theorem Footing.withBinder {calm : Prop} {binder inner : Binder} {table : TypeTable}
    (footing : Footing damaged binder table calm) (reliable : inner.Reliable table calm) :
    Footing damaged inner table calm :=
  ⟨footing.ready, reliable, footing.whole⟩

theorem SyntaxTree.BranchAt.hasNode {node : NodeId} {kind : Kind} {children : List NodeId}
    (branch : tree.BranchAt node kind children) : tree.HasNode node := by
  rcases SyntaxTree.node_eq_ok branch.kind_eq with ⟨_, found, _⟩
  exact (Array.getElem?_eq_some_iff.mp found).1

mutual

/-- An expression that a tree has is bound well. -/
theorem bindExpr_keeps {state : BindingState} {calm : Prop} {binder : Binder}
    (footing : Footing damaged binder state.types calm) {expr : Expr}
    (isAt : expr.At tree damaged) :
    (bindExpr binder expr).Keeps state calm (expr.Outcome tree) := by
  match expr with
  | .name site identifier =>
      rcases isAt with ⟨branch, declares⟩
      rw [bindExpr]
      refine (bindName_keeps footing.ready footing.binder branch.hasNode
        (footing.present declares)).mono ?_
      intro calmer table bound _ outcome
      exact ⟨outcome.1, fun _ => outcome.2⟩
  | .literal site value =>
      rw [bindExpr]
      exact .pure footing.sound ⟨trivial, fun _ => rfl⟩
  | .parenthesized site inner =>
      rw [bindExpr]
      refine (bindExpr_keeps footing isAt.2).mono ?_
      intro calmer table bound _ outcome
      exact ⟨outcome.reliable, outcome.concludes⟩
  | .memberAccess site receiver member =>
      rcases isAt with ⟨name, branch, nameAt, receiverAt⟩
      rw [bindExpr]
      refine (bindExpr_keeps footing receiverAt).bind ?_
      intro bound after calmer advance outcome
      have later := footing.advance advance
      refine (bindMemberAccess_keeps later.ready outcome.reliable
        (later.present nameAt.declares)).mono ?_
      intro calmest table result advanceLast isResult
      refine ⟨isResult.1, fun isCalm => ?_⟩
      rw [isResult.2]
      exact outcome.concludes (advanceLast.implies isCalm)
  | .memberCall site receiver member arguments =>
      rcases isAt with ⟨callee, name, list, _, _, nameAt, _, receiverAt, argumentsAt⟩
      rw [bindExpr]
      refine (bindExpr_keeps footing receiverAt).bind ?_
      intro bound between calmBetween advanceFirst outcome
      refine (bindExprs_keep (footing.advance advanceFirst) argumentsAt).bind ?_
      intro boundArguments after calmer advance argumentsOutcome
      have later := (footing.advance advanceFirst).advance advance
      refine (bindMemberCall_keeps later.ready (outcome.reliable.advance advance)
        argumentsOutcome.reliable (later.present nameAt.declares)).mono ?_
      intro calmest table result advanceLast isResult
      refine ⟨isResult.1, fun isCalm => ⟨_, _, isResult.2, ?_, ?_⟩⟩
      · exact outcome.concludes (advance.implies (advanceLast.implies isCalm))
      · exact argumentsOutcome.concludes (advanceLast.implies isCalm)
  | .namedCall site callee arguments =>
      rcases isAt with ⟨name, list, _, nameAt, _, argumentsAt⟩
      rw [bindExpr]
      refine (bindExprs_keep footing argumentsAt).bind ?_
      intro bound after calmer advance outcome
      have later := footing.advance advance
      refine (bindNamedCall_keeps later.ready later.binder outcome.reliable
        (later.present nameAt.declares)).mono ?_
      intro calmest table result advanceLast isResult
      refine ⟨isResult.1, fun isCalm => ?_⟩
      rw [isResult.2]
      exact outcome.concludes (advanceLast.implies isCalm)
  | .valueCall site callee text arguments =>
      rcases isAt with ⟨list, _, _, _, calleeAt, argumentsAt⟩
      rw [bindExpr]
      refine (bindExpr_keeps footing calleeAt).bind ?_
      intro bound between calmBetween advanceFirst outcome
      refine (bindExprs_keep (footing.advance advanceFirst) argumentsAt).bind ?_
      intro boundArguments middle calmMiddle advanceSecond argumentsOutcome
      refine (Binding.report_keeps advanceSecond.sound rfl).bind ?_
      intro _ after calmer advance notCalm
      refine .pure advance.sound ⟨⟨notCalm, ?_, ?_⟩, fun isCalm => absurd isCalm notCalm⟩
      · exact outcome.reliable.advance (advanceSecond.trans advance)
      · exact BoundExpr.AllReliable.advance advance argumentsOutcome.reliable
  | .binary site operator left right =>
      rcases isAt with ⟨_, leftAt, rightAt⟩
      rw [bindExpr]
      refine (bindExpr_keeps footing leftAt).bind ?_
      intro boundLeft between calmBetween advanceFirst leftOutcome
      refine (bindExpr_keeps (footing.advance advanceFirst) rightAt).bind ?_
      intro boundRight after calmer advance rightOutcome
      have later := (footing.advance advanceFirst).advance advance
      refine (bindOperator_keeps later.ready (leftOutcome.reliable.advance advance)
        rightOutcome.reliable).mono ?_
      intro calmest table result advanceLast isResult
      refine ⟨isResult.1, fun isCalm => ⟨_, _, isResult.2, ?_, ?_⟩⟩
      · exact leftOutcome.concludes (advance.implies (advanceLast.implies isCalm))
      · exact rightOutcome.concludes (advanceLast.implies isCalm)
  | .query site clauses ending conclusion =>
      rcases isAt with ⟨first, rest, body, _, _, _, clausesAt, endingAt, conclusionAt⟩
      rw [bindExpr, if_neg (by rw [footing.binder.live]; decide)]
      refine (bindClauses_keep footing clausesAt).bind ?_
      rintro ⟨inner, bound⟩ afterClauses calmClauses advanceClauses clausesOutcome
      have laterClauses := footing.advance advanceClauses
      refine (bindEnding_keeps (laterClauses.withBinder clausesOutcome.binder) endingAt).bind ?_
      rintro ⟨type, last⟩ afterEnding calmEnding advanceEnding endingOutcome
      refine (bindConclusion_keeps (laterClauses.advance advanceEnding) endingOutcome.type
        conclusionAt).bind ?_
      rintro ⟨boundConclusion, queryType⟩ after calmer advance conclusionOutcome
      have clausesReliable := BoundClause.AllReliable.advance (advanceEnding.trans advance)
        clausesOutcome.reliable
      have lastReliable := BoundClause.AllReliable.advance advance endingOutcome.reliable
      refine .pure advance.sound ⟨⟨BoundClause.allReliable_append clausesReliable lastReliable,
        conclusionOutcome.reliable, conclusionOutcome.type⟩, fun isCalm => ?_⟩
      have calmAtEnding := advance.implies isCalm
      refine ⟨_, _, _, ?_, clausesOutcome.concludes (advanceEnding.implies calmAtEnding),
        endingOutcome.concludes calmAtEnding, conclusionOutcome.concludes isCalm⟩
      rw [lambdaNodes_query, walkClauses_append, lambdaNodes_append, List.append_assoc,
        conclusionOutcome.nodes isCalm]

/-- Expressions that a tree has are bound well. -/
theorem bindExprs_keep {state : BindingState} {calm : Prop} {binder : Binder}
    (footing : Footing damaged binder state.types calm) {exprs : List Expr}
    (areAt : Expr.AllAt tree damaged exprs) :
    (bindExprs binder exprs).Keeps state calm (Expr.AllOutcome tree exprs) := by
  match exprs with
  | [] =>
      rw [bindExprs]
      exact .pure footing.sound ⟨trivial, fun _ => rfl⟩
  | expr :: rest =>
      rw [bindExprs]
      refine (bindExpr_keeps footing areAt.1).bind ?_
      intro bound between calmBetween advanceFirst outcome
      refine (bindExprs_keep (footing.advance advanceFirst) areAt.2).bind ?_
      intro others after calmer advance othersOutcome
      refine .pure advance.sound ⟨⟨outcome.reliable.advance advance, othersOutcome.reliable⟩, ?_⟩
      intro isCalm
      refine ⟨_, _, ?_, outcome.concludes (advance.implies isCalm),
        othersOutcome.concludes isCalm⟩
      rw [walkAll, lambdaNodes_append]

/-- A clause that a tree has is bound well. -/
theorem bindClause_keeps {state : BindingState} {calm : Prop} {binder : Binder}
    (footing : Footing damaged binder state.types calm) {clause : Clause}
    (isAt : clause.At tree damaged) :
    (bindClause binder clause).Keeps state calm (clause.Outcome tree) := by
  match clause with
  | .fromClause site identifier source =>
      rcases isAt with ⟨_, _, sourceAt⟩
      rw [bindClause]
      refine (bindExpr_keeps footing sourceAt).bind ?_
      intro bound between calmBetween advanceFirst outcome
      have later := footing.advance advanceFirst
      refine (bindElementType_keeps later.ready outcome.reliable).bind ?_
      intro element middle calmMiddle advanceSecond has
      have laterStill := later.advance advanceSecond
      refine (declareRangeVariable_keeps laterStill.ready has).bind ?_
      intro declared after calmer advance isReliable
      have whole := advanceSecond.trans advance
      refine .pure advance.sound ⟨?_, ?_, fun isCalm => outcome.concludes (whole.implies isCalm)⟩
      · exact (laterStill.advance advance).binder.pushRangeVariable isReliable
      · exact ⟨symbols_reliable isReliable, outcome.reliable.advance whole⟩
  | .whereClause site condition =>
      rcases isAt with ⟨_, conditionAt⟩
      rw [bindClause]
      refine (bindExpr_keeps footing conditionAt).bind ?_
      intro bound after calmer advance outcome
      exact .pure advance.sound
        ⟨(footing.advance advance).binder, outcome.reliable, outcome.concludes⟩
  | .letClause site identifier value =>
      rcases isAt with ⟨_, _, valueAt⟩
      rw [bindClause]
      refine (bindExpr_keeps footing valueAt).bind ?_
      intro bound between calmBetween advanceFirst outcome
      have later := footing.advance advanceFirst
      refine (declareRangeVariable_keeps later.ready
        (outcome.reliable.type_has later.sound)).bind ?_
      intro declared after calmer advance isReliable
      refine .pure advance.sound ⟨?_, ?_, fun isCalm => outcome.concludes (advance.implies isCalm)⟩
      · exact (later.advance advance).binder.pushRangeVariable isReliable
      · exact ⟨symbols_reliable isReliable, outcome.reliable.advance advance⟩

/-- Clauses that a tree has are bound well. -/
theorem bindClauses_keep {state : BindingState} {calm : Prop} {binder : Binder}
    (footing : Footing damaged binder state.types calm) {clauses : List Clause}
    (areAt : Clause.AllAt tree damaged clauses) :
    (bindClauses binder clauses).Keeps state calm (Clause.AllOutcome tree clauses) := by
  match clauses with
  | [] =>
      rw [bindClauses]
      exact .pure footing.sound ⟨footing.binder, trivial, fun _ => rfl⟩
  | clause :: rest =>
      rw [bindClauses]
      refine (bindClause_keeps footing areAt.1).bind ?_
      rintro ⟨next, bound⟩ between calmBetween advanceFirst outcome
      have later := (footing.advance advanceFirst).withBinder outcome.binder
      refine (bindClauses_keep later areAt.2).bind ?_
      rintro ⟨inner, others⟩ after calmer advance othersOutcome
      refine .pure advance.sound ⟨othersOutcome.binder,
        ⟨BoundClause.Reliable.advance advance outcome.reliable, othersOutcome.reliable⟩, ?_⟩
      intro isCalm
      refine ⟨_, _, ?_, outcome.concludes (advance.implies isCalm),
        othersOutcome.concludes isCalm⟩
      rw [walkClauses, lambdaNodes_append]

/-- The last clause of a query that a tree has is bound well. -/
theorem bindEnding_keeps {state : BindingState} {calm : Prop} {binder : Binder}
    (footing : Footing damaged binder state.types calm) {ending : QueryEnding}
    (isAt : ending.At tree damaged) :
    (bindEnding binder ending).Keeps state calm (ending.Outcome tree) := by
  match ending with
  | .absent => exact isAt.elim
  | .selectClause site selected =>
      rcases isAt with ⟨_, selectedAt⟩
      rw [bindEnding]
      refine (bindExpr_keeps footing selectedAt).bind ?_
      intro bound between calmBetween advanceFirst outcome
      have has := outcome.reliable.type_has advanceFirst.sound
      refine (Binding.sequenceType_keeps advanceFirst.sound has).bind ?_
      intro type after calmer advance typeHas
      refine .pure advance.sound ⟨typeHas, ⟨outcome.reliable.advance advance, trivial⟩, ?_⟩
      intro isCalm
      simpa [QueryEnding.Concludes, walkClauses, BoundClause.walk] using
        outcome.concludes (advance.implies isCalm)
  | .groupClause site element key =>
      rcases isAt with ⟨_, elementAt, keyAt⟩
      rw [bindEnding]
      refine (bindExpr_keeps footing elementAt).bind ?_
      intro boundElement afterElement calmElement advanceElement elementOutcome
      refine (bindExpr_keeps (footing.advance advanceElement) keyAt).bind ?_
      intro boundKey afterKey calmKey advanceKey keyOutcome
      have elementReliable := elementOutcome.reliable.advance advanceKey
      refine (Binding.groupingType_keeps advanceKey.sound
        (keyOutcome.reliable.type_has advanceKey.sound)
        (elementReliable.type_has advanceKey.sound)).bind ?_
      intro grouping afterGrouping calmGrouping advanceGrouping groupingHas
      refine (Binding.sequenceType_keeps advanceGrouping.sound groupingHas).bind ?_
      intro type after calmer advanceType typeHas
      have advance := advanceGrouping.trans advanceType
      refine .pure advance.sound ⟨typeHas, ⟨⟨elementReliable.advance advance,
        keyOutcome.reliable.advance advance⟩, trivial⟩, fun isCalm => ?_⟩
      have calmAtKey := advance.implies isCalm
      refine ⟨_, _, ?_, elementOutcome.concludes (advanceKey.implies calmAtKey),
        keyOutcome.concludes calmAtKey⟩
      simp [walkClauses, BoundClause.walk]

/-- The conclusion of a query that a tree has is bound well. -/
theorem bindConclusion_keeps {state : BindingState} {calm : Prop} {binder : Binder}
    (footing : Footing damaged binder state.types calm) {type : Nat}
    (has : state.types.Has calm type) {conclusion : Conclusion}
    (isAt : conclusion.At tree damaged) :
    (bindConclusion binder type conclusion).Keeps state calm (conclusion.Outcome tree) := by
  match conclusion with
  | .absent =>
      rw [bindConclusion]
      exact .pure footing.sound ⟨has, trivial, fun _ => rfl, fun _ => rfl⟩
  | .present site identifier body =>
      rcases isAt with ⟨_, declares, bodyAt⟩
      rw [bindConclusion]
      split
      · next noName =>
          have notCalm := footing.present declares noName
          exact .pure footing.sound ⟨has, trivial, fun isCalm => absurd isCalm notCalm,
            fun isCalm => absurd isCalm notCalm⟩
      · next name isName =>
          refine (declareConclusionVariable_keeps footing.sound).bind ?_
          intro declared afterDeclared calmDeclared advanceDeclared sameName
          refine (declareConclusionScope_keeps advanceDeclared.sound (advanceDeclared.has has)
            (by rw [isName, sameName, Option.getD_some])).bind ?_
          rintro scope afterScope calmScope advanceScope ⟨isOwn, scopeReliable⟩
          have advanceInside := advanceDeclared.trans advanceScope
          let cleared : BindingState := { afterScope with diagnostics := [] }
          have inside : Footing damaged (binder.pushConclusion scope) cleared.types calmScope :=
            (footing.advance advanceInside).withBinder
              ⟨footing.binder.live, List.forall_mem_cons.mpr ⟨scopeReliable,
                (footing.advance advanceInside).binder.scopes⟩⟩
          refine (Binding.Keeps.collecting (bindRoot_keeps inside bodyAt)).bind ?_
          rintro ⟨value, diagnostics⟩ after calmer advance outcome
          refine .pure advance.sound ⟨outcome.reliable.type_has advance.sound, ⟨?_, ?_, ?_⟩,
            fun _ => rfl, ?_⟩
          · exact Symbol.reliable_of_isConclusionVariable declared.property
          · exact advance.has (advanceInside.has has)
          · exact outcome.reliable
          · intro isCalm
            simpa [Conclusion.Concludes, BoundConclusion.walk, lambdaNodes, BoundPart.lambda?]
              using outcome.concludes isCalm

/-- A root expression that a tree has is bound well. -/
theorem bindRoot_keeps {state : BindingState} {calm : Prop} {binder : Binder}
    (footing : Footing damaged binder state.types calm) {root : RootExpr}
    (isAt : root.At tree damaged) :
    (bindRoot binder root).Keeps state calm (root.Outcome tree) := by
  match root with
  | .tooDeep site reported =>
      rw [bindRoot]
      refine (Binding.report_keeps footing.sound rfl).bind ?_
      intro _ after calmer advance notCalm
      exact .pure advance.sound ⟨⟨notCalm, trivial⟩, fun isCalm => absurd isCalm notCalm⟩
  | .expression expr =>
      rw [bindRoot]
      refine (bindExpr_keeps footing isAt).mono ?_
      intro calmer table bound _ outcome
      exact ⟨outcome.reliable, outcome.concludes⟩

end

end

end QueryLang
