import QueryLang.Proofs.Binding.Agreeing
import QueryLang.Proofs.Binding.Expression
import QueryLang.Proofs.Bound.Matching
import QueryLang.Proofs.Program.Located

/-!
# Expressions that agree

An expression that is bound from two points which are alike gives the same reports, and the bound
expressions are alike. Wherever binding asks something of a type, a symbol or a scope, the answers
are the same on both sides, so both take the same way.
-/

namespace QueryLang

/-- Two points of programs from which the same names are looked up. -/
structure Binder.Paired (objects : TypeId → TypeId → Prop) (ids : Nat → Nat → Prop)
    (places : Location → Prop)
    (state other : BindingState) (binder otherBinder : Binder) : Prop where
  states : state.Alike objects ids places other
  binders : binder.Alike (state.Matches objects other) (state.Numbers ids other) otherBinder

/-! ### Fixed types and operators -/

section

variable {left right : TypeTable} {objects : TypeId → TypeId → Prop} {type other : TypeId}

theorem TypeTable.Matches.int : left.Matches right objects .int .int := .intrinsic rfl

theorem TypeTable.Matches.string : left.Matches right objects .string .string := .intrinsic rfl

theorem TypeTable.Matches.bool : left.Matches right objects .bool .bool := .intrinsic rfl

theorem TypeTable.Matches.error : left.Matches right objects .error .error := .intrinsic rfl

theorem Constant.type_matches (value : Constant) :
    left.Matches right objects value.type value.type := by
  cases value <;> exact .intrinsic rfl

theorem TypeTable.Aligned.beq_eq (aligned : left.Aligned right objects)
    {second otherSecond : TypeId} (matching : left.Matches right objects type other)
    (seconds : left.Matches right objects second otherSecond) :
    (type == second) = (other == otherSecond) :=
  beq_eq_of_biUnique aligned.biUnique matching seconds

theorem TypeTable.Aligned.isError_eq (aligned : left.Aligned right objects)
    (matching : left.Matches right objects type other) : type.isError = other.isError :=
  aligned.beq_eq matching .error

/-- Operators take the same operands, and their results have fixed types. -/
theorem TypeTable.Aligned.operatorType?_alike (aligned : left.Aligned right objects)
    (operator : Kind) {second otherSecond : TypeId}
    (matching : left.Matches right objects type other)
    (seconds : left.Matches right objects second otherSecond) :
    Option.Rel (left.Matches right objects) (operatorType? operator type second)
      (operatorType? operator other otherSecond) := by
  have same : operatorType? operator type second = operatorType? operator other otherSecond := by
    unfold operatorType?
    rw [aligned.beq_eq matching .int,
      aligned.beq_eq seconds .int,
      aligned.beq_eq matching .string,
      aligned.beq_eq seconds .string,
      aligned.beq_eq matching .bool,
      aligned.beq_eq seconds .bool,
      aligned.beq_eq matching seconds]
  rw [same]
  cases isType : operatorType? operator other otherSecond with
  | none => exact .none
  | some result =>
      have fixed := mem_of_operatorType? isType
      simp only [List.mem_cons, List.not_mem_nil, or_false] at fixed
      rcases fixed with rfl | rfl | rfl
      · exact .some .int
      · exact .some .string
      · exact .some .bool

end

/-! ### Binders that are alike -/

section

variable {types : TypeId → TypeId → Prop} {ids : Nat → Nat → Prop} {binder otherBinder : Binder}

theorem Binder.Alike.push (alike : binder.Alike types ids otherBinder) {scope otherScope : Scope}
    (scopes : scope.Alike types ids otherScope) :
    (binder.push scope).Alike types ids (otherBinder.push otherScope) :=
  ⟨.cons scopes alike.scopes, alike.container, alike.isCancelled⟩

theorem Binder.Alike.pushRangeVariable (alike : binder.Alike types ids otherBinder)
    {declared otherDeclared : Option RangeVariable}
    (symbols : Option.Rel (fun own other => own.val.Alike types ids other.val) declared
      otherDeclared) :
    (binder.pushRangeVariable declared).Alike types ids
      (otherBinder.pushRangeVariable otherDeclared) := by
  cases symbols with
  | none => exact alike
  | @some own other symbols => exact alike.push (.rangeVariable own.property other.property symbols)

theorem RangeVariable.alike_val {declared otherDeclared : Option RangeVariable}
    (symbols : Option.Rel (fun own other => own.val.Alike types ids other.val) declared
      otherDeclared) :
    Option.Rel (Symbol.Alike types ids) (declared.map Subtype.val)
      (otherDeclared.map Subtype.val) := by
  cases symbols with
  | none => exact .none
  | some symbols => exact .some symbols

theorem Binder.Alike.pushConclusion (alike : binder.Alike types ids otherBinder)
    {scope otherScope : ConclusionScope} (scopes : scope.Alike types ids otherScope) :
    (binder.pushConclusion scope).Alike types ids (otherBinder.pushConclusion otherScope) :=
  ⟨.cons (.conclusion scopes) alike.scopes, scopes.lambda, alike.isCancelled⟩

theorem conclusionReference?_alike (uniqueTypes : Relator.BiUnique types)
    (uniqueIds : Relator.BiUnique ids) {scopes others : List Scope}
    (scopesAlike : List.Forall₂ (Scope.Alike types ids) scopes others) {symbol other : Symbol}
    (symbols : symbol.Alike types ids other) {node : NodeId} {found otherFound : Option BoundExpr}
    (isFound : conclusionReference? node symbol scopes = .ok found)
    (isOther : conclusionReference? node other others = .ok otherFound) :
    Option.Rel (BoundExpr.Alike types ids) found otherFound := by
  induction scopesAlike with
  | nil =>
      cases isFound
      cases isOther
      exact .none
  | cons scopeAlike _ ih =>
      cases scopeAlike with
      | global _ | locals _ | rangeVariable _ _ _ => exact ih isFound isOther
      | @conclusion scope otherScope alike =>
          rw [conclusionReference?] at isFound isOther
          rw [← symbols.sameSymbol_eq uniqueTypes uniqueIds alike.symbol] at isOther
          split at isFound
          · next isSame =>
              rw [if_pos isSame] at isOther
              rcases Checked.bind_eq_ok_iff.mp isFound with ⟨_, isParameter, foundEq⟩
              rcases Checked.bind_eq_ok_iff.mp isOther with ⟨_, isOtherParameter, otherEq⟩
              cases foundEq
              cases otherEq
              have parameters := alike.parameterOf symbols isParameter isOtherParameter
              exact .some (.conclusionVariable alike.symbol ⟨rfl, parameters, alike.type, rfl⟩)
          · next notSame =>
              rw [if_neg notSame] at isOther
              exact ih isFound isOther

end

open Binding

variable {objects : TypeId → TypeId → Prop} {ids : Nat → Nat → Prop} {places : Location → Prop}
  {state other : BindingState} {binder otherBinder : Binder} {site : Site}
  {identifier : Identifier}

theorem Binder.Paired.follow {after otherAfter : BindingState}
    (paired : binder.Paired objects ids places state other otherBinder)
    (alike : after.Alike objects ids places otherAfter)
    (follow : state.Follow other after otherAfter) :
    binder.Paired objects ids places after otherAfter otherBinder :=
  ⟨alike, paired.binders.mono follow.matches_mono follow.numbers_mono⟩

section Follow

variable {after otherAfter : BindingState} (later : state.Follow other after otherAfter)

include later

theorem Symbol.Alike.follow {symbol otherSymbol : Symbol}
    (alike : symbol.Alike (state.Matches objects other) (state.Numbers ids other) otherSymbol) :
    symbol.Alike (after.Matches objects otherAfter) (after.Numbers ids otherAfter) otherSymbol :=
  alike.mono later.matches_mono later.numbers_mono

theorem BoundExpr.Alike.follow {bound otherBound : BoundExpr}
    (alike : bound.Alike (state.Matches objects other) (state.Numbers ids other) otherBound) :
    bound.Alike (after.Matches objects otherAfter) (after.Numbers ids otherAfter) otherBound :=
  alike.mono later.matches_mono later.numbers_mono

theorem BoundExpr.AllAlike.follow {bound otherBound : List BoundExpr}
    (alike : BoundExpr.AllAlike (state.Matches objects other) (state.Numbers ids other) bound
      otherBound) :
    BoundExpr.AllAlike (after.Matches objects otherAfter) (after.Numbers ids otherAfter) bound
      otherBound :=
  alike.mono later.matches_mono later.numbers_mono

end Follow

/-- What could not be bound is bad on both sides. -/
theorem BoundExpr.Alike.bad_of_matches (node : NodeId) {children others : List BoundExpr}
    (children_alike : BoundExpr.AllAlike (state.Matches objects other) ids children others) :
    (BoundExpr.bad node children).Alike (state.Matches objects other) ids (.bad node others) :=
  .bad node children_alike .error

/-! ### Names -/

theorem LookupResult.Alike.reportFailure_agrees {result otherResult : LookupResult}
    (results : result.Alike (state.Matches objects other) (state.Numbers ids other) otherResult)
    (alike : state.Alike objects ids places other) (name : String) {location : Location}
    (isPlace : places location) :
    Agree objects ids places (result.reportFailure name location)
      (otherResult.reportFailure name location) state other fun _ _ _ _ => True := by
  unfold LookupResult.reportFailure
  rw [results.error]
  split
  all_goals exact report_agrees alike isPlace _ _

/-- A name is found on both sides, or the same failure is reported. -/
theorem Binder.Paired.lookup_agrees {γ δ : Type}
    (paired : binder.Paired objects ids places state other otherBinder) {name : String}
    {options : LookupOptions} {location : Location} (isPlace : places location)
    {found : Symbol → Binding γ} {otherFound : Symbol → Binding δ} {failed : γ} {otherFailed : δ}
    {good : (TypeId → TypeId → Prop) → (Nat → Nat → Prop) → γ → δ → Prop}
    (finds : ∀ symbol otherSymbol,
      symbol.Alike (state.Matches objects other) (state.Numbers ids other) otherSymbol →
        Agree objects ids places (found symbol) (otherFound otherSymbol) state other good)
    (fails : ∀ after otherAfter : BindingState, state.Follow other after otherAfter →
      good (after.Matches objects otherAfter) (after.Numbers ids otherAfter) failed otherFailed) :
    Agree objects ids places
      (do
        let result ← binder.lookup name 0 options
        match result.answer? with
        | some symbol => found symbol
        | none =>
          result.reportFailure name location
          return failed)
      (do
        let result ← otherBinder.lookup name 0 options
        match result.answer? with
        | some symbol => otherFound symbol
        | none =>
          result.reportFailure name location
          return otherFailed)
      state other good := by
  refine .bind_lift fun result otherResult isResult isOther => ?_
  have results := Scope.lookupThrough_alike paired.binders.scopes isResult isOther
  have answers := results.answer?
  generalize result.answer? = answer at answers ⊢
  generalize otherResult.answer? = otherAnswer at answers ⊢
  cases answers with
  | some symbols => exact finds _ _ symbols
  | none =>
      refine (results.reportFailure_agrees paired.states name isPlace).bind ?_
      exact fun _ _ after otherAfter alike follow _ =>
        .pure alike (fails after otherAfter follow)

theorem bindReference_agrees (paired : binder.Paired objects ids places state other otherBinder)
    (siteIn : site.Placed places) {name : String} {location : Location}
    (isPlace : places location) {symbol otherSymbol : Symbol}
    (symbols : symbol.Alike (state.Matches objects other) (state.Numbers ids other) otherSymbol) :
    Agree objects ids places (bindReference binder site name location symbol)
      (bindReference otherBinder site name location otherSymbol) state other
      BoundExpr.Alike := by
  have alike := paired.states
  have types : state.Matches objects other (symbol.type?.getD .error)
      (otherSymbol.type?.getD .error) :=
    symbols.getD_type? .error
  unfold bindReference
  rw [symbols.kind]
  cases otherSymbol.kind with
  | localVariable => exact .pure alike (.localVariable site.node symbols types)
  | field | property => exact .pure alike (.field site.node symbols types)
  | rangeVariable => exact .pure alike (.rangeVariable site.node symbols types)
  | parameter => exact .pure alike (.parameter ⟨rfl, symbols, types, rfl⟩)
  | queryConclusionVariable =>
      refine .bind_lift fun found otherFound isFound isOther => ?_
      have references := conclusionReference?_alike alike.types.biUnique
        (NumbersBelow.biUnique alike.unique) paired.binders.scopes symbols isFound isOther
      cases references with
      | none =>
          rw [symbols.text]
          refine (report_agrees alike siteIn _ _).bind fun _ _ _ _ after _ _ => ?_
          exact .pure after (.bad_of_matches site.node .nil)
      | some references => exact .pure alike references
  | «namespace» | namedType | method | lambda | label =>
      refine (report_agrees alike isPlace _ _).bind fun _ _ _ _ after _ _ => ?_
      exact .pure after (.bad_of_matches site.node .nil)

theorem bindName_agrees (paired : binder.Paired objects ids places state other otherBinder)
    (siteIn : site.Placed places) (isIn : identifier.Placed places) :
    Agree objects ids places (bindName binder site identifier)
      (bindName otherBinder site identifier)
      state other BoundExpr.Alike := by
  unfold bindName
  split
  · exact .pure paired.states (.bad_of_matches site.node .nil)
  · next name _ =>
      refine paired.lookup_agrees isIn (fun _ _ symbols => ?_) fun _ _ _ =>
        .bad_of_matches site.node .nil
      exact bindReference_agrees paired siteIn isIn symbols

/-! ### Members and calls -/

/-- Members are found on both sides or on neither. -/
theorem findMember_agrees (alike : state.Alike objects ids places other) {type otherType : TypeId}
    (types : state.Matches objects other type otherType) (isIn : identifier.Placed places)
    (wantsMethod : Bool) {message : DiagnosticMessage} {arguments : String → List String} :
    Agree objects ids places
      (findMember type identifier wantsMethod fun name =>
        report identifier.location message (arguments name))
      (findMember otherType identifier wantsMethod fun name =>
        report identifier.location message (arguments name))
      state other fun types _ => Option.Rel fun found otherFound =>
        found.1 = otherFound.1 ∧ types found.2 otherFound.2 := by
  unfold findMember
  split
  · exact .pure alike .none
  · next name _ =>
      rw [alike.types.isError_eq types]
      split
      · exact .pure alike .none
      · refine (member?_agrees alike types name).bind ?_
        intro found otherFound _ _ after follow members
        cases members with
        | none =>
            refine (displayType_agrees after (follow.matches_mono _ _ types)).bind ?_
            rintro text _ _ _ shown _ rfl
            exact (report_agrees shown isIn _ _).bind fun _ _ _ _ last _ _ => .pure last .none
        | some members =>
            dsimp only
            rw [members.isMethod]
            split
            · exact .pure after (.some ⟨rfl, members.type⟩)
            · exact (report_agrees after isIn _ _).bind fun _ _ _ _ last _ _ => .pure last .none

theorem bindMemberAccess_agrees (alike : state.Alike objects ids places other)
    {receiver otherReceiver : BoundExpr}
    (receivers : receiver.Alike (state.Matches objects other) (state.Numbers ids other)
      otherReceiver)
    (isIn : identifier.Placed places) :
    Agree objects ids places (bindMemberAccess site receiver identifier)
      (bindMemberAccess site otherReceiver identifier) state other BoundExpr.Alike := by
  refine (findMember_agrees alike receivers.type isIn false).bind ?_
  intro found otherFound _ _ after follow members
  have still := receivers.follow follow
  cases members with
  | none => exact .pure after (.bad_of_matches site.node (.cons still .nil))
  | @some member otherMember members =>
      rcases member with ⟨name, type⟩
      rcases otherMember with ⟨_, otherType⟩
      rcases members with ⟨rfl, types⟩
      exact .pure after (.memberAccess site.node name still types)

theorem bindMemberCall_agrees (alike : state.Alike objects ids places other)
    {receiver otherReceiver : BoundExpr} {arguments otherArguments : List BoundExpr}
    (receivers : receiver.Alike (state.Matches objects other) (state.Numbers ids other)
      otherReceiver)
    (isIn : identifier.Placed places)
    (arguments_alike : BoundExpr.AllAlike (state.Matches objects other) (state.Numbers ids other)
      arguments otherArguments) :
    Agree objects ids places (bindMemberCall site receiver identifier arguments)
      (bindMemberCall site otherReceiver identifier otherArguments) state other
      BoundExpr.Alike := by
  refine (findMember_agrees alike receivers.type isIn true).bind ?_
  intro found otherFound _ _ after follow members
  have still := receivers.follow follow
  have stillAll := arguments_alike.follow follow
  cases members with
  | none => exact .pure after (.bad_of_matches site.node (.cons still stillAll))
  | @some member otherMember members =>
      rcases member with ⟨name, type⟩
      rcases otherMember with ⟨_, otherType⟩
      rcases members with ⟨rfl, types⟩
      exact .pure after (.memberCall site.node name still stillAll types)

theorem bindNamedCall_agrees (paired : binder.Paired objects ids places state other otherBinder)
    (isIn : identifier.Placed places) {arguments otherArguments : List BoundExpr}
    (arguments_alike : BoundExpr.AllAlike (state.Matches objects other) (state.Numbers ids other)
      arguments otherArguments) :
    Agree objects ids places (bindNamedCall binder site identifier arguments)
      (bindNamedCall otherBinder site identifier otherArguments) state other
      BoundExpr.Alike := by
  unfold bindNamedCall
  split
  · exact .pure paired.states (.bad_of_matches site.node arguments_alike)
  · next name _ =>
      refine paired.lookup_agrees isIn (fun _ _ methods => ?_) fun _ _ follow =>
        .bad_of_matches site.node (arguments_alike.follow follow)
      rw [methods.text]
      exact .pure paired.states
        (.namedCall site.node _ arguments_alike (methods.getD_type? .error))

/-! ### Operators -/

theorem bindOperator_agrees (alike : state.Alike objects ids places other) {operator : Operator}
    (operatorIn : operator.Placed places) {left otherLeft right otherRight : BoundExpr}
    (lefts : left.Alike (state.Matches objects other) (state.Numbers ids other) otherLeft)
    (rights : right.Alike (state.Matches objects other) (state.Numbers ids other) otherRight) :
    Agree objects ids places (bindOperator site operator left right)
      (bindOperator site operator otherLeft otherRight) state other BoundExpr.Alike := by
  unfold bindOperator
  dsimp only
  rw [alike.types.isError_eq lefts.type, alike.types.isError_eq rights.type]
  split
  · exact .pure alike (.binary site.node operator.kind lefts rights .error)
  · have results := alike.types.operatorType?_alike operator.kind lefts.type rights.type
    generalize operatorType? operator.kind left.type right.type = found at results ⊢
    generalize operatorType? operator.kind otherLeft.type otherRight.type = otherFound
      at results ⊢
    cases results with
    | some types => exact .pure alike (.binary site.node operator.kind lefts rights types)
    | none =>
        refine (displayType_agrees alike lefts.type).bind ?_
        rintro leftText _ _ _ leftShown leftFollow rfl
        refine (displayType_agrees leftShown (leftFollow.matches_mono _ _ rights.type)).bind ?_
        rintro rightText _ _ _ shown rightFollow rfl
        refine (report_agrees shown operatorIn _ _).bind fun _ _ _ _ last further _ => ?_
        have whole := (leftFollow.trans rightFollow).trans further
        exact .pure last
          (.binary site.node operator.kind (lefts.follow whole) (rights.follow whole) .error)

/-! ### Variables of queries -/

theorem bindElementType_agrees (alike : state.Alike objects ids places other)
    {source otherSource : BoundExpr}
    (types : state.Matches objects other source.type otherSource.type) {location : Location}
    (isPlace : places location) :
    Agree objects ids places (bindElementType source location)
      (bindElementType otherSource location)
      state other fun types _ type otherType => types type otherType := by
  unfold bindElementType
  rw [alike.types.isError_eq types]
  split
  · exact .pure alike .error
  · refine (element?_agrees alike types).bind fun found otherFound _ _ after follow elements => ?_
    cases elements with
    | some elements => exact .pure after elements
    | none =>
        refine (displayType_agrees after (follow.matches_mono _ _ types)).bind ?_
        rintro text _ _ _ shown _ rfl
        exact (report_agrees shown isPlace _ _).bind fun _ _ _ _ last _ _ => .pure last .error

/-- The names of variables of queries conflict on both sides or on neither. -/
theorem LookupResult.Alike.conflicts_eq {types : TypeId → TypeId → Prop}
    {result otherResult : LookupResult} (alike : result.Alike types ids otherResult)
    (conflicts : SymbolKind → Bool) :
    (result.isViable && result.symbols.any fun symbol => conflicts symbol.kind) =
      (otherResult.isViable && otherResult.symbols.any fun symbol => conflicts symbol.kind) := by
  have kinds : result.symbols.map Symbol.kind = otherResult.symbols.map Symbol.kind := by
    rw [← List.forall₂_eq_eq_eq, List.forall₂_map_left_iff, List.forall₂_map_right_iff]
    exact alike.symbols.imp fun _ _ => Symbol.Alike.kind
  have asMap (symbols : List Symbol) : (symbols.any fun symbol => conflicts symbol.kind) =
      (symbols.map Symbol.kind).any conflicts := by
    rw [List.any_map]
    rfl
  rw [alike.isViable, asMap, asMap, kinds]

theorem declareRangeVariable_agrees
    (paired : binder.Paired objects ids places state other otherBinder)
    (isIn : identifier.Placed places) {type otherType : TypeId}
    (types : state.Matches objects other type otherType) :
    Agree objects ids places (declareRangeVariable binder identifier type)
      (declareRangeVariable otherBinder identifier otherType) state other fun types numbers =>
        Option.Rel fun own otherOwn => own.val.Alike types numbers otherOwn.val := by
  unfold declareRangeVariable
  split
  · exact .pure paired.states .none
  · next name _ =>
      refine .bind_lift fun result otherResult isResult isOther => ?_
      have results := Scope.lookupThrough_alike paired.binders.scopes isResult isOther
      have same := results.conflicts_eq fun kind => kind == .localVariable || kind == .rangeVariable
      dsimp only at same ⊢
      rw [same]
      refine report_if_agrees paired.states isIn fun after otherAfter alike follow => ?_
      refine (freshId_agrees alike).bind fun id otherId _ _ last further numbers => ?_
      have whole := follow.trans further
      have containers := paired.binders.container.follow whole
      exact .pure last (.some
        (containers.located numbers name _ (.rangeVariable (whole.matches_mono _ _ types))))

theorem declareConclusionVariable_agrees
    (paired : binder.Paired objects ids places state other otherBinder) (name : String)
    (location : Location) :
    Agree objects ids places (declareConclusionVariable binder name location)
      (declareConclusionVariable otherBinder name location) state other
      fun types numbers own otherOwn => own.val.Alike types numbers otherOwn.val := by
  refine (freshId_agrees paired.states).bind fun id otherId _ _ after follow numbers => ?_
  have containers := paired.binders.container.follow follow
  exact .pure after (containers.located numbers name _ .queryConclusionVariable)

theorem declareConclusionScope_agrees
    (paired : binder.Paired objects ids places state other otherBinder)
    {own otherOwn : ConclusionVariable}
    (symbols : own.val.Alike (state.Matches objects other) (state.Numbers ids other) otherOwn.val)
    {type otherType : TypeId} (types : state.Matches objects other type otherType) :
    Agree objects ids places (declareConclusionScope binder site identifier own type)
      (declareConclusionScope otherBinder site identifier otherOwn otherType) state other
      fun types numbers scope otherScope => scope.Alike types numbers otherScope := by
  refine (freshId_agrees paired.states).bind fun id otherId _ _ after follow numbers => ?_
  refine (freshId_agrees after).bind fun parameter otherParameter _ _ last further others => ?_
  have whole := follow.trans further
  have containers := paired.binders.container.follow whole
  have ownTypes := whole.matches_mono _ _ types
  refine .pure last ⟨symbols.follow whole, ownTypes, ?_⟩
  exact containers.located (further.numbers_mono _ _ numbers) _ _
    (.lambda (.cons ⟨others, rfl, rfl, ownTypes, rfl⟩ .nil))

/-! ### Expressions -/

mutual

/-- Binding an expression from points that are alike gives expressions that are alike. -/
theorem bindExpr_agrees {state other : BindingState} {binder otherBinder : Binder}
    (paired : binder.Paired objects ids places state other otherBinder) (expr : Expr)
    (placed : expr.Placed places) :
    Agree objects ids places (bindExpr binder expr) (bindExpr otherBinder expr) state other
      BoundExpr.Alike := by
  match expr with
  | .name site identifier =>
      rw [bindExpr, bindExpr]
      exact bindName_agrees paired placed.1 placed.2
  | .literal site value =>
      rw [bindExpr, bindExpr]
      exact .pure paired.states (.literal site.node value.type_matches)
  | .parenthesized site inner =>
      rw [bindExpr, bindExpr]
      exact bindExpr_agrees paired inner placed.2
  | .memberAccess site receiver member =>
      rw [bindExpr, bindExpr]
      rcases placed with ⟨siteIn, receiverIn, memberIn⟩
      refine (bindExpr_agrees paired receiver receiverIn).bind fun _ _ _ _ after _ receivers => ?_
      exact bindMemberAccess_agrees after receivers memberIn
  | .memberCall site receiver member arguments =>
      rw [bindExpr, bindExpr]
      rcases placed with ⟨siteIn, receiverIn, memberIn, argumentsIn⟩
      refine (bindExpr_agrees paired receiver receiverIn).bind ?_
      intro _ _ _ _ after follow receivers
      refine (bindExprs_agree (paired.follow after follow) arguments argumentsIn).bind ?_
      intro _ _ _ _ last further arguments_alike
      exact bindMemberCall_agrees last (receivers.follow further) memberIn arguments_alike
  | .namedCall site callee arguments =>
      rw [bindExpr, bindExpr]
      rcases placed with ⟨siteIn, calleeIn, argumentsIn⟩
      refine (bindExprs_agree paired arguments argumentsIn).bind ?_
      intro _ _ _ _ after follow arguments_alike
      exact bindNamedCall_agrees (paired.follow after follow) calleeIn arguments_alike
  | .valueCall site callee text arguments =>
      rw [bindExpr, bindExpr]
      rcases placed with ⟨siteIn, calleeIn, argumentsIn⟩
      refine (bindExpr_agrees paired callee calleeIn).bind fun _ _ _ _ after follow callees => ?_
      refine (bindExprs_agree (paired.follow after follow) arguments argumentsIn).bind ?_
      intro _ _ _ _ bound further arguments_alike
      refine (report_agrees bound calleeIn.site _ _).bind fun _ _ _ _ reported last _ => ?_
      have children := (BoundExpr.AllAlike.cons (callees.follow further) arguments_alike)
      exact .pure reported (.bad_of_matches site.node (children.follow last))
  | .binary site operator left right =>
      rw [bindExpr, bindExpr]
      rcases placed with ⟨siteIn, operatorIn, leftIn, rightIn⟩
      refine (bindExpr_agrees paired left leftIn).bind fun _ _ _ _ after follow lefts => ?_
      refine (bindExpr_agrees (paired.follow after follow) right rightIn).bind ?_
      intro _ _ _ _ last further rights
      exact bindOperator_agrees last operatorIn (lefts.follow further) rights
  | .query site clauses ending conclusion =>
      rw [bindExpr, bindExpr, paired.binders.isCancelled]
      rcases placed with ⟨siteIn, clausesIn, endingIn, conclusionIn⟩
      split
      · exact .pure paired.states (.bad_of_matches site.node .nil)
      · refine (bindClauses_agree paired clauses clausesIn).bind ?_
        rintro ⟨inner, bound⟩ ⟨otherInner, otherBound⟩ _ _ after follow ⟨inners, clauses_alike⟩
        refine (bindEnding_agrees ⟨after, inners⟩ ending endingIn).bind ?_
        rintro ⟨type, last⟩ ⟨otherType, otherLast⟩ _ _ ended further ⟨types, lasts⟩
        -- the conclusion is bound outside the query
        have outside := paired.follow ended (follow.trans further)
        refine (bindConclusion_agrees outside types conclusion conclusionIn).bind ?_
        rintro ⟨boundConclusion, finalType⟩ ⟨otherConclusion, otherFinal⟩ _ _ concluded final
          ⟨conclusions, finalTypes⟩
        have whole := further.trans final
        have bodies := (clauses_alike.mono whole.matches_mono whole.numbers_mono).append
          (lasts.mono final.matches_mono final.numbers_mono)
        exact .pure concluded (.query site.node bodies conclusions finalTypes)

theorem bindExprs_agree {state other : BindingState} {binder otherBinder : Binder}
    (paired : binder.Paired objects ids places state other otherBinder) (exprs : List Expr)
    (placed : Expr.AllPlaced places exprs) :
    Agree objects ids places (bindExprs binder exprs) (bindExprs otherBinder exprs) state other
      BoundExpr.AllAlike := by
  match exprs with
  | [] =>
      rw [bindExprs, bindExprs]
      exact .pure paired.states .nil
  | expr :: rest =>
      rw [bindExprs, bindExprs]
      refine (bindExpr_agrees paired expr placed.1).bind fun _ _ _ _ after follow first => ?_
      refine (bindExprs_agree (paired.follow after follow) rest placed.2).bind ?_
      exact fun _ _ _ _ last further others => .pure last (.cons (first.follow further) others)

/-- After a clause the binders are still alike. -/
theorem bindClause_agrees {state other : BindingState} {binder otherBinder : Binder}
    (paired : binder.Paired objects ids places state other otherBinder) (clause : Clause)
    (placed : clause.Placed places) :
    Agree objects ids places (bindClause binder clause) (bindClause otherBinder clause) state other
      fun types numbers result otherResult => result.1.Alike types numbers otherResult.1 ∧
        result.2.Alike types numbers otherResult.2 := by
  match clause with
  | .fromClause site identifier source =>
      rw [bindClause, bindClause]
      rcases placed with ⟨siteIn, isIn, sourceIn⟩
      refine (bindExpr_agrees paired source sourceIn).bind fun _ _ _ _ after follow sources => ?_
      refine (bindElementType_agrees after sources.type (source.innerSite_placed sourceIn)).bind ?_
      intro _ _ _ _ found further elements
      have still := (paired.follow after follow).follow found further
      refine (declareRangeVariable_agrees still isIn elements).bind ?_
      intro _ _ _ _ declared last symbols
      exact .pure declared ⟨(still.follow declared last).binders.pushRangeVariable symbols,
        .fromClause site.node (RangeVariable.alike_val symbols)
          (sources.follow (further.trans last))⟩
  | .whereClause site condition =>
      rw [bindClause, bindClause]
      refine (bindExpr_agrees paired condition placed.2).bind ?_
      intro _ _ _ _ after follow conditions
      exact .pure after ⟨(paired.follow after follow).binders, .whereClause site.node conditions⟩
  | .letClause site identifier value =>
      rw [bindClause, bindClause]
      rcases placed with ⟨siteIn, isIn, valueIn⟩
      refine (bindExpr_agrees paired value valueIn).bind fun _ _ _ _ after follow values => ?_
      have still := paired.follow after follow
      refine (declareRangeVariable_agrees still isIn values.type).bind ?_
      intro _ _ _ _ declared last symbols
      exact .pure declared ⟨(still.follow declared last).binders.pushRangeVariable symbols,
        .letClause site.node (RangeVariable.alike_val symbols) (values.follow last)⟩

theorem bindClauses_agree {state other : BindingState} {binder otherBinder : Binder}
    (paired : binder.Paired objects ids places state other otherBinder) (clauses : List Clause)
    (placed : Clause.AllPlaced places clauses) :
    Agree objects ids places (bindClauses binder clauses) (bindClauses otherBinder clauses) state
      other fun types numbers result otherResult => result.1.Alike types numbers otherResult.1 ∧
        BoundClause.AllAlike types numbers result.2 otherResult.2 := by
  match clauses with
  | [] =>
      rw [bindClauses, bindClauses]
      exact .pure paired.states ⟨paired.binders, .nil⟩
  | clause :: rest =>
      rw [bindClauses, bindClauses]
      refine (bindClause_agrees paired clause placed.1).bind ?_
      rintro ⟨next, bound⟩ ⟨otherNext, otherBound⟩ _ _ after _ ⟨nexts, first⟩
      refine (bindClauses_agree ⟨after, nexts⟩ rest placed.2).bind ?_
      rintro ⟨inner, others⟩ ⟨otherInner, otherOthers⟩ _ _ last further ⟨inners, rests⟩
      exact .pure last ⟨inners, .cons (first.mono further.matches_mono further.numbers_mono) rests⟩

theorem bindEnding_agrees {state other : BindingState} {binder otherBinder : Binder}
    (paired : binder.Paired objects ids places state other otherBinder) (ending : QueryEnding)
    (placed : ending.Placed places) :
    Agree objects ids places (bindEnding binder ending) (bindEnding otherBinder ending) state other
      fun types numbers result otherResult => types result.1 otherResult.1 ∧
        BoundClause.AllAlike types numbers result.2 otherResult.2 := by
  match ending with
  | .absent =>
      rw [bindEnding, bindEnding]
      exact .pure paired.states ⟨.error, .nil⟩
  | .selectClause site selected =>
      rw [bindEnding, bindEnding]
      refine (bindExpr_agrees paired selected placed.2).bind fun _ _ _ _ after _ selecteds => ?_
      refine (sequenceType_agrees after selecteds.type).bind fun _ _ _ _ last follow sequences => ?_
      exact .pure last ⟨sequences, .cons (.selectClause site.node (selecteds.follow follow)) .nil⟩
  | .groupClause site element key =>
      rw [bindEnding, bindEnding]
      rcases placed with ⟨siteIn, elementIn, keyIn⟩
      refine (bindExpr_agrees paired element elementIn).bind fun _ _ _ _ after follow elements => ?_
      refine (bindExpr_agrees (paired.follow after follow) key keyIn).bind ?_
      intro _ _ _ _ last further keys
      have stillElements := elements.follow further
      refine (groupingType_agrees last keys.type stillElements.type).bind ?_
      intro _ _ _ _ grouped groupFollow groupings
      refine (sequenceType_agrees grouped groupings).bind
        fun _ _ _ _ done doneFollow sequences => ?_
      have whole := groupFollow.trans doneFollow
      exact .pure done ⟨sequences, .cons
        (.groupClause site.node (stillElements.follow whole) (keys.follow whole)) .nil⟩

theorem bindConclusion_agrees {state other : BindingState} {binder otherBinder : Binder}
    (paired : binder.Paired objects ids places state other otherBinder) {type otherType : TypeId}
    (types : state.Matches objects other type otherType) (conclusion : Conclusion)
    (placed : conclusion.Placed places) :
    Agree objects ids places (bindConclusion binder type conclusion)
      (bindConclusion otherBinder otherType conclusion) state other
      fun types numbers result otherResult => result.1.Alike types numbers otherResult.1 ∧
        types result.2 otherResult.2 := by
  match conclusion with
  | .absent =>
      rw [bindConclusion, bindConclusion]
      exact .pure paired.states ⟨.absent, types⟩
  | .present site identifier body =>
      rw [bindConclusion, bindConclusion]
      rcases placed with ⟨siteIn, isIn, bodyIn⟩
      split
      · exact .pure paired.states ⟨.absent, types⟩
      · next name _ =>
          refine (declareConclusionVariable_agrees paired name identifier.location).bind ?_
          intro own otherOwn _ _ after follow symbols
          have still := paired.follow after follow
          refine (declareConclusionScope_agrees still symbols
            (follow.matches_mono _ _ types)).bind ?_
          intro scope otherScope _ _ within further scopes
          have inner := (still.follow within further).binders.pushConclusion scopes
          refine (collecting_agrees within (bindRoot_agrees ⟨within.silent, inner⟩ body
            bodyIn)).bind ?_
          rintro ⟨value, diagnostics⟩ ⟨otherValue, otherDiagnostics⟩ _ _ last final
            ⟨values, same, _⟩
          dsimp only at values same
          have whole := further.trans final
          have lambdas := scopes.lambda.follow final
          have ownTypes := (follow.trans whole).matches_mono _ _ types
          rw [← same]
          exact .pure last
            ⟨.present site.node body.site.node diagnostics (symbols.follow whole) ownTypes lambdas
              values, values.type⟩

theorem bindRoot_agrees {state other : BindingState} {binder otherBinder : Binder}
    (paired : binder.Paired objects ids places state other otherBinder) (root : RootExpr)
    (placed : root.Placed places) :
    Agree objects ids places (bindRoot binder root) (bindRoot otherBinder root) state other
      BoundExpr.Alike := by
  match root with
  | .tooDeep site reported =>
      rw [bindRoot, bindRoot]
      refine (report_agrees paired.states placed.2 _ _).bind fun _ _ _ _ after _ _ => ?_
      exact .pure after (.bad_of_matches site.node .nil)
  | .expression expr =>
      rw [bindRoot, bindRoot]
      exact bindExpr_agrees paired expr placed

end

end QueryLang
