import QueryLang.Binding.Statement
import QueryLang.Proofs.Binding.ExpressionAgreeing

/-!
# Files that agree

Statements that are bound from scopes which are alike give the same reports, and bound statements
that are alike, up to a whole file. A statement ends its list on both sides or on neither, so code
after it is unreachable on both.
-/

namespace QueryLang

open Binding

/-- Two points between statements from which the same names are looked up, and past which control
comes or does not come. -/
structure StatementScope.Alike (types : TypeId → TypeId → Prop) (ids : Nat → Nat → Prop)
    (scope other : StatementScope) : Prop where
  binder : scope.binder.Alike types ids other.binder
  declared : scope.declared = other.declared
  reachability : scope.reachability = other.reachability

variable {types weaker : TypeId → TypeId → Prop} {objects : TypeId → TypeId → Prop}
  {ids weakerIds : Nat → Nat → Prop} {places : Location → Prop} {state other : BindingState}
  {scope otherScope : StatementScope}

namespace StatementScope.Alike

theorem mono (alike : scope.Alike types ids otherScope)
    (implies : ∀ type other, types type other → weaker type other)
    (impliesIds : ∀ number other, ids number other → weakerIds number other) :
    scope.Alike weaker weakerIds otherScope :=
  ⟨alike.binder.mono implies impliesIds, alike.declared, alike.reachability⟩

theorem follow {after otherAfter : BindingState} (later : state.Follow other after otherAfter)
    (alike : scope.Alike (state.Matches objects other) (state.Numbers ids other) otherScope) :
    scope.Alike (after.Matches objects otherAfter) (after.Numbers ids otherAfter) otherScope :=
  alike.mono later.matches_mono later.numbers_mono

theorem start {binder otherBinder : Binder} (binders : binder.Alike types ids otherBinder) :
    (StatementScope.start binder).Alike types ids (.start otherBinder) :=
  ⟨binders, rfl, rfl⟩

theorem after (alike : scope.Alike types ids otherScope) {bound otherBound : BoundStatement}
    (sameEnd : bound.isTerminal = otherBound.isTerminal) :
    (scope.after bound).Alike types ids (otherScope.after otherBound) := by
  rw [StatementScope.after, StatementScope.after, alike.reachability, sameEnd]
  split
  · exact ⟨alike.binder, alike.declared, rfl⟩
  · exact alike

end StatementScope.Alike

theorem StatementScope.enter_agrees (alike : state.Alike objects ids places other)
    (scopes : scope.Alike (state.Matches objects other) (state.Numbers ids other) otherScope)
    {location : Location}
    (isPlace : places location) :
    Agree objects ids places (scope.enter location) (otherScope.enter location) state other
      fun types numbers entered otherEntered => entered.Alike types numbers otherEntered := by
  unfold StatementScope.enter
  rw [scopes.reachability]
  split
  · refine (report_agrees alike isPlace _ _).bind fun _ _ _ _ reported follow _ => ?_
    have still := scopes.follow follow
    exact .pure reported ⟨still.binder, still.declared, rfl⟩
  · exact .pure alike scopes

theorem StatementScope.declareLocal_agrees (alike : state.Alike objects ids places other)
    (scopes : scope.Alike (state.Matches objects other) (state.Numbers ids other) otherScope)
    {identifier : Identifier}
    (isIn : identifier.Placed places) {type otherType : TypeId}
    (types : state.Matches objects other type otherType) :
    Agree objects ids places (scope.declareLocal identifier type)
      (otherScope.declareLocal identifier otherType) state other
      fun types numbers result otherResult => result.1.Alike types numbers otherResult.1 ∧
        Option.Rel (Symbol.Alike types numbers) result.2 otherResult.2 := by
  unfold StatementScope.declareLocal
  split
  · exact .pure alike ⟨scopes, .none⟩
  · next name _ =>
      have same : scope.declared.contains name = otherScope.declared.contains name := by
        rw [scopes.declared]
      rw [same]
      refine report_if_agrees alike isIn fun after otherAfter afterAlike follow => ?_
      refine (freshId_agrees afterAlike).bind fun id otherId _ _ last further numbers => ?_
      have whole := follow.trans further
      have still := scopes.follow whole
      have symbols := still.binder.container.located numbers name identifier.location
        (.localVariable (whole.matches_mono _ _ types))
      exact .pure last ⟨⟨still.binder.push (.locals (.cons symbols .nil)),
        congrArg (name :: ·) still.declared, still.reachability⟩, .some symbols⟩

/-- Statements that are alike, with points that are alike after them. -/
structure StatementsMeet (types : TypeId → TypeId → Prop) (ids : Nat → Nat → Prop)
    (result otherResult : StatementScope × BoundStatement) : Prop where
  scopes : result.1.Alike types ids otherResult.1
  statements : result.2.Alike types ids otherResult.2

mutual

/-- Binding a statement from points that are alike leads to points that are alike. -/
theorem bindStatement_agrees {state other : BindingState} {scope otherScope : StatementScope}
    (alike : state.Alike objects ids places other)
    (scopes : scope.Alike (state.Matches objects other) (state.Numbers ids other) otherScope)
    (statement : Statement) (placed : statement.Placed places) :
    Agree objects ids places (bindStatement scope statement) (bindStatement otherScope statement)
      state other StatementsMeet := by
  match statement with
  | .localDeclaration site identifier initializer =>
      rw [bindStatement, bindStatement]
      rcases placed with ⟨siteIn, isIn, valueIn⟩
      refine (bindRoot_agrees ⟨alike, scopes.binder⟩ initializer valueIn).bind ?_
      intro value otherValue _ _ after follow values
      have still := scopes.follow follow
      refine (StatementScope.declareLocal_agrees after still isIn values.type).bind ?_
      rintro ⟨next, symbol⟩ ⟨otherNext, otherSymbol⟩ _ _ last further ⟨nexts, symbols⟩
      exact .pure last ⟨nexts, .localDeclaration site.node symbols (values.follow further)⟩
  | .expression site value =>
      rw [bindStatement, bindStatement]
      refine (bindRoot_agrees ⟨alike, scopes.binder⟩ value placed.2).bind ?_
      exact fun _ _ _ _ after follow values =>
        .pure after ⟨scopes.follow follow, .expression site.node values⟩
  | .returnValue site (some value) =>
      rw [bindStatement, bindStatement]
      refine (bindRoot_agrees ⟨alike, scopes.binder⟩ value placed.2).bind ?_
      exact fun _ _ _ _ after follow values =>
        .pure after ⟨scopes.follow follow, .returnValue site.node false (.some values)⟩
  | .yieldReturn site (some value) =>
      rw [bindStatement, bindStatement]
      refine (bindRoot_agrees ⟨alike, scopes.binder⟩ value placed.2).bind ?_
      exact fun _ _ _ _ after follow values =>
        .pure after ⟨scopes.follow follow, .yieldReturn site.node values⟩
  | .returnValue site none =>
      rw [bindStatement, bindStatement]
      exact .pure alike ⟨scopes, .returnValue site.node false .none⟩
  | .yieldReturn site none =>
      rw [bindStatement, bindStatement]
      exact .pure alike ⟨scopes, .yieldReturn site.node (.bad_of_matches site.node .nil)⟩
  | .yieldBreak site =>
      rw [bindStatement, bindStatement]
      exact .pure alike ⟨scopes, .yieldBreak site.node⟩
  | .doWhile site bodySite body condition =>
      rw [bindStatement, bindStatement]
      rcases placed with ⟨siteIn, bodySiteIn, bodyIn, conditionIn⟩
      refine (bindStatements_agree alike (.start scopes.binder) body bodyIn).bind ?_
      intro bound otherBound _ _ after follow bodies
      have still := scopes.follow follow
      refine (bindRoot_agrees ⟨after, still.binder⟩ condition conditionIn).bind ?_
      intro _ _ _ _ last further conditions
      have stillBodies := bodies.mono further.matches_mono further.numbers_mono
      exact .pure last
        ⟨still.follow further, .doWhile site.node bodySite.node stillBodies conditions⟩
  | .block site statements =>
      rw [bindStatement, bindStatement]
      refine (bindStatements_agree alike (.start scopes.binder) statements placed.2).bind ?_
      exact fun _ _ _ _ after follow statements_alike =>
        .pure after ⟨scopes.follow follow, .block site.node statements_alike⟩

theorem bindStatements_agree {state other : BindingState} {scope otherScope : StatementScope}
    (alike : state.Alike objects ids places other)
    (scopes : scope.Alike (state.Matches objects other) (state.Numbers ids other) otherScope)
    (statements : List Statement) (placed : Statement.AllPlaced places statements) :
    Agree objects ids places (bindStatements scope statements)
      (bindStatements otherScope statements)
      state other BoundStatement.AllAlike := by
  match statements with
  | [] =>
      rw [bindStatements, bindStatements]
      exact .pure alike .nil
  | statement :: rest =>
      rw [bindStatements, bindStatements]
      refine (StatementScope.enter_agrees alike scopes placed.1.site).bind ?_
      intro entered otherEntered _ _ after _ entereds
      refine (bindStatement_agrees after entereds statement placed.1).bind ?_
      rintro ⟨next, bound⟩ ⟨otherNext, otherBound⟩ _ _ between _ meet
      refine (bindStatements_agree between (meet.scopes.after meet.statements.isTerminal) rest
        placed.2).bind ?_
      intro _ _ _ _ last further others
      have first := meet.statements.mono further.matches_mono further.numbers_mono
      exact .pure last (.cons first others)

end

/-- Binding a file from binders that are alike gives the same reports and blocks that are alike. -/
theorem bindFile_agrees {binder otherBinder : Binder}
    (paired : binder.Paired objects ids places state other otherBinder) {tree : SyntaxTree}
    (arePlaces : tree.Placed places) :
    Agree objects ids places (bindFile binder tree) (bindFile otherBinder tree) state other
      BoundBlock.Alike := by
  unfold bindFile
  rw [paired.binders.isCancelled]
  refine .bind_lift fun _ _ _ _ => ?_
  refine .bind_lift fun list otherList isList isOther => ?_
  cases isList.symm.trans isOther
  have placed := StatementList.ofTree_placed arePlaces list isList
  refine (bindStatements_agree paired.states (.start paired.binders) list.statements placed).bind ?_
  exact fun _ _ _ _ after _ statements => .pure after ⟨rfl, statements⟩

end QueryLang
