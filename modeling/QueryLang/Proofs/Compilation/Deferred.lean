import QueryLang.Binding.Deferred
import QueryLang.Proofs.Compilation.Beginning

/-!
# Deferred bodies over time

Requests to bind a deferred body come one after the other, each with a token and a sink of its own,
and other files can be bound in between. Cancelled requests are refused until the first one that is
not cancelled comes, which binds the body. All requests after it get what that one got. The reports
go to one sink at most: to that of the request that binds, if it wants them.
-/

namespace QueryLang

variable {tree : SyntaxTree} {damaged : Prop} {table later : TypeTable} {body : DeferredBody}
  {bound : BoundLambda}

/-! ### Binding a body -/

/-- A body can be bound: its variable has the name that the conclusion gives it, its expression is
one of the tree, and what it sees has types of the table. -/
structure DeferredBody.Bindable (body : DeferredBody) (tree : SyntaxTree) (damaged : Prop)
    (table : TypeTable) : Prop where
  scopes : ∀ scope ∈ body.ambient.scopes, scope.Reliable table False
  type : table.Has False body.type
  named : body.identifier.name.getD "" = body.declared.val.name
  root : body.root.At tree damaged

theorem DeferredBody.Bindable.advance (bindable : body.Bindable tree damaged table)
    (advance : table.Advance False later False) : body.Bindable tree damaged later :=
  ⟨fun scope member => (bindable.scopes scope member).advance advance, advance.has bindable.type,
    bindable.named, bindable.root⟩

/-- A body that can be bound is bound, and what is reported is what its lambda has to say. -/
theorem DeferredBody.bindBody_gives (bindable : body.Bindable tree damaged table)
    (ready : table.Ready False) (nextSymbol : Nat) (sink : Diagnostics) :
    ∃ (bound : BoundLambda) (after : BindingState),
      ExceptT.run (body.bindBody false) ⟨table, nextSymbol, sink⟩ = (.ok bound, after) ∧
      after.diagnostics = sink ++ bound.diagnostics := by
  let start : BindingState := ⟨table, nextSymbol, sink⟩
  let ambient : Binder := { body.ambient with isCancelled := false }
  have declares : (declareConclusionScope ambient body.site body.identifier body.declared
      body.type).Keeps start False fun calmer later scope =>
        scope.symbol = body.declared.val ∧ scope.Reliable later calmer :=
    declareConclusionScope_keeps ready.sound bindable.type bindable.named
  rcases declares with ⟨scope, between, _, ranScope, _, advance, _, scopeReliable⟩
  have sameSink : between.diagnostics = sink :=
    (congrArg (fun result => result.2.diagnostics) ranScope).symm
  let cleared : BindingState := { between with diagnostics := [] }
  have scopes : ∀ own ∈ ambient.scopes, own.Reliable cleared.types _ :=
    fun own member => (bindable.scopes own member).advance advance
  have footing : Footing damaged (ambient.pushConclusion scope) cleared.types _ :=
    ⟨advance.ready ready, ⟨rfl, List.forall_mem_cons.mpr ⟨scopeReliable, scopes⟩⟩,
      fun isCalm => isCalm.1.elim⟩
  rcases bindRoot_keeps footing bindable.root with ⟨value, after, _, ranRoot, _⟩
  refine ⟨⟨scope.lambda, .returning body.root.site.node value, after.diagnostics⟩,
    { after with diagnostics := between.diagnostics ++ after.diagnostics }, ?_, by rw [sameSink]⟩
  rw [bindBody, Binding.run_bind_of_ok ranScope,
    Binding.run_bind_of_ok (Binding.run_collecting_of_ok between ranRoot)]
  rfl

namespace DeferredBody

variable {state after : BindingState} {isCancelled : Bool}

theorem run_bindInto_bound (isBound : body.bound = some bound) (isCancelled : Bool)
    (state : BindingState) :
    ExceptT.run (body.bindInto isCancelled) state = (.ok (bound, body), state) := by
  rw [bindInto, isBound]
  rfl

theorem run_bindInto_cancelled (unbound : body.bound = none) (state : BindingState) :
    ExceptT.run (body.bindInto true) state = (.error .cancelled, state) := by
  rw [bindInto, unbound]
  rfl

theorem run_bindInto_live (unbound : body.bound = none)
    (ran : ExceptT.run (body.bindBody false) state = (.ok bound, after)) :
    ExceptT.run (body.bindInto false) state =
      (.ok (bound, { body with bound := some bound }), after) := by
  rw [bindInto, unbound]
  exact (Binding.run_bind_of_ok ran).trans rfl

/-- What `bind` does when `bindInto` gives a result: the same, apart from the reports. -/
theorem run_bind_of_ok {result : BoundLambda × DeferredBody}
    (ran : ExceptT.run (body.bindInto isCancelled) state = (.ok result, after)) :
    ExceptT.run (body.bind isCancelled) state =
      (.ok result, { after with diagnostics := state.diagnostics }) := by
  have rest : ExceptT.run (body.bindInto isCancelled >>= fun result => do
      modify fun after => { after with diagnostics := state.diagnostics }
      return result) state = (.ok result, { after with diagnostics := state.diagnostics }) :=
    (Binding.run_bind_of_ok ran).trans rfl
  exact rest

theorem run_bind_of_error {fault : Fault}
    (ran : ExceptT.run (body.bindInto isCancelled) state = (.error fault, after)) :
    ExceptT.run (body.bind isCancelled) state = (.error fault, after) := by
  have rest : ExceptT.run (body.bindInto isCancelled >>= fun result => do
      modify fun after => { after with diagnostics := state.diagnostics }
      return result) state = (.error fault, after) :=
    Binding.run_bind_of_error ran
  exact rest

end DeferredBody

/-! ### One request -/

/-- A deferred body of a compilation. -/
structure Deferral where
  body : DeferredBody
  compilation : Compilation

/-- A request to bind a body. What is reported goes to its sink, if it wants reports. -/
structure BodyRequest where
  isCancelled : Bool
  wantsReports : Bool
  sink : Diagnostics

/-- A request with all that it gives: its result, what its sink has afterwards, and what became of
the body. -/
structure BodyExchange where
  before : Deferral
  request : BodyRequest
  result : Checked BoundLambda
  sink : Diagnostics
  after : Deferral

/-- The step that a request asks for. -/
def BodyRequest.step (request : BodyRequest) (body : DeferredBody) :
    Binding (BoundLambda × DeferredBody) :=
  if request.wantsReports then body.bindInto request.isCancelled else body.bind request.isCancelled

/-- Serves a request. A request that fails leaves the body as it was. -/
def Deferral.serve (deferral : Deferral) (request : BodyRequest) : BodyExchange :=
  let (result, state) := ExceptT.run (request.step deferral.body)
    ⟨deferral.compilation.types, deferral.compilation.nextSymbol, request.sink⟩
  let body := match result with
    | .ok (_, body) => body
    | .error _ => deferral.body
  let compilation :=
    { deferral.compilation with types := state.types, nextSymbol := state.nextSymbol }
  { before := deferral, request, result := result.map Prod.fst, sink := state.diagnostics
    after := ⟨body, compilation⟩ }

namespace BodyExchange

/-- The request is refused, and nothing changes. -/
structure IsRefused (exchange : BodyExchange) : Prop where
  cancelled : exchange.request.isCancelled = true
  result : exchange.result = .error .cancelled
  sink : exchange.sink = exchange.request.sink
  unbound : exchange.before.body.bound = none
  after : exchange.after = exchange.before

/-- The request binds the body. The reports about the body go to its sink, if it wants them. -/
structure Translates (exchange : BodyExchange) (bound : BoundLambda) : Prop where
  live : exchange.request.isCancelled = false
  binds : ∃ state, ExceptT.run (exchange.before.body.bindBody false)
    ⟨exchange.before.compilation.types, exchange.before.compilation.nextSymbol,
      exchange.request.sink⟩ = (.ok bound, state)
  result : exchange.result = .ok bound
  sink : exchange.sink =
    exchange.request.sink ++ if exchange.request.wantsReports then bound.diagnostics else []
  unbound : exchange.before.body.bound = none
  after : exchange.after.body = { exchange.before.body with bound := some bound }

/-- The request gets what the body was bound to before, and nothing changes. -/
structure Repeats (exchange : BodyExchange) (bound : BoundLambda) : Prop where
  result : exchange.result = .ok bound
  sink : exchange.sink = exchange.request.sink
  after : exchange.after = exchange.before

end BodyExchange

namespace Deferral

variable {deferral : Deferral} {request : BodyRequest}

theorem serve_refused (unbound : deferral.body.bound = none)
    (cancelled : request.isCancelled = true) : (deferral.serve request).IsRefused := by
  rcases deferral with ⟨body, compilation⟩
  rcases request with ⟨isCancelled, wantsReports, sink⟩
  cases cancelled
  have ran : ExceptT.run (BodyRequest.step ⟨true, wantsReports, sink⟩ body)
      ⟨compilation.types, compilation.nextSymbol, sink⟩ =
        (.error .cancelled, ⟨compilation.types, compilation.nextSymbol, sink⟩) := by
    cases wantsReports with
    | true => exact DeferredBody.run_bindInto_cancelled unbound _
    | false => exact DeferredBody.run_bind_of_error (DeferredBody.run_bindInto_cancelled unbound _)
  rw [serve]
  dsimp only
  rw [ran]
  exact ⟨rfl, rfl, rfl, unbound, rfl⟩

theorem serve_repeats (isBound : deferral.body.bound = some bound) (request : BodyRequest) :
    (deferral.serve request).Repeats bound := by
  rcases deferral with ⟨body, compilation⟩
  rcases request with ⟨isCancelled, wantsReports, sink⟩
  have ran : ExceptT.run (BodyRequest.step ⟨isCancelled, wantsReports, sink⟩ body)
      ⟨compilation.types, compilation.nextSymbol, sink⟩ =
        (.ok (bound, body), ⟨compilation.types, compilation.nextSymbol, sink⟩) := by
    cases wantsReports with
    | true => exact DeferredBody.run_bindInto_bound isBound isCancelled _
    | false => exact DeferredBody.run_bind_of_ok (DeferredBody.run_bindInto_bound isBound _ _)
  rw [serve]
  dsimp only
  rw [ran]
  exact ⟨rfl, rfl, rfl⟩

theorem serve_translates (unbound : deferral.body.bound = none)
    (live : request.isCancelled = false)
    (bindable : deferral.body.Bindable tree damaged deferral.compilation.types)
    (ready : deferral.compilation.types.Ready False) :
    ∃ bound, (deferral.serve request).Translates bound := by
  rcases deferral with ⟨body, compilation⟩
  rcases request with ⟨isCancelled, wantsReports, sink⟩
  cases live
  rcases DeferredBody.bindBody_gives bindable ready compilation.nextSymbol sink with
    ⟨bound, after, ranBody, reports⟩
  have ranInto := DeferredBody.run_bindInto_live unbound ranBody
  refine ⟨bound, ?_⟩
  cases wantsReports with
  | true =>
      have ran : ExceptT.run (BodyRequest.step ⟨false, true, sink⟩ body)
          ⟨compilation.types, compilation.nextSymbol, sink⟩ =
            (.ok (bound, { body with bound := some bound }), after) := ranInto
      rw [serve]
      dsimp only
      rw [ran]
      exact ⟨rfl, ⟨after, ranBody⟩, rfl, reports, unbound, rfl⟩
  | false =>
      have ran : ExceptT.run (BodyRequest.step ⟨false, false, sink⟩ body)
          ⟨compilation.types, compilation.nextSymbol, sink⟩ =
            (.ok (bound, { body with bound := some bound }), { after with diagnostics := sink }) :=
        DeferredBody.run_bind_of_ok ranInto
      rw [serve]
      dsimp only
      rw [ran]
      exact ⟨rfl, ⟨after, ranBody⟩, rfl, (List.append_nil sink).symm, unbound, rfl⟩

/-! ### Requests one after the other -/

/-- Requests that are served one after the other, with what each of them gives, while other files
are bound in between. -/
inductive History : Deferral → List BodyExchange → Deferral → Prop
  | done (deferral : Deferral) : History deferral [] deferral
  | request {deferral last : Deferral} {exchanges : List BodyExchange} (request : BodyRequest)
      (rest : History (deferral.serve request).after exchanges last) :
      History deferral (deferral.serve request :: exchanges) last
  | others {deferral last : Deferral} {compilation : Compilation} {exchanges : List BodyExchange}
      (grows : Compilation.Later deferral.compilation compilation)
      (rest : History ⟨deferral.body, compilation⟩ exchanges last) :
      History deferral exchanges last

/-- Any requests can be served one after the other. -/
theorem exists_history (deferral : Deferral) (requests : List BodyRequest) :
    ∃ exchanges last, History deferral exchanges last ∧
      exchanges.map (·.request) = requests := by
  induction requests generalizing deferral with
  | nil => exact ⟨[], deferral, .done deferral, rfl⟩
  | cons request rest ih =>
      rcases ih (deferral.serve request).after with ⟨exchanges, last, history, rfl⟩
      exact ⟨_, last, .request request history, rfl⟩

/-- Requests for a body are refused up to the first that is not cancelled, if there is one. That one
binds the body, and what it binds the body to is what all others get. -/
inductive BindsOnce (body : DeferredBody) : List BodyExchange → DeferredBody → Prop
  | never {refused : List BodyExchange} (areRefused : ∀ exchange ∈ refused, exchange.IsRefused) :
      BindsOnce body refused body
  | once {refused repeated : List BodyExchange} {first : BodyExchange} {bound : BoundLambda}
      (areRefused : ∀ exchange ∈ refused, exchange.IsRefused) (translates : first.Translates bound)
      (repeats : ∀ exchange ∈ repeated, exchange.Repeats bound) :
      BindsOnce body (refused ++ first :: repeated) { body with bound := some bound }

theorem BindsOnce.cons {first : BodyExchange} {exchanges : List BodyExchange} {last : DeferredBody}
    (isRefused : first.IsRefused) (rest : BindsOnce body exchanges last) :
    BindsOnce body (first :: exchanges) last := by
  cases rest with
  | never areRefused => exact .never (List.forall_mem_cons.mpr ⟨isRefused, areRefused⟩)
  | once areRefused translates repeats =>
      exact .once (List.forall_mem_cons.mpr ⟨isRefused, areRefused⟩) translates repeats

variable {start last : Deferral} {exchanges : List BodyExchange}

/-- Once a body is bound, nothing more happens to it. -/
theorem History.repeats (history : History start exchanges last)
    (isBound : start.body.bound = some bound) :
    (∀ exchange ∈ exchanges, exchange.Repeats bound) ∧ last.body = start.body := by
  induction history with
  | done deferral => exact ⟨List.forall_mem_nil _, rfl⟩
  | others grows _ ih => exact ih isBound
  | request request _ ih =>
      have first := serve_repeats isBound request
      have same : ∀ deferral : Deferral, (deferral.serve request).before = deferral := fun _ => rfl
      rw [first.after, same] at ih
      exact ⟨List.forall_mem_cons.mpr ⟨first, (ih isBound).1⟩, (ih isBound).2⟩

theorem History.bindsOnce (history : History start exchanges last)
    (unbound : start.body.bound = none) (settled : start.compilation.Settled)
    (bindable : start.body.Bindable tree damaged start.compilation.types) :
    BindsOnce start.body exchanges last.body := by
  -- As long as the body is unbound it stays one that can be bound, also while other files are bound.
  induction history with
  | done deferral => exact .never (List.forall_mem_nil _)
  | others grows _ ih =>
      exact ih unbound (settled.of_later grows)
        (bindable.advance ⟨id, grows.types, grows.sound⟩)
  | @request deferral last exchanges request rest ih =>
      have same : (deferral.serve request).before = deferral := rfl
      cases cancelled : request.isCancelled with
      | true =>
          have first := serve_refused unbound cancelled
          rw [first.after, same] at ih
          exact .cons first (ih unbound settled bindable)
      | false =>
          have ready : deferral.compilation.types.Ready False :=
            ⟨settled.sound.types, settled.provides.has.members⟩
          rcases serve_translates unbound cancelled bindable ready with ⟨bound, translates⟩
          have isBound : (deferral.serve request).after.body.bound = some bound := by
            rw [translates.after]
          rcases rest.repeats isBound with ⟨repeats, sameBody⟩
          rw [sameBody, translates.after]
          exact .once (List.forall_mem_nil _) translates repeats

end Deferral

/-! ### Bodies of conclusions -/

/-- The body of a conclusion of a tree can be kept for later, for a variable of a conclusion. -/
theorem DeferredBody.ofNode_gives (wellFormed : tree.WellFormed damaged) {node : NodeId}
    (isConclusion : tree.kind node = .ok .queryConclusion) {symbol : Symbol}
    (isVariable : symbol.kind = .queryConclusionVariable) (type : TypeId) (ambient : Binder) :
    (DeferredBody.ofNode tree node symbol type ambient).Gives fun body =>
      body.bound = none ∧ body.declared.val = symbol ∧ body.type = type ∧
        body.ambient = ambient ∧ body.root.At tree damaged := by
  rcases wellFormed.partsOf isConclusion with ⟨lower, _, _, sizeEq, production, parts⟩
  cases production.roles_of_queryConclusion rfl
  rcases parts.oneNode rfl with ⟨expression, children, formed⟩
  rcases parts.requireToken .yieldKeyword (by simp) with ⟨yieldKeyword, yieldEq⟩
  rcases parts.requireToken .intoKeyword (by simp) with ⟨intoKeyword, intoEq⟩
  rcases parts.requireToken .doKeyword (by simp) with ⟨doKeyword, doEq⟩
  rcases parts.declares (by simp) with ⟨tokenId, tokenEq, declaresGives⟩
  rw [DeferredBody.ofNode, dif_pos isVariable]
  simp only [QueryConclusionView.read, yieldEq, intoEq, tokenEq, doEq,
    SyntaxTree.requireChild_eq_ok 0 children rfl, Checked.ok_bind, pure_bind]
  refine (Site.ofNode_gives isConclusion).bind fun site _ => ?_
  refine declaresGives.bind fun identifier _ => ?_
  refine (RootExpr.ofNode_gives wellFormed formed (by omega)).bind fun root isRoot => ?_
  exact .pure ⟨rfl, rfl, rfl, rfl, isRoot.2⟩

/-- A body as it is kept for later: that of a conclusion of a tree, for a variable with the name that
the conclusion gives it. The types of the variable and of all that is visible are in a table. -/
inductive DeferredBody.IsKept (tree : SyntaxTree) (table : TypeTable) : DeferredBody → Prop
  | ofNode {node : NodeId} {symbol : Symbol} {type : TypeId} {ambient : Binder}
      {body : DeferredBody} (isConclusion : tree.kind node = .ok .queryConclusion)
      (isBody : DeferredBody.ofNode tree node symbol type ambient = .ok body)
      (named : body.parameterName 0 = .ok symbol.name) (issued : type < table.size)
      (scopes : ∀ scope ∈ ambient.scopes, scope.Reliable table False) : IsKept tree table body

/-- A body that is kept for later is not bound, and can be bound. -/
theorem DeferredBody.IsKept.bindable (isKept : body.IsKept tree table)
    (wellFormed : tree.WellFormed damaged) :
    body.bound = none ∧ body.Bindable tree damaged table := by
  cases isKept with
  | @ofNode node symbol type ambient _ isConclusion isBody named issued scopes =>
      have isVariable : symbol.kind = .queryConclusionVariable := by
        by_contra other
        rw [DeferredBody.ofNode, dif_neg other] at isBody
        cases isBody
      rcases DeferredBody.ofNode_gives wellFormed isConclusion isVariable type ambient with
        ⟨own, isOwn, unbound, declaredEq, typeEq, ambientEq, isRoot⟩
      cases isBody.symm.trans isOwn
      have sameName : body.identifier.name.getD "" = symbol.name := Except.ok.inj named
      exact ⟨unbound, {
        scopes := by rwa [ambientEq]
        type := by rw [typeEq]; exact ⟨issued, False.elim⟩
        named := by rw [declaredEq, sameName]
        root := isRoot }⟩

/-- Binding a conclusion is binding its body, kept for later, right away. -/
theorem bindConclusion_bindsBody {binder : Binder} {type : TypeId} {site : Site}
    {identifier : Identifier} {root : RootExpr} {name : String} {state after : BindingState}
    {conclusion : BoundConclusion} {result : TypeId} (live : binder.isCancelled = false)
    (present : identifier.name = some name)
    (ran : ExceptT.run (bindConclusion binder type (.present site identifier root)) state =
      (.ok (conclusion, result), after)) :
    ∃ declared between lambda value reports,
      ExceptT.run (declareConclusionVariable binder name identifier.location) state =
        (.ok declared, between) ∧
      ExceptT.run (DeferredBody.bindBody ⟨site, identifier, root, declared, type, binder, none⟩
        false) between = (.ok ⟨lambda, .returning root.site.node value, reports⟩, after) ∧
      conclusion = .present site.node declared type lambda root.site.node value reports ∧
      result = value.type := by
  rw [bindConclusion, present] at ran
  rcases Binding.run_bind_eq_ok ran with ⟨declared, between, ranDeclared, ran⟩
  rcases Binding.run_bind_eq_ok ran with ⟨scope, inside, ranScope, ran⟩
  rcases Binding.run_bind_eq_ok ran with ⟨⟨value, reports⟩, last, ranBody, ran⟩
  cases ran
  refine ⟨declared, between, scope.lambda, value, reports, ranDeclared, ?_, rfl, rfl⟩
  have sameBinder : { binder with isCancelled := false } = binder := by rw [← live]
  rw [DeferredBody.bindBody]
  dsimp only
  rw [sameBinder, Binding.run_bind_of_ok ranScope, Binding.run_bind_of_ok ranBody]
  rfl

end QueryLang
