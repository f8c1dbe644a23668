import QueryLang.Binding.Statement
import QueryLang.Proofs.Binding.Yield

/-!
# What steps of binding report

`Tells` says what a step reports, together with what it gives. Most steps speak only of members,
operators, types or the shape of statements: `ReportsOnly` names the messages that a step may
report by their codes. Such a step adds no types.
-/

namespace QueryLang

namespace Binding

variable {α β : Type}

/-- If a step gives a result, it reports only after what was reported before, and its reports and
its result are good together. -/
def Tells (step : Binding α) (good : Diagnostics → α → Prop) : Prop :=
  ∀ state value after, ExceptT.run step state = (.ok value, after) →
    ∃ reported, after.diagnostics = state.diagnostics ++ reported ∧ good reported value

/-- A step adds no types, and reports only messages with these codes. -/
def ReportsOnly (step : Binding α) (codes : List Nat) : Prop :=
  ∀ state value after, ExceptT.run step state = (.ok value, after) →
    after.types = state.types ∧ ∃ reported, after.diagnostics = state.diagnostics ++ reported ∧
      ∀ diagnostic ∈ reported, diagnostic.code ∈ codes

namespace Tells

variable {good : Diagnostics → β → Prop} {middle : Diagnostics → α → Prop}

theorem pure {value : β} (isGood : good [] value) : Tells (pure value) good := by
  intro state result after ran
  cases ran
  exact ⟨[], (List.append_nil _).symm, isGood⟩

theorem bind {first : Binding α} {second : α → Binding β} (tells : first.Tells middle)
    (next : ∀ reported value, middle reported value →
      (second value).Tells fun later => good (reported ++ later)) :
    (first >>= second).Tells good := by
  intro state result after ran
  rcases run_bind_eq_ok ran with ⟨value, between, ranFirst, ranSecond⟩
  rcases tells state value between ranFirst with ⟨reported, reports, isMiddle⟩
  rcases next reported value isMiddle between result after ranSecond with
    ⟨later, reportsLater, isGood⟩
  exact ⟨reported ++ later, by rw [reportsLater, reports, List.append_assoc], isGood⟩

theorem bind_lift {operation : Checked α} {second : α → Binding β}
    (next : ∀ value, operation = .ok value → (second value).Tells good) :
    ((liftM operation : Binding α) >>= second).Tells good := by
  cases operation with
  | error fault =>
      intro state result after ran
      cases ran
  | ok value => exact next value rfl

theorem mono {step : Binding α} {better : Diagnostics → α → Prop} (tells : step.Tells middle)
    (implies : ∀ reported value, middle reported value → better reported value) :
    step.Tells better := by
  intro state value after ran
  rcases tells state value after ran with ⟨reported, reports, isMiddle⟩
  exact ⟨reported, reports, implies reported value isMiddle⟩

theorem and_yields {step : Binding α} {own : α → Prop} (tells : step.Tells middle)
    (yields : step.Yields own) :
    step.Tells fun reported value => middle reported value ∧ own value := by
  intro state value after ran
  rcases tells state value after ran with ⟨reported, reports, isMiddle⟩
  exact ⟨reported, reports, isMiddle, yields state value after ran⟩

theorem yields {step : Binding α} (tells : step.Tells middle) :
    step.Yields fun value => ∃ reported, middle reported value := by
  intro state value after ran
  rcases tells state value after ran with ⟨reported, _, isMiddle⟩
  exact ⟨reported, isMiddle⟩

/-- What is collected apart is what was reported, and is reported all the same. -/
theorem collecting {step : Binding α} (tells : step.Tells middle) :
    (Binding.collecting step).Tells fun reported result =>
      middle reported result.1 ∧ result.2 = reported := by
  intro state result last ran
  rcases run_collecting_eq_ok ran with ⟨value, after, ranStep, rfl, rfl⟩
  rcases tells _ value after ranStep with ⟨reported, reports, isMiddle⟩
  rw [List.nil_append] at reports
  exact ⟨reported, by rw [reports], isMiddle, reports⟩

theorem report {location : Location} {message : DiagnosticMessage} {arguments : List String} :
    (Binding.report location message arguments).Tells fun reported _ =>
      reported = [.located location message arguments] := by
  intro state value after ran
  cases ran
  exact ⟨_, rfl, rfl⟩

end Tells

namespace ReportsOnly

variable {codes : List Nat}

theorem tells {step : Binding α} (only : step.ReportsOnly codes) :
    step.Tells fun reported _ => ∀ diagnostic ∈ reported, diagnostic.code ∈ codes :=
  fun state value after ran => (only state value after ran).2

theorem mono {more : List Nat} {step : Binding α} (only : step.ReportsOnly codes)
    (others : ∀ code ∈ codes, code ∈ more) : step.ReportsOnly more := by
  intro state value after ran
  rcases only state value after ran with ⟨sameTypes, reported, reports, own⟩
  exact ⟨sameTypes, reported, reports, fun diagnostic isReported => others _ (own _ isReported)⟩

theorem pure {value : β} : ReportsOnly (pure value) codes := by
  intro state result after ran
  cases ran
  exact ⟨rfl, [], (List.append_nil _).symm, List.forall_mem_nil _⟩

theorem bind {first : Binding α} {second : α → Binding β} (only : first.ReportsOnly codes)
    (next : ∀ value, (second value).ReportsOnly codes) : (first >>= second).ReportsOnly codes := by
  intro state result after ran
  rcases run_bind_eq_ok ran with ⟨value, between, ranFirst, ranSecond⟩
  rcases only state value between ranFirst with ⟨sameTypes, reported, reports, own⟩
  rcases next value between result after ranSecond with ⟨sameAfter, later, reportsLater, rest⟩
  refine ⟨sameAfter.trans sameTypes, reported ++ later, ?_, ?_⟩
  · rw [reportsLater, reports, List.append_assoc]
  · exact List.forall_mem_append.mpr ⟨own, rest⟩

theorem bind_lift {operation : Checked α} {second : α → Binding β}
    (next : ∀ value, operation = .ok value → (second value).ReportsOnly codes) :
    ((liftM operation : Binding α) >>= second).ReportsOnly codes := by
  cases operation with
  | error fault =>
      intro state result after ran
      cases ran
  | ok value => exact next value rfl

theorem report {location : Location} {message : DiagnosticMessage} {arguments : List String}
    (isCode : message.code ∈ codes) :
    (Binding.report location message arguments).ReportsOnly codes := by
  intro state value after ran
  cases ran
  exact ⟨rfl, _, rfl, List.forall_mem_singleton.mpr isCode⟩

theorem report_own {location : Location} {message : DiagnosticMessage} {arguments : List String} :
    (Binding.report location message arguments).ReportsOnly [message.code] :=
  report (List.mem_singleton_self _)

/-- A step that changes neither types nor reports. -/
theorem silent {step : Binding α} (same : ∀ state value after,
    ExceptT.run step state = (.ok value, after) →
      after.types = state.types ∧ after.diagnostics = state.diagnostics) :
    step.ReportsOnly codes := by
  intro state value after ran
  rcases same state value after ran with ⟨sameTypes, sameReports⟩
  exact ⟨sameTypes, [], by rw [sameReports, List.append_nil], List.forall_mem_nil _⟩

end ReportsOnly

/-! ### Steps that say nothing -/

section

variable {codes : List Nat}

theorem freshId_silent : freshId.ReportsOnly codes :=
  .silent fun _ _ _ ran => by
    cases ran
    exact ⟨rfl, rfl⟩

theorem get_silent : (get : Binding BindingState).ReportsOnly codes :=
  .silent fun _ _ _ ran => by
    cases ran
    exact ⟨rfl, rfl⟩

theorem lift_silent {operation : Checked α} :
    (liftM operation : Binding α).ReportsOnly codes := by
  cases operation with
  | error fault =>
      intro state value after ran
      cases ran
  | ok value => exact .pure

theorem sequenceType_tells {element : TypeId} :
    (sequenceType element).Tells fun reported _ => reported = [] := by
  intro state value after ran
  cases ran
  exact ⟨[], (List.append_nil _).symm, rfl⟩

theorem groupingType_tells {key element : TypeId} :
    (groupingType key element).Tells fun reported _ => reported = [] := by
  intro state value after ran
  cases ran
  exact ⟨[], (List.append_nil _).symm, rfl⟩

theorem displayType_silent {type : TypeId} : (displayType type).ReportsOnly codes :=
  get_silent.bind fun _ => lift_silent

theorem member?_silent {type : TypeId} {name : String} : (member? type name).ReportsOnly codes :=
  get_silent.bind fun _ => lift_silent

end

end Binding

open Binding

variable {site : Site} {identifier : Identifier} {codes : List Nat}

/-! ### Names -/

theorem LookupResult.reportFailure_reports {result : LookupResult} {name : String}
    {location : Location} :
    (result.reportFailure name location).ReportsOnly [103, 1955, 308, 118] := by
  unfold reportFailure
  split
  · exact .report (by decide)
  · exact .report (by decide)
  · exact .report (by decide)
  · exact .report (by decide)

theorem bindReference_reports {binder : Binder} {name : String} {location : Location}
    {symbol : Symbol} (misused : DiagnosticMessage.usedLike.code ∈ codes)
    (lost : symbol.kind = .queryConclusionVariable →
      conclusionReference? site.node symbol binder.scopes = .ok none →
        DiagnosticMessage.conclusionOutOfScope.code ∈ codes) :
    (bindReference binder site name location symbol).ReportsOnly codes := by
  rw [bindReference]
  cases kindEq : symbol.kind with
  | localVariable | rangeVariable | parameter | field | property => exact .pure
  | queryConclusionVariable =>
      refine .bind_lift fun found foundEq => ?_
      cases found with
      | none => exact (ReportsOnly.report (lost kindEq foundEq)).bind fun _ => .pure
      | some bound => exact .pure
  | «namespace» | namedType | method | lambda | label =>
      exact (ReportsOnly.report misused).bind fun _ => .pure

theorem bindName_reports {binder : Binder} :
    (bindName binder site identifier).ReportsOnly [103, 1955, 308, 118, 1938] := by
  unfold bindName
  split
  · exact .pure
  · refine .bind_lift fun result _ => ?_
    split
    · exact bindReference_reports (by decide) fun _ _ => by decide
    · exact (LookupResult.reportFailure_reports.mono (by decide)).bind fun _ => .pure

theorem bindNamedCall_reports {binder : Binder} {arguments : List BoundExpr} :
    (bindNamedCall binder site identifier arguments).ReportsOnly [103, 1955, 308, 118] := by
  unfold bindNamedCall
  split
  · exact .pure
  · refine .bind_lift fun result _ => ?_
    split
    · exact .pure
    · exact LookupResult.reportFailure_reports.bind fun _ => .pure

/-! ### Members, operators and sources of queries -/

theorem findMember_reports {type : TypeId} {wantsMethod : Bool} {misuse : String → Binding Unit}
    (isCode : DiagnosticMessage.noSuchMember.code ∈ codes)
    (misuses : ∀ name, (misuse name).ReportsOnly codes) :
    (findMember type identifier wantsMethod misuse).ReportsOnly codes := by
  unfold findMember
  split
  · exact .pure
  · split
    · exact .pure
    · refine member?_silent.bind fun found => ?_
      cases found with
      | none =>
          exact displayType_silent.bind fun text => (ReportsOnly.report isCode).bind fun _ => .pure
      | some member =>
          dsimp only
          split
          · exact .pure
          · exact (misuses _).bind fun _ => .pure

theorem bindMemberAccess_reports {receiver : BoundExpr} :
    (bindMemberAccess site receiver identifier).ReportsOnly [1061, 118] := by
  refine (findMember_reports (by decide) fun name => .report (by decide)).bind fun found => ?_
  cases found with
  | none => exact .pure
  | some member => exact .pure

theorem bindMemberCall_reports {receiver : BoundExpr} {arguments : List BoundExpr} :
    (bindMemberCall site receiver identifier arguments).ReportsOnly [1061, 1955] := by
  refine (findMember_reports (by decide) fun name => .report (by decide)).bind fun found => ?_
  cases found with
  | none => exact .pure
  | some member => exact .pure

theorem bindOperator_reports {operator : Operator} {left right : BoundExpr} :
    (bindOperator site operator left right).ReportsOnly [19] := by
  unfold bindOperator
  dsimp only
  split
  · exact .pure
  · split
    · exact .pure
    · refine displayType_silent.bind fun leftText => displayType_silent.bind fun rightText => ?_
      exact (ReportsOnly.report (by decide)).bind fun _ => .pure

theorem bindElementType_reports {source : BoundExpr} {location : Location} :
    (bindElementType source location).ReportsOnly [1936] := by
  unfold bindElementType
  split
  · exact .pure
  · refine get_silent.bind fun state => .bind_lift fun found _ => ?_
    cases found with
    | none =>
        refine displayType_silent.bind fun text => ?_
        exact (ReportsOnly.report (by decide)).bind fun _ => .pure
    | some element => exact .pure

/-! ### Declarations -/

theorem declareRangeVariable_reportsOnly {binder : Binder} {type : TypeId} :
    (declareRangeVariable binder identifier type).ReportsOnly [1930] := by
  unfold declareRangeVariable
  split
  · exact .pure
  · refine .bind_lift fun existing _ => ?_
    dsimp only
    split
    · exact (ReportsOnly.report (by decide)).bind fun _ => freshId_silent.bind fun id => .pure
    · exact freshId_silent.bind fun id => .pure

theorem declareConclusionVariable_silent {binder : Binder} {name : String} {location : Location} :
    (declareConclusionVariable binder name location).ReportsOnly [] :=
  freshId_silent.bind fun _ => .pure

theorem declareConclusionScope_silent {binder : Binder} {declared : ConclusionVariable}
    {type : TypeId} :
    (declareConclusionScope binder site identifier declared type).ReportsOnly [] :=
  freshId_silent.bind fun _ => freshId_silent.bind fun _ => .pure

theorem StatementScope.enter_reports {scope : StatementScope} {location : Location} :
    (scope.enter location).ReportsOnly [162] := by
  unfold enter
  split
  · exact (ReportsOnly.report (by decide)).bind fun _ => .pure
  · exact .pure

theorem StatementScope.declareLocal_reports {scope : StatementScope} {type : TypeId} :
    (scope.declareLocal identifier type).ReportsOnly [128] := by
  unfold declareLocal
  split
  · exact .pure
  · dsimp only
    split
    · exact (ReportsOnly.report (by decide)).bind fun _ => freshId_silent.bind fun id => .pure
    · exact freshId_silent.bind fun id => .pure

end QueryLang
