import QueryLang.Proofs.Binding.Activation
import QueryLang.Proofs.Binding.Telling

/-!
# What is reported about expressions

Binding an expression reports about names, members, operators and queries, and about nothing else
but expressions that are too deep. `Speaks` names what a step may report by the codes of the
messages; unlike `ReportsOnly` it leaves the types aside, which queries add to. What an activation
reports is what it reports by itself and what is reported about the expressions right inside of it.
-/

namespace QueryLang

/-- What is said about expressions, by codes. -/
def expressionCodes : List Nat :=
  [DiagnosticMessage.undeclaredName, .notInvocable, .notGeneric, .usedLike, .conclusionOutOfScope,
    .noSuchMember, .badOperands, .notQueryable, .rangeVariableConflict, .tooDeeplyNested].map
      DiagnosticMessage.code

/-- What a single activation says by itself, by codes: nothing about depth. -/
def activationCodes : List Nat :=
  expressionCodes.filter (· != DiagnosticMessage.tooDeeplyNested.code)

namespace Binding

variable {α β : Type} {codes : List Nat}

/-- A step reports only messages with these codes. -/
def Speaks (step : Binding α) (codes : List Nat) : Prop :=
  step.Tells fun reported _ => ∀ diagnostic ∈ reported, diagnostic.code ∈ codes

namespace Speaks

theorem pure {value : β} : Speaks (pure value) codes :=
  Tells.pure (List.forall_mem_nil _)

theorem bind {first : Binding α} {second : α → Binding β} (speaks : first.Speaks codes)
    (next : ∀ value, (second value).Speaks codes) : (first >>= second).Speaks codes :=
  Tells.bind speaks fun _ value own => (next value).mono fun _ _ later =>
    List.forall_mem_append.mpr ⟨own, later⟩

theorem collecting {step : Binding α} (speaks : step.Speaks codes) :
    (Binding.collecting step).Speaks codes :=
  (Tells.collecting speaks).mono fun _ _ own => own.1

theorem silent {step : Binding α} (tells : step.Tells fun reported _ => reported = []) :
    step.Speaks codes :=
  tells.mono fun _ _ own => own ▸ List.forall_mem_nil _

theorem mono {step : Binding α} {more : List Nat} (speaks : step.Speaks codes)
    (others : ∀ code ∈ codes, code ∈ more) : step.Speaks more :=
  Tells.mono speaks fun _ _ own diagnostic isReported => others _ (own diagnostic isReported)

end Speaks

/-- A step that reports messages with some of these codes only. -/
theorem ReportsOnly.speaks {step : Binding α} {own : List Nat} (only : step.ReportsOnly own)
    (others : ∀ code ∈ own, code ∈ codes) : step.Speaks codes :=
  (only.mono others).tells

/-- Of the messages with these codes a step reports just these, up to order, and its result is
good. -/
def TellsAbout (step : Binding α) (about : List Nat) (expected : Diagnostics) (good : α → Prop) :
    Prop :=
  step.Tells fun reported value =>
    (reported.filter fun diagnostic => about.contains diagnostic.code).Perm expected ∧ good value

namespace TellsAbout

variable {about : List Nat} {expected others : Diagnostics} {middle : α → Prop} {good : β → Prop}

theorem pure {value : β} (isGood : good value) : TellsAbout (pure value) about [] good :=
  Tells.pure ⟨.nil, isGood⟩

theorem bind {first : Binding α} {second : α → Binding β}
    (tells : TellsAbout first about expected middle)
    (next : ∀ value, middle value → TellsAbout (second value) about others good) :
    TellsAbout (first >>= second) about (expected ++ others) good := by
  refine Tells.bind tells fun reported value own => ?_
  refine (next value own.2).mono fun later result rest => ?_
  rw [List.filter_append]
  exact ⟨own.1.append rest.1, rest.2⟩

/-- A step that speaks of other things. -/
theorem of_speaks {step : Binding β} (speaks : step.Speaks codes)
    (disjoint : ∀ code ∈ codes, code ∉ about) : TellsAbout step about [] fun _ => True :=
  Tells.mono speaks fun reported value own => by
    have noneOfThem : reported.filter (fun diagnostic => about.contains diagnostic.code) = [] := by
      refine List.filter_eq_nil_iff.mpr fun diagnostic isReported isAbout => ?_
      exact disjoint _ (own diagnostic isReported) (List.contains_iff_mem.mp isAbout)
    rw [noneOfThem]
    exact ⟨.nil, trivial⟩

/-- What comes first speaks of other things. -/
theorem speaks_bind {first : Binding α} {second : α → Binding β} (speaks : first.Speaks codes)
    (disjoint : ∀ code ∈ codes, code ∉ about)
    (next : ∀ value, TellsAbout (second value) about others good) :
    TellsAbout (first >>= second) about others good :=
  (of_speaks speaks disjoint).bind fun value _ => next value

/-- What comes last reports nothing about it. -/
theorem bind_quiet {first : Binding α} {second : α → Binding β}
    (tells : TellsAbout first about expected middle)
    (next : ∀ value, middle value → TellsAbout (second value) about [] good) :
    TellsAbout (first >>= second) about expected good := by
  have both := tells.bind next
  rwa [List.append_nil] at both

/-- What comes last only puts the result together. -/
theorem bind_pure {first : Binding α} {second : α → β}
    (tells : TellsAbout first about expected middle)
    (gives : ∀ value, middle value → good (second value)) :
    TellsAbout (do return second (← first)) about expected good :=
  tells.bind_quiet fun value own => .pure (gives value own)

theorem perm {step : Binding β} (tells : TellsAbout step about expected good)
    (same : expected.Perm others) : TellsAbout step about others good :=
  Tells.mono tells fun _ _ own => ⟨own.1.trans same, own.2⟩

end TellsAbout

end Binding

open Binding

/-- Whatever is bound, binding a root reports only messages with these codes. -/
def RootExpr.Speaks (codes : List Nat) (root : RootExpr) : Prop :=
  ∀ binder, (bindRoot binder root).Speaks codes

section

variable {codes : List Nat} {binder : Binder}

theorem RootExpr.Speaks.expr {expr : Expr} (speaks : (RootExpr.expression expr).Speaks codes) :
    (bindExpr binder expr).Speaks codes := by
  have ofRoot := speaks binder
  rwa [bindRoot] at ofRoot

theorem bindExprs_speak {exprs : List Expr}
    (speak : ∀ expr ∈ exprs, (RootExpr.expression expr).Speaks codes) :
    (bindExprs binder exprs).Speaks codes := by
  induction exprs with
  | nil =>
      rw [bindExprs]
      exact .pure
  | cons expr rest ih =>
      rw [List.forall_mem_cons] at speak
      rw [bindExprs]
      exact speak.1.expr.bind fun bound => (ih speak.2).bind fun others => .pure

variable (own : ∀ code ∈ activationCodes, code ∈ codes)

include own

theorem bindClause_speaks {clause : Clause}
    (speaks : (RootExpr.expression clause.operand).Speaks codes) :
    (bindClause binder clause).Speaks codes := by
  have declares {binder : Binder} {identifier : Identifier} {type : TypeId} :
      (declareRangeVariable binder identifier type).Speaks codes :=
    (declareRangeVariable_reportsOnly.speaks (by decide)).mono own
  cases clause with
  | fromClause site identifier source =>
      have ofElement {bound : BoundExpr} : (bindElementType bound source.innerSite.location).Speaks
          codes := (bindElementType_reports.speaks (by decide)).mono own
      rw [bindClause]
      exact speaks.expr.bind fun bound => ofElement.bind fun element =>
        declares.bind fun declared => .pure
  | whereClause site condition =>
      rw [bindClause]
      exact speaks.expr.bind fun bound => .pure
  | letClause site identifier value =>
      rw [bindClause]
      exact speaks.expr.bind fun bound => declares.bind fun declared => .pure

theorem bindClauses_speak {clauses : List Clause}
    (speak : ∀ clause ∈ clauses, (RootExpr.expression clause.operand).Speaks codes) :
    (bindClauses binder clauses).Speaks codes := by
  induction clauses generalizing binder with
  | nil =>
      rw [bindClauses]
      exact .pure
  | cons clause rest ih =>
      rw [List.forall_mem_cons] at speak
      rw [bindClauses]
      exact (bindClause_speaks own speak.1).bind fun next =>
        (ih speak.2).bind fun others => .pure

omit own in
theorem bindEnding_speaks {ending : QueryEnding}
    (speak : ∀ expr ∈ ending.operands, (RootExpr.expression expr).Speaks codes) :
    (bindEnding binder ending).Speaks codes := by
  cases ending with
  | absent =>
      rw [bindEnding]
      exact .pure
  | selectClause site selected =>
      rw [QueryEnding.operands, List.forall_mem_singleton] at speak
      rw [bindEnding]
      exact speak.expr.bind fun bound => (Speaks.silent sequenceType_tells).bind fun type => .pure
  | groupClause site element key =>
      rw [QueryEnding.operands, List.forall_mem_cons, List.forall_mem_singleton] at speak
      rw [bindEnding]
      exact speak.1.expr.bind fun boundElement => speak.2.expr.bind fun boundKey =>
        (Speaks.silent groupingType_tells).bind fun grouping =>
          (Speaks.silent sequenceType_tells).bind fun type => .pure

omit own in
theorem bindConclusion_speaks {type : TypeId} {conclusion : Conclusion}
    (speak : ∀ body ∈ conclusion.bodies, body.Speaks codes) :
    (bindConclusion binder type conclusion).Speaks codes := by
  cases conclusion with
  | absent =>
      rw [bindConclusion]
      exact .pure
  | present site identifier body =>
      rw [Conclusion.bodies, List.forall_mem_singleton] at speak
      have noneOf (code : Nat) (isCode : code ∈ ([] : List Nat)) : code ∈ codes := by cases isCode
      rw [bindConclusion]
      split
      · exact .pure
      · refine (declareConclusionVariable_silent.speaks noneOf).bind fun declared => ?_
        refine (declareConclusionScope_silent.speaks noneOf).bind fun scope => ?_
        exact (speak (binder.pushConclusion scope)).collecting.bind fun _ => .pure

/-- What an activation reports by itself is all that comes to what is reported about the expressions
right inside of it. -/
theorem bindExpr_speaks {expr : Expr} (speak : ∀ root ∈ expr.inner, root.Speaks codes) :
    (bindExpr binder expr).Speaks codes := by
  cases expr with
  | name site identifier =>
      rw [bindExpr]
      exact (bindName_reports.speaks (by decide)).mono own
  | literal site value =>
      rw [bindExpr]
      exact .pure
  | parenthesized site inner =>
      rw [Expr.inner, List.forall_mem_singleton] at speak
      rw [bindExpr]
      exact speak.expr
  | memberAccess site receiver member =>
      rw [Expr.inner, List.forall_mem_singleton] at speak
      rw [bindExpr]
      exact speak.expr.bind fun bound => (bindMemberAccess_reports.speaks (by decide)).mono own
  | memberCall site receiver member arguments =>
      rw [Expr.inner, List.forall_mem_cons, List.forall_mem_map] at speak
      rw [bindExpr]
      exact speak.1.expr.bind fun bound => (bindExprs_speak speak.2).bind fun others =>
        (bindMemberCall_reports.speaks (by decide)).mono own
  | namedCall site callee arguments =>
      rw [Expr.inner, List.forall_mem_map] at speak
      rw [bindExpr]
      exact (bindExprs_speak speak).bind fun others =>
        (bindNamedCall_reports.speaks (by decide)).mono own
  | valueCall site callee text arguments =>
      rw [Expr.inner, List.forall_mem_cons, List.forall_mem_map] at speak
      rw [bindExpr]
      exact speak.1.expr.bind fun bound => (bindExprs_speak speak.2).bind fun others =>
        ((ReportsOnly.report_own.speaks (by decide)).mono own).bind fun _ => .pure
  | binary site operator left right =>
      rw [Expr.inner, List.forall_mem_cons, List.forall_mem_singleton] at speak
      rw [bindExpr]
      exact speak.1.expr.bind fun boundLeft => speak.2.expr.bind fun boundRight =>
        (bindOperator_reports.speaks (by decide)).mono own
  | query site clauses ending conclusion =>
      simp only [Expr.inner, List.forall_mem_append, List.forall_mem_map] at speak
      obtain ⟨ofClauses, ofEnding, ofConclusion⟩ := speak
      rw [bindExpr]
      split
      · exact .pure
      · exact (bindClauses_speak own ofClauses).bind fun inner =>
          (bindEnding_speaks ofEnding).bind fun last =>
            (bindConclusion_speaks ofConclusion).bind fun result => .pure

end

/-- Binding a root reports only about expressions. -/
theorem bindRoot_speaks (binder : Binder) (root : RootExpr) :
    (bindRoot binder root).Speaks expressionCodes := by
  induction root using RootExpr.inner_induction generalizing binder with
  | tooDeep site reported =>
      rw [bindRoot]
      exact (ReportsOnly.report_own.speaks (by decide)).bind fun _ => .pure
  | expression expr ih =>
      rw [bindRoot]
      exact bindExpr_speaks (by decide) fun root isInner inner => ih root isInner inner

/-- Where nothing in a root is too deep, that is not reported either. -/
theorem RootExpr.Within.speaks {levels : Nat} {root : RootExpr} (within : root.Within levels) :
    root.Speaks activationCodes := by
  induction within with
  | expression _ ih =>
      intro binder
      rw [bindRoot]
      exact bindExpr_speaks (fun _ isCode => isCode) ih

end QueryLang
