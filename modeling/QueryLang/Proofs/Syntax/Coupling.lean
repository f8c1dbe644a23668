import QueryLang.Proofs.Syntax.Typing

/-!
# Steps and repetitions that meet the target

What the basic steps of parsing do to two runs in step, and that a repetition meets the target when
its step does. In front of the target both runs repeat the step equally often: the bounds of the
repetitions differ, but they do not stop either.
-/

namespace QueryLang

namespace ParseState

variable {typed : TypedKeyword} {target : Token} {before : List Token} {state twin : ParseState}

/-- Most messages reject nothing, wherever they are reported. -/
theorem Unrejected.report_other (unrejected : state.Unrejected typed) {message : DiagnosticMessage}
    (isOther : message.code ∉ [DiagnosticMessage.invalidTerm.code, DiagnosticMessage.expected.code,
      DiagnosticMessage.identifierExpected.code]) (span : Span) (arguments : List String) :
    (state.report span message arguments).Unrejected typed := by
  refine List.forall_mem_append.mpr ⟨unrejected, List.forall_mem_singleton.mpr ?_⟩
  have codeEq : (Diagnostic.located ⟨state.file, span⟩ message arguments).code = message.code := rfl
  rw [Diagnostic.Rejects, codeEq]
  simp only [List.mem_cons, List.not_mem_nil, or_false, not_or] at isOther
  rintro (⟨isInvalid, _⟩ | ⟨isExpected | isExpected, _⟩)
  · exact isOther.1 isInvalid
  · exact isOther.2.1 isExpected
  · exact isOther.2.2 isExpected

theorem Ready.report_other (ready : state.Ready typed) {message : DiagnosticMessage}
    (isOther : message.code ∉ [DiagnosticMessage.invalidTerm.code, DiagnosticMessage.expected.code,
      DiagnosticMessage.identifierExpected.code]) (span : Span) (arguments : List String) :
    (state.report span message arguments).Ready typed :=
  ⟨ready.rest, ready.unrejected.report_other isOther span arguments, ready.endOfFile⟩

theorem Ready.currentToken_eq (ready : state.Ready typed) : state.currentToken = typed.token := by
  rw [currentToken, ready.rest, List.headD_cons]

theorem Ready.current_eq (ready : state.Ready typed) : state.current = typed.token.kind :=
  congrArg Token.kind ready.currentToken_eq

namespace Ahead

theorem currentToken_eq (ahead : state.Ahead typed target before twin) :
    twin.currentToken = state.currentToken := by
  rw [currentToken, currentToken, ahead.left, ahead.right]
  cases before <;> rfl

theorem current_eq (ahead : state.Ahead typed target before twin) :
    twin.current = state.current :=
  congrArg Token.kind ahead.currentToken_eq

theorem currentToken_starts (ahead : state.Ahead typed target before twin) :
    twin.currentToken.span.start < typed.stop := by
  refine ahead.starts _ ?_
  rw [currentToken, ahead.right]
  cases before <;> simp

theorem not_behind (ahead : state.Ahead typed target before twin) : ¬state.Behind target := by
  refine fun behind => behind.notLeft ?_
  rw [ahead.left]
  exact List.mem_append_right _ (List.mem_cons_self ..)

/-- What the first run has reported does not matter. -/
theorem of_rest_eq (ahead : state.Ahead typed target before twin) {other : ParseState}
    (sameRest : other.rest = state.rest) (sameEnd : other.endOfFile = state.endOfFile) :
    other.Ahead typed target before twin :=
  { ahead with
    left := sameRest ▸ ahead.left
    notEnd := sameEnd ▸ ahead.notEnd }

/-- A report elsewhere than at the keyword leaves the target ahead. -/
theorem report (ahead : state.Ahead typed target before twin) {span : Span}
    (elsewhere : span ≠ typed.token.span ∧ span ≠ .empty typed.stop)
    (message : DiagnosticMessage) (arguments : List String) :
    state.Ahead typed target before (twin.report span message arguments) :=
  { ahead with unrejected := ahead.unrejected.report elsewhere message arguments }

theorem reportHere (ahead : state.Ahead typed target before twin) (message : DiagnosticMessage)
    (arguments : List String) : state.Ahead typed target before
      (twin.report twin.currentToken.span message arguments) :=
  ahead.report (elsewhere_of_start_lt ahead.currentToken_starts) message arguments

theorem reportAfterLast (ahead : state.Ahead typed target before twin)
    (message : DiagnosticMessage) (arguments : List String) :
    state.Ahead typed target before (twin.report (.empty twin.lastEnd) message arguments) :=
  ahead.report (empty_elsewhere (Nat.ne_of_lt ahead.lastEnd)) message arguments

/-- In the second run too deep nesting counts as reported. -/
theorem mark (ahead : state.Ahead typed target before twin) :
    state.Ahead typed target before { twin with reportedTooDeep := true } :=
  { ahead with }

/-- Tokens in front of the target are consumed. -/
theorem advance {consumed left : List Token}
    (ahead : state.Ahead typed target (consumed ++ left) twin) :
    (state.advance consumed (left ++ target :: typed.instead)).Ahead typed target left
      (twin.advance consumed (left ++ [target, typed.token])) where
  left := rfl
  right := rfl
  notBefore := fun isLeft => ahead.notBefore (List.mem_append_right _ isLeft)
  notInstead := ahead.notInstead
  notEnd := ahead.notEnd
  starts token isLeft := by
    refine ahead.starts token ?_
    rw [List.append_assoc]
    exact List.mem_append_right _ isLeft
  stops := fun token isLeft => ahead.stops token (List.mem_append_right _ isLeft)
  lastEnd := by
    unfold ParseState.advance
    dsimp only
    split
    · next token isLast =>
      exact ahead.stops token (List.mem_append_left _ (List.mem_of_getLast? isLast))
    · exact ahead.lastEnd
  unrejected := ahead.unrejected
  endOfFile := ahead.endOfFile

end Ahead

end ParseState

namespace Parser

variable {α β : Type} {typed : TypedKeyword} {target : Token} {before : List Token}
  {state twin : ParseState}

/-! ### Basic steps -/

/-- Each run goes on by where it stands. -/
theorem LeadBoth.atState {next : ParseState → Parser α} {nextOther : ParseState → Parser β}
    {post : α → β → ParseState → ParseState → Prop}
    (lead : LeadBoth (next state) (nextOther twin) state twin post) :
    LeadBoth (get >>= next) (get >>= nextOther) state twin post :=
  lead

/-- In front of the target both runs go on by the same kind of token. -/
theorem LeadBoth.atCurrent {next : Kind → Parser α} {nextOther : Kind → Parser β}
    {post : α → β → ParseState → ParseState → Prop} (ahead : state.Ahead typed target before twin)
    (lead : LeadBoth (next state.current) (nextOther state.current) state twin post) :
    LeadBoth (current >>= next) (current >>= nextOther) state twin post := by
  show LeadBoth (next state.current) (nextOther twin.current) state twin post
  rw [ahead.current_eq]
  exact lead

/-- A token is consumed: one in front of the target, or the target. -/
theorem bump_ahead (ahead : state.Ahead typed target before twin) :
    LeadBoth bump bump state twin fun piece other after otherAfter =>
      (∃ token rest, before = token :: rest ∧ piece = .token token ∧ other = .token token ∧
        after.Ahead typed target rest otherAfter) ∨
      before = [] ∧ piece = .token target ∧ after.Behind target ∧ otherAfter.Ready typed := by
  cases before with
  | nil =>
    refine (leads_bump ahead.left _).mpr ((leads_bump ahead.right _).mpr (.inr ?_))
    exact ⟨rfl, rfl, ⟨ahead.notInstead, ahead.notEnd⟩, rfl, ahead.unrejected, ahead.endOfFile⟩
  | cons token rest =>
    have aheadFirst : state.Ahead typed target ([token] ++ rest) twin := ahead
    refine (leads_bump ahead.left _).mpr ((leads_bump ahead.right _).mpr (.inl ?_))
    exact ⟨token, rest, rfl, rfl, rfl, aheadFirst.advance⟩

theorem coupled_bump : Coupled typed target bump := by
  refine .of (·.bump) fun {before state twin} ahead => (bump_ahead ahead).mono ?_
  rintro piece other after otherAfter (⟨token, rest, rfl, rfl, rfl, aheadAfter⟩ |
    ⟨rfl, rfl, behind, ready⟩)
  · refine .ahead rfl rfl (fun ends => ahead.notBefore ?_) ParseTree.not_accepts_token aheadAfter
    exact List.mem_cons.mpr (.inl (ParseTree.endsWith_token_iff.mp ends).symm)
  · exact .past behind (fun _ => .inl ready) (absurd · ParseTree.not_accepts_token)

/-- A missing token consumes nothing. -/
theorem expect_absent (ahead : state.Ahead typed target before twin) {kind : Kind}
    (absent : state.current ≠ kind) :
    LeadBoth (expect kind) (expect kind) state twin fun piece other after otherAfter =>
      piece = .missing kind ∧ other = .missing kind ∧
        after.Ahead typed target before otherAfter := by
  refine .atCurrent ahead ?_
  rw [if_neg absent]
  split
  · exact ⟨rfl, rfl, (ahead.reportAfterLast _ _).of_rest_eq rfl rfl⟩
  · exact ⟨rfl, rfl, (ahead.reportAfterLast _ _).of_rest_eq rfl rfl⟩

theorem coupled_expect (kind : Kind) : Coupled typed target (expect kind) := by
  refine .of (·.expect kind) fun {before state twin} ahead => ?_
  by_cases isCurrent : state.current = kind
  · refine .atCurrent ahead ?_
    rw [if_pos isCurrent]
    exact coupled_bump.ahead ahead
  · refine (expect_absent ahead isCurrent).mono ?_
    rintro _ _ after otherAfter ⟨rfl, rfl, aheadAfter⟩
    have free : target ∉ (ParseTree.missing kind).tokens := List.not_mem_nil
    exact .ahead rfl rfl (free ·.mem_tokens) (free ·.mem_tokens) aheadAfter

/-- A step that consumes nothing in the first run, and leaves the target ahead in the second. -/
theorem LeadBoth.of_rest_eq {parser : Parser α} {other : Parser β}
    (first : parser.Leads state fun _ after =>
      after.rest = state.rest ∧ after.endOfFile = state.endOfFile)
    (second : other.Leads twin fun _ after => state.Ahead typed target before after) :
    LeadBoth parser other state twin
      fun _ _ after otherAfter => after.Ahead typed target before otherAfter :=
  first.mono fun _ _ same => second.mono fun _ _ ahead => ahead.of_rest_eq same.1 same.2

theorem checkFeature_ahead (ahead : state.Ahead typed target before twin) (feature : Features) :
    LeadBoth (checkFeature feature) (checkFeature feature) state twin
      fun _ _ after otherAfter => after.Ahead typed target before otherAfter := by
  refine .of_rest_eq ?_ ?_ <;> rw [checkFeature, leads_bind, leads_get]
  · cases state.features.enables feature <;> exact ⟨rfl, rfl⟩
  · cases twin.features.enables feature with
    | true => exact ahead
    | false => exact ahead.reportHere _ _

theorem reportTooDeep_ahead (ahead : state.Ahead typed target before twin) :
    LeadBoth reportTooDeep reportTooDeep state twin
      fun _ _ after otherAfter => after.Ahead typed target before otherAfter := by
  refine .of_rest_eq ?_ ?_ <;> rw [reportTooDeep, leads_bind, leads_get]
  · cases state.reportedTooDeep <;> exact ⟨rfl, rfl⟩
  · cases twin.reportedTooDeep with
    | true => exact ahead
    | false => exact ahead.mark.reportHere _ _

/-! ### At the keyword -/

/-- Where nothing more can be reported about the keyword, the parser keeps it so. -/
class KeepsHarmless (typed : TypedKeyword) (parser : Parser α) : Prop where
  leads : ∀ {state : ParseState}, state.Harmless typed →
    parser.Leads state fun _ after => after.Harmless typed

namespace KeepsHarmless

theorem ofAgree {parser : Parser α} {values : α → α → Prop}
    (agree : Agree (fun state twin => state = twin ∧ state.Harmless typed) values parser parser) :
    KeepsHarmless typed parser :=
  ⟨fun harmless => (agree.leads harmless).mono fun _ _ kept => kept.2⟩

instance {value : α} : KeepsHarmless typed (pure value : Parser α) :=
  ⟨id⟩

instance {parser : Parser α} {next : α → Parser β} [keeps : KeepsHarmless typed parser]
    [rest : ∀ value, KeepsHarmless typed (next value)] : KeepsHarmless typed (parser >>= next) :=
  ⟨fun harmless => (keeps.leads harmless).bind fun value _ => (rest value).leads⟩

instance {condition : Prop} [Decidable condition] {yes no : Parser α} [KeepsHarmless typed yes]
    [KeepsHarmless typed no] : KeepsHarmless typed (if condition then yes else no) := by
  split <;> infer_instance

instance : KeepsHarmless typed get :=
  ⟨id⟩

instance : KeepsHarmless typed current :=
  ⟨id⟩

instance : KeepsHarmless typed bump :=
  .ofAgree (kept_harmless typed).bump

instance {kind : Kind} : KeepsHarmless typed (expect kind) :=
  .ofAgree ((kept_harmless typed).expect kind)

instance {levels : Nat} : KeepsHarmless typed (expression levels) :=
  .ofAgree ((kept_harmless typed).expression levels)

instance {levels : Nat} : KeepsHarmless typed (block levels) :=
  .ofAgree ((kept_harmless typed).block levels)

end KeepsHarmless

namespace TakesKeyword

variable {parser : Parser α} {next : α → Parser β}

theorem bind (takes : TakesKeyword typed parser)
    [rest : ∀ value, KeepsHarmless typed (next value)] : TakesKeyword typed (parser >>= next) :=
  fun state ready => (takes state ready).bind fun value _ => (rest value).leads

theorem bump : TakesKeyword typed bump :=
  fun _ ready => (leads_bump ready.rest _).mpr ready.advance

theorem expect : TakesKeyword typed (expect typed.token.kind) := by
  intro state ready
  rw [Parser.expect, leads_bind, leads_current, ready.current_eq, if_pos rfl]
  exact bump _ ready

/-- What is taken may be a feature that is off. -/
theorem checkFeature (takes : TakesKeyword typed parser) (feature : Features) :
    TakesKeyword typed (checkFeature feature >>= fun _ => parser) := by
  intro state ready
  rw [Parser.checkFeature, bind_assoc, leads_bind, leads_get]
  cases state.features.enables feature with
  | true => exact takes _ ready
  | false => exact takes _ (ready.report_other (by decide) _ _)

theorem reportTooDeep (takes : TakesKeyword typed parser) :
    TakesKeyword typed (reportTooDeep >>= fun _ => parser) := by
  intro state ready
  rw [Parser.reportTooDeep, bind_assoc, leads_bind, leads_get]
  cases state.reportedTooDeep with
  | true => exact takes _ ready
  | false =>
    have marked : ParseState.Ready typed { state with reportedTooDeep := true } :=
      ⟨ready.rest, ready.unrejected, ready.endOfFile⟩
    exact takes _ (marked.report_other (by decide) _ _)

end TakesKeyword

end Parser

end QueryLang
