import QueryLang.Proofs.Syntax.CoupledStatements

/-!
# Parsers look no further than the next token

What stands behind a token does not matter to a parser that leaves the token: run on files that are
the same up to the token, it gives the same and leads to the same state, apart from what is left
behind the token. This is an instance of `Parser.Local` for each way of putting parsers together,
and from these for each parser. The bounds of repetitions differ in the two runs, but they never
stop a repetition whose steps consume tokens.
-/

namespace QueryLang

namespace ParseState

/-- States that differ only in what is left behind the target, to which `before` leads. -/
structure Facing (target : Token) (tail other before : List Token) (state twin : ParseState) :
    Prop where
  left : state.rest = before ++ target :: tail
  right : twin = { state with rest := before ++ target :: other }

namespace Facing

variable {target : Token} {tail other before : List Token} {state twin : ParseState}
  (facing : Facing target tail other before state twin)

include facing

theorem rest_right : twin.rest = before ++ target :: other := by
  rw [facing.right]

theorem rest_ne_nil : state.rest ≠ [] := by
  simp [facing.left]

theorem currentToken_eq : twin.currentToken = state.currentToken := by
  rw [currentToken, currentToken, facing.rest_right, facing.left]
  cases before <;> rfl

theorem current_eq : twin.current = state.current :=
  congrArg Token.kind facing.currentToken_eq

omit facing in
theorem following_eq {token : Token}
    (facing : Facing target tail other (token :: before) state twin) :
    twin.following = state.following := by
  rw [following, following, facing.rest_right, facing.left]
  cases before <;> rfl

/-- What changes nothing of the rest may change both states alike. -/
theorem change {change : ParseState → ParseState}
    (keeps : (change state).rest = state.rest)
    (alike : change twin = { change state with rest := twin.rest }) :
    Facing target tail other before (change state) (change twin) :=
  ⟨keeps.trans facing.left, alike.trans (by rw [facing.rest_right])⟩

theorem advance (consumed left : List Token) :
    Facing target tail other left (state.advance consumed (left ++ target :: tail))
      (twin.advance consumed (left ++ target :: other)) := by
  refine ⟨rfl, ?_⟩
  rw [facing.right]
  rfl

end Facing

end ParseState

namespace Parser

variable {α β : Type}

/-- The parser takes tokens off the front of what is left, and nothing else. -/
def Shrinks (parser : Parser α) : Prop :=
  ∀ state : ParseState, parser.Leads state fun _ after => after.rest <:+ state.rest

/-- The parser takes a token, where one is left. -/
class Consumes (parser : Parser α) : Prop where
  takes : ∀ state : ParseState, state.rest ≠ [] →
    parser.Leads state fun _ after => after.rest.length < state.rest.length

/-- Where it leaves the target, the parser does the same whatever stands behind it. -/
def Stays (parser : Parser α) : Prop :=
  ∀ {target : Token} {tail other before : List Token} {state twin : ParseState},
    state.Facing target tail other before twin → target ∉ tail →
    LeadBoth parser parser state twin fun value otherValue after otherAfter =>
      target ∈ after.rest →
        otherValue = value ∧ ∃ left, after.Facing target tail other left otherAfter

/-- The parser takes tokens off the front, and looks no further than the next token. -/
class Local (parser : Parser α) : Prop where
  shrinks : parser.Shrinks
  stays : parser.Stays

variable {parser : Parser α} {next : α → Parser β}

/-- Where the first of two runs has consumed the target, no more is said. -/
theorem LeadBoth.of_consumed {other : Parser α} {state twin : ParseState} {target : Token}
    {post : α → α → ParseState → ParseState → Prop}
    (consumed : parser.Leads state fun _ after => target ∉ after.rest) :
    LeadBoth parser other state twin fun value otherValue after otherAfter =>
      target ∈ after.rest → post value otherValue after otherAfter :=
  consumed.mono fun _ _ consumed isLeft => absurd isLeft consumed

theorem Shrinks.not_mem (shrinks : parser.Shrinks) {state : ParseState} {target : Token}
    (consumed : target ∉ state.rest) :
    parser.Leads state fun _ after => target ∉ after.rest :=
  (shrinks state).mono fun _ _ kept isLeft => consumed (kept.subset isLeft)

theorem Shrinks.pure (value : α) : Shrinks (pure value : Parser α) :=
  fun _ => List.suffix_rfl

theorem Shrinks.bind (shrinks : parser.Shrinks) (rest : ∀ value, (next value).Shrinks) :
    (parser >>= next).Shrinks := by
  refine fun state => (shrinks state).bind fun value middle kept => ?_
  exact (rest value middle).mono fun _ after keptAfter => keptAfter.trans kept

namespace Local

theorem bind [first : Local parser] (rest : ∀ value, Local (next value)) :
    Local (parser >>= next) where
  shrinks := first.shrinks.bind fun value => (rest value).shrinks
  stays := by
    intro target tail other before state twin facing fresh
    refine LeadBoth.bind (first.stays facing fresh) fun value otherValue middle _ stays => ?_
    by_cases isLeft : target ∈ middle.rest
    · obtain ⟨rfl, left, facingMiddle⟩ := stays isLeft
      exact (rest _).stays facingMiddle fresh
    · exact .of_consumed ((rest value).shrinks.not_mem isLeft)

/-- A parser that goes on by something of the state on which nothing behind the target has a say. -/
theorem atState {next : ParseState → Parser α} (locals : ∀ state, Local (next state))
    (same : ∀ {target : Token} {tail other before : List Token} {state twin : ParseState},
      state.Facing target tail other before twin → next twin = next state) :
    Local (get >>= next) where
  shrinks state := (locals state).shrinks state
  stays := by
    intro target tail other before state twin facing fresh
    refine LeadBoth.atState ?_
    rw [same facing]
    exact (locals state).stays facing fresh

theorem modify {change : ParseState → ParseState}
    (keeps : ∀ state, (change state).rest = state.rest)
    (alike : ∀ {target : Token} {tail other before : List Token} {state twin : ParseState},
      state.Facing target tail other before twin →
        change twin = { change state with rest := twin.rest }) :
    Local (modify change : Parser PUnit) where
  shrinks state := keeps state ▸ List.suffix_rfl
  stays facing _ _ := ⟨rfl, _, facing.change (keeps _) (alike facing)⟩

end Local

/-- Where the target is the next token, what takes a token takes it. -/
theorem leads_behind [consumes : Consumes parser] (shrinks : parser.Shrinks) {target : Token}
    {tail other : List Token} {state twin : ParseState}
    (facing : state.Facing target tail other [] twin) (fresh : target ∉ tail) :
    parser.Leads state fun _ after => target ∉ after.rest := by
  refine ((shrinks state).and (consumes.takes state facing.rest_ne_nil)).mono ?_
  rintro _ after ⟨kept, shorter⟩ isLeft
  rw [facing.left, List.nil_append] at kept shorter
  obtain isWhole | kept := List.suffix_cons_iff.mp kept
  · rw [isWhole] at shorter
    exact absurd shorter (Nat.lt_irrefl _)
  · exact fresh (kept.subset isLeft)

/-! ### Basic steps -/

instance {value : α} : Local (pure value : Parser α) where
  shrinks := .pure value
  stays facing _ _ := ⟨rfl, _, facing⟩

instance [Local parser] [rest : ∀ value, Local (next value)] : Local (parser >>= next) :=
  .bind rest

instance {condition : Prop} [Decidable condition] {yes no : Parser α} [Local yes] [Local no] :
    Local (if condition then yes else no) := by
  split <;> infer_instance

instance : Local current where
  shrinks _ := List.suffix_rfl
  stays facing _ _ := ⟨facing.current_eq, _, facing⟩

instance : Consumes bump where
  takes state notEnd := by
    obtain ⟨token, rest, left⟩ := List.exists_cons_of_ne_nil notEnd
    refine (leads_bump left _).mpr ?_
    show rest.length < state.rest.length
    rw [left]
    exact Nat.lt_succ_self _

instance [consumes : Consumes parser] [rest : ∀ value, Local (next value)] :
    Consumes (parser >>= next) where
  takes state notEnd := by
    refine (consumes.takes state notEnd).bind fun value middle shorter => ?_
    refine ((rest value).shrinks middle).mono fun _ after kept => ?_
    exact Nat.lt_of_le_of_lt kept.length_le shorter

instance : Local bump where
  shrinks state := by
    rw [bump, leads_bind, leads_get]
    split
    · next token rest left => exact ⟨[token], left.symm⟩
    · exact List.suffix_rfl
  stays := by
    intro target tail other before state twin facing fresh
    cases before with
    | nil => exact .of_consumed ((leads_bump facing.left _).mpr fresh)
    | cons token before =>
      refine (leads_bump facing.left _).mpr ((leads_bump facing.rest_right _).mpr fun _ => ?_)
      exact ⟨rfl, before, facing.advance [token] before⟩

instance {message : DiagnosticMessage} {arguments : List String} :
    Local (reportHere message arguments) :=
  .modify (fun _ => rfl) fun facing => by
    rw [facing.currentToken_eq, facing.right]
    rfl

instance {message : DiagnosticMessage} {arguments : List String} :
    Local (reportAfterLast message arguments) :=
  .modify (fun _ => rfl) fun facing => by
    rw [facing.right]
    rfl

instance {kind : Kind} : Local (expect kind) := by
  unfold expect
  infer_instance

instance : Local reportTooDeep := by
  have marks : Local (modify ({ · with reportedTooDeep := true }) : Parser PUnit) :=
    .modify (fun _ => rfl) fun facing => by
      rw [facing.right]
  refine .atState (fun state => ?_) fun facing => by rw [facing.right]
  infer_instance

instance {feature : Features} : Local (checkFeature feature) := by
  refine .atState (fun state => ?_) fun facing => by rw [facing.right]
  infer_instance

instance : Local looseTokens where
  shrinks state := ⟨_, splitAtClosingBrace_append 0 state.rest⟩
  stays := by
    intro target tail other before state twin facing fresh
    have left : state.rest = before ++ [target] ++ tail := by simp [facing.left]
    have right : twin.rest = before ++ [target] ++ other := by simp [facing.rest_right]
    obtain ⟨loose, kept, isKept, split, stops⟩ | ⟨opened, goesOn⟩ :=
      splitAtClosingBrace_front (before ++ [target]) 0
    · -- The brace is the target, or stands in front of it: both runs stop there.
      obtain ⟨between, rfl⟩ : ∃ between, kept = between ++ [target] := by
        obtain rfl | ⟨between, last, rfl⟩ := List.eq_nil_or_concat kept
        · exact absurd rfl isKept
        · rw [List.concat_eq_append, ← List.append_assoc] at split
          exact ⟨between, by rw [List.concat_eq_append, (List.append_inj' split rfl).2]⟩
      rw [← List.append_assoc] at split
      obtain ⟨rfl, _⟩ := List.append_inj' split rfl
      have stopsLeft := stops tail
      have stopsRight := stops other
      rw [← left, List.append_assoc] at stopsLeft
      rw [← right, List.append_assoc] at stopsRight
      refine (leads_looseTokens stopsLeft _).mpr ((leads_looseTokens stopsRight _).mpr fun _ => ?_)
      exact ⟨rfl, between, facing.advance loose between⟩
    · have goesOnLeft := goesOn tail
      rw [← left] at goesOnLeft
      refine .of_consumed ((leads_looseTokens goesOnLeft _).mpr fun isLeft => fresh ?_)
      rw [← splitAtClosingBrace_append opened tail]
      exact List.mem_append_right _ isLeft

/-! ### Repetition -/

/-- Where a token is left, the parser takes one or gives something that stops a repetition. -/
def Progresses (parser : Parser α) (stops : α → Prop) : Prop :=
  ∀ state : ParseState, state.rest ≠ [] → parser.Leads state fun value after =>
    stops value ∨ after.rest.length < state.rest.length

namespace Progresses

variable {stops : α → Prop}

theorem pure {value : α} (isStop : stops value) : Progresses (pure value) stops :=
  fun _ _ => .inl isStop

theorem ofConsumes [consumes : Consumes parser] : parser.Progresses stops :=
  fun state notEnd => (consumes.takes state notEnd).mono fun _ _ => .inr

theorem atCurrent {next : Kind → Parser α} (progress : ∀ kind, (next kind).Progresses stops) :
    (current >>= next).Progresses stops :=
  fun state => progress state.current state

end Progresses

section Repetition

variable {step : Parser (List ParseTree)} {growing : ParseTree → Parser (Option ParseTree)}

theorem Shrinks.manyWithin (shrinks : step.Shrinks) (limit : Nat) :
    (manyWithin step limit).Shrinks := by
  induction limit with
  | zero => exact .pure []
  | succ limit ih =>
    refine shrinks.bind fun pieces => ?_
    cases pieces with
    | nil => exact .pure []
    | cons => exact ih.bind fun _ => .pure _

theorem Shrinks.growWithin (shrinks : ∀ piece, (growing piece).Shrinks) (limit : Nat)
    (piece : ParseTree) : (growWithin growing limit piece).Shrinks := by
  induction limit generalizing piece with
  | zero => exact .pure piece
  | succ limit ih =>
    refine (shrinks piece).bind fun grown => ?_
    cases grown with
    | none => exact .pure piece
    | some larger => exact ih larger

variable {target : Token} {tail other before : List Token} {state twin : ParseState}

theorem manyWithin_stays [steps : Local step] (progress : step.Progresses (· = []))
    (fresh : target ∉ tail) {limit otherLimit : Nat} (enough : before.length < limit)
    (otherEnough : before.length < otherLimit)
    (facing : state.Facing target tail other before twin) :
    LeadBoth (manyWithin step limit) (manyWithin step otherLimit) state twin
      fun value otherValue after otherAfter => target ∈ after.rest →
        otherValue = value ∧ ∃ left, after.Facing target tail other left otherAfter := by
  -- A step that leaves the token unread is the same in both runs, and takes tokens in front of it.
  induction limit generalizing before otherLimit state twin with
  | zero => exact absurd enough (Nat.not_lt_zero _)
  | succ limit ih =>
    obtain ⟨otherLimit, rfl⟩ := Nat.exists_eq_succ_of_ne_zero (Nat.ne_zero_of_lt otherEnough)
    refine LeadBoth.bind ((steps.stays facing fresh).and_left
      (progress state facing.rest_ne_nil)) ?_
    rintro pieces others middle otherMiddle ⟨stays, shorter⟩
    by_cases isLeft : target ∈ middle.rest
    · obtain ⟨rfl, left, facingMiddle⟩ := stays isLeft
      cases others with
      | nil => exact fun _ => ⟨rfl, left, facingMiddle⟩
      | cons first rest =>
        have lengths := shorter.resolve_left (List.cons_ne_nil _ _)
        rw [facingMiddle.left, facing.left, List.length_append, List.length_append] at lengths
        refine LeadBoth.bind (ih (by omega) (by omega) facingMiddle) ?_
        intro more otherMore after otherAfter staysMore isLeftAfter
        obtain ⟨rfl, leftAfter, facingAfter⟩ := staysMore isLeftAfter
        exact ⟨rfl, leftAfter, facingAfter⟩
    · -- Steps behind the token may differ, but none of them brings it back.
      refine .of_consumed (Shrinks.not_mem ?_ isLeft)
      cases pieces with
      | nil => exact .pure []
      | cons => exact (Shrinks.manyWithin steps.shrinks limit).bind fun _ => .pure _

theorem Local.many [steps : Local step] (progress : step.Progresses (· = [])) :
    Local (many step) where
  shrinks state := Shrinks.manyWithin steps.shrinks state.rest.length state
  stays := by
    intro target tail other before state twin facing fresh
    refine manyWithin_stays progress fresh ?_ ?_ facing
    · rw [facing.left, List.length_append, List.length_cons]
      omega
    · rw [facing.rest_right, List.length_append, List.length_cons]
      omega

theorem growWithin_stays [steps : ∀ piece, Local (growing piece)]
    (progress : ∀ piece, (growing piece).Progresses (· = none)) (fresh : target ∉ tail)
    {limit otherLimit : Nat} (enough : before.length < limit)
    (otherEnough : before.length < otherLimit)
    (facing : state.Facing target tail other before twin) (piece : ParseTree) :
    LeadBoth (growWithin growing limit piece) (growWithin growing otherLimit piece) state twin
      fun value otherValue after otherAfter => target ∈ after.rest →
        otherValue = value ∧ ∃ left, after.Facing target tail other left otherAfter := by
  induction limit generalizing before otherLimit state twin piece with
  | zero => exact absurd enough (Nat.not_lt_zero _)
  | succ limit ih =>
    obtain ⟨otherLimit, rfl⟩ := Nat.exists_eq_succ_of_ne_zero (Nat.ne_zero_of_lt otherEnough)
    refine LeadBoth.bind (((steps piece).stays facing fresh).and_left
      (progress piece state facing.rest_ne_nil)) ?_
    rintro grown otherGrown middle otherMiddle ⟨stays, shorter⟩
    by_cases isLeft : target ∈ middle.rest
    · obtain ⟨rfl, left, facingMiddle⟩ := stays isLeft
      cases otherGrown with
      | none => exact fun _ => ⟨rfl, left, facingMiddle⟩
      | some larger =>
        have lengths := shorter.resolve_left (Option.some_ne_none _)
        rw [facingMiddle.left, facing.left, List.length_append, List.length_append] at lengths
        exact ih (by omega) (by omega) facingMiddle larger
    · refine .of_consumed (Shrinks.not_mem ?_ isLeft)
      cases grown with
      | none => exact .pure piece
      | some larger => exact Shrinks.growWithin (fun piece => (steps piece).shrinks) limit larger

theorem Local.grow [steps : ∀ piece, Local (growing piece)]
    (progress : ∀ piece, (growing piece).Progresses (· = none)) (piece : ParseTree) :
    Local (grow growing piece) where
  shrinks state :=
    Shrinks.growWithin (fun piece => (steps piece).shrinks) state.rest.length piece state
  stays := by
    intro target tail other before state twin facing fresh
    refine growWithin_stays progress fresh ?_ ?_ facing piece
    · rw [facing.left, List.length_append, List.length_cons]
      omega
    · rw [facing.rest_right, List.length_append, List.length_cons]
      omega

end Repetition

/-! ### Expressions -/

instance : Local identifierName := by
  unfold identifierName
  infer_instance

instance {kind : Kind} : Local (literal kind) := by
  unfold literal
  infer_instance

instance : Local absentExpression := by
  refine .atState (fun state => ?_) fun facing => by rw [facing.currentToken_eq]
  dsimp only
  split <;> infer_instance

section Layers

variable {inner : Parser ParseTree} [Local inner]

instance : Local (fromClause inner) := by
  unfold fromClause
  infer_instance

instance : Consumes (fromClause inner) := by
  unfold fromClause
  infer_instance

instance : Local (whereClause inner) := by
  unfold whereClause
  infer_instance

instance : Consumes (whereClause inner) := by
  unfold whereClause
  infer_instance

instance : Local (letClause inner) := by
  unfold letClause
  infer_instance

instance : Consumes (letClause inner) := by
  unfold letClause
  infer_instance

instance : Local (bodyClause inner) := by
  refine .bind fun kind => ?_
  split <;> infer_instance

theorem progresses_bodyClause : (bodyClause inner).Progresses (· = []) := by
  refine .atCurrent fun kind => ?_
  split
  · exact .ofConsumes
  · exact .ofConsumes
  · exact .ofConsumes
  · exact .pure rfl

instance : Local (finalClause inner) := by
  have selects : Local (selectClause inner) := by
    unfold selectClause
    infer_instance
  have groups : Local (groupClause inner) := by
    unfold groupClause
    infer_instance
  refine .bind fun kind => ?_
  split <;> infer_instance

instance : Local (optionalConclusion inner) := by
  unfold optionalConclusion queryConclusion
  infer_instance

instance : Local (queryBody inner) := by
  have clauses : Local (many (bodyClause inner)) := .many progresses_bodyClause
  unfold queryBody
  infer_instance

instance : Local (queryExpression inner) := by
  unfold queryExpression
  infer_instance

instance : Local (primary inner) := by
  have parentheses : Local (parenthesized inner) := by
    unfold parenthesized
    infer_instance
  refine .bind fun kind => ?_
  split <;> infer_instance

instance : Local (nextArgument inner) := by
  unfold nextArgument
  infer_instance

theorem progresses_nextArgument : (nextArgument inner).Progresses (· = []) := by
  refine .atCurrent fun kind => ?_
  split
  · exact .ofConsumes
  · exact .pure rfl

instance : Local (argumentList inner) := by
  have further : Local (many (nextArgument inner)) := .many progresses_nextArgument
  unfold argumentList
  infer_instance

instance : Consumes (argumentList inner) := by
  have further : Local (many (nextArgument inner)) := .many progresses_nextArgument
  unfold argumentList
  infer_instance

instance {operand : ParseTree} : Local (suffix inner operand) := by
  refine .bind fun kind => ?_
  split <;> infer_instance

theorem progresses_suffix (operand : ParseTree) :
    (suffix inner operand).Progresses (· = none) := by
  refine .atCurrent fun kind => ?_
  split
  · exact .ofConsumes
  · exact .ofConsumes
  · exact .pure rfl

instance : Local (postfixed inner) :=
  .bind fun operand => .grow progresses_suffix operand

end Layers

section Operations

variable {right : Nat → Parser ParseTree} [∀ precedence, Local (right precedence)]
  {minimum : Nat}

instance {left : ParseTree} : Local (operation right minimum left) := by
  refine .bind fun kind => ?_
  split <;> infer_instance

theorem progresses_operation (left : ParseTree) :
    (operation right minimum left).Progresses (· = none) := by
  refine .atCurrent fun kind => ?_
  split
  · split
    · exact .pure rfl
    · exact .ofConsumes
  · exact .pure rfl

end Operations

instance {operand : Parser ParseTree} [Local operand] {precedences minimum : Nat} :
    Local (binary operand precedences minimum) := by
  induction precedences generalizing minimum with
  | zero => exact inferInstanceAs (Local operand)
  | succ precedences ih => exact .bind fun left => .grow progresses_operation left

instance {levels : Nat} : Local (expression levels) := by
  induction levels with
  | zero =>
    unfold expression
    infer_instance
  | succ levels ih =>
    unfold expression
    infer_instance

/-! ### Statements -/

section Statements

variable {inner block : Parser ParseTree} [Local inner]

instance : Local (localDeclaration inner) := by
  unfold localDeclaration
  infer_instance

instance : Local (returnStatement inner) := by
  unfold returnStatement
  infer_instance

instance : Local (expressionStatement inner) := by
  unfold expressionStatement
  infer_instance

instance : Local yieldBreak := by
  unfold yieldBreak
  infer_instance

instance : Consumes yieldBreak := by
  unfold yieldBreak
  infer_instance

instance : Local (yieldReturn inner) := by
  unfold yieldReturn
  infer_instance

instance : Consumes (yieldReturn inner) := by
  unfold yieldReturn
  infer_instance

/-- The token behind `yield` has a say, but only where `yield` is consumed anyway. -/
instance : Local (yieldStatement inner) where
  shrinks state := by
    rw [yieldStatement_eq, leads_bind, leads_get]
    split
    · exact Local.shrinks state
    · exact Local.shrinks state
  stays := by
    intro target tail other before state twin facing fresh
    cases before with
    | nil =>
      refine .of_consumed ?_
      rw [yieldStatement_eq, leads_bind, leads_get]
      split
      · exact leads_behind Local.shrinks facing fresh
      · exact leads_behind Local.shrinks facing fresh
    | cons token before =>
      refine LeadBoth.atState ?_
      rw [facing.following_eq]
      split
      · exact Local.stays facing fresh
      · exact Local.stays facing fresh

instance [Local block] : Local (doStatement block inner) := by
  unfold doStatement
  infer_instance

instance [Local block] : Local (statementOf block inner) := by
  refine .bind fun kind => ?_
  split <;> infer_instance

/-! ### Lists of statements -/

variable {statement : Parser ParseTree} [parses : Local statement]

theorem Shrinks.skipWhereStuck (length : Nat) (parsed : ParseTree) :
    (skipWhereStuck length parsed).Shrinks := by
  intro state
  rw [Parser.skipWhereStuck, leads_bind, leads_get]
  split
  · exact (Local.shrinks state : bump.Leads state _)
  · exact List.suffix_rfl

/-- Both runs are stuck, or neither is. -/
theorem skipWhereStuck_stays {target : Token} {tail other before left : List Token}
    {state twin middle otherMiddle : ParseState}
    (facing : state.Facing target tail other before twin)
    (facingMiddle : middle.Facing target tail other left otherMiddle) (fresh : target ∉ tail)
    (parsed : ParseTree) :
    LeadBoth (skipWhereStuck state.rest.length parsed) (skipWhereStuck twin.rest.length parsed)
      middle otherMiddle fun value otherValue after otherAfter => target ∈ after.rest →
        otherValue = value ∧ ∃ left, after.Facing target tail other left otherAfter := by
  refine LeadBoth.atState ?_
  have sameStuck : (otherMiddle.rest.length = twin.rest.length) =
      (middle.rest.length = state.rest.length) := by
    rw [facing.left, facing.rest_right, facingMiddle.left, facingMiddle.rest_right]
    simp only [List.length_append, List.length_cons, eq_iff_iff]
    omega
  simp only [sameStuck]
  split
  · have skips : Local (do return [parsed, ← bump] : Parser (List ParseTree)) := inferInstance
    exact skips.stays facingMiddle fresh
  · exact fun _ => ⟨rfl, left, facingMiddle⟩

instance : Local (recoveringStatement statement) where
  shrinks state := by
    rw [recoveringStatement_eq, leads_bind, leads_get]
    exact parses.shrinks.bind (fun parsed => .skipWhereStuck _ parsed) state
  stays := by
    intro target tail other before state twin facing fresh
    rw [recoveringStatement_eq]
    refine LeadBoth.atState ?_
    refine LeadBoth.bind (parses.stays facing fresh) fun parsed otherParsed middle _ stays => ?_
    by_cases isLeft : target ∈ middle.rest
    · obtain ⟨rfl, left, facingMiddle⟩ := stays isLeft
      exact skipWhereStuck_stays facing facingMiddle fresh _
    · exact .of_consumed ((Shrinks.skipWhereStuck _ parsed).not_mem isLeft)

instance : Consumes (recoveringStatement statement) where
  takes state notEnd := by
    rw [recoveringStatement_eq, leads_bind, leads_get]
    refine (parses.shrinks state).bind fun parsed middle kept => ?_
    rw [skipWhereStuck, leads_bind, leads_get]
    split
    · next stuck =>
      have bumps : Consumes bump := inferInstance
      rw [← stuck]
      refine (bumps.takes middle ?_).bind fun _ _ shorter => shorter
      rwa [kept.eq_of_length stuck]
    · next moved => exact Nat.lt_of_le_of_ne kept.length_le moved

instance : Local (blockStatement statement) := by
  refine .bind fun kind => ?_
  split <;> infer_instance

theorem progresses_blockStatement : (blockStatement statement).Progresses (· = []) := by
  refine .atCurrent fun kind => ?_
  split
  · exact .pure rfl
  · exact .pure rfl
  · exact .ofConsumes

instance : Local (fileStatement statement) := by
  refine .bind fun kind => ?_
  split <;> infer_instance

theorem progresses_fileStatement : (fileStatement statement).Progresses (· = []) := by
  refine .atCurrent fun kind => ?_
  split
  · exact .pure rfl
  · exact .ofConsumes

instance {content : Parser (List ParseTree)} [Local content] : Local (blockOf content) := by
  unfold blockOf
  infer_instance

end Statements

instance {levels : Nat} : Local (block levels) := by
  induction levels with
  | zero =>
    unfold block
    infer_instance
  | succ levels ih =>
    have statements : Local (many (blockStatement (statementOf (block levels)
        (expression levels)))) := .many progresses_blockStatement
    unfold block
    infer_instance

instance {levels : Nat} : Local (statement levels) := by
  unfold statement
  infer_instance

end Parser

end QueryLang
