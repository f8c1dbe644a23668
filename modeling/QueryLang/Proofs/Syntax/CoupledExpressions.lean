import QueryLang.Proofs.Syntax.CoupledRepetition

/-!
# Expressions meet the target

One lemma per parser of expressions. Most of them run their parts in sequence and put a node around
what these give. In a query the conclusion takes a `yield` that is typed behind a whole last clause.
-/

namespace QueryLang

namespace Parser

variable {typed : TypedKeyword} {target : Token} {before : List Token} {state twin : ParseState}

/-! ### Pieces -/

theorem leads_any {α : Type} (parser : Parser α) (state : ParseState) :
    parser.Leads state fun _ _ => True :=
  trivial

theorem of_exists_mem_singleton {good : ParseTree → Prop} {piece : ParseTree}
    (any : ∃ other ∈ [piece], good other) : good piece := by
  obtain ⟨other, isPiece, holds⟩ := any
  exact List.mem_singleton.mp isPiece ▸ holds

/-- The parser gives a piece with a token in it. -/
def GivesToken (parser : Parser ParseTree) : Prop :=
  ∀ state : ParseState, parser.Leads state fun piece _ => piece.tokens ≠ []

theorem bump_givesToken : GivesToken bump := by
  intro state
  rw [bump, leads_bind, leads_get]
  split <;> exact List.cons_ne_nil _ _

/-- A repetition gives such pieces as its step does. -/
theorem many_forall {good : ParseTree → Prop} {step : Parser (List ParseTree)}
    (leads : ∀ state, step.Leads state fun new _ => ∀ piece ∈ new, good piece)
    (state : ParseState) : (many step).Leads state fun new _ => ∀ piece ∈ new, good piece := by
  have within (limit : Nat) : ∀ state,
      (manyWithin step limit).Leads state fun new _ => ∀ piece ∈ new, good piece := by
    induction limit with
    | zero => exact fun state => List.forall_mem_nil _
    | succ limit ih =>
      refine fun state => (leads state).bind fun new after goodNew => ?_
      cases new with
      | nil => exact List.forall_mem_nil _
      | cons first rest =>
        exact (ih after).bind fun more _ goodMore => List.forall_mem_append.mpr ⟨goodNew, goodMore⟩
  exact within _ state

theorem coupled_identifierName : Coupled typed target identifierName := by
  refine .of (·.identifierName) fun ahead => ?_
  refine ((Met.start ahead).piece (coupled_expect _)).bind fun _ _ _ _ met => ?_
  exact met.node (by decide)

theorem coupled_literal {kind : Kind} (isPlain : kind ∉ ParseTree.acceptingKinds) :
    Coupled typed target (literal kind) := by
  refine .of (·.literal kind) fun ahead => ?_
  refine ((Met.start ahead).piece coupled_bump).bind fun _ _ _ _ met => ?_
  exact met.node isPlain

theorem absentExpression_leads (state : ParseState) :
    absentExpression.Leads state fun piece after => piece = missingName ∧
      (after = state ∨ ∃ message arguments,
        after = state.report state.currentToken.span message arguments) := by
  rw [absentExpression, leads_bind, leads_get]
  dsimp only
  split
  · exact ⟨rfl, .inl rfl⟩
  · exact ⟨rfl, .inr ⟨_, _, rfl⟩⟩
  · exact ⟨rfl, .inr ⟨_, _, rfl⟩⟩

theorem coupled_absentExpression : Coupled typed target absentExpression := by
  refine .of (·.absentExpression) fun {before state twin} ahead => ?_
  refine (absentExpression_leads state).mono ?_
  rintro _ after ⟨rfl, first⟩
  refine (absentExpression_leads twin).mono ?_
  rintro _ otherAfter ⟨rfl, second⟩
  have aheadAfter : state.Ahead typed target before otherAfter := by
    rcases second with rfl | ⟨message, arguments, rfl⟩
    · exact ahead
    · exact ahead.reportHere message arguments
  have free : target ∉ missingName.tokens := List.not_mem_nil
  refine .ahead rfl rfl (free ·.mem_tokens) (free ·.mem_tokens) ?_
  rcases first with rfl | ⟨message, arguments, rfl⟩
  · exact aheadAfter
  · exact aheadAfter.of_rest_eq rfl rfl

section Layers

variable {inner : Parser ParseTree} (coupled : Coupled typed target inner)

include coupled

/-! ### Queries -/

theorem coupled_fromClause : Coupled typed target (fromClause inner) := by
  refine .of (fun kept => kept.fromClause (coupled.agree kept)) fun ahead => ?_
  refine ((Met.start ahead).piece coupled_bump).bind fun _ _ _ _ met => ?_
  refine (met.piece (coupled_expect _)).bind fun _ _ _ _ met => ?_
  refine (met.piece (coupled_expect _)).bind fun _ _ _ _ met => ?_
  refine (met.piece coupled).bind fun _ _ _ _ met => ?_
  exact met.node (by decide)

theorem coupled_whereClause : Coupled typed target (whereClause inner) := by
  refine .of (fun kept => kept.whereClause (coupled.agree kept)) fun ahead => ?_
  refine ((Met.start ahead).piece coupled_bump).bind fun _ _ _ _ met => ?_
  refine (met.piece coupled).bind fun _ _ _ _ met => ?_
  exact met.node (by decide)

theorem coupled_letClause : Coupled typed target (letClause inner) := by
  refine .of (fun kept => kept.letClause (coupled.agree kept)) fun ahead => ?_
  refine ((Met.start ahead).piece coupled_bump).bind fun _ _ _ _ met => ?_
  refine (met.piece (coupled_expect _)).bind fun _ _ _ _ met => ?_
  refine (met.piece (coupled_expect _)).bind fun _ _ _ _ met => ?_
  refine (met.piece coupled).bind fun _ _ _ _ met => ?_
  exact met.node (by decide)

theorem coupled_selectClause : Coupled typed target (selectClause inner) := by
  refine .of (fun kept => kept.selectClause (coupled.agree kept)) fun ahead => ?_
  refine ((Met.start ahead).piece coupled_bump).bind fun _ _ _ _ met => ?_
  refine (met.piece coupled).bind fun _ _ _ _ met => ?_
  exact met.node (by decide)

theorem coupled_groupClause : Coupled typed target (groupClause inner) := by
  refine .of (fun kept => kept.groupClause (coupled.agree kept)) fun ahead => ?_
  refine ((Met.start ahead).piece coupled_bump).bind fun _ _ _ _ met => ?_
  refine (met.piece coupled).bind fun _ _ _ _ met => ?_
  refine (met.piece (coupled_expect _)).bind fun _ _ _ _ met => ?_
  refine (met.piece coupled).bind fun _ _ _ _ met => ?_
  exact met.node (by decide)

theorem coupled_finalClause : Coupled typed target (finalClause inner) := by
  refine .of (fun kept => kept.finalClause (coupled.agree kept)) fun ahead => .atCurrent ahead ?_
  split
  · exact (coupled_selectClause coupled).ahead ahead
  · exact (coupled_groupClause coupled).ahead ahead
  · have free : target ∉ (ParseTree.node .selectClause [.missing .selectKeyword, missingName]).tokens :=
      List.not_mem_nil
    exact .ahead rfl rfl (free ·.mem_tokens) (free ·.mem_tokens)
      ((ahead.reportAfterLast _ _).of_rest_eq rfl rfl)

omit coupled in
theorem fromClause_givesToken : GivesToken (fromClause inner) := by
  refine fun state => (bump_givesToken state).bind fun keyword after isToken => ?_
  refine (leads_any _ after).bind fun _ after _ => (leads_any _ after).bind fun _ after _ => ?_
  refine (leads_any _ after).bind fun _ _ _ => List.append_ne_nil_of_left_ne_nil isToken _

omit coupled in
theorem whereClause_givesToken : GivesToken (whereClause inner) := by
  refine fun state => (bump_givesToken state).bind fun keyword after isToken => ?_
  exact (leads_any _ after).bind fun _ _ _ => List.append_ne_nil_of_left_ne_nil isToken _

omit coupled in
theorem letClause_givesToken : GivesToken (letClause inner) := by
  refine fun state => (bump_givesToken state).bind fun keyword after isToken => ?_
  refine (leads_any _ after).bind fun _ after _ => (leads_any _ after).bind fun _ after _ => ?_
  exact (leads_any _ after).bind fun _ _ _ => List.append_ne_nil_of_left_ne_nil isToken _

omit coupled in
/-- A clause is a step of its own. -/
theorem Couples.stepped {parser : Parser ParseTree} (coupled : Coupled typed target parser)
    (givesToken : GivesToken parser) (ahead : state.Ahead typed target before twin) :
    LeadBoth (do return [← parser]) (do return [← parser]) state twin
      (Stepped typed target before (·.Accepts target typed.token.kind) state twin) := by
  refine ((coupled.ahead ahead).and_left (givesToken state)).bind ?_
  rintro clause other after otherAfter ⟨met, isToken⟩
  refine .pieces (met.or_accepts.recast rfl id (fun any => .inr (of_exists_mem_singleton any))
    of_exists_mem_singleton) (.inl ?_)
  rw [ParseTree.tokensOfAll_singleton]
  exact isToken

theorem repeats_bodyClause :
    Repeats typed target (bodyClause inner) (·.Accepts target typed.token.kind) where
  free absent accepts := absent accepts.mem_tokens
  agrees kept := kept.bodyClause (coupled.agree kept)
  ahead {before state twin} ahead := by
    refine .atCurrent ahead ?_
    split
    · exact (coupled_fromClause coupled).stepped fromClause_givesToken ahead
    · exact (coupled_whereClause coupled).stepped whereClause_givesToken ahead
    · exact (coupled_letClause coupled).stepped letClause_givesToken ahead
    · exact .stop
  takes accepts notAccepts := absurd accepts notAccepts

omit coupled in
theorem bodyClause_notFinal (state : ParseState) : (bodyClause inner).Leads state
    fun new _ => ∀ piece ∈ new, ¬piece.IsFinalClause := by
  rw [bodyClause, leads_bind, leads_current]
  split
  · exact List.forall_mem_singleton.mpr (ParseTree.not_isFinalClause (by decide) _)
  · exact List.forall_mem_singleton.mpr (ParseTree.not_isFinalClause (by decide) _)
  · exact List.forall_mem_singleton.mpr (ParseTree.not_isFinalClause (by decide) _)
  · exact List.forall_mem_nil _

theorem takesKeyword_queryConclusion : TakesKeyword typed (queryConclusion inner) := by
  have keeps : KeepsHarmless typed inner := .ofAgree (coupled.agree (kept_harmless typed))
  exact TakesKeyword.bump.bind.checkFeature _

omit coupled in
/-- A conclusion accepts `do` behind the name of its variable. -/
theorem accepts_queryConclusion {yieldKeyword intoKeyword identifier doKeyword body : ParseTree}
    (accepts : (ParseTree.node .queryConclusion
      [yieldKeyword, intoKeyword, identifier, doKeyword, body]).Accepts target typed.token.kind) :
    (AnyAccepts typed target [yieldKeyword, intoKeyword, identifier] ∨
        typed.token.kind = .doKeyword ∧ identifier.EndsWith target ∨
          doKeyword.Accepts target typed.token.kind) ∨
      body.Accepts target typed.token.kind := by
  cases accepts with
  | inside isNode isChild accepts =>
    rw [(ParseTree.isNode_node_iff.mp isNode).2] at isChild
    simp only [List.mem_cons, List.not_mem_nil, or_false] at isChild
    rcases isChild with rfl | rfl | rfl | rfl | rfl
    · exact .inl (.inl ⟨_, by simp, accepts⟩)
    · exact .inl (.inl ⟨_, by simp, accepts⟩)
    · exact .inl (.inl ⟨_, by simp, accepts⟩)
    · exact .inl (.inr (.inr accepts))
    · exact .inr accepts
  | statement isNode holds =>
    obtain ⟨rfl, _⟩ := ParseTree.isNode_node_iff.mp isNode
    rcases holds with holds | holds <;> cases holds
  | conclusion isNode => cases (ParseTree.isNode_node_iff.mp isNode).1
  | body isNode isDo =>
    cases (ParseTree.isNode_node_iff.mp isNode).2
    exact .inl (.inr (.inl ⟨isDo, .token⟩))
  | value isNode _ isYield =>
    obtain ⟨rfl, _⟩ := ParseTree.isNode_node_iff.mp isNode
    rcases isYield with isYield | isYield <;> cases isYield

theorem coupled_queryConclusion : Coupled typed target (queryConclusion inner) := by
  refine .of (fun kept => kept.queryConclusion (coupled.agree kept)) fun ahead => ?_
  refine (checkFeature_ahead ahead _).bind fun _ _ _ _ ahead => ?_
  refine ((Met.start ahead).piece coupled_bump).bind fun _ _ _ _ met => ?_
  refine (met.piece (coupled_expect _)).bind fun _ _ _ _ met => ?_
  refine (met.piece (coupled_expect _)).bind fun _ _ _ _ met => ?_
  have passing (isDo : typed.token.kind = .doKeyword) :
      TakesKeyword typed (expect .doKeyword) := isDo ▸ TakesKeyword.expect
  refine (met.through (coupled_expect _) passing False.elim).bind fun _ _ _ _ met => ?_
  refine (met.next coupled).bind fun _ _ _ _ met => ?_
  exact met.around .of_node accepts_queryConclusion

theorem leavesKeyword_optionalConclusion : LeavesKeyword typed (optionalConclusion inner) := by
  intro state ready
  rw [optionalConclusion, leads_bind, leads_current, ready.current_eq]
  split
  · refine (takesKeyword_queryConclusion coupled _ ready).bind fun _ _ harmless => ?_
    exact .inr harmless
  · exact .inl ready

theorem takesKeyword_optionalConclusion (isYield : typed.token.kind = .yieldKeyword) :
    TakesKeyword typed (optionalConclusion inner) := by
  intro state ready
  rw [optionalConclusion, leads_bind, leads_current, ready.current_eq, if_pos isYield]
  exact (takesKeyword_queryConclusion coupled _ ready).bind fun _ _ harmless => harmless

theorem couples_optionalConclusion :
    Couples typed target (optionalConclusion inner) id
      (fun new => ∃ piece ∈ new, piece.EndsWith target) (AnyAccepts typed target) where
  free free := by
    constructor
    · rintro ⟨piece, isPiece, ends⟩
      exact free piece isPiece ends.mem_tokens
    · rintro ⟨piece, isPiece, accepts⟩
      exact free piece isPiece accepts.mem_tokens
  agrees kept := kept.optionalConclusion (coupled.agree kept)
  ahead ahead := by
    refine .atCurrent ahead ?_
    split
    · refine ((coupled_queryConclusion coupled).ahead ahead).bind fun _ _ _ _ met => ?_
      exact met.recast rfl id of_exists_mem_singleton of_exists_mem_singleton
    · exact .ahead rfl rfl nofun nofun ahead

omit coupled in
theorem optionalConclusion_notFinal (state : ParseState) : (optionalConclusion inner).Leads state
    fun new _ => ∀ piece ∈ new, ¬piece.IsFinalClause := by
  rw [optionalConclusion, leads_bind, leads_current]
  split
  · exact List.forall_mem_singleton.mpr (ParseTree.not_isFinalClause (by decide) _)
  · exact List.forall_mem_nil _

omit coupled in
/-- A query body accepts `yield` behind its last clause, where that is its only final one. -/
theorem accepts_queryBody {clauses conclusion : List ParseTree} {last : ParseTree}
    (clausesNotFinal : ∀ piece ∈ clauses, ¬piece.IsFinalClause)
    (conclusionNotFinal : ∀ piece ∈ conclusion, ¬piece.IsFinalClause)
    (accepts : (ParseTree.node .queryBody (clauses ++ [last] ++ conclusion)).Accepts target
      typed.token.kind) :
    AnyAccepts typed target (clauses ++ [last]) ∨
      typed.token.kind = .yieldKeyword ∧ last.EndsWith target ∨
        AnyAccepts typed target conclusion := by
  cases accepts with
  | inside isNode isChild accepts =>
    rw [(ParseTree.isNode_node_iff.mp isNode).2] at isChild
    rcases List.mem_append.mp isChild with isClause | isConclusion
    · exact .inl ⟨_, isClause, accepts⟩
    · exact .inr (.inr ⟨_, isConclusion, accepts⟩)
  | statement isNode holds =>
    obtain ⟨rfl, _⟩ := ParseTree.isNode_node_iff.mp isNode
    rcases holds with holds | holds <;> cases holds
  | @conclusion _ front final back isNode isYield isFinal ends =>
    have isMember : final ∈ clauses ++ [last] ++ conclusion := by
      rw [← (ParseTree.isNode_node_iff.mp isNode).2]
      simp
    simp only [List.mem_append, List.mem_singleton] at isMember
    rcases isMember with (isClause | rfl) | isConclusion
    · exact absurd isFinal (clausesNotFinal final isClause)
    · exact .inr (.inl ⟨isYield, ends⟩)
    · exact absurd isFinal (conclusionNotFinal final isConclusion)
  | body isNode => cases (ParseTree.isNode_node_iff.mp isNode).1
  | value isNode _ isYield =>
    obtain ⟨rfl, _⟩ := ParseTree.isNode_node_iff.mp isNode
    rcases isYield with isYield | isYield <;> cases isYield

omit coupled in
theorem endsWith_queryBody {clauses conclusion : List ParseTree} {last : ParseTree}
    (ends : (ParseTree.node .queryBody (clauses ++ [last] ++ conclusion)).EndsWith target) :
    (∃ piece ∈ conclusion, piece.EndsWith target) ∨ True ∧ last.EndsWith target := by
  rcases List.eq_nil_or_concat conclusion with rfl | ⟨front, final, rfl⟩
  · rw [List.append_nil] at ends
    exact .inr ⟨trivial, ends.of_node⟩
  · rw [List.concat_eq_append, ← List.append_assoc] at ends
    exact .inl ⟨final, by simp, ends.of_node⟩

theorem coupled_queryBody : Coupled typed target (queryBody inner) := by
  refine .of (fun kept => kept.queryBody (coupled.agree kept)) fun {before state twin} ahead => ?_
  refine (((Met.start ahead).more (repeats_bodyClause coupled).many).and_left
    (many_forall bodyClause_notFinal state)).bind ?_
  rintro clauses otherClauses after otherAfter ⟨met, clausesNotFinal⟩
  refine (met.piece (coupled_finalClause coupled)).bind fun last otherLast after otherAfter met => ?_
  refine ((met.through (couples_optionalConclusion coupled)
    (takesKeyword_optionalConclusion coupled)
    fun _ : True => leavesKeyword_optionalConclusion coupled).and_left
      (optionalConclusion_notFinal after)).bind ?_
  rintro conclusion otherConclusion final otherFinal ⟨met, conclusionNotFinal⟩
  have around := met.around endsWith_queryBody
    (accepts_queryBody clausesNotFinal conclusionNotFinal)
  simp only [List.nil_append, List.append_assoc, List.singleton_append, id] at around
  exact around

theorem coupled_queryExpression : Coupled typed target (queryExpression inner) := by
  refine .of (fun kept => kept.queryExpression (coupled.agree kept)) fun ahead => ?_
  refine ((Met.start ahead).piece (coupled_fromClause coupled)).bind fun _ _ _ _ met => ?_
  refine (met.piece (coupled_queryBody coupled)).bind fun _ _ _ _ met => ?_
  exact met.node (by decide)

/-! ### Operands -/

theorem coupled_parenthesized : Coupled typed target (parenthesized inner) := by
  refine .of (fun kept => kept.parenthesized (coupled.agree kept)) fun ahead => ?_
  refine ((Met.start ahead).piece coupled_bump).bind fun _ _ _ _ met => ?_
  refine (met.piece coupled).bind fun _ _ _ _ met => ?_
  refine (met.piece (coupled_expect _)).bind fun _ _ _ _ met => ?_
  exact met.node (by decide)

theorem coupled_primary : Coupled typed target (primary inner) := by
  refine .of (fun kept => kept.primary (coupled.agree kept)) fun ahead => .atCurrent ahead ?_
  split
  · exact coupled_identifierName.ahead ahead
  · exact (coupled_queryExpression coupled).ahead ahead
  · exact (coupled_parenthesized coupled).ahead ahead
  · exact (coupled_literal (by decide)).ahead ahead
  · exact (coupled_literal (by decide)).ahead ahead
  · exact (coupled_literal (by decide)).ahead ahead
  · exact (coupled_literal (by decide)).ahead ahead
  · exact coupled_absentExpression.ahead ahead

theorem repeats_nextArgument :
    Repeats typed target (nextArgument inner) (·.Accepts target typed.token.kind) where
  free absent accepts := absent accepts.mem_tokens
  agrees kept := kept.nextArgument (coupled.agree kept)
  ahead {before state twin} ahead := by
    refine .atCurrent ahead ?_
    split
    · refine (((Met.start ahead).piece coupled_bump).and_left (bump_givesToken state)).bind ?_
      rintro comma otherComma after otherAfter ⟨met, isToken⟩
      refine (met.piece coupled).bind fun argument otherArgument final otherFinal met => ?_
      exact .pieces (met.or_accepts.recast rfl id .inr id)
        (.inl (List.append_ne_nil_of_left_ne_nil isToken _))
    · exact .stop
  takes accepts notAccepts := absurd accepts notAccepts

omit coupled in
variable (inner) in
/-- The arguments of a call, without the parentheses. -/
def arguments : Parser (List ParseTree) := do
  if (← current) = .closeParenToken then
    return []
  else
    let first ← inner
    return [first] ++ (← many (nextArgument inner))

omit coupled in
theorem argumentList_eq : argumentList inner = do
    let openParen ← bump
    let given ← arguments inner
    let closeParen ← expect .closeParenToken
    return .node .argumentList ([openParen] ++ given ++ [closeParen]) := by
  refine bind_congr fun openParen => ?_
  rw [arguments, bind_assoc]
  refine bind_congr fun kind => ?_
  split
  · rfl
  · rfl

theorem coupledAll_arguments : CoupledAll typed target (arguments inner) where
  free free := by
    refine ⟨id, ?_⟩
    rintro ⟨piece, isPiece, accepts⟩
    exact free piece isPiece accepts.mem_tokens
  agrees kept := by
    refine kept.atCurrent fun kind => .ite (.pure .nil) ?_
    refine (coupled.agree kept).bind fun _ _ first => ?_
    exact (kept.many (kept.nextArgument (coupled.agree kept))).bind fun _ _ more =>
      .pure (.cons first more)
  ahead ahead := by
    refine .atCurrent ahead ?_
    split
    · exact Met.start ahead
    · refine ((Met.start ahead).piece coupled).bind fun _ _ _ _ met => ?_
      exact (met.more (repeats_nextArgument coupled).many).bind fun _ _ _ _ met => met

theorem coupled_argumentList : Coupled typed target (argumentList inner) := by
  refine .of (fun kept => kept.argumentList (coupled.agree kept)) fun ahead => ?_
  rw [argumentList_eq]
  refine ((Met.start ahead).piece coupled_bump).bind fun _ _ _ _ met => ?_
  refine (met.more (coupledAll_arguments coupled)).bind fun _ _ _ _ met => ?_
  refine (met.piece (coupled_expect _)).bind fun _ _ _ _ met => ?_
  exact met.node (by decide)

omit coupled in
theorem argumentList_givesToken : GivesToken (argumentList inner) := by
  intro state
  rw [argumentList_eq]
  refine (bump_givesToken state).bind fun openParen after isToken => ?_
  refine (leads_any _ after).bind fun given after _ => (leads_any _ after).bind fun close _ _ => ?_
  exact List.append_ne_nil_of_left_ne_nil isToken _

theorem extends_suffix : Extends typed target (suffix inner) where
  agrees kept related := kept.suffix (coupled.agree kept) related
  ahead {before state twin} piece ahead := by
    refine .atCurrent ahead ?_
    split
    · refine (((Met.start ahead).piece coupled_bump).and_left (bump_givesToken state)).bind ?_
      rintro dot otherDot after otherAfter ⟨met, isToken⟩
      refine (met.piece coupled_identifierName).bind fun name otherName final otherFinal met => ?_
      exact .larger met (by decide) (List.append_ne_nil_of_left_ne_nil isToken _)
    · refine (((Met.start ahead).piece (coupled_argumentList coupled)).and_left
        (argumentList_givesToken state)).bind ?_
      rintro list otherList after otherAfter ⟨met, isToken⟩
      exact .larger met (by decide) (List.append_ne_nil_of_left_ne_nil isToken _)
    · exact .stop
  behind {state} piece behind := by
    rw [suffix, leads_bind, leads_current]
    split
    · have token : Coupled typed target bump := coupled_bump
      have member : Coupled typed target identifierName := coupled_identifierName
      refine (token.behind behind).bind fun dot after ⟨freeDot, behind⟩ => ?_
      refine (member.behind behind).bind fun name final ⟨freeName, behind⟩ => ?_
      refine ⟨behind, ?_⟩
      rintro _ ⟨⟩
      exact ⟨_, [dot], name, rfl, by decide, List.forall_mem_append.mpr ⟨freeDot, freeName⟩⟩
    · refine ((coupled_argumentList coupled).behind behind).bind fun list after ⟨free, behind⟩ => ?_
      refine ⟨behind, ?_⟩
      rintro _ ⟨⟩
      exact ⟨_, [], list, rfl, by decide, free⟩
    · exact ⟨behind, nofun⟩
  ready {state} piece ready := by
    rw [suffix, leads_bind, leads_current, ready.current_eq]
    rcases typed.kind with isDo | isReturn | isYield
    · rw [isDo]
      exact ⟨rfl, rfl⟩
    · rw [isReturn]
      exact ⟨rfl, rfl⟩
    · rw [isYield]
      exact ⟨rfl, rfl⟩

theorem coupled_postfixed : Coupled typed target (postfixed inner) := by
  refine .of (fun kept => kept.postfixed (coupled.agree kept)) fun ahead => ?_
  refine ((coupled_primary coupled).ahead ahead).bind fun _ _ _ _ met => ?_
  exact met.grow (extends_suffix coupled)

end Layers

/-! ### Operations -/

theorem extends_operation {right : Nat → Parser ParseTree}
    (coupled : ∀ precedence, Coupled typed target (right precedence)) (minimum : Nat) :
    Extends typed target (operation right minimum) where
  agrees kept related := kept.operation (fun precedence => (coupled precedence).agree kept) minimum
    related
  ahead {before state twin} piece ahead := by
    refine .atCurrent ahead ?_
    split
    · split
      · exact .stop
      · refine (((Met.start ahead).piece coupled_bump).and_left (bump_givesToken state)).bind ?_
        rintro operator otherOperator after otherAfter ⟨met, isToken⟩
        refine (met.piece (coupled _)).bind fun operand otherOperand final otherFinal met => ?_
        exact .larger met (by decide) (List.append_ne_nil_of_left_ne_nil isToken _)
    · exact .stop
  behind {state} piece behind := by
    rw [operation, leads_bind, leads_current]
    split
    · split
      · exact ⟨behind, nofun⟩
      · have token : Coupled typed target bump := coupled_bump
        refine (token.behind behind).bind fun operator after ⟨freeOperator, behind⟩ => ?_
        refine ((coupled _).behind behind).bind fun operand final ⟨freeOperand, behind⟩ => ?_
        refine ⟨behind, ?_⟩
        rintro _ ⟨⟩
        exact ⟨_, [operator], operand, rfl, by decide,
          List.forall_mem_append.mpr ⟨freeOperator, freeOperand⟩⟩
    · exact ⟨behind, nofun⟩
  ready {state} piece ready := by
    rw [operation, leads_bind, leads_current, ready.current_eq]
    rcases typed.kind with isDo | isReturn | isYield
    · rw [isDo]
      exact ⟨rfl, rfl⟩
    · rw [isReturn]
      exact ⟨rfl, rfl⟩
    · rw [isYield]
      exact ⟨rfl, rfl⟩

theorem coupled_binary {operand : Parser ParseTree} (coupled : Coupled typed target operand)
    (precedences minimum : Nat) : Coupled typed target (binary operand precedences minimum) := by
  induction precedences generalizing minimum with
  | zero => exact coupled
  | succ precedences ih =>
    refine .of (fun kept => kept.binary (coupled.agree kept) _ _) fun ahead => ?_
    refine (coupled.ahead ahead).bind fun _ _ _ _ met => ?_
    exact met.grow (extends_operation ih minimum)

theorem coupled_expression (levels : Nat) : Coupled typed target (expression levels) := by
  induction levels with
  | zero =>
    refine .of (fun kept => kept.expression 0) fun ahead => ?_
    refine (reportTooDeep_ahead ahead).bind fun _ _ _ _ ahead => ?_
    have free : target ∉ missingName.tokens := List.not_mem_nil
    exact .ahead rfl rfl (free ·.mem_tokens) (free ·.mem_tokens) ahead
  | succ levels ih => exact coupled_binary (coupled_postfixed ih) _ _

end Parser

end QueryLang
