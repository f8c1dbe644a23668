import QueryLang.Proofs.Syntax.ParserRun
import QueryLang.Proofs.Syntax.Scanning
import QueryLang.Syntax.Parser.Statement

/-!
# The shape that parsing gives

Each parser takes a piece of source in one role. The parsers of a layer rest on the parser of the
expressions below them, so that one induction on the levels of nesting covers expressions, and a
second one blocks and statements.
-/

namespace QueryLang

namespace Parser

/-- Reporting too deep nesting consumes nothing and damages the source, also when it was reported
before. -/
theorem reportTooDeep_leads {state : ParseState} (sound : state.Sound) :
    reportTooDeep.Leads state fun _ after =>
      ParsedAll state [] [] after ∧ after.Damaged ∧ after.TooDeep := by
  rw [reportTooDeep, leads_bind, leads_get]
  cases reported : state.reportedTooDeep with
  | true => exact ⟨.refl sound, sound.tooDeep_reported reported⟩
  | false =>
      have isError : DiagnosticMessage.tooDeeplyNested.category = .error := rfl
      have isNeutral : DiagnosticMessage.tooDeeplyNested.IsNeutral := by decide
      have damaged := state.damaged_report state.currentToken.span isError []
      have parsed := ParsedAll.report sound state.currentToken.span isNeutral []
      have tooDeep : (state.report state.currentToken.span .tooDeeplyNested []).TooDeep :=
        ⟨_, List.mem_append_right _ (List.mem_singleton_self _), rfl⟩
      refine ⟨?_, damaged, tooDeep⟩
      exact {
        formed := .nil
        rest := parsed.rest
        reported := parsed.reported
        endOfFile := rfl
        screened := .nothing rfl rfl (state.featureReports_report _ isNeutral.1 _)
        grouped := .nil
        sourced := .nil
        lastEnd := rfl
        reportsGaps := .nothing (state.expectations_report _ isNeutral _)
        braced := .inr .nil
        sound := {
          endOfFile_kind := parsed.sound.endOfFile_kind
          rest_kind := parsed.sound.rest_kind
          unknown_reported := parsed.sound.unknown_reported
          tooDeep_reported := fun _ => ⟨damaged, tooDeep⟩ } }

theorem checkFeature_leads (state : ParseState) (feature : Features) :
    (checkFeature feature).Leads state fun _ after => after = state.checked feature := by
  rw [checkFeature, leads_bind, leads_get, ParseState.checked]
  cases state.features.enables feature with
  | true => rfl
  | false => rfl

/-- The keyword of a construct is consumed after the feature of the construct was checked. -/
theorem bump_checked {state : ParseState} (sound : state.Sound) (feature : Features) {kind : Kind}
    (notEnd : kind ≠ .endOfFileToken) (standing : state.current = kind) :
    bump.Leads (state.checked feature) fun piece after => piece = .token state.currentToken ∧
      Parsed (state.checked feature) (.leaf kind) piece after ∧
        after.rest.length < state.rest.length := by
  have standing : (state.checked feature).current = kind := by
    rw [ParseState.current, state.currentToken_checked]
    exact standing
  refine (bump_leads (sound.checked feature) notEnd standing).mono ?_
  rintro piece after ⟨isCurrent, parsed, progress⟩
  rw [state.currentToken_checked] at isCurrent
  rw [state.rest_checked] at progress
  exact ⟨isCurrent, parsed, progress⟩

/-! ### Expressions -/

theorem identifierName_takesFrom : identifierName.TakesFrom .identifierToken .name := by
  intro state sound standing
  rw [identifierName, expect, leads_bind, leads_bind, leads_current, if_pos standing]
  refine (bump_leads sound (by decide) standing).mono ?_
  rintro _ after ⟨rfl, parsed, progress⟩
  exact ⟨parsed.nodeFrom .name rfl (by simp) (by simp) (by simp), progress⟩

/-- A name holds what stands for its identifier. -/
theorem identifierName_leads {state : ParseState} (sound : state.Sound) :
    identifierName.Leads state fun name after => ∃ identifier,
      name = .node .identifierName [identifier] ∧
        Parsed state (.leaf .identifierToken) identifier after := by
  refine Leads.bind (takes_expect (by decide) state sound) ?_
  intro identifier after parsed
  exact ⟨identifier, rfl, parsed⟩

/-- A missing name stands in for an expression. -/
theorem missingName_isAbsent : missingName.IsAbsent .primary where
  formed isDamaged := .node (.ofName .name) (.singleton (.missing _ isDamaged))
  tokens := rfl
  constructs := rfl
  grouped := .node (by simp) (.cons (.missing _) .nil)
  sourced := .node (ParseTree.stands_of_bare rfl _) (.cons (.missing _) .nil)
  braced := .node (by simp) (.cons (.missing _) .nil)

theorem missingName_isAbsent_expression : missingName.IsAbsent .expression :=
  missingName_isAbsent.recast (by simp) fun production => .ofOperand (.ofPrimary production)

theorem isPlain_of_literal {kind token : Kind} (isLiteral : kind.literalToken? = some token) :
    kind.isPlain = true := by
  unfold Kind.literalToken? at isLiteral
  split at isLiteral
  all_goals first | rfl | cases isLiteral

theorem literal_takesFrom {kind token : Kind} (isLiteral : kind.literalToken? = some token)
    (notEnd : token ≠ .endOfFileToken) : (literal kind).TakesFrom token .primary := by
  intro state sound standing
  refine Leads.bind (bump_takesFrom notEnd state sound standing) ?_
  rintro piece after ⟨parsed, progress⟩
  exact ⟨parsed.nodePlain (.literal isLiteral) (isPlain_of_literal isLiteral)
    (parsed.stands progress kind), progress⟩

section Layers

variable {inner : Parser ParseTree} (takes : inner.Takes .expression)

include takes

theorem fromClause_takesFrom : (fromClause inner).TakesFrom .fromKeyword .fromClause := by
  intro state sound standing
  refine Leads.bind (bump_takesFrom (by decide) state sound standing) ?_
  rintro keyword state₁ ⟨parsedKeyword, progress⟩
  refine Leads.bind (takes_expect (by decide) state₁ parsedKeyword.sound) ?_
  intro identifier state₂ parsedIdentifier
  refine Leads.bind (takes_expect (by decide) state₂ parsedIdentifier.sound) ?_
  intro inKeyword state₃ parsedIn
  refine Leads.bind (takes state₃ parsedIn.sound) ?_
  intro source state₄ parsedSource
  have others := parsedIdentifier.cons (parsedIn.cons parsedSource)
  exact ⟨(parsedKeyword.cons others).node .fromClause rfl,
    Nat.lt_of_le_of_lt others.length_le progress⟩

theorem whereClause_takesFrom : (whereClause inner).TakesFrom .whereKeyword .clause := by
  intro state sound standing
  refine Leads.bind (bump_takesFrom (by decide) state sound standing) ?_
  rintro keyword state₁ ⟨parsedKeyword, progress⟩
  refine Leads.bind (takes state₁ parsedKeyword.sound) ?_
  intro condition state₂ parsedCondition
  exact ⟨(parsedKeyword.cons parsedCondition).node .whereClause rfl,
    Nat.lt_of_le_of_lt parsedCondition.length_le progress⟩

theorem letClause_takesFrom : (letClause inner).TakesFrom .letKeyword .clause := by
  intro state sound standing
  refine Leads.bind (bump_takesFrom (by decide) state sound standing) ?_
  rintro keyword state₁ ⟨parsedKeyword, progress⟩
  refine Leads.bind (takes_expect (by decide) state₁ parsedKeyword.sound) ?_
  intro identifier state₂ parsedIdentifier
  refine Leads.bind (takes_expect (by decide) state₂ parsedIdentifier.sound) ?_
  intro equals state₃ parsedEquals
  refine Leads.bind (takes state₃ parsedEquals.sound) ?_
  intro value state₄ parsedValue
  have others := parsedIdentifier.cons (parsedEquals.cons parsedValue)
  exact ⟨(parsedKeyword.cons others).node .letClause rfl,
    Nat.lt_of_le_of_lt others.length_le progress⟩

/-- A clause in the middle of a query, where there is one. -/
theorem bodyClause_leads {state : ParseState} (sound : state.Sound) :
    (bodyClause inner).Leads state fun new after =>
      new = [] ∧ after = state ∨
        ∃ clause, new = [clause] ∧ Parsed state .clause clause after ∧
          after.rest.length < state.rest.length := by
  rw [bodyClause, leads_bind, leads_current]
  split
  · next standing =>
    refine Leads.bind (fromClause_takesFrom takes state sound standing) ?_
    rintro clause after ⟨parsed, progress⟩
    exact .inr ⟨clause, rfl, parsed.recast (by simp) .ofFromClause, progress⟩
  · next standing =>
    refine Leads.bind (whereClause_takesFrom takes state sound standing) ?_
    rintro clause after ⟨parsed, progress⟩
    exact .inr ⟨clause, rfl, parsed, progress⟩
  · next standing =>
    refine Leads.bind (letClause_takesFrom takes state sound standing) ?_
    rintro clause after ⟨parsed, progress⟩
    exact .inr ⟨clause, rfl, parsed, progress⟩
  · exact .inl ⟨rfl, rfl⟩

theorem selectClause_takesFrom : (selectClause inner).TakesFrom .selectKeyword .ending := by
  intro state sound standing
  refine Leads.bind (bump_leads sound (by decide) standing) ?_
  rintro _ state₁ ⟨rfl, parsedKeyword, progress⟩
  refine Leads.bind (takes state₁ parsedKeyword.sound) ?_
  intro value state₂ parsedValue
  exact ⟨(parsedKeyword.cons parsedValue).nodeFrom .selectClause rfl (by simp) (by simp) (by simp),
    Nat.lt_of_le_of_lt parsedValue.length_le progress⟩

theorem groupClause_takesFrom : (groupClause inner).TakesFrom .groupKeyword .ending := by
  intro state sound standing
  refine Leads.bind (bump_takesFrom (by decide) state sound standing) ?_
  rintro keyword state₁ ⟨parsedKeyword, progress⟩
  refine Leads.bind (takes state₁ parsedKeyword.sound) ?_
  intro element state₂ parsedElement
  refine Leads.bind (takes_expect (by decide) state₂ parsedElement.sound) ?_
  intro byKeyword state₃ parsedBy
  refine Leads.bind (takes state₃ parsedBy.sound) ?_
  intro key state₄ parsedKey
  have others := parsedElement.cons (parsedBy.cons parsedKey)
  exact ⟨(parsedKeyword.cons others).node .groupClause rfl,
    Nat.lt_of_le_of_lt others.length_le progress⟩

omit takes in
/-- A clause of missing tokens stands in for the one that a query body must end with. -/
theorem absentSelect_isAbsent : ParseTree.IsAbsent .ending
    (.node .selectClause [.missing .selectKeyword, missingName]) where
  formed isDamaged := .node .selectClause (.cons (.missing _ isDamaged)
    (.singleton (missingName_isAbsent_expression.formed isDamaged)))
  tokens := rfl
  constructs := rfl
  grouped := .node (by simp) (.cons (.missing _) (.cons missingName_isAbsent.grouped .nil))
  sourced := .node (ParseTree.stands_of_bare rfl _)
    (.cons (.missing _) (.cons missingName_isAbsent.sourced .nil))
  braced := .node (by simp) (.cons (.missing _) (.cons missingName_isAbsent.braced .nil))

theorem takes_finalClause : (finalClause inner).Takes .ending := by
  intro state sound
  rw [finalClause, leads_bind, leads_current]
  split
  · next standing =>
    exact (selectClause_takesFrom takes state sound standing).mono fun _ _ parsed => parsed.1
  · next standing =>
    exact (groupClause_takesFrom takes state sound standing).mono fun _ _ parsed => parsed.1
  · have isError : DiagnosticMessage.queryBodyEnd.category = .error := rfl
    refine Leads.bind (reportAfterLast_leads sound isError (by decide) []) ?_
    rintro _ after ⟨reported, damaged⟩
    exact reported.append (absentSelect_isAbsent.parsed reported.sound damaged rfl)

theorem queryConclusion_takesFrom :
    (queryConclusion inner).TakesFrom .yieldKeyword .conclusion := by
  intro state sound standing
  refine Leads.bind (checkFeature_leads state _) ?_
  rintro _ _ rfl
  refine Leads.bind (bump_checked sound _ (by decide) standing) ?_
  rintro _ state₂ ⟨rfl, parsedYield, progress⟩
  refine Leads.bind (takes_expect (by decide) state₂ parsedYield.sound) ?_
  intro intoKeyword state₃ parsedInto
  refine Leads.bind (takes_expect (by decide) state₃ parsedInto.sound) ?_
  intro identifier state₄ parsedIdentifier
  refine Leads.bind (takes_expect (by decide) state₄ parsedIdentifier.sound) ?_
  intro doKeyword state₅ parsedDo
  refine Leads.bind (takes state₅ parsedDo.sound) ?_
  intro body state₆ parsedBody
  have others := parsedInto.cons (parsedIdentifier.cons (parsedDo.cons parsedBody))
  exact ⟨(parsedYield.cons others).construct rfl .conclusion,
    Nat.lt_of_le_of_lt others.length_le progress⟩

/-- The conclusion of a query, where there is one. -/
theorem optionalConclusion_leads {state : ParseState} (sound : state.Sound) :
    (optionalConclusion inner).Leads state fun new after =>
      new = [] ∧ after = state ∨
        ∃ conclusion, new = [conclusion] ∧ Parsed state .conclusion conclusion after := by
  rw [optionalConclusion, leads_bind, leads_current]
  split
  · next standing =>
    refine Leads.bind (queryConclusion_takesFrom takes state sound standing) ?_
    rintro conclusion after ⟨parsed, _⟩
    exact .inr ⟨conclusion, rfl, parsed⟩
  · exact .inl ⟨rfl, rfl⟩

theorem takes_queryBody : (queryBody inner).Takes .queryBody := by
  intro state sound
  let clausesParsed (pieces : List ParseTree) (after : ParseState) : Prop :=
    ∃ count, ParsedAll state (List.replicate count .clause) pieces after
  have clauses : (many (bodyClause inner)).Leads state clausesParsed := by
    refine many_leads clausesParsed ?_ ⟨0, .refl sound⟩
    rintro pieces state₁ ⟨count, parsed⟩
    refine (bodyClause_leads takes parsed.sound).mono ?_
    rintro new after (⟨rfl, rfl⟩ | ⟨clause, rfl, parsedClause, progress⟩)
    · exact .inl ⟨rfl, rfl, count, parsed⟩
    · refine .inr ⟨by simp, progress, count + 1, ?_⟩
      rw [List.replicate_succ']
      exact parsed.append parsedClause
  refine Leads.bind clauses ?_
  rintro pieces state₁ ⟨count, parsedClauses⟩
  refine Leads.bind (takes_finalClause takes state₁ parsedClauses.sound) ?_
  intro ending state₂ parsedEnding
  refine Leads.bind (optionalConclusion_leads takes parsedEnding.sound) ?_
  rintro conclusion state₃ (⟨rfl, rfl⟩ | ⟨conclusion, rfl, parsedConclusion⟩)
  · exact (parsedClauses.append parsedEnding).node (.queryBody count) rfl
  · have parsedBody := parsedClauses.append (parsedEnding.cons parsedConclusion)
    exact parsedBody.node (.concludedBody count) rfl

theorem queryExpression_takesFrom : (queryExpression inner).TakesFrom .fromKeyword .primary := by
  intro state sound standing
  refine Leads.bind (fromClause_takesFrom takes state sound standing) ?_
  rintro first state₁ ⟨parsedFirst, progress⟩
  refine Leads.bind (takes_queryBody takes state₁ parsedFirst.sound) ?_
  intro body state₂ parsedBody
  have parsed := parsedFirst.cons parsedBody
  have progress := Nat.lt_of_le_of_lt parsedBody.length_le progress
  exact ⟨parsed.nodePlain .query rfl (parsed.stands progress _), progress⟩

theorem parenthesized_takesFrom : (parenthesized inner).TakesFrom .openParenToken .primary := by
  intro state sound standing
  refine Leads.bind (bump_takesFrom (by decide) state sound standing) ?_
  rintro openParen state₁ ⟨parsedOpen, progress⟩
  refine Leads.bind (takes state₁ parsedOpen.sound) ?_
  intro expression state₂ parsedExpression
  refine Leads.bind (takes_expect (by decide) state₂ parsedExpression.sound) ?_
  intro closeParen state₃ parsedClose
  have others := parsedExpression.cons parsedClose
  have parsed := parsedOpen.cons others
  have progress := Nat.lt_of_le_of_lt others.length_le progress
  exact ⟨parsed.nodePlain .parenthesized rfl (parsed.stands progress _), progress⟩

omit takes in
/-- A missing name stands for an expression that is not there. Either scanning has reported the
token that stands there instead, or it is reported now. -/
theorem takes_absentExpression : absentExpression.Takes .primary := by
  intro state sound
  have missing {after : ParseState} (reported : ParsedAll state [] [] after)
      (damaged : after.Damaged) : Parsed state .primary missingName after :=
    reported.append (missingName_isAbsent.parsed reported.sound damaged rfl)
  rw [absentExpression, leads_bind, leads_get]
  dsimp only
  split
  · next standing =>
    have notEnd : state.current ≠ .endOfFileToken := by simp [ParseState.current, standing]
    rcases sound.rest_of_current notEnd with ⟨token, rest, split, kindEq⟩
    refine missing (.refl sound) (sound.unknown_reported token (by simp [split]) ?_)
    rw [kindEq, ParseState.current, standing]
  · refine Leads.bind (reportHere_leads sound rfl (by decide) _) ?_
    rintro _ after ⟨reported, damaged⟩
    exact missing reported damaged
  · refine Leads.bind (reportHere_leads sound rfl (by decide) _) ?_
    rintro _ after ⟨reported, damaged⟩
    exact missing reported damaged

theorem takes_primary : (primary inner).Takes .primary := by
  intro state sound
  rw [primary, leads_bind, leads_current]
  split
  · next standing =>
    refine (identifierName_takesFrom state sound standing).mono ?_
    rintro _ _ ⟨parsed, _⟩
    exact parsed.recast (by simp) .ofName
  · next standing =>
    exact (queryExpression_takesFrom takes state sound standing).mono fun _ _ parsed => parsed.1
  · next standing =>
    exact (parenthesized_takesFrom takes state sound standing).mono fun _ _ parsed => parsed.1
  · next standing =>
    exact (literal_takesFrom rfl (by decide) state sound standing).mono fun _ _ parsed => parsed.1
  · next standing =>
    exact (literal_takesFrom rfl (by decide) state sound standing).mono fun _ _ parsed => parsed.1
  · next standing =>
    exact (literal_takesFrom rfl (by decide) state sound standing).mono fun _ _ parsed => parsed.1
  · next standing =>
    exact (literal_takesFrom rfl (by decide) state sound standing).mono fun _ _ parsed => parsed.1
  · exact takes_absentExpression state sound

/-- A further argument, where there is one. -/
theorem nextArgument_leads {state : ParseState} (sound : state.Sound) :
    (nextArgument inner).Leads state fun new after =>
      new = [] ∧ after = state ∨
        ∃ comma argument, new = [comma, argument] ∧
          ParsedAll state Role.furtherArgument new after ∧
          after.rest.length < state.rest.length := by
  rw [nextArgument, leads_bind, leads_current]
  split
  · next standing =>
    refine Leads.bind (bump_takesFrom (by decide) state sound standing) ?_
    rintro comma state₁ ⟨parsedComma, progress⟩
    refine Leads.bind (takes state₁ parsedComma.sound) ?_
    intro argument state₂ parsedArgument
    exact .inr ⟨comma, argument, rfl, parsedComma.cons parsedArgument,
      Nat.lt_of_le_of_lt parsedArgument.length_le progress⟩
  · exact .inl ⟨rfl, rfl⟩

theorem argumentList_takesFrom :
    (argumentList inner).TakesFrom .openParenToken .arguments := by
  intro state sound standing
  refine Leads.bind (bump_takesFrom (by decide) state sound standing) ?_
  rintro openParen state₁ ⟨parsedOpen, progress⟩
  rw [leads_bind, leads_current]
  dsimp only
  split
  · rw [pure_bind]
    refine Leads.bind (takes_expect (by decide) state₁ parsedOpen.sound) ?_
    intro closeParen state₂ parsedClose
    exact ⟨(parsedOpen.cons parsedClose).node .noArguments rfl,
      Nat.lt_of_le_of_lt parsedClose.length_le progress⟩
  · refine Leads.bind (takes state₁ parsedOpen.sound) ?_
    intro first state₂ parsedFirst
    let argumentsParsed (pieces : List ParseTree) (after : ParseState) : Prop :=
      ∃ count, ParsedAll state₂ (List.replicate count Role.furtherArgument).flatten pieces after
    have furtherArguments : (many (nextArgument inner)).Leads state₂ argumentsParsed := by
      refine many_leads argumentsParsed ?_ ⟨0, .refl parsedFirst.sound⟩
      rintro pieces state₃ ⟨count, parsed⟩
      refine (nextArgument_leads takes parsed.sound).mono ?_
      rintro new after (⟨rfl, rfl⟩ | ⟨comma, argument, rfl, parsedNext, progress⟩)
      · exact .inl ⟨rfl, rfl, count, parsed⟩
      · refine .inr ⟨by simp, progress, count + 1, ?_⟩
        rw [List.replicate_succ', List.flatten_concat]
        exact parsed.append parsedNext
    refine Leads.bind furtherArguments ?_
    rintro more state₃ ⟨count, parsedMore⟩
    rw [pure_bind]
    refine Leads.bind (takes_expect (by decide) state₃ parsedMore.sound) ?_
    intro closeParen state₄ parsedClose
    have others := parsedFirst.cons (parsedMore.append parsedClose)
    exact ⟨(parsedOpen.cons others).node (.someArguments count) rfl,
      Nat.lt_of_le_of_lt others.length_le progress⟩

/-- What follows an operand makes it a larger operand. -/
theorem suffix_leads {state before : ParseState} {operand : ParseTree}
    (parsed : Parsed before .operand operand state) :
    (suffix inner operand).Leads state fun grown after =>
      grown = none ∧ after = state ∨
        ∃ larger, grown = some larger ∧ after.rest.length < state.rest.length ∧
          Parsed before .operand larger after := by
  rw [suffix, leads_bind, leads_current]
  split
  · next standing =>
    refine Leads.bind (bump_leads parsed.sound (by decide) standing) ?_
    rintro _ state₁ ⟨rfl, parsedDot, progress⟩
    refine Leads.bind (identifierName_leads parsedDot.sound) ?_
    rintro _ state₂ ⟨identifier, rfl, parsedIdentifier⟩
    exact .inr ⟨_, rfl, Nat.lt_of_le_of_lt parsedIdentifier.length_le progress,
      (parsed.cons (parsedDot.cons parsedIdentifier)).memberAccess⟩
  · next standing =>
    refine Leads.bind (argumentList_takesFrom takes state parsed.sound standing) ?_
    rintro arguments state₁ ⟨parsedArguments, progress⟩
    have called := parsed.cons parsedArguments
    have progressed := Nat.lt_of_lt_of_le progress parsed.length_le
    exact .inr ⟨_, rfl, progress, called.wrapped .invocation rfl (called.stands progressed _)⟩
  · exact .inl ⟨rfl, rfl⟩

theorem takes_postfixed : (postfixed inner).Takes .operand := by
  intro state sound
  refine Leads.bind (takes_primary takes state sound) ?_
  intro first state₁ parsedFirst
  refine grow_leads (Parsed state .operand) ?_ (parsedFirst.recast (by simp) .ofPrimary)
  intro piece state₂ parsed
  refine (suffix_leads takes parsed).mono ?_
  rintro grown after (⟨rfl, rfl⟩ | ⟨larger, rfl, progress, parsedLarger⟩)
  · exact .inl ⟨rfl, rfl, parsed⟩
  · exact .inr ⟨larger, rfl, progress, parsedLarger⟩

end Layers

/-- Parsing takes an expression in which every operator binds tighter than a minimum, and stops
where no such operator follows. -/
structure OperationParsed (before : ParseState) (minimum : Nat) (piece : ParseTree)
    (after : ParseState) : Prop where
  parsed : Parsed before .expression piece after
  tighter : ∀ operator ∈ piece.operator?, minimum < operator.tightness
  stops : after.current.tightness ≤ minimum

/-- What is taken so far of such an expression. What follows binds no tighter than the operator
that puts it together. -/
structure OperationTaken (before : ParseState) (minimum : Nat) (piece : ParseTree)
    (after : ParseState) : Prop where
  parsed : Parsed before .expression piece after
  tighter : ∀ operator ∈ piece.operator?, minimum < operator.tightness
  looser : ∀ operator ∈ piece.operator?, after.current.tightness ≤ operator.tightness

/-- An operator and its right operand make their left operand a larger expression. -/
theorem operation_leads {right : Nat → Parser ParseTree} {minimum : Nat}
    (takes : ∀ precedence, minimum < precedence → ∀ state : ParseState, state.Sound →
      (right precedence).Leads state (OperationParsed state precedence))
    {state before : ParseState} {left : ParseTree}
    (taken : OperationTaken before minimum left state) :
    (operation right minimum left).Leads state fun grown after =>
      grown = none ∧ after = state ∧ OperationParsed before minimum left state ∨
        ∃ larger, grown = some larger ∧ after.rest.length < state.rest.length ∧
          OperationTaken before minimum larger after := by
  rw [operation, leads_bind, leads_current]
  split
  · next precedence binds =>
    have own := Kind.tightness_eq binds
    split
    · next loose => exact .inl ⟨rfl, rfl, taken.parsed, taken.tighter, own ▸ loose⟩
    · next tight =>
      have notEnd : state.current ≠ .endOfFileToken := by
        intro standing
        simp [standing, Kind.binaryPrecedence?] at binds
      refine Leads.bind ((bump_takesFrom notEnd state taken.parsed.sound rfl).and
        (bump_currentToken state)) ?_
      rintro _ state₁ ⟨⟨parsedOperator, progress⟩, rfl⟩
      refine Leads.bind (takes precedence (Nat.lt_of_not_le tight) state₁ parsedOperator.sound) ?_
      intro operand state₂ taken₂
      have operands := taken.parsed.cons (parsedOperator.cons taken₂.parsed)
      refine .inr ⟨_, rfl, Nat.lt_of_le_of_lt taken₂.parsed.length_le progress,
        operands.binary binds taken.looser (own ▸ taken₂.tighter), ?_, ?_⟩
      · rintro operator ⟨⟩
        exact own ▸ Nat.lt_of_not_le tight
      · rintro operator ⟨⟩
        exact own ▸ taken₂.stops
  · next noOperator =>
    refine .inl ⟨rfl, rfl, taken.parsed, taken.tighter, ?_⟩
    simp [Kind.tightness, noOperator]

/-- An operand alone has no operator that anything could be too tight for. -/
theorem operationTaken_of_operand {state after : ParseState} {minimum : Nat} {piece : ParseTree}
    (parsed : Parsed state .operand piece after) : OperationTaken state minimum piece after := by
  have noOperator : piece.operator? = none := by
    cases parsed.formed with
    | cons formed _ => exact formed.operator?_eq_none
  exact ⟨parsed.recast (by simp) .ofOperand, by simp [noOperator], by simp [noOperator]⟩

theorem binary_leads {operand : Parser ParseTree} (takes : operand.Takes .operand)
    {precedences minimum : Nat} (enough : precedenceCount ≤ precedences + minimum)
    {state : ParseState} (sound : state.Sound) :
    (binary operand precedences minimum).Leads state (OperationParsed state minimum) := by
  induction precedences generalizing minimum state with
  | zero =>
      refine (takes state sound).mono ?_
      intro piece after parsed
      have taken : OperationTaken state minimum piece after := operationTaken_of_operand parsed
      have bound := after.current.tightness_le
      exact ⟨taken.parsed, taken.tighter, by rw [precedenceCount] at enough; omega⟩
  | succ precedences ih =>
      refine Leads.bind (takes state sound) ?_
      intro first state₁ parsedFirst
      refine grow_leads (OperationTaken state minimum) ?_ (operationTaken_of_operand parsedFirst)
      intro piece state₂ taken
      refine operation_leads ?_ taken
      intro precedence tighter state₃ sound₃
      exact ih (by omega) sound₃

theorem takes_binary {operand : Parser ParseTree} (takes : operand.Takes .operand) :
    (binary operand precedenceCount 0).Takes .expression := by
  intro state sound
  exact (binary_leads takes (Nat.le_refl _) sound).mono fun _ _ taken => taken.parsed

/-- However many levels may be opened, parsing takes an expression. -/
theorem takes_expression (levels : Nat) : (expression levels).Takes .expression := by
  induction levels with
  | zero =>
      intro state sound
      refine Leads.bind (reportTooDeep_leads sound) ?_
      rintro _ after ⟨reported, damaged, _⟩
      exact reported.append
        (missingName_isAbsent_expression.parsed reported.sound damaged rfl)
  | succ levels ih => exact takes_binary (takes_postfixed ih)

/-! ### Statements -/

/-- What stands between the braces of a block, or before the end of a file. -/
def ContentParsed (before : ParseState) (pieces : List ParseTree) (after : ParseState) : Prop :=
  ∃ roles : List Role, ParsedAll before roles pieces after ∧
    ∀ role ∈ roles, role.IsContent after.Damaged

namespace ContentParsed

variable {before middle after : ParseState} {pieces more : List ParseTree}

theorem sound (parsed : ContentParsed before pieces after) : after.Sound := by
  rcases parsed with ⟨_, parsedAll, _⟩
  exact parsedAll.sound

theorem append (first : ContentParsed before pieces middle)
    (second : ContentParsed middle more after) : ContentParsed before (pieces ++ more) after := by
  rcases first with ⟨roles, parsed, content⟩
  rcases second with ⟨others, parsedMore, contentMore⟩
  refine ⟨roles ++ others, parsed.append parsedMore, ?_⟩
  intro role member
  rcases List.mem_append.mp member with member | member
  · exact (content role member).mono parsedMore.damaged
  · exact contentMore role member

end ContentParsed

theorem splitAtClosingBrace_append (opened : Nat) (tokens : List Token) :
    (splitAtClosingBrace opened tokens).1 ++ (splitAtClosingBrace opened tokens).2 = tokens := by
  induction tokens generalizing opened with
  | nil => simp [splitAtClosingBrace]
  | cons token rest ih =>
      unfold splitAtClosingBrace
      split
      · rfl
      · exact congrArg (token :: ·) (ih _)
      · exact congrArg (token :: ·) (ih _)
      · exact congrArg (token :: ·) (ih _)

/-- The rest of a block is kept as tokens, which are content once the source is damaged. -/
theorem looseTokens_leads {state : ParseState} (sound : state.Sound) (damaged : state.Damaged) :
    looseTokens.Leads state (ContentParsed state) := by
  rw [looseTokens, leads_bind, leads_get]
  have parsed := ParseState.parsedAll_advance sound (splitAtClosingBrace_append 0 state.rest).symm
  refine ⟨_, parsed, ?_⟩
  intro role member
  rcases List.mem_map.mp member with ⟨token, _, rfl⟩
  exact .inr ⟨damaged, token.kind, rfl⟩

/-- A statement that consumes nothing has an error, and is followed by the token it stands at. -/
theorem recoveringStatement_leads {statement : Parser ParseTree}
    (takes : statement.Takes .statement) {state : ParseState} (sound : state.Sound)
    (notEnd : state.current ≠ .endOfFileToken) :
    (recoveringStatement statement).Leads state fun new after =>
      new ≠ [] ∧ after.rest.length < state.rest.length ∧ ContentParsed state new after ∧
        ∀ piece ∈ new, piece.leafKind? = none ∨ piece.leafKind? = some state.current := by
  rw [recoveringStatement, leads_bind, leads_get]
  refine Leads.bind (takes state sound) ?_
  intro piece state₁ parsed
  have notLeaf : piece.leafKind? = none := by
    cases parsed.formed with
    | cons head _ => exact head.leafKind?_eq_none (by simp)
  rw [leads_bind, leads_get]
  split
  · next standing =>
    have noTokens : piece.tokens = [] := by
      have lengths := congrArg List.length parsed.rest
      simp only [List.length_append] at lengths
      have empty : (ParseTree.tokensOfAll [piece]).length = 0 := by omega
      simpa [ParseTree.tokensOfAll] using empty
    have sameRest : state.rest = state₁.rest := by
      simpa [ParseTree.tokensOfAll, noTokens] using parsed.rest
    have damaged : state₁.Damaged := by
      cases parsed.formed with
      | cons head _ => exact head.damaged_of_tokens_eq_nil noTokens
    have standsAt : state₁.current = state.current := by
      simp [ParseState.current, ParseState.currentToken, sameRest, parsed.endOfFile]
    refine Leads.bind (bump_leads parsed.sound (standsAt ▸ notEnd) rfl) ?_
    rintro _ state₂ ⟨rfl, parsedToken, progress⟩
    refine ⟨by simp, standing ▸ progress, ⟨_, parsed.cons parsedToken, ?_⟩, ?_⟩
    · intro role member
      simp only [List.mem_cons, List.not_mem_nil, or_false] at member
      rcases member with rfl | rfl
      · exact .inl rfl
      · exact .inr ⟨parsedToken.damaged damaged, _, rfl⟩
    · intro own isOwn
      rcases List.mem_cons.mp isOwn with rfl | isOwn
      · exact .inl notLeaf
      · rw [List.mem_singleton.mp isOwn, ← standsAt]
        exact .inr rfl
  · next advanced =>
    have progress : state₁.rest.length < state.rest.length := by
      have bound := parsed.length_le
      omega
    refine ⟨by simp, progress, ⟨_, parsed, ?_⟩, ?_⟩
    · intro role member
      exact .inl (List.mem_singleton.mp member)
    · intro own isOwn
      rw [List.mem_singleton.mp isOwn]
      exact .inl notLeaf

section Statements

variable {statement : Parser ParseTree}

/-- A list of statements, where each step takes one, and of its pieces some condition holds. -/
theorem statements_leads {step : Parser (List ParseTree)} (stops : ParseState → Prop)
    (holds : ParseTree → Prop)
    (stepLeads : ∀ state, state.Sound → step.Leads state fun new after =>
      new = [] ∧ after = state ∧ stops state ∨
        new ≠ [] ∧ after.rest.length < state.rest.length ∧ ContentParsed state new after ∧
          ∀ piece ∈ new, holds piece)
    {state : ParseState} (sound : state.Sound) :
    (many step).Leads state fun pieces after =>
      ContentParsed state pieces after ∧ (∀ piece ∈ pieces, holds piece) ∧ stops after := by
  refine many_leads (fun pieces after => ContentParsed state pieces after ∧
    ∀ piece ∈ pieces, holds piece) ?_ ⟨⟨[], .refl sound, by simp⟩, by simp⟩
  rintro pieces state₁ ⟨parsed, hold⟩
  refine (stepLeads state₁ parsed.sound).mono ?_
  rintro new after (⟨rfl, rfl, stopped⟩ | ⟨notEmpty, progress, parsedNew, holdNew⟩)
  · exact .inl ⟨rfl, rfl, parsed, hold, stopped⟩
  · exact .inr ⟨notEmpty, progress, parsed.append parsedNew,
      List.forall_mem_append.mpr ⟨hold, holdNew⟩⟩

/-- The statements of a block leave out the brace that closes it. -/
theorem blockStatements_leads (takes : statement.Takes .statement) {state : ParseState}
    (sound : state.Sound) :
    (many (blockStatement statement)).Leads state fun pieces after =>
      ContentParsed state pieces after ∧ ParseTree.Unclosing pieces := by
  refine (statements_leads (fun _ => True) (·.leafKind? ≠ some .closeBraceToken) ?_ sound).mono
    fun _ _ parsed => ⟨parsed.1, parsed.2.1⟩
  intro state sound
  rw [blockStatement, leads_bind, leads_current]
  split
  · exact .inl ⟨rfl, rfl, trivial⟩
  · exact .inl ⟨rfl, rfl, trivial⟩
  · next notClosing notEnd =>
    refine (recoveringStatement_leads takes sound notEnd).mono ?_
    rintro new after ⟨notEmpty, progress, parsed, leaves⟩
    refine .inr ⟨notEmpty, progress, parsed, fun piece isNew isClosing => ?_⟩
    rcases leaves piece isNew with notLeaf | isCurrent
    · rw [notLeaf] at isClosing
      cases isClosing
    · exact notClosing (Option.some.inj (isCurrent.symm.trans isClosing))

/-- The statements of a file reach up to its end. -/
theorem fileStatements_leads (takes : statement.Takes .statement) {state : ParseState}
    (sound : state.Sound) :
    (many (fileStatement statement)).Leads state fun pieces after =>
      ContentParsed state pieces after ∧ after.current = .endOfFileToken := by
  refine (statements_leads (fun state => state.current = .endOfFileToken) (fun _ => True) ?_
    sound).mono fun _ _ parsed => ⟨parsed.1, parsed.2.2⟩
  intro state sound
  rw [fileStatement, leads_bind, leads_current]
  split
  · next atEnd => exact .inl ⟨rfl, rfl, atEnd⟩
  · next notEnd =>
    refine (recoveringStatement_leads takes sound notEnd).mono ?_
    rintro new after ⟨notEmpty, progress, parsed, _⟩
    exact .inr ⟨notEmpty, progress, parsed, fun _ _ => trivial⟩

end Statements

/-- A block of missing tokens stands in for one that was never opened. -/
theorem absentBlock_isAbsent : ParseTree.IsAbsent .block
    (.node .block [.missing .openBraceToken, .missing .closeBraceToken]) where
  formed isDamaged := .node (.block (List.forall_mem_nil _))
    (.cons (.missing _ isDamaged) (.singleton (.missing _ isDamaged)))
  tokens := rfl
  constructs := rfl
  grouped := .node (by simp) (.cons (.missing _) (.cons (.missing _) .nil))
  sourced := .node (ParseTree.stands_of_bare rfl _) (.cons (.missing _) (.cons (.missing _) .nil))
  braced := by
    refine .node (fun _ => ?_) (.cons (.missing _) (.cons (.missing _) .nil))
    simp [ParseTree.Unclosing, ParseTree.leafKind?]

/-- A block, whatever stands between its braces. Without an opening brace it is left empty. -/
theorem takes_blockOf {content : Parser (List ParseTree)}
    (contentLeads : ∀ state, state.Sound → content.Leads state fun pieces after =>
      ContentParsed state pieces after ∧ (after.TooDeep ∨ ParseTree.Unclosing pieces)) :
    (blockOf content).Takes .block := by
  intro state sound
  rw [blockOf, leads_bind, leads_current]
  split
  · next standing =>
    refine Leads.bind (bump_leads sound (by decide) standing) ?_
    rintro _ state₁ ⟨rfl, parsedOpen, _⟩
    refine Leads.bind (contentLeads state₁ parsedOpen.sound) ?_
    rintro statements state₂ ⟨⟨roles, parsed, allowed⟩, unclosing⟩
    refine Leads.bind (takes_expect (by decide) state₂ parsed.sound) ?_
    intro closeBrace state₃ parsedClose
    refine (parsedOpen.cons (parsed.append parsedClose)).nodeFrom (.block ?_) rfl (by simp)
      (by simp) fun _ => ?_
    · intro role member
      exact (allowed role member).mono parsedClose.damaged
    · refine unclosing.imp (ParseState.tooDeep_mono parsedClose.reported) fun unclosing => ?_
      rw [← List.cons_append, List.dropLast_concat]
      refine List.forall_mem_cons.mpr ⟨fun isClosing => ?_, unclosing⟩
      cases standing.symm.trans (Option.some.inj isClosing)
  · next absent =>
    refine Leads.bind (expect_missing absent) ?_
    rintro _ _ ⟨rfl, rfl⟩
    exact absentBlock_isAbsent.parsed_expected sound rfl

section Statements

variable {inner : Parser ParseTree} (takes : inner.Takes .expression)

include takes

theorem localDeclaration_takesFrom :
    (localDeclaration inner).TakesFrom .varKeyword .statement := by
  intro state sound standing
  refine Leads.bind (bump_takesFrom (by decide) state sound standing) ?_
  rintro keyword state₁ ⟨parsedKeyword, progress⟩
  refine Leads.bind (takes_expect (by decide) state₁ parsedKeyword.sound) ?_
  intro identifier state₂ parsedIdentifier
  refine Leads.bind (takes_expect (by decide) state₂ parsedIdentifier.sound) ?_
  intro equals state₃ parsedEquals
  refine Leads.bind (takes state₃ parsedEquals.sound) ?_
  intro initializer state₄ parsedInitializer
  refine Leads.bind (takes_expect (by decide) state₄ parsedInitializer.sound) ?_
  intro semicolon state₅ parsedSemicolon
  have others := parsedIdentifier.cons
    (parsedEquals.cons (parsedInitializer.cons parsedSemicolon))
  exact ⟨(parsedKeyword.cons others).node .localDeclaration rfl,
    Nat.lt_of_le_of_lt others.length_le progress⟩

theorem returnStatement_takesFrom :
    (returnStatement inner).TakesFrom .returnKeyword .statement := by
  intro state sound standing
  refine Leads.bind (bump_takesFrom (by decide) state sound standing) ?_
  rintro keyword state₁ ⟨parsedKeyword, progress⟩
  rw [leads_bind, leads_current]
  dsimp only
  split
  · rw [pure_bind]
    refine Leads.bind (takes_expect (by decide) state₁ parsedKeyword.sound) ?_
    intro semicolon state₂ parsedSemicolon
    exact ⟨(parsedKeyword.cons parsedSemicolon).node .returnNothing rfl,
      Nat.lt_of_le_of_lt parsedSemicolon.length_le progress⟩
  · refine Leads.bind (takes state₁ parsedKeyword.sound) ?_
    intro value state₂ parsedValue
    rw [pure_bind]
    refine Leads.bind (takes_expect (by decide) state₂ parsedValue.sound) ?_
    intro semicolon state₃ parsedSemicolon
    have others := parsedValue.cons parsedSemicolon
    exact ⟨(parsedKeyword.cons others).node .returnValue rfl,
      Nat.lt_of_le_of_lt others.length_le progress⟩

theorem yieldStatement_takesFrom :
    (yieldStatement inner).TakesFrom .yieldKeyword .statement := by
  intro state sound standing
  rw [yieldStatement, leads_bind, leads_get]
  split
  · next following =>
    refine Leads.bind ((bump_takesFrom (by decide) state sound standing).and
      (bump_following state)) ?_
    rintro yieldKeyword state₁ ⟨⟨parsedYield, progress⟩, advanced⟩
    refine Leads.bind (bump_takesFrom (by decide) state₁ parsedYield.sound
      (advanced.trans following)) ?_
    rintro breakKeyword state₂ ⟨parsedBreak, _⟩
    refine Leads.bind (takes_expect (by decide) state₂ parsedBreak.sound) ?_
    intro semicolon state₃ parsedSemicolon
    have others := parsedBreak.cons parsedSemicolon
    exact ⟨(parsedYield.cons others).node .yieldBreak rfl,
      Nat.lt_of_le_of_lt others.length_le progress⟩
  · refine Leads.bind (bump_takesFrom (by decide) state sound standing) ?_
    rintro yieldKeyword state₁ ⟨parsedYield, progress⟩
    refine Leads.bind (takes_expect (by decide) state₁ parsedYield.sound) ?_
    intro returnKeyword state₂ parsedReturn
    refine Leads.bind (takes state₂ parsedReturn.sound) ?_
    intro value state₃ parsedValue
    refine Leads.bind (takes_expect (by decide) state₃ parsedValue.sound) ?_
    intro semicolon state₄ parsedSemicolon
    have others := parsedReturn.cons (parsedValue.cons parsedSemicolon)
    exact ⟨(parsedYield.cons others).node .yieldReturn rfl,
      Nat.lt_of_le_of_lt others.length_le progress⟩

theorem doStatement_takesFrom {block : Parser ParseTree} (takesBlock : block.Takes .block) :
    (doStatement block inner).TakesFrom .doKeyword .statement := by
  intro state sound standing
  refine Leads.bind (checkFeature_leads state _) ?_
  rintro _ _ rfl
  refine Leads.bind (bump_checked sound _ (by decide) standing) ?_
  rintro _ state₂ ⟨rfl, parsedDo, progress⟩
  refine Leads.bind (takesBlock state₂ parsedDo.sound) ?_
  intro body state₃ parsedBody
  refine Leads.bind (takes_expect (by decide) state₃ parsedBody.sound) ?_
  intro whileKeyword state₄ parsedWhile
  refine Leads.bind (takes_expect (by decide) state₄ parsedWhile.sound) ?_
  intro openParen state₅ parsedOpen
  refine Leads.bind (takes state₅ parsedOpen.sound) ?_
  intro condition state₆ parsedCondition
  refine Leads.bind (takes_expect (by decide) state₆ parsedCondition.sound) ?_
  intro closeParen state₇ parsedClose
  refine Leads.bind (takes_expect (by decide) state₇ parsedClose.sound) ?_
  intro semicolon state₈ parsedSemicolon
  have others := parsedBody.cons (parsedWhile.cons (parsedOpen.cons
    (parsedCondition.cons (parsedClose.cons parsedSemicolon))))
  exact ⟨(parsedDo.cons others).construct rfl .doStatement,
    Nat.lt_of_le_of_lt others.length_le progress⟩

theorem takes_expressionStatement : (expressionStatement inner).Takes .statement := by
  intro state sound
  refine Leads.bind (takes state sound) ?_
  intro value state₁ parsedValue
  refine Leads.bind (takes_expect (by decide) state₁ parsedValue.sound) ?_
  intro semicolon state₂ parsedSemicolon
  exact (parsedValue.cons parsedSemicolon).node .expressionStatement rfl

theorem takes_statementOf {block : Parser ParseTree} (takesBlock : block.Takes .block) :
    (statementOf block inner).Takes .statement := by
  intro state sound
  rw [statementOf, leads_bind, leads_current]
  split
  · refine (takesBlock state sound).mono ?_
    intro _ _ parsed
    exact parsed.recast (by simp) .ofBlock
  · next standing =>
    exact (localDeclaration_takesFrom takes state sound standing).mono fun _ _ parsed => parsed.1
  · next standing =>
    exact (returnStatement_takesFrom takes state sound standing).mono fun _ _ parsed => parsed.1
  · next standing =>
    exact (yieldStatement_takesFrom takes state sound standing).mono fun _ _ parsed => parsed.1
  · next standing =>
    exact (doStatement_takesFrom takes takesBlock state sound standing).mono
      fun _ _ parsed => parsed.1
  · exact takes_expressionStatement takes state sound

end Statements

/-- However many levels may be opened, parsing takes a block. -/
theorem takes_block (levels : Nat) : (block levels).Takes .block := by
  induction levels with
  | zero =>
      refine takes_blockOf ?_
      intro state sound
      refine Leads.bind (reportTooDeep_leads sound) ?_
      rintro _ after ⟨reported, damaged, tooDeep⟩
      refine (looseTokens_leads reported.sound damaged).mono ?_
      rintro pieces final ⟨roles, parsed, allowed⟩
      exact ⟨ContentParsed.append ⟨[], reported, by simp⟩ ⟨roles, parsed, allowed⟩,
        .inl (ParseState.tooDeep_mono parsed.reported tooDeep)⟩
  | succ levels ih =>
      refine takes_blockOf ?_
      intro state sound
      exact (blockStatements_leads (takes_statementOf (takes_expression levels) ih) sound).mono
        fun _ _ parsed => parsed.imp_right .inr

/-- However many levels may be opened, parsing takes a statement. -/
theorem takes_statement (levels : Nat) : (statement levels).Takes .statement :=
  takes_statementOf (takes_expression levels) (takes_block levels)

/-- A file is what stands up to the token that ends it, and this token. -/
theorem compilationUnit_leads {state : ParseState} (sound : state.Sound) :
    compilationUnit.Leads state fun shape after => ∃ pieces,
      ContentParsed state pieces after ∧ after.rest = [] ∧
        shape = .node .compilationUnit (pieces ++ [.token state.endOfFile]) := by
  refine Leads.bind (fileStatements_leads (takes_statement nestingLimit) sound) ?_
  rintro pieces after ⟨content, atEnd⟩
  have noRest : after.rest = [] := content.sound.rest_eq_nil atEnd
  simp only [bump, leads_bind, leads_get, noRest, leads_pure]
  rcases content with ⟨roles, parsed, allowed⟩
  exact ⟨pieces, ⟨roles, parsed, allowed⟩, trivial, by rw [parsed.endOfFile]⟩

end Parser

/-- Where parsing a scanned file starts. -/
def ParseState.start (file : FileId) (features : Features) (scanned : ScannedText) :
    ParseState where
  file := file
  features := features
  rest := scanned.tokens
  endOfFile := scanned.endOfFile
  lastEnd := 0
  diagnostics := scanned.diagnostics
  reportedTooDeep := false

/-- What parsing the tokens of a file gives: a file that holds exactly these tokens, and the
reports of scanning among others. What damages the file was reported as an error. -/
structure ParsedShape.Faithful (parsed : ParsedShape) (scanned : ScannedText) : Prop where
  formed : Formed (parsed.diagnostics.hasErrors = true) .file parsed.shape
  isNode : ∃ children, parsed.shape = .node .compilationUnit children
  tokens : parsed.shape.tokens = scanned.tokens ++ [scanned.endOfFile]
  reported : scanned.diagnostics <+: parsed.diagnostics

section Faithful

variable (file : FileId) (features : Features) {scanned : ScannedText} {offset : Nat}
  {chars : List Char}

theorem ParseState.start_sound (covers : scanned.Covers offset chars) :
    (start file features scanned).Sound where
  endOfFile_kind := covers.tiled.endOfFile_kind
  rest_kind := covers.tiled.token_kind
  unknown_reported := covers.unknown_reported
  tooDeep_reported := by simp [start]

/-- Parsing loses nothing of a scanned text. -/
theorem parseTokens_faithful (covers : scanned.Covers offset chars) :
    (parseTokens file features scanned).Faithful scanned := by
  have sound := ParseState.start_sound file features covers
  have endOfFile_kind : scanned.endOfFile.kind = .endOfFileToken := sound.endOfFile_kind
  have faithful : Parser.compilationUnit.Leads (.start file features scanned) fun shape after =>
      (ParsedShape.mk shape after.diagnostics).Faithful scanned := by
    refine (Parser.compilationUnit_leads sound).mono ?_
    rintro shape after ⟨pieces, ⟨roles, parsed, allowed⟩, noRest, rfl⟩
    constructor
    · have last : Formed after.Damaged (.leaf .endOfFileToken) (.token scanned.endOfFile) :=
        endOfFile_kind ▸ .token scanned.endOfFile
      exact .node (.file allowed) (parsed.formed.append (.singleton last))
    · exact ⟨_, rfl⟩
    · have tokens : scanned.tokens = ParseTree.tokensOfAll pieces ++ after.rest := parsed.rest
      rw [noRest, List.append_nil] at tokens
      simp only [ParseTree.tokens, ParseTree.tokensOfAll_append, ParseTree.tokensOfAll,
        List.append_nil, ← tokens]
      rfl
    · exact parsed.reported
  exact faithful

/-- Parsing reports the optional constructs of a file that are off, and no feature otherwise. -/
theorem parseTokens_screens (covers : scanned.Covers offset chars) :
    ∃ reports, List.Forall₂ (Construct.ReportedAs file)
        ((parseTokens file features scanned).shape.constructs.filter fun construct =>
          features.disables construct.kind) reports ∧
      (parseTokens file features scanned).diagnostics.filter Diagnostic.isOnFeature =
        scanned.diagnostics.filter Diagnostic.isOnFeature ++ reports := by
  have sound := ParseState.start_sound file features covers
  have screens : Parser.compilationUnit.Leads (.start file features scanned) fun shape after =>
      (ParseState.start file features scanned).Screens shape.constructs after := by
    refine (Parser.compilationUnit_leads sound).mono ?_
    rintro shape after ⟨pieces, ⟨roles, parsed, _⟩, _, rfl⟩
    have noConstruct (children : List ParseTree) :
        Construct.ofNode .compilationUnit children = [] := rfl
    simpa [ParseTree.constructs, ParseTree.constructsOfAll, noConstruct] using parsed.screened
  exact screens.reported

/-- Parsing reports the gaps of a file, and no other token as expected. -/
theorem parseTokens_gaps (covers : scanned.Covers offset chars) :
    (parseTokens file features scanned).diagnostics.filter Diagnostic.isExpectation =
      scanned.diagnostics.filter Diagnostic.isExpectation ++
        ((parseTokens file features scanned).shape.gaps ParseTree.noStandIns false 0).map
          (.expectation file) := by
  have sound := ParseState.start_sound file features covers
  have reports : Parser.compilationUnit.Leads (.start file features scanned) fun shape after =>
      (ParseState.start file features scanned).ReportsGaps
        (shape.gaps ParseTree.noStandIns false 0) after := by
    refine (Parser.compilationUnit_leads sound).mono ?_
    rintro shape after ⟨pieces, ⟨roles, parsed, _⟩, _, rfl⟩
    have noGap (position : Nat) (last : Token) : ParseTree.gapsFrom position [.token last] = [] :=
      rfl
    rw [ParseTree.keepsGaps_of_isPlain rfl, ParseTree.gapsFrom_append, noGap, List.append_nil]
    exact parsed.reportsGaps
  exact reports

/-- Parsing groups the operators of a file. -/
theorem parseTokens_grouped (covers : scanned.Covers offset chars) :
    (parseTokens file features scanned).shape.Grouped := by
  have sound := ParseState.start_sound file features covers
  have grouped : Parser.compilationUnit.Leads (.start file features scanned) fun shape _ =>
      shape.Grouped := by
    refine (Parser.compilationUnit_leads sound).mono ?_
    rintro shape after ⟨pieces, ⟨roles, parsed, _⟩, _, rfl⟩
    have last := ParseTree.GroupedAll.cons (.token scanned.endOfFile) .nil
    exact .node (by simp) (parsed.grouped.append last)
  exact grouped

/-- The expressions of a file are sourced. -/
theorem parseTokens_sourced (covers : scanned.Covers offset chars) :
    (parseTokens file features scanned).shape.Sourced := by
  have sound := ParseState.start_sound file features covers
  have sourced : Parser.compilationUnit.Leads (.start file features scanned) fun shape _ =>
      shape.Sourced := by
    refine (Parser.compilationUnit_leads sound).mono ?_
    rintro shape after ⟨pieces, ⟨roles, parsed, _⟩, _, rfl⟩
    have last := ParseTree.SourcedAll.cons (.token scanned.endOfFile) .nil
    exact .node (ParseTree.stands_of_bare rfl _) (parsed.sourced.append last)
  exact sourced

/-- The blocks of a file are braced, unless too deep nesting is reported. -/
theorem parseTokens_braced (covers : scanned.Covers offset chars)
    (notTooDeep : ∀ diagnostic ∈ (parseTokens file features scanned).diagnostics,
      diagnostic.code ≠ DiagnosticMessage.tooDeeplyNested.code) :
    (parseTokens file features scanned).shape.Braced := by
  have sound := ParseState.start_sound file features covers
  have braced : Parser.compilationUnit.Leads (.start file features scanned) fun shape after =>
      after.TooDeep ∨ shape.Braced := by
    refine (Parser.compilationUnit_leads sound).mono ?_
    rintro shape after ⟨pieces, ⟨roles, parsed, _⟩, _, rfl⟩
    have last := ParseTree.BracedAll.cons (.token scanned.endOfFile) .nil
    exact parsed.braced.imp_right fun braced => .node (by simp) (braced.append last)
  refine Or.resolve_left braced ?_
  rintro ⟨diagnostic, isReported, isTooDeep⟩
  exact notTooDeep diagnostic isReported isTooDeep

/-- The token that ends the file is the last piece of it. -/
theorem parseTokens_last (covers : scanned.Covers offset chars) :
    ∃ pieces, (parseTokens file features scanned).shape =
      .node .compilationUnit (pieces ++ [.token scanned.endOfFile]) := by
  have sound := ParseState.start_sound file features covers
  rcases Parser.compilationUnit_leads sound with ⟨pieces, _, _, shapeEq⟩
  exact ⟨pieces, shapeEq⟩

end Faithful

end QueryLang
