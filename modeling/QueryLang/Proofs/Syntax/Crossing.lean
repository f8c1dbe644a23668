import QueryLang.Proofs.Syntax.Refilling

/-!
# Parsers cross a skipped block

Every parser that can meet the block crosses its content, if the block is nested too deep for the
parser: `Parser.RefillsPiece` for each of them, from the block that is skipped up to whole files. A
parser that cannot open a block crosses nothing, and a repetition meets the block in one of its
steps.
-/

namespace QueryLang

namespace Parser

open ParseTree (OpensDeep tokensOfAll)

variable {refilling : Refilling} {levels : Nat} {state twin : ParseState} {before : List Token}

/-! ### Basic steps -/

/-- A parser of one piece crosses the content of the block. -/
abbrev RefillsPiece (refilling : Refilling) (levels : Nat) (parser : Parser ParseTree) : Prop :=
  Refills refilling levels parser fun piece => [piece]

/-- A parser of several pieces crosses the content of the block. -/
abbrev RefillsPieces (refilling : Refilling) (levels : Nat) (parser : Parser (List ParseTree)) :
    Prop :=
  Refills refilling levels parser id

theorem RefillsPiece.of_takes {parser : Parser ParseTree} {role : Role}
    (agrees : ∀ {states trees}, KeptByParsing states trees → Agree states trees parser parser)
    (takes : parser.Takes role)
    (crosses : parser.Crosses refilling levels fun piece => [piece]) :
    RefillsPiece refilling levels parser where
  agrees kept := (agrees kept).mono fun _ _ related => .cons related .nil
  takes {state} sound _ := (takes state sound).mono fun _ _ parsed => ⟨parsed.sound, parsed.rest⟩
  crosses := crosses

theorem refills_bump : RefillsPiece refilling levels bump where
  agrees kept := kept.bump.mono fun _ _ related => .cons related .nil
  takes {state} sound notEnd := by
    obtain ⟨token, rest, left⟩ := List.exists_cons_of_ne_nil notEnd
    have split : state.rest = [token] ++ rest := left
    refine (leads_bump left _).mpr ⟨(ParseState.parsedAll_advance sound split).sound, ?_⟩
    rw [ParseTree.tokensOfAll_singleton]
    exact split
  crosses {before state twin} _ := by
    refine .of_unopened ((bump_currentToken state).mono fun piece _ isToken count opens => ?_)
    exact ParseTree.not_opens_token (isToken ▸ opens)

/-- What is expected is a token or missing, and opens no block. -/
theorem expect_closed (kind : Kind) (state : ParseState) :
    (expect kind).Leads state fun piece _ =>
      ∀ brace count, ¬piece.Opens brace count := by
  by_cases standing : state.current = kind
  · rw [expect, leads_bind, leads_current, if_pos standing]
    refine (bump_currentToken state).mono fun piece _ isToken brace count opens => ?_
    exact ParseTree.not_opens_token (isToken ▸ opens)
  · refine (expect_missing standing).mono fun piece _ isMissing brace count opens => ?_
    exact ParseTree.not_opens_missing (isMissing.1 ▸ opens)

theorem refills_expect {kind : Kind} (notEnd : kind ≠ .endOfFileToken) :
    RefillsPiece refilling levels (expect kind) := by
  refine .of_takes (fun kept => kept.expect kind) (takes_expect notEnd) fun _ => ?_
  exact .of_unopened ((expect_closed kind _).mono fun _ _ closed => closed _)

theorem refills_checkFeature (feature : Features) :
    Refills refilling levels (checkFeature feature) fun _ => [] where
  agrees kept := (kept.checkFeature feature).mono fun _ _ _ => .nil
  takes {state} sound _ := by
    refine (checkFeature_leads state feature).mono ?_
    rintro _ _ rfl
    exact ⟨sound.checked feature, (state.rest_checked feature).symm⟩
  crosses _ := .of_closed ((leads_any _ _).mono fun _ _ _ deep => deep.ne_nil rfl)

/-- No expression opens a block. -/
theorem refills_expression (limit : Nat) : RefillsPiece refilling levels (expression limit) := by
  have takes := takes_expression limit
  refine .of_takes (fun kept => kept.expression limit) takes fun ahead => ?_
  refine .of_unopened ((takes _ ahead.sound).mono fun piece _ parsed count opens => ?_)
  cases parsed.formed with
  | cons head _ => cases (head.holdsBlocks opens).1

/-! ### Blocks -/

section Blocks

variable {content : Parser (List ParseTree)}

/-- Without an opening brace there is no block to open. -/
theorem blockOf_closed (absent : state.current ≠ .openBraceToken) :
    (blockOf content).Leads state fun piece _ => ∀ brace count, ¬piece.Opens brace count := by
  rw [blockOf, leads_bind, leads_current, if_neg absent]
  refine Leads.bind (expect_missing absent) ?_
  rintro _ _ ⟨rfl, _⟩ brace count opens
  obtain ⟨_, _, isFirst⟩ | ⟨_, _, child, isChild, opens⟩ := opens.of_block (.inl rfl)
  · cases isFirst
  · simp only [List.mem_cons, List.not_mem_nil, or_false] at isChild
    obtain rfl | rfl := isChild
    · exact ParseTree.not_opens_missing opens
    · exact ParseTree.not_opens_missing opens

variable [Local content]

/-- A block is one more block around its content. -/
theorem crosses_blockOf (refills : RefillsPieces refilling levels content) :
    (blockOf content).Crosses refilling (levels + 1) fun piece => [piece] := by
  intro before state twin ahead
  by_cases isOpen : state.current = .openBraceToken
  · have start : refilling.Met levels [] [] state twin := .start ahead
    have met : LeadBoth (blockOf content) (blockOf content) state twin fun piece other =>
        refilling.Met (levels + 1) [piece] [other] := by
      refine LeadBoth.atState ?_
      rw [ahead.facing.current_eq, if_pos isOpen]
      refine (start.next refills_bump).bind fun _ _ _ _ met => ?_
      refine (met.next refills).bind fun _ _ _ _ met => ?_
      refine (met.next (refills_expect (by decide))).bind fun _ _ _ _ met => ?_
      exact met.block
    exact met.mono fun _ _ _ _ met => met.crosses
  · exact .of_unopened ((blockOf_closed isOpen).mono fun _ _ closed => closed _)

end Blocks

/-- Skips the rest of a block that is nested too deep. -/
def skipContent : Parser (List ParseTree) := do
  reportTooDeep
  looseTokens

/-- Both runs report too deep nesting, or neither does. -/
theorem reportTooDeep_sameRest (same : twin = { state with rest := twin.rest })
    (rest : List Token) :
    LeadBoth reportTooDeep reportTooDeep state twin fun _ _ after otherAfter =>
      after.rest = state.rest ∧ otherAfter.rest = twin.rest ∧
        ParseState.Alike { after with rest } { otherAfter with rest } := by
  have sameFlag : twin.reportedTooDeep = state.reportedTooDeep := by rw [same]
  refine LeadBoth.atState ?_
  rw [sameFlag]
  cases state.reportedTooDeep with
  | true => exact ⟨rfl, rfl, same ▸ ⟨rfl, rfl, rfl, rfl, rfl⟩⟩
  | false =>
    have marked : ParseState.Alike { state with rest, reportedTooDeep := true }
        { twin with rest, reportedTooDeep := true } := same ▸ ⟨rfl, rfl, rfl, rfl, rfl⟩
    exact ⟨rfl, rfl, marked.report _ _ .tooDeeplyNested []⟩

/-- Both runs skip the content of the block. -/
theorem skipContent_crosses (left : state.rest = refilling.content ++ refilling.back)
    (right : twin = { state with rest := refilling.filling ++ refilling.back }) :
    LeadBoth skipContent skipContent state twin fun loose other after otherAfter =>
      loose = refilling.content.map .token ∧ other = refilling.filling.map .token ∧
        after.Alike otherAfter ∧ after.rest = refilling.back := by
  have rightRest : twin.rest = refilling.filling ++ refilling.back := by rw [right]
  have same : twin = { state with rest := twin.rest } := by rw [rightRest, right]
  refine (reportTooDeep_sameRest same refilling.back).bind ?_
  rintro _ _ middle otherMiddle ⟨sameRest, sameRestOther, alike⟩
  have splits := refilling.balanced.split refilling.closes
  have splitsOther := refilling.balancedFilling.split refilling.closes
  rw [← left, ← sameRest] at splits
  rw [← rightRest, ← sameRestOther] at splitsOther
  refine (leads_looseTokens splits _).mpr ((leads_looseTokens splitsOther _).mpr ?_)
  exact ⟨rfl, rfl, alike.advance rfl, rfl⟩

theorem skipContent_gives (state : ParseState) :
    skipContent.Leads state fun pieces _ => ∃ loose : List Token, pieces = loose.map .token :=
  (leads_any reportTooDeep state).bind fun _ _ _ => (leads_looseTokens rfl _).mpr ⟨_, rfl⟩

/-- A block that another token opens is not the one. -/
theorem skipping_closed {token : Token} {rest : List Token} (left : state.rest = token :: rest)
    (isOther : token ≠ refilling.brace) :
    (blockOf skipContent).Leads state fun piece _ =>
      ∀ count, ¬piece.Opens refilling.brace count := by
  by_cases isOpen : state.current = .openBraceToken
  · rw [blockOf, leads_bind, leads_current, if_pos isOpen, leads_bind, leads_bump left]
    refine (skipContent_gives _).bind ?_
    rintro _ _ ⟨loose, rfl⟩
    refine (expect_closed _ _).bind fun closeBrace _ closed count opens => ?_
    obtain ⟨_, _, isFirst⟩ | ⟨_, _, child, isChild, opensIn⟩ := opens.of_block (.inl rfl)
    · exact isOther (ParseTree.token.inj (List.cons.inj isFirst).1)
    · simp only [List.cons_append, List.mem_cons, List.mem_append, List.mem_map,
        List.not_mem_nil, or_false] at isChild
      obtain rfl | ⟨_, _, rfl⟩ | rfl := isChild
      · exact ParseTree.not_opens_token opensIn
      · exact ParseTree.not_opens_token opensIn
      · exact closed _ _ opensIn
  · exact (blockOf_closed isOpen).mono fun _ _ closed => closed _

/-- In a block that is nested too deep both runs cross the content, if it is the one. -/
theorem crosses_skipping : (blockOf skipContent).Crosses refilling 0 fun piece => [piece] := by
  intro before state twin ahead
  cases before with
  | cons token before =>
    refine .of_unopened (skipping_closed ahead.rest_eq fun isBrace => ?_)
    exact ahead.fresh (isBrace ▸ List.mem_cons_self ..)
  | nil =>
    have isOpen : state.current = .openBraceToken :=
      (ParseState.current_of_rest_cons ahead.rest_eq).trans refilling.isOpen
    have bumps : LeadBoth bump bump state twin fun piece other after otherAfter =>
        piece = .token refilling.brace ∧ other = .token refilling.brace ∧
          after.rest = refilling.content ++ refilling.back ∧
          otherAfter = { after with rest := refilling.filling ++ refilling.back } := by
      refine (leads_bump ahead.rest_eq _).mpr ((leads_bump ahead.facing.rest_right _).mpr ?_)
      exact ⟨rfl, rfl, rfl, ahead.facing.right ▸ rfl⟩
    refine LeadBoth.atState ?_
    rw [ahead.facing.current_eq, if_pos isOpen]
    refine bumps.bind ?_
    rintro _ _ inside otherInside ⟨rfl, rfl, left, right⟩
    refine (skipContent_crosses left right).bind ?_
    rintro _ _ middle otherMiddle ⟨rfl, rfl, alike, behind⟩
    have closes : LeadBoth (expect .closeBraceToken) (expect .closeBraceToken) middle otherMiddle
        fun closeBrace other after otherAfter =>
          closeBrace.Alike other ∧ after.Alike otherAfter :=
      kept_unplaced.expect .closeBraceToken middle otherMiddle alike
    have parses : Local (expect .closeBraceToken) := inferInstance
    refine (closes.and_left (parses.shrinks middle)).bind ?_
    rintro closeBrace otherClose after otherAfter ⟨⟨alikeBrace, alikeAfter⟩, shrinks⟩ _
    refine ⟨⟨[], .block closeBrace, [], rfl, .cons ?_ .nil⟩, alikeAfter, ?_⟩
    · refine congrArg (ParseTree.node .block) (ParseTree.unplacedAll_eq ?_)
      have same : List.Forall₂ ParseTree.Alike
          (ParseTree.token refilling.brace :: refilling.filling.map .token)
          (ParseTree.token refilling.brace :: refilling.filling.map .token) :=
        List.forall₂_same.mpr fun _ _ => rfl
      exact List.rel_append same (.cons alikeBrace .nil)
    · exact behind ▸ shrinks.length_le

/-! ### Statements -/

section Statements

theorem RefillsPiece.agree {parser : Parser ParseTree}
    (refills : RefillsPiece refilling levels parser) {states trees}
    (kept : KeptByParsing states trees) : Agree states trees parser parser :=
  (refills.agrees kept).mono fun _ _ related => (List.forall₂_cons.mp related).1

/-- A statement of a kind in which no block stands opens none. -/
theorem unopened_of_kind {parser : Parser ParseTree}
    (parses : parser.Leads state (Parsed state .statement))
    (gives : parser.Leads state fun piece _ =>
      ∃ kind children, piece = .node kind children ∧ kind.holdsBlocks = false) :
    parser.Leads state fun piece _ => ∀ count, ¬piece.Opens refilling.brace count := by
  refine (parses.and gives).mono ?_
  rintro _ after ⟨parsed, kind, children, rfl, notHolding⟩ count opens
  cases parsed.formed with
  | cons head _ =>
    obtain ⟨_, other, _, isNode, holds⟩ := head.holdsBlocks opens
    rw [(ParseTree.isNode_node_iff.mp isNode).1, notHolding] at holds
    cases holds

variable {limit : Nat} {block : Parser ParseTree} [Local block]
  (refills : RefillsPiece refilling levels block)

include refills

theorem crosses_doStatement :
    (doStatement block (expression limit)).Crosses refilling levels fun piece => [piece] := by
  intro before state twin ahead
  have start : refilling.Met levels [] [] state twin := .start ahead
  have met : LeadBoth (doStatement block (expression limit)) (doStatement block (expression limit))
      state twin fun piece other => refilling.Met levels [piece] [other] := by
    refine (start.next (refills_checkFeature _)).bind fun _ _ _ _ met => ?_
    refine (met.next refills_bump).bind fun _ _ _ _ met => ?_
    refine (met.next refills).bind fun _ _ _ _ met => ?_
    refine (met.next (refills_expect (by decide))).bind fun _ _ _ _ met => ?_
    refine (met.next (refills_expect (by decide))).bind fun _ _ _ _ met => ?_
    refine (met.next (refills_expression limit)).bind fun _ _ _ _ met => ?_
    refine (met.next (refills_expect (by decide))).bind fun _ _ _ _ met => ?_
    refine (met.next (refills_expect (by decide))).bind fun _ _ _ _ met => ?_
    exact met.node (by decide)
  exact met.mono fun _ _ _ _ met => met.crosses

theorem refills_statementOf (takes : block.Takes .block) :
    RefillsPiece refilling levels (statementOf block (expression limit)) := by
  have inner := takes_expression limit
  refine .of_takes (fun kept => kept.statementOf (kept.expression limit) (refills.agree kept))
    (takes_statementOf inner takes) ?_
  intro before state twin ahead
  refine LeadBoth.atState ?_
  rw [ahead.facing.current_eq]
  split
  · exact refills.crosses ahead
  · next standing =>
    have parses := localDeclaration_takesFrom inner state ahead.sound standing
    exact .of_unopened (unopened_of_kind (parses.mono fun _ _ => And.left) ⟨_, _, rfl, rfl⟩)
  · next standing =>
    have parses := returnStatement_takesFrom inner state ahead.sound standing
    refine .of_unopened (unopened_of_kind (parses.mono fun _ _ => And.left) ?_)
    rw [returnStatement_eq]
    exact ⟨_, _, rfl, rfl⟩
  · next standing =>
    have parses := yieldStatement_takesFrom inner state ahead.sound standing
    refine .of_unopened (unopened_of_kind (parses.mono fun _ _ => And.left) ?_)
    rw [yieldStatement_eq, leads_bind, leads_get]
    split
    · exact ⟨_, _, rfl, rfl⟩
    · exact ⟨_, _, rfl, rfl⟩
  · exact crosses_doStatement refills ahead
  · have parses := takes_expressionStatement inner state ahead.sound
    exact .of_unopened (unopened_of_kind parses ⟨_, _, rfl, rfl⟩)

end Statements

/-! ### Lists of statements -/

section Lists

variable {statement : Parser ParseTree} [parses : Local statement]
  (refills : RefillsPiece refilling levels statement)

/-- Behind a statement at most a token is skipped. -/
theorem skipWhereStuck_deep (length : Nat) (parsed : ParseTree) :
    (skipWhereStuck length parsed).Leads state fun pieces _ =>
      OpensDeep refilling.brace levels pieces → OpensDeep refilling.brace levels [parsed] := by
  rw [skipWhereStuck, leads_bind, leads_get]
  split
  · refine (bump_currentToken state).bind fun skipped _ isToken deepAll => ?_
    have deep : OpensDeep refilling.brace levels ([parsed] ++ [skipped]) := deepAll
    refine (ParseTree.OpensDeep.append_iff.mp deep).resolve_right fun deepSkipped => ?_
    obtain ⟨_, _, opens⟩ := ParseTree.OpensDeep.singleton_iff.mp deepSkipped
    exact ParseTree.not_opens_token (isToken ▸ opens)
  · exact id

include refills

theorem crosses_recoveringStatement :
    (recoveringStatement statement).Crosses refilling levels id := by
  intro before state twin ahead
  rw [recoveringStatement_eq]
  refine LeadBoth.atState ?_
  refine (refills.met ahead).bind fun parsed other middle otherMiddle met => ?_
  by_cases deep : OpensDeep refilling.brace levels [parsed]
  · -- Both runs have crossed the content, so neither is stuck.
    have crossed := met.crosses deep
    have sameLength : otherMiddle.rest.length = middle.rest.length := by
      simpa using congrArg List.length crossed.alike.rest.symm
    have behind := crossed.behind
    have left : middle.rest.length ≠ state.rest.length := by
      rw [ahead.rest_eq]
      simp only [List.length_append, List.length_cons]
      omega
    have right : otherMiddle.rest.length ≠ twin.rest.length := by
      rw [ahead.facing.rest_right, sameLength]
      simp only [List.length_append, List.length_cons]
      omega
    refine LeadBoth.atState ?_
    rw [if_neg left, if_neg right]
    exact fun _ => crossed
  · have only : (skipWhereStuck state.rest.length parsed).Leads middle fun pieces _ =>
        OpensDeep refilling.brace levels pieces → OpensDeep refilling.brace levels [parsed] :=
      skipWhereStuck_deep _ parsed
    exact .of_closed (only.mono fun _ _ only deepAll => deep (only deepAll))

omit parses refills in
theorem recoveringStatement_takes (takes : statement.Takes .statement) (sound : state.Sound)
    (notEnd : state.current ≠ .endOfFileToken) :
    (recoveringStatement statement).Leads state fun pieces after =>
      after.Sound ∧ state.rest = tokensOfAll pieces ++ after.rest := by
  refine (recoveringStatement_leads takes sound notEnd).mono ?_
  rintro pieces after ⟨_, _, ⟨_, parsed, _⟩, _⟩
  exact ⟨parsed.sound, parsed.rest⟩

theorem refills_blockStatement (takes : statement.Takes .statement) :
    RefillsPieces refilling levels (blockStatement statement) where
  agrees kept := kept.blockStatement (refills.agree kept)
  takes {state} sound _ := by
    rw [blockStatement, leads_bind, leads_current]
    split
    · exact ⟨sound, rfl⟩
    · exact ⟨sound, rfl⟩
    · next notEnd => exact recoveringStatement_takes takes sound notEnd
  crosses {before state twin} ahead := by
    refine LeadBoth.atState ?_
    rw [ahead.facing.current_eq]
    split
    · exact fun deep => absurd rfl deep.ne_nil
    · exact fun deep => absurd rfl deep.ne_nil
    · exact crosses_recoveringStatement refills ahead

theorem refills_fileStatement (takes : statement.Takes .statement) :
    RefillsPieces refilling levels (fileStatement statement) where
  agrees kept := kept.fileStatement (refills.agree kept)
  takes {state} sound _ := by
    rw [fileStatement, leads_bind, leads_current]
    split
    · exact ⟨sound, rfl⟩
    · next notEnd => exact recoveringStatement_takes takes sound notEnd
  crosses {before state twin} ahead := by
    refine LeadBoth.atState ?_
    rw [ahead.facing.current_eq]
    split
    · exact fun deep => absurd rfl deep.ne_nil
    · exact crosses_recoveringStatement refills ahead

end Lists

/-! ### Repetition -/

/-- At the end of the file a step gives nothing. -/
def EndsWithFile (step : Parser (List ParseTree)) : Prop :=
  ∀ state : ParseState, state.Sound → state.rest = [] →
    step.Leads state fun pieces after => pieces = [] ∧ after = state

theorem EndsWithFile.manyWithin {step : Parser (List ParseTree)} (ends : step.EndsWithFile)
    (limit : Nat) : (manyWithin step limit).EndsWithFile := by
  intro state sound noRest
  cases limit with
  | zero => exact ⟨rfl, rfl⟩
  | succ limit =>
    refine (ends state sound noRest).bind ?_
    rintro _ _ ⟨rfl, rfl⟩
    exact ⟨rfl, rfl⟩

section Repetition

variable {step : Parser (List ParseTree)} (refills : RefillsPieces refilling levels step)
  (progress : step.Progresses (· = [])) (ends : step.EndsWithFile)

include refills progress ends

/-- The bound of a repetition does not matter once it is at least what is left. -/
theorem manyWithin_limit {limit otherLimit : Nat} (sound : state.Sound)
    (enough : state.rest.length ≤ limit) (otherEnough : state.rest.length ≤ otherLimit) :
    LeadBoth (manyWithin step limit) (manyWithin step otherLimit) state state
      fun pieces others after otherAfter => others = pieces ∧ otherAfter = after := by
  induction limit generalizing otherLimit state with
  | zero =>
    have noRest : state.rest = [] := List.eq_nil_of_length_eq_zero (Nat.le_zero.mp enough)
    exact ends.manyWithin otherLimit state sound noRest
  | succ limit ih =>
    by_cases noRest : state.rest = []
    · refine (ends.manyWithin (limit + 1) state sound noRest).mono ?_
      rintro _ _ ⟨rfl, rfl⟩
      exact ends.manyWithin otherLimit _ sound noRest
    · have positive := List.length_pos_iff.mpr noRest
      obtain ⟨otherLimit, rfl⟩ := Nat.exists_eq_succ_of_ne_zero
        (Nat.ne_zero_of_lt (Nat.lt_of_lt_of_le positive otherEnough))
      have same : LeadBoth step step state state fun pieces others after otherAfter =>
          others = pieces ∧ otherAfter = after := ⟨rfl, rfl⟩
      have leads := (refills.takes sound noRest).and (progress state noRest)
      refine (same.and_left leads).bind ?_
      rintro _ pieces _ middle ⟨⟨rfl, rfl⟩, ⟨soundMiddle, _⟩, shorter⟩
      cases pieces with
      | nil => exact ⟨rfl, rfl⟩
      | cons first rest =>
        have shorter := shorter.resolve_left (List.cons_ne_nil _ _)
        refine (ih soundMiddle (by omega) (by omega)).bind ?_
        rintro more _ after _ ⟨rfl, rfl⟩
        exact ⟨rfl, rfl⟩

variable [steps : Local step]

/-- Once the content is crossed, both runs repeat the step on alike. -/
theorem manyWithin_crossed {limit otherLimit : Nat} {pieces others : List ParseTree}
    (sound : state.Sound) (crossed : refilling.Crossed pieces others state twin)
    (enough : state.rest.length ≤ limit) (otherEnough : state.rest.length ≤ otherLimit) :
    LeadBoth (manyWithin step limit) (manyWithin step otherLimit) state twin
      fun more otherMore after otherAfter =>
        refilling.Crossed (pieces ++ more) (others ++ otherMore) after otherAfter := by
  have alike : LeadBoth (manyWithin step otherLimit) (manyWithin step otherLimit) state twin
      fun more otherMore after otherAfter =>
        List.Forall₂ ParseTree.Alike more otherMore ∧ after.Alike otherAfter :=
    (refills.agrees kept_unplaced).manyWithin otherLimit state twin crossed.alike
  have shrinks := Shrinks.manyWithin steps.shrinks otherLimit state
  have sameLimit := manyWithin_limit refills progress ends sound enough otherEnough
  refine sameLimit.trans ((alike.and_left shrinks).mono ?_)
  rintro more otherMore after otherAfter ⟨⟨alikeMore, alikeAfter⟩, shorter⟩
  exact crossed.append alikeMore alikeAfter shorter.length_le

theorem manyWithin_crosses {limit otherLimit : Nat} (ahead : refilling.Ahead before state twin)
    (enough : state.rest.length ≤ limit) (otherEnough : twin.rest.length ≤ otherLimit) :
    LeadBoth (manyWithin step limit) (manyWithin step otherLimit) state twin
      fun pieces others after otherAfter => OpensDeep refilling.brace levels pieces →
        refilling.Crossed pieces others after otherAfter := by
  -- The limits are what is left of the two files, so they differ once the block has been met.
  induction limit generalizing before otherLimit state twin with
  | zero =>
    exact absurd (List.eq_nil_of_length_eq_zero (Nat.le_zero.mp enough)) ahead.facing.rest_ne_nil
  | succ limit ih =>
    have twinLength := congrArg List.length ahead.facing.rest_right
    have length := congrArg List.length ahead.rest_eq
    simp only [List.length_append, List.length_cons] at twinLength length
    obtain ⟨otherLimit, rfl⟩ : ∃ less, otherLimit = less + 1 :=
      Nat.exists_eq_succ_of_ne_zero (by omega)
    have notEnd := ahead.facing.rest_ne_nil
    have leads := (refills.takes ahead.sound notEnd).and (progress state notEnd)
    refine ((refills.met ahead).and_left leads).bind ?_
    rintro pieces others middle otherMiddle ⟨met, ⟨soundMiddle, _⟩, shorter⟩
    by_cases deep : OpensDeep refilling.brace levels pieces
    · -- The step has crossed the content.
      have crossed := met.crosses deep
      obtain ⟨first, rest, rfl⟩ := List.exists_cons_of_ne_nil deep.ne_nil
      obtain ⟨other, otherRest, rfl⟩ := List.exists_cons_of_ne_nil crossed.others_ne_nil
      have shorter := shorter.resolve_left (List.cons_ne_nil _ _)
      have behind := crossed.behind
      refine (manyWithin_crossed refills progress ends soundMiddle crossed (by omega)
        (by omega)).bind ?_
      rintro more otherMore after otherAfter crossed _
      exact crossed
    · cases met with
      | ahead same free aheadMiddle =>
        subst same
        cases others with
        | nil => exact fun deepAll => absurd deepAll deep
        | cons first rest =>
          have shorter := shorter.resolve_left (List.cons_ne_nil _ _)
          have middleLength := congrArg List.length aheadMiddle.rest_eq
          have otherLength := congrArg List.length aheadMiddle.facing.rest_right
          simp only [List.length_append, List.length_cons] at middleLength otherLength
          refine (ih aheadMiddle (by omega) (by omega)).bind ?_
          rintro more otherMore after otherAfter crosses deepAll
          have deepMore := (ParseTree.OpensDeep.append_iff.mp deepAll).resolve_left deep
          exact (crosses deepMore).prepend _
      | past behind _ =>
        -- The block is among the pieces, but not deep, and there is no other one.
        refine .of_closed ?_
        cases pieces with
        | nil => exact deep
        | cons first rest =>
          have agree := (refills.agrees (kept_behind refilling.brace)).manyWithin limit
          refine (Agree.free agree behind).bind fun more _ free deepAll => ?_
          obtain deepFirst | deepMore := ParseTree.OpensDeep.append_iff.mp deepAll
          · exact deep deepFirst
          · exact free.1 deepMore.mem_tokens

theorem refills_many
    (takes : ∀ {state : ParseState}, state.Sound → (many step).Leads state fun pieces after =>
      after.Sound ∧ state.rest = tokensOfAll pieces ++ after.rest) :
    RefillsPieces refilling levels (many step) where
  agrees kept := kept.many (refills.agrees kept)
  takes sound _ := takes sound
  crosses ahead :=
    .atState (manyWithin_crosses refills progress ends ahead (Nat.le_refl _) (Nat.le_refl _))

end Repetition

/-! ### Files -/

theorem current_eq_endOfFile (sound : state.Sound) (noRest : state.rest = []) :
    state.current = .endOfFileToken := by
  rw [ParseState.current, ParseState.currentToken, noRest]
  exact sound.endOfFile_kind

theorem endsWithFile_blockStatement (statement : Parser ParseTree) :
    (blockStatement statement).EndsWithFile := by
  intro state sound noRest
  rw [blockStatement, leads_bind, leads_current, current_eq_endOfFile sound noRest]
  exact ⟨rfl, rfl⟩

theorem endsWithFile_fileStatement (statement : Parser ParseTree) :
    (fileStatement statement).EndsWithFile := by
  intro state sound noRest
  rw [fileStatement, leads_bind, leads_current, current_eq_endOfFile sound noRest]
  exact ⟨rfl, rfl⟩

/-- The block may be any block that is nested too deep for the parser. -/
theorem refills_block (levels : Nat) : RefillsPiece refilling levels (block levels) := by
  have of_crosses {levels : Nat}
      (crosses : (block levels).Crosses refilling levels fun piece => [piece]) :
      RefillsPiece refilling levels (block levels) :=
    .of_takes (fun kept => kept.block levels) (takes_block levels) crosses
  -- With no level left it is this block that is skipped, else one among its statements.
  induction levels with
  | zero => exact of_crosses crosses_skipping
  | succ levels ih =>
    have takes := takes_statement levels
    have statements :
        RefillsPieces refilling levels (many (blockStatement (statement levels))) := by
      have one := refills_blockStatement (refills_statementOf ih (takes_block levels)) takes
      refine refills_many one progresses_blockStatement (endsWithFile_blockStatement _)
        fun sound => ?_
      refine (blockStatements_leads takes sound).mono ?_
      rintro pieces after ⟨⟨_, parsed, _⟩, _⟩
      exact ⟨parsed.sound, parsed.rest⟩
    have repeats : Local (many (blockStatement (statement levels))) :=
      .many progresses_blockStatement
    exact of_crosses (crosses_blockOf statements)

theorem refills_statement (levels : Nat) : RefillsPiece refilling levels (statement levels) :=
  refills_statementOf (refills_block levels) (takes_block levels)

/-- Two runs over whole files cross the content of a block that is nested too deep. -/
theorem compilationUnit_crosses :
    compilationUnit.Crosses refilling nestingLimit fun shape => [shape] := by
  intro before state twin ahead
  have takes := takes_statement nestingLimit
  have statements : RefillsPieces refilling nestingLimit
      (many (fileStatement (statement nestingLimit))) := by
    refine refills_many (refills_fileStatement (refills_statement nestingLimit) takes)
      progresses_fileStatement (endsWithFile_fileStatement _) fun sound => ?_
    refine (fileStatements_leads takes sound).mono ?_
    rintro pieces after ⟨⟨_, parsed, _⟩, _⟩
    exact ⟨parsed.sound, parsed.rest⟩
  have start : refilling.Met nestingLimit [] [] state twin := .start ahead
  have repeats : Local (many (fileStatement (statement nestingLimit))) :=
    .many progresses_fileStatement
  have met : LeadBoth compilationUnit compilationUnit state twin fun shape other =>
      refilling.Met nestingLimit [shape] [other] := by
    refine (start.next statements).bind fun _ _ _ _ met => ?_
    refine (met.next refills_bump).bind fun _ _ _ _ met => ?_
    exact met.node (by decide)
  exact met.mono fun _ _ _ _ met => met.crosses

end Parser

end QueryLang
