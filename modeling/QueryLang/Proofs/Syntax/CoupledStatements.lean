import QueryLang.Proofs.Syntax.CoupledExpressions

/-!
# Statements meet the target

Behind a whole statement the keyword starts the next one. Behind the `yield` of a statement it may
be `return`. So a text that accepts the keyword can be cut off and continued with it: the main
statement is `compilationUnit_unrejected`.
-/

namespace QueryLang

/-- What a token does to the splitting at the closing brace depends on nothing behind it. A closing
brace stops it where no further block is open; from any other token it goes on, with as many open
blocks as that leaves. -/
theorem splitAtClosingBrace_cons (opened : Nat) (token : Token) :
    (token.kind = .closeBraceToken ∧ opened = 0 ∧
      ∀ rest, splitAtClosingBrace opened (token :: rest) = ([], token :: rest)) ∨
    ∃ next, (∀ rest, splitAtClosingBrace opened (token :: rest) =
        (token :: (splitAtClosingBrace next rest).1, (splitAtClosingBrace next rest).2)) ∧
      next + (if token.kind = .closeBraceToken then 1 else 0) =
        opened + if token.kind = .openBraceToken then 1 else 0 := by
  by_cases isClose : token.kind = .closeBraceToken
  · have notOpen : token.kind ≠ .openBraceToken := by simp [isClose]
    cases opened with
    | zero => exact .inl ⟨isClose, rfl, fun rest => by simp [splitAtClosingBrace, isClose]⟩
    | succ opened =>
      refine .inr ⟨opened, fun rest => by simp [splitAtClosingBrace, isClose], ?_⟩
      rw [if_pos isClose, if_neg notOpen]
  · by_cases isOpen : token.kind = .openBraceToken
    · refine .inr ⟨opened + 1, fun rest => by simp [splitAtClosingBrace, isOpen], ?_⟩
      rw [if_neg isClose, if_pos isOpen]
    · refine .inr ⟨opened, fun rest => ?_, by rw [if_neg isClose, if_neg isOpen]⟩
      simp only [splitAtClosingBrace]
      split
      · next isKind => exact absurd isKind isClose
      · next isKind => exact absurd isKind isClose
      · next isKind => exact absurd isKind isOpen
      · rfl

/-- Splitting at the closing brace either stops within the front of the tokens, or goes on behind
it with as many open blocks as the front leaves open. -/
theorem splitAtClosingBrace_front (front : List Token) (opened : Nat) :
    (∃ loose left, left ≠ [] ∧ front = loose ++ left ∧ ∀ back,
      splitAtClosingBrace opened (front ++ back) = (loose, left ++ back)) ∨
    ∃ stillOpened, ∀ back, splitAtClosingBrace opened (front ++ back) =
      (front ++ (splitAtClosingBrace stillOpened back).1,
        (splitAtClosingBrace stillOpened back).2) := by
  induction front generalizing opened with
  | nil => exact .inr ⟨opened, fun back => rfl⟩
  | cons token rest ih =>
    rcases splitAtClosingBrace_cons opened token with ⟨_, _, stops⟩ | ⟨next, goesOn, _⟩
    · exact .inl ⟨[], token :: rest, List.cons_ne_nil _ _, rfl, fun back => stops (rest ++ back)⟩
    · rcases ih next with ⟨loose, left, isLeft, split, stops⟩ | ⟨stillOpened, goesOnBehind⟩
      · refine .inl ⟨token :: loose, left, isLeft, by rw [split, List.cons_append], fun back => ?_⟩
        rw [List.cons_append, goesOn, stops]
      · refine .inr ⟨stillOpened, fun back => ?_⟩
        rw [List.cons_append, goesOn, goesOnBehind]
        rfl

namespace Parser

variable {typed : TypedKeyword} {target : Token} {before : List Token} {state twin : ParseState}

/-- A piece of source at which a statement can follow: it accepts the keyword, or it is whole and
ends the text. -/
def Reaches (typed : TypedKeyword) (target : Token) (piece : ParseTree) : Prop :=
  piece.Accepts target typed.token.kind ∨ piece.EndsWith target

theorem not_reaches {piece : ParseTree} (free : target ∉ piece.tokens) :
    ¬Reaches typed target piece := by
  rintro (accepts | ends)
  · exact free accepts.mem_tokens
  · exact free ends.mem_tokens

/-! ### Content of blocks -/

/-- A parser of statements, or of what stands for them, meets the target. -/
abbrev CoupledContent (typed : TypedKeyword) (target : Token) (parser : Parser (List ParseTree)) :
    Prop :=
  Couples typed target parser id (fun _ => False)
    fun pieces => ∃ piece ∈ pieces, Reaches typed target piece

theorem no_reaches {pieces : List ParseTree} (free : ∀ piece ∈ pieces, target ∉ piece.tokens) :
    ¬∃ piece ∈ pieces, Reaches typed target piece := by
  rintro ⟨piece, isPiece, reaches⟩
  exact not_reaches (free piece isPiece) reaches

/-- The keyword is no brace. -/
theorem splitAtClosingBrace_keyword (typed : TypedKeyword) (opened : Nat) :
    splitAtClosingBrace opened [typed.token] = ([typed.token], []) := by
  rcases typed.kind with isKind | isKind | isKind <;> simp [splitAtClosingBrace, isKind]

theorem leads_looseTokens {loose rest : List Token}
    (split : splitAtClosingBrace 0 state.rest = (loose, rest))
    (post : List ParseTree → ParseState → Prop) :
    looseTokens.Leads state post ↔ post (loose.map .token) (state.advance loose rest) := by
  rw [looseTokens, leads_bind, leads_get, split]
  exact Iff.rfl

theorem coupledContent_looseTokens : CoupledContent typed target looseTokens where
  free free := ⟨id, no_reaches free⟩
  agrees kept := kept.looseTokens
  ahead {before state twin} ahead := by
    have left : state.rest = before ++ [target] ++ typed.instead := by simp [ahead.left]
    have right : twin.rest = before ++ [target] ++ [typed.token] := by simp [ahead.right]
    rcases splitAtClosingBrace_front (before ++ [target]) 0 with
      ⟨loose, kept, isKept, split, stops⟩ | ⟨opened, goesOn⟩
    · -- The brace is the target, or stands in front of it: both runs stop there.
      obtain ⟨between, rfl⟩ : ∃ between, kept = between ++ [target] := by
        rcases List.eq_nil_or_concat kept with rfl | ⟨between, last, rfl⟩
        · exact absurd rfl isKept
        · rw [List.concat_eq_append, ← List.append_assoc] at split
          exact ⟨between, by rw [List.concat_eq_append, (List.append_inj' split rfl).2]⟩
      rw [← List.append_assoc] at split
      obtain ⟨rfl, _⟩ := List.append_inj' split rfl
      have stopsLeft := stops typed.instead
      have stopsRight := stops [typed.token]
      rw [← left] at stopsLeft
      rw [← right] at stopsRight
      refine (leads_looseTokens stopsLeft _).mpr ((leads_looseTokens stopsRight _).mpr ?_)
      simp only [List.append_assoc, List.singleton_append]
      refine .ahead (by rw [id, ParseTree.tokensOfAll_map_token]) rfl id ?_ ahead.advance
      refine no_reaches fun piece isPiece isTarget => ?_
      obtain ⟨token, isLoose, rfl⟩ := List.mem_map.mp isPiece
      rw [← List.mem_singleton.mp isTarget] at isLoose
      exact ahead.notBefore (List.mem_append_left _ isLoose)
    · have goesOnLeft := goesOn typed.instead
      have goesOnRight := goesOn [typed.token]
      rw [← left] at goesOnLeft
      rw [← right, splitAtClosingBrace_keyword] at goesOnRight
      refine (leads_looseTokens goesOnLeft _).mpr ((leads_looseTokens goesOnRight _).mpr ?_)
      refine .past ⟨fun isLeft => ahead.notInstead ?_, ahead.notEnd⟩ False.elim
        fun _ => ahead.unrejected.advance ahead.endOfFile _
      rw [← splitAtClosingBrace_append opened typed.instead]
      exact List.mem_append_right _ isLeft

theorem takesKeyword_looseTokens : TakesKeyword typed looseTokens := by
  intro state ready
  have split : splitAtClosingBrace 0 state.rest = ([typed.token], []) := by
    rw [ready.rest, splitAtClosingBrace_keyword]
  exact (leads_looseTokens split _).mpr ready.advance

/-! ### Lists of statements -/

/-- Skips the current token where no more than `length` tokens were left before the statement that
was parsed, and none was consumed. -/
def skipWhereStuck (length : Nat) (parsed : ParseTree) : Parser (List ParseTree) := do
  if (← get).rest.length = length then
    return [parsed, ← bump]
  else
    return [parsed]

theorem recoveringStatement_eq (statement : Parser ParseTree) :
    recoveringStatement statement =
      get >>= fun state => statement >>= skipWhereStuck state.rest.length :=
  rfl

theorem skipWhereStuck_gives (length : Nat) (parsed : ParseTree) (state : ParseState) :
    (skipWhereStuck length parsed).Leads state fun new _ => ∃ rest, new = parsed :: rest := by
  rw [skipWhereStuck, leads_bind, leads_get]
  split
  · exact (leads_any _ _).bind fun skipped _ _ => ⟨[skipped], rfl⟩
  · exact ⟨[], rfl⟩

theorem skipWhereStuck_behind (length : Nat) (parsed : ParseTree) (behind : state.Behind target) :
    (skipWhereStuck length parsed).Leads state fun new after => after.Behind target ∧
      ∃ rest, new = parsed :: rest ∧ ∀ piece ∈ rest, target ∉ piece.tokens := by
  rw [skipWhereStuck, leads_bind, leads_get]
  split
  · refine (((kept_behind target).bump).leads behind).bind fun skipped after => ?_
    rintro ⟨isOther, behindAfter⟩
    refine ⟨behindAfter, [skipped], rfl, List.forall_mem_singleton.mpr fun isTarget => ?_⟩
    exact isOther target isTarget rfl
  · exact ⟨behind, [], rfl, List.forall_mem_nil _⟩

instance {length : Nat} {parsed : ParseTree} :
    KeepsHarmless typed (skipWhereStuck length parsed) := by
  unfold skipWhereStuck
  infer_instance

/-- The keyword is not skipped: before it there was at least one more token. -/
theorem skipWhereStuck_ready {length : Nat} (more : 1 < length) (parsed : ParseTree)
    (ready : state.Ready typed) :
    (skipWhereStuck length parsed).Leads state fun _ after => after.Ready typed := by
  have notStuck : [typed.token].length ≠ length := Nat.ne_of_lt more
  rw [skipWhereStuck, leads_bind, leads_get, ready.rest, if_neg notStuck]
  exact ready

/-- Where the target was consumed, skipping a token changes nothing. -/
theorem skipWhereStuck_past {parsed other : ParseTree} {start otherStart : ParseState}
    (length : Nat) {otherLength : Nat} (more : 1 < otherLength) (behind : state.Behind target)
    (ended : parsed.EndsWith target → twin.Ready typed ∨ twin.Harmless typed)
    (accepted : parsed.Accepts target typed.token.kind → twin.Harmless typed) :
    LeadBoth (skipWhereStuck length parsed) (skipWhereStuck otherLength other) state twin
      (Stepped typed target before (Reaches typed target) start otherStart) := by
  have keeps (harmless : twin.Harmless typed) : (skipWhereStuck otherLength other).Leads twin
      fun _ after => after.Harmless typed := KeepsHarmless.leads harmless
  have reached : (skipWhereStuck otherLength other).Leads twin fun _ after =>
      (parsed.EndsWith target → after.Ready typed ∨ after.Harmless typed) ∧
        (parsed.Accepts target typed.token.kind → after.Harmless typed) := by
    refine ⟨fun ends => ?_, fun accepts => keeps (accepted accepts)⟩
    rcases ended ends with ready | harmless
    · exact .inl (skipWhereStuck_ready more other ready)
    · exact .inr (keeps harmless)
  refine (skipWhereStuck_behind length parsed behind).mono ?_
  rintro _ after ⟨behindAfter, rest, rfl, free⟩
  refine ((skipWhereStuck_gives otherLength other twin).and reached).mono ?_
  rintro _ otherAfter ⟨⟨otherRest, rfl⟩, endedAfter, acceptedAfter⟩
  refine .pieces (.past behindAfter ?_ ?_) (.inr behindAfter)
  · rintro ⟨piece, isPiece, accepts | ends⟩
    · rcases List.mem_cons.mp isPiece with rfl | isRest
      · exact .inr (acceptedAfter accepts)
      · exact absurd accepts.mem_tokens (free piece isRest)
    · rcases List.mem_cons.mp isPiece with rfl | isRest
      · exact endedAfter ends
      · exact absurd ends.mem_tokens (free piece isRest)
  · rintro ⟨piece, isPiece, accepts⟩
    rcases List.mem_cons.mp isPiece with rfl | isRest
    · exact acceptedAfter accepts
    · exact absurd accepts.mem_tokens (free piece isRest)

section Statements

variable {statement : Parser ParseTree} (coupled : Coupled typed target statement)

include coupled

theorem recoveringStatement_ahead (ahead : state.Ahead typed target before twin) :
    LeadBoth (recoveringStatement statement) (recoveringStatement statement) state twin
      (Stepped typed target before (Reaches typed target) state twin) := by
  have length : state.rest.length = before.length + (typed.instead.length + 1) := by
    rw [ahead.left, List.length_append, List.length_cons]
  have otherLength : twin.rest.length = before.length + 2 := by
    rw [ahead.right, List.length_append, List.length_cons, List.length_singleton]
  rw [recoveringStatement_eq]
  refine .atState ?_
  refine LeadBoth.bind (coupled.ahead ahead) fun parsed other after otherAfter met => ?_
  cases met with
  | @ahead left split same notEnds notAccepts aheadAfter =>
    cases same
    have lengthAfter : after.rest.length = left.length + (typed.instead.length + 1) := by
      rw [aheadAfter.left, List.length_append, List.length_cons]
    have otherLengthAfter : otherAfter.rest.length = left.length + 2 := by
      rw [aheadAfter.right, List.length_append, List.length_cons, List.length_singleton]
    have total := congrArg List.length split
    rw [List.length_append, ParseTree.tokensOfAll_singleton] at total
    have met : Met typed target before (parsed.EndsWith target)
        (parsed.Accepts target typed.token.kind) [parsed] [parsed] after otherAfter :=
      .ahead split rfl notEnds notAccepts aheadAfter
    refine .atState ?_
    by_cases nothing : parsed.tokens.length = 0
    · rw [if_pos (by omega), if_pos (by omega)]
      refine ((met.next coupled_bump).and_left (bump_givesToken after)).bind ?_
      rintro skipped otherSkipped final otherFinal ⟨met, isToken⟩
      refine .pieces (met.or_accepts.recast rfl id ?_ ?_)
        (.inl (List.append_ne_nil_of_right_ne_nil _ (List.append_ne_nil_of_left_ne_nil isToken _)))
      · rintro ⟨piece, isPiece, reaches⟩
        rcases List.mem_cons.mp isPiece with rfl | isSkipped
        · exact absurd reaches (not_or.mpr ⟨notAccepts, notEnds⟩)
        · rw [List.mem_singleton.mp isSkipped] at reaches
          exact reaches.elim (fun accepts => .inr (.inr accepts)) .inl
      · rintro ⟨piece, isPiece, accepts⟩
        rcases List.mem_cons.mp isPiece with rfl | isSkipped
        · exact .inl accepts
        · exact .inr (List.mem_singleton.mp isSkipped ▸ accepts)
    · rw [if_neg (by omega), if_neg (by omega)]
      refine .pieces (met.or_accepts.recast rfl id ?_ of_exists_mem_singleton) (.inl ?_)
      · exact fun any => (of_exists_mem_singleton any).symm
      · rw [ParseTree.tokensOfAll_singleton]
        exact fun isEmpty => nothing (congrArg List.length isEmpty)
  | past behind ended accepted =>
    exact skipWhereStuck_past _ (by omega) behind ended accepted

omit coupled in
theorem takesKeyword_recoveringStatement (takes : TakesKeyword typed statement) :
    TakesKeyword typed (recoveringStatement statement) := by
  intro state ready
  rw [recoveringStatement_eq, leads_bind, leads_get]
  exact takes.bind state ready

variable (takes : TakesKeyword typed statement)

include takes

omit coupled in
theorem takesKeyword_blockStatement : TakesKeyword typed (blockStatement statement) := by
  intro state ready
  rw [blockStatement, leads_bind, leads_current, ready.current_eq]
  rcases typed.kind with isKind | isKind | isKind <;> rw [isKind] <;>
    exact takesKeyword_recoveringStatement takes state ready

omit coupled in
theorem takesKeyword_fileStatement : TakesKeyword typed (fileStatement statement) := by
  intro state ready
  rw [fileStatement, leads_bind, leads_current, ready.current_eq]
  rcases typed.kind with isKind | isKind | isKind <;> rw [isKind] <;>
    exact takesKeyword_recoveringStatement takes state ready

theorem repeats_blockStatement :
    Repeats typed target (blockStatement statement) (Reaches typed target) where
  free := not_reaches
  agrees kept := kept.blockStatement (coupled.agree kept)
  ahead ahead := by
    refine .atCurrent ahead ?_
    split
    · exact .stop
    · exact .stop
    · exact recoveringStatement_ahead coupled ahead
  takes _ _ := takesKeyword_blockStatement takes

theorem repeats_fileStatement :
    Repeats typed target (fileStatement statement) (Reaches typed target) where
  free := not_reaches
  agrees kept := kept.fileStatement (coupled.agree kept)
  ahead ahead := by
    refine .atCurrent ahead ?_
    split
    · exact .stop
    · exact recoveringStatement_ahead coupled ahead
  takes _ _ := takesKeyword_fileStatement takes

end Statements

/-! ### Blocks -/

/-- A block accepts the keyword behind its opening brace, and where its content is reached. -/
theorem accepts_block {openBrace closeBrace : ParseTree} {content : List ParseTree}
    (accepts : (ParseTree.node .block ([openBrace] ++ content ++ [closeBrace])).Accepts target
      typed.token.kind) :
    (AnyAccepts typed target [openBrace] ∨ True ∧ openBrace.EndsWith target ∨
        ∃ piece ∈ content, Reaches typed target piece) ∨
      closeBrace.Accepts target typed.token.kind := by
  cases accepts with
  | inside isNode isChild accepts =>
    rw [(ParseTree.isNode_node_iff.mp isNode).2] at isChild
    simp only [List.mem_append, List.mem_singleton] at isChild
    rcases isChild with (rfl | isContent) | rfl
    · exact .inl (.inl ⟨_, List.mem_singleton_self _, accepts⟩)
    · exact .inl (.inr (.inr ⟨_, isContent, .inl accepts⟩))
    · exact .inr accepts
  | @statement _ _ front child more last isNode _ ends =>
    have isAll := (ParseTree.isNode_node_iff.mp isNode).2
    rw [← List.cons_append, ← List.append_assoc] at isAll
    have isChild : child ∈ [openBrace] ++ content := by
      rw [← (List.append_inj' isAll rfl).1]
      exact List.mem_append_right _ (List.mem_cons_self ..)
    rcases List.mem_append.mp isChild with isOpen | isContent
    · exact .inl (.inr (.inl ⟨trivial, List.mem_singleton.mp isOpen ▸ ends⟩))
    · exact .inl (.inr (.inr ⟨child, isContent, .inr ends⟩))
  | conclusion isNode | body isNode => cases (ParseTree.isNode_node_iff.mp isNode).1
  | value isNode _ isYield =>
    obtain ⟨rfl, _⟩ := ParseTree.isNode_node_iff.mp isNode
    rcases isYield with isYield | isYield <;> cases isYield

theorem coupled_blockOf {content : Parser (List ParseTree)}
    (coupled : CoupledContent typed target content) (takes : TakesKeyword typed content) :
    Coupled typed target (blockOf content) := by
  refine .of (fun kept => kept.blockOf (coupled.agrees kept)) fun {before state twin} ahead =>
    .atCurrent ahead ?_
  split
  · refine ((Met.start ahead).piece coupled_bump).bind fun _ _ _ _ met => ?_
    refine (met.through coupled (fun _ : True => takes) False.elim).bind fun _ _ _ _ met => ?_
    refine (met.next (coupled_expect _)).bind fun _ _ _ _ met => ?_
    exact met.around .of_node accepts_block
  · refine (expect_absent ahead ‹_›).bind ?_
    rintro _ _ after otherAfter ⟨rfl, rfl, aheadAfter⟩
    have free : target ∉
        (ParseTree.node .block [.missing .openBraceToken, .missing .closeBraceToken]).tokens :=
      List.not_mem_nil
    exact .ahead rfl rfl (free ·.mem_tokens) (free ·.mem_tokens) aheadAfter

/-! ### Statements -/

section Statements

variable {inner block : Parser ParseTree} (coupled : Coupled typed target inner)
  (coupledBlock : Coupled typed target block)

include coupled

theorem coupled_localDeclaration : Coupled typed target (localDeclaration inner) := by
  refine .of (fun kept => kept.localDeclaration (coupled.agree kept)) fun ahead => ?_
  refine ((Met.start ahead).piece coupled_bump).bind fun _ _ _ _ met => ?_
  refine (met.piece (coupled_expect _)).bind fun _ _ _ _ met => ?_
  refine (met.piece (coupled_expect _)).bind fun _ _ _ _ met => ?_
  refine (met.piece coupled).bind fun _ _ _ _ met => ?_
  refine (met.piece (coupled_expect _)).bind fun _ _ _ _ met => ?_
  exact met.node (by decide)

omit coupled in
variable (inner) in
/-- The value of a `return`, if there is one. -/
def returnedValue : Parser (List ParseTree) := do
  if (← current) = .semicolonToken then
    return []
  else
    return [← inner]

omit coupled in
theorem returnStatement_eq : returnStatement inner = (do
    let keyword ← bump
    let value ← returnedValue inner
    let semicolon ← expect .semicolonToken
    return .node .returnStatement ([keyword] ++ value ++ [semicolon])) := by
  refine bind_congr fun keyword => ?_
  rw [returnedValue, bind_assoc]
  refine bind_congr fun kind => ?_
  split
  · rfl
  · rfl

theorem coupledAll_returnedValue : CoupledAll typed target (returnedValue inner) where
  free free := by
    refine ⟨id, ?_⟩
    rintro ⟨piece, isPiece, accepts⟩
    exact free piece isPiece accepts.mem_tokens
  agrees kept := kept.atCurrent fun kind => .ite (.pure .nil)
    ((coupled.agree kept).bind fun _ _ value => .pure (.cons value .nil))
  ahead ahead := by
    refine .atCurrent ahead ?_
    split
    · exact Met.start ahead
    · refine ((Met.start ahead).piece coupled).bind fun _ _ _ _ met => ?_
      exact met.recast rfl id False.elim id

theorem coupled_returnStatement : Coupled typed target (returnStatement inner) := by
  refine .of (fun kept => kept.returnStatement (coupled.agree kept)) fun ahead => ?_
  rw [returnStatement_eq]
  refine ((Met.start ahead).piece coupled_bump).bind fun _ _ _ _ met => ?_
  refine (met.more (coupledAll_returnedValue coupled)).bind fun _ _ _ _ met => ?_
  refine (met.piece (coupled_expect _)).bind fun _ _ _ _ met => ?_
  exact met.node (by decide)

theorem coupled_expressionStatement : Coupled typed target (expressionStatement inner) := by
  refine .of (fun kept => kept.expressionStatement (coupled.agree kept)) fun ahead => ?_
  refine ((Met.start ahead).piece coupled).bind fun _ _ _ _ met => ?_
  refine (met.piece (coupled_expect _)).bind fun _ _ _ _ met => ?_
  exact met.node (by decide)

include coupledBlock in
theorem coupled_doStatement : Coupled typed target (doStatement block inner) := by
  refine .of (fun kept => kept.doStatement (coupled.agree kept) (coupledBlock.agree kept))
    fun ahead => ?_
  refine (checkFeature_ahead ahead _).bind fun _ _ _ _ ahead => ?_
  refine ((Met.start ahead).piece coupled_bump).bind fun _ _ _ _ met => ?_
  refine (met.piece coupledBlock).bind fun _ _ _ _ met => ?_
  refine (met.piece (coupled_expect _)).bind fun _ _ _ _ met => ?_
  refine (met.piece (coupled_expect _)).bind fun _ _ _ _ met => ?_
  refine (met.piece coupled).bind fun _ _ _ _ met => ?_
  refine (met.piece (coupled_expect _)).bind fun _ _ _ _ met => ?_
  refine (met.piece (coupled_expect _)).bind fun _ _ _ _ met => ?_
  exact met.node (by decide)

/-! ### Statements with `yield` -/

omit coupled in
/-- `yield break;`. -/
def yieldBreak : Parser ParseTree := do
  let yieldKeyword ← bump
  let breakKeyword ← bump
  let semicolon ← expect .semicolonToken
  return .node .yieldBreakStatement [yieldKeyword, breakKeyword, semicolon]

omit coupled in
variable (inner) in
/-- `yield return expression;`. -/
def yieldReturn : Parser ParseTree := do
  let yieldKeyword ← bump
  let returnKeyword ← expect .returnKeyword
  let value ← inner
  let semicolon ← expect .semicolonToken
  return .node .yieldReturnStatement [yieldKeyword, returnKeyword, value, semicolon]

omit coupled in
theorem yieldStatement_eq : yieldStatement inner = get >>= fun state =>
    if state.following = .breakKeyword then yieldBreak else yieldReturn inner :=
  rfl

omit coupled in
/-- A statement with `yield` accepts `return` behind that keyword. -/
theorem accepts_yield {kind : Kind} {first : ParseTree} {rest : List ParseTree}
    (isYield : kind = .yieldReturnStatement ∨ kind = .yieldBreakStatement)
    (accepts : (ParseTree.node kind (first :: rest)).Accepts target typed.token.kind) :
    AnyAccepts typed target (first :: rest) ∨
      first = .token target ∧ typed.token.kind = .returnKeyword := by
  cases accepts with
  | inside isNode isChild accepts =>
    exact .inl ⟨_, (ParseTree.isNode_node_iff.mp isNode).2 ▸ isChild, accepts⟩
  | statement isNode holds =>
    obtain ⟨rfl, _⟩ := ParseTree.isNode_node_iff.mp isNode
    rcases isYield with rfl | rfl <;> rcases holds with holds | holds <;> cases holds
  | conclusion isNode | body isNode =>
    obtain ⟨rfl, _⟩ := ParseTree.isNode_node_iff.mp isNode
    rcases isYield with isYield | isYield <;> cases isYield
  | value isNode isReturn =>
    cases (ParseTree.isNode_node_iff.mp isNode).2
    exact .inr ⟨rfl, isReturn⟩

omit coupled in
/-- The `yield` of a statement stands in front of the target. -/
theorem bump_first {token : Token} (ahead : state.Ahead typed target (token :: before) twin) :
    LeadBoth bump bump state twin fun first other after otherAfter => first ≠ .token target ∧
      Met typed target (token :: before) (first.EndsWith target) (AnyAccepts typed target [first])
        [first] [other] after otherAfter := by
  have notTarget : bump.Leads state fun first _ => first ≠ .token target := by
    refine (leads_bump ahead.left _).mpr ?_
    rintro ⟨⟩
    exact ahead.notBefore (List.mem_cons_self ..)
  refine (((Met.start ahead).piece coupled_bump).and_left notTarget).mono ?_
  exact fun _ _ _ _ ⟨met, other⟩ => ⟨other, met⟩

omit coupled in
theorem yieldBreak_ahead {token : Token} (ahead : state.Ahead typed target (token :: before) twin) :
    LeadBoth yieldBreak yieldBreak state twin fun piece other =>
      Met typed target (token :: before) (piece.EndsWith target)
        (piece.Accepts target typed.token.kind) [piece] [other] := by
  refine (bump_first ahead).bind fun first _ _ _ ⟨notTarget, met⟩ => ?_
  refine (met.piece coupled_bump).bind fun _ _ _ _ met => ?_
  refine (met.piece (coupled_expect _)).bind fun _ _ _ _ met => ?_
  refine met.around .of_node fun accepts => ?_
  exact (accepts_yield (.inr rfl) accepts).resolve_right fun isFirst => notTarget isFirst.1

theorem yieldReturn_ahead {token : Token} (ahead : state.Ahead typed target (token :: before) twin) :
    LeadBoth (yieldReturn inner) (yieldReturn inner) state twin fun piece other =>
      Met typed target (token :: before) (piece.EndsWith target)
        (piece.Accepts target typed.token.kind) [piece] [other] := by
  refine (bump_first ahead).bind fun first _ _ _ ⟨notTarget, met⟩ => ?_
  refine (met.piece (coupled_expect _)).bind fun _ _ _ _ met => ?_
  refine (met.piece coupled).bind fun _ _ _ _ met => ?_
  refine (met.piece (coupled_expect _)).bind fun _ _ _ _ met => ?_
  refine met.around .of_node fun accepts => ?_
  exact (accepts_yield (.inl rfl) accepts).resolve_right fun isFirst => notTarget isFirst.1

omit coupled in
theorem bump_atTarget (ahead : state.Ahead typed target [] twin) : bump.Leads state
    fun piece after => piece = .token target ∧ after.Behind target :=
  (leads_bump ahead.left _).mpr ⟨rfl, ahead.notInstead, ahead.notEnd⟩

/-- Where the target is the `yield` of a statement, the rest of that is behind it. -/
theorem yieldStatement_atTarget (ahead : state.Ahead typed target [] twin) :
    (yieldStatement inner).Leads state fun piece after => after.Behind target ∧
      ∃ kind more last, (kind = .yieldReturnStatement ∨ kind = .yieldBreakStatement) ∧
        piece = .node kind (.token target :: (more ++ [last])) ∧
        ∀ part ∈ more ++ [last], target ∉ part.tokens := by
  have token : Coupled typed target bump := coupled_bump
  have expected (kind : Kind) : Coupled typed target (expect kind) := coupled_expect kind
  rw [yieldStatement_eq, leads_bind, leads_get]
  split
  · refine (bump_atTarget ahead).bind ?_
    rintro _ after ⟨rfl, behind⟩
    refine (token.behind behind).bind fun breakKeyword after ⟨freeBreak, behind⟩ => ?_
    refine ((expected _).behind behind).bind fun semicolon after ⟨freeSemicolon, behind⟩ => ?_
    exact ⟨behind, _, [breakKeyword], semicolon, .inr rfl, rfl,
      List.forall_mem_append.mpr ⟨freeBreak, freeSemicolon⟩⟩
  · refine (bump_atTarget ahead).bind ?_
    rintro _ after ⟨rfl, behind⟩
    refine ((expected _).behind behind).bind fun returnKeyword after ⟨freeReturn, behind⟩ => ?_
    refine (coupled.behind behind).bind fun value after ⟨freeValue, behind⟩ => ?_
    refine ((expected _).behind behind).bind fun semicolon after ⟨freeSemicolon, behind⟩ => ?_
    exact ⟨behind, _, [returnKeyword, value], semicolon, .inl rfl, rfl,
      List.forall_mem_append.mpr ⟨List.forall_mem_append.mpr ⟨freeReturn, freeValue⟩, freeSemicolon⟩⟩

/-- In the cut text `return` comes next. -/
theorem yieldStatement_takes (ahead : state.Ahead typed target [] twin)
    (isReturn : typed.token.kind = .returnKeyword) :
    (yieldStatement inner).Leads twin fun _ after => after.Harmless typed := by
  have notBreak : twin.following ≠ .breakKeyword := by
    rw [ParseState.following, ahead.right]
    show typed.token.kind ≠ .breakKeyword
    rw [isReturn]
    decide
  have keeps : KeepsHarmless typed inner := .ofAgree (coupled.agree (kept_harmless typed))
  have takes : TakesKeyword typed (expect .returnKeyword) := isReturn ▸ TakesKeyword.expect
  rw [yieldStatement_eq, leads_bind, leads_get, if_neg notBreak]
  refine Leads.bind ((leads_bump ahead.right _).mpr ?_) fun _ after ready => takes.bind after ready
  exact ⟨rfl, ahead.unrejected, ahead.endOfFile⟩

theorem coupled_yieldStatement : Coupled typed target (yieldStatement inner) := by
  refine .of (fun kept => kept.yieldStatement (coupled.agree kept)) fun {before state twin} ahead => ?_
  cases before with
  | nil =>
    refine (yieldStatement_atTarget coupled ahead).mono ?_
    rintro _ after ⟨behind, kind, more, last, isYield, rfl, free⟩
    have taken : (yieldStatement inner).Leads twin fun _ otherAfter =>
        typed.token.kind = .returnKeyword → otherAfter.Harmless typed :=
      fun isReturn => yieldStatement_takes coupled ahead isReturn
    refine taken.mono fun other otherAfter harmless => .past behind (fun ends => ?_) fun accepts => ?_
    · rw [← List.cons_append] at ends
      exact absurd ends.of_node.mem_tokens (free last (by simp))
    · rcases accepts_yield isYield accepts with ⟨child, isChild, accepts⟩ | ⟨_, isReturn⟩
      · rcases List.mem_cons.mp isChild with rfl | isLater
        · exact absurd accepts ParseTree.not_accepts_token
        · exact absurd accepts.mem_tokens (free child isLater)
      · exact harmless isReturn
  | cons token rest =>
    have sameFollowing : twin.following = state.following := by
      rw [ParseState.following, ParseState.following, ahead.left, ahead.right]
      cases rest <;> rfl
    rw [yieldStatement_eq]
    refine .atState ?_
    rw [sameFollowing]
    split
    · exact yieldBreak_ahead ahead
    · exact yieldReturn_ahead coupled ahead

/-! ### Files -/

include coupledBlock in
theorem coupled_statementOf : Coupled typed target (statementOf block inner) := by
  refine .of (fun kept => kept.statementOf (coupled.agree kept) (coupledBlock.agree kept))
    fun ahead => .atCurrent ahead ?_
  split
  · exact coupledBlock.ahead ahead
  · exact (coupled_localDeclaration coupled).ahead ahead
  · exact (coupled_returnStatement coupled).ahead ahead
  · exact (coupled_yieldStatement coupled).ahead ahead
  · exact (coupled_doStatement coupled coupledBlock).ahead ahead
  · exact (coupled_expressionStatement coupled).ahead ahead

omit coupled in
/-- Each of the keywords starts a statement. -/
theorem takesKeyword_statementOf [KeepsHarmless typed inner] [KeepsHarmless typed block] :
    TakesKeyword typed (statementOf block inner) := by
  intro state ready
  rw [statementOf, leads_bind, leads_current, ready.current_eq]
  rcases typed.kind with isDo | isReturn | isYield
  · rw [isDo]
    exact TakesKeyword.bump.bind.checkFeature _ _ ready
  · rw [isReturn]
    have keepsValue : KeepsHarmless typed (returnedValue inner) := by
      unfold returnedValue
      infer_instance
    show (returnStatement inner).Leads state _
    rw [returnStatement_eq]
    exact TakesKeyword.bump.bind _ ready
  · rw [isYield]
    show (yieldStatement inner).Leads state _
    rw [yieldStatement_eq, leads_bind, leads_get]
    split
    · exact TakesKeyword.bump.bind _ ready
    · exact TakesKeyword.bump.bind _ ready

end Statements

theorem coupled_block (levels : Nat) : Coupled typed target (block levels) := by
  induction levels with
  | zero =>
    refine coupled_blockOf ?_ (takesKeyword_looseTokens.reportTooDeep)
    refine { coupledContent_looseTokens with
      agrees := fun kept => kept.reportTooDeep.bind fun _ _ _ => kept.looseTokens
      ahead := fun ahead => ?_ }
    exact (reportTooDeep_ahead ahead).bind fun _ _ _ _ ahead => coupledContent_looseTokens.ahead ahead
  | succ levels ih =>
    have repeats := repeats_blockStatement (coupled_statementOf (coupled_expression levels) ih)
      takesKeyword_statementOf
    have keeps := repeats.keepsHarmless
    exact coupled_blockOf repeats.many (takesKeyword_blockStatement takesKeyword_statementOf).many

theorem repeats_statement (levels : Nat) :
    Repeats typed target (fileStatement (statement levels)) (Reaches typed target) :=
  repeats_fileStatement (coupled_statementOf (coupled_expression levels) (coupled_block levels))
    takesKeyword_statementOf

/-- A file accepts the keyword where its statements are reached. -/
theorem accepts_compilationUnit {statements : List ParseTree} {endOfFile : ParseTree}
    (accepts : (ParseTree.node .compilationUnit (statements ++ [endOfFile])).Accepts target
      typed.token.kind) :
    (∃ piece ∈ statements, Reaches typed target piece) ∨
      endOfFile.Accepts target typed.token.kind := by
  cases accepts with
  | @inside _ _ _ child isNode isChild accepts =>
    rw [(ParseTree.isNode_node_iff.mp isNode).2] at isChild
    rcases List.mem_append.mp isChild with isStatement | isLast
    · exact .inl ⟨child, isStatement, .inl accepts⟩
    · exact .inr (List.mem_singleton.mp isLast ▸ accepts)
  | @statement _ _ front child more last isNode _ ends =>
    have isAll := (ParseTree.isNode_node_iff.mp isNode).2
    rw [← List.cons_append, ← List.append_assoc] at isAll
    refine .inl ⟨child, ?_, .inr ends⟩
    rw [← (List.append_inj' isAll rfl).1]
    exact List.mem_append_right _ (List.mem_cons_self ..)
  | conclusion isNode | body isNode => cases (ParseTree.isNode_node_iff.mp isNode).1
  | value isNode _ isYield =>
    obtain ⟨rfl, _⟩ := ParseTree.isNode_node_iff.mp isNode
    rcases isYield with isYield | isYield <;> cases isYield

theorem coupled_compilationUnit : Coupled typed target compilationUnit := by
  refine .of (·.compilationUnit) fun ahead => ?_
  refine ((repeats_statement _).many.ahead ahead).bind fun _ _ _ _ met => ?_
  refine (met.next coupled_bump).bind fun _ _ _ _ met => ?_
  exact met.around .of_node accepts_compilationUnit

/-- A file that accepts the keyword can be cut off behind the target and continued with it. -/
theorem compilationUnit_unrejected (ahead : state.Ahead typed target before twin) :
    compilationUnit.Leads state fun shape _ => shape.Accepts target typed.token.kind →
      compilationUnit.Leads twin fun _ after => after.Unrejected typed := by
  have both : LeadBoth compilationUnit compilationUnit state twin fun shape _ _ otherAfter =>
      shape.Accepts target typed.token.kind → otherAfter.Unrejected typed := by
    refine (coupled_compilationUnit.ahead ahead).mono fun shape other after otherAfter met accepts => ?_
    cases met with
    | ahead _ _ _ notAccepts _ => exact absurd accepts notAccepts
    | past _ _ accepted => exact (accepted accepts).unrejected
  exact both

/-- A file can start with the keyword. -/
theorem takesKeyword_compilationUnit : TakesKeyword typed compilationUnit := by
  have agree := (kept_harmless typed).fileStatement ((kept_harmless typed).statement nestingLimit)
  have keeps (limit : Nat) :
      KeepsHarmless typed (manyWithin (fileStatement (statement nestingLimit)) limit) :=
    .ofAgree (agree.manyWithin limit)
  have keepsMany : KeepsHarmless typed (many (fileStatement (statement nestingLimit))) :=
    .ofAgree ((kept_harmless typed).many agree)
  have takes : TakesKeyword typed (statement nestingLimit) := takesKeyword_statementOf
  exact (takesKeyword_fileStatement takes).many.bind

end Parser

end QueryLang
