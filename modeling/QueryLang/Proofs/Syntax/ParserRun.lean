import QueryLang.Proofs.Syntax.Braced
import QueryLang.Proofs.Syntax.Gaps
import QueryLang.Proofs.Syntax.Grouped
import QueryLang.Proofs.Syntax.Sourced
import QueryLang.Syntax.Parser.Basic

/-!
# Running parsers

`Parser.Leads` says where running a parser leads to. `ParsedAll` relates the states around parsed
pieces of source: the pieces are formed, they hold exactly the tokens that were consumed, what was
reported before is still reported, the optional constructs in the pieces were screened, the
operators in them are grouped, their expressions are sourced, and the gaps in them were reported.
Whatever damages the pieces was reported as an error, and so was too deep nesting unless the pieces
are braced.

The repetitions `many` and `grow` are governed by an invariant of one step each. Their bounds are
never the reason why they stop.
-/

namespace QueryLang

namespace Parser

variable {α β : Type}

/-- Running the parser from a state gives a value and a state of which `post` holds. -/
def Leads (parser : Parser α) (state : ParseState) (post : α → ParseState → Prop) : Prop :=
  let result : α × ParseState := parser.run state
  post result.1 result.2

@[simp]
theorem leads_pure (value : α) (state : ParseState) (post : α → ParseState → Prop) :
    Leads (pure value) state post ↔ post value state :=
  Iff.rfl

@[simp]
theorem leads_bind (parser : Parser α) (next : α → Parser β) (state : ParseState)
    (post : β → ParseState → Prop) :
    Leads (parser >>= next) state post ↔
      parser.Leads state fun value after => (next value).Leads after post :=
  Iff.rfl

@[simp]
theorem leads_get (state : ParseState) (post : ParseState → ParseState → Prop) :
    Leads get state post ↔ post state state :=
  Iff.rfl

@[simp]
theorem leads_set (next state : ParseState) (post : PUnit → ParseState → Prop) :
    Leads (set next) state post ↔ post ⟨⟩ next :=
  Iff.rfl

@[simp]
theorem leads_modify (change : ParseState → ParseState) (state : ParseState)
    (post : PUnit → ParseState → Prop) :
    Leads (modify change) state post ↔ post ⟨⟩ (change state) :=
  Iff.rfl

@[simp]
theorem leads_current (state : ParseState) (post : Kind → ParseState → Prop) :
    Leads current state post ↔ post state.current state :=
  Iff.rfl

theorem leads_bump {state : ParseState} {token : Token} {rest : List Token}
    (left : state.rest = token :: rest) (post : ParseTree → ParseState → Prop) :
    Leads bump state post ↔ post (.token token) (state.advance [token] rest) := by
  rw [bump, leads_bind, leads_get, left]
  exact Iff.rfl

theorem Leads.mono {parser : Parser α} {state : ParseState} {post weaker : α → ParseState → Prop}
    (leads : parser.Leads state post)
    (weaken : ∀ value after, post value after → weaker value after) :
    parser.Leads state weaker :=
  weaken _ _ leads

theorem Leads.and {parser : Parser α} {state : ParseState} {left right : α → ParseState → Prop}
    (leadsLeft : parser.Leads state left) (leadsRight : parser.Leads state right) :
    parser.Leads state fun value after => left value after ∧ right value after :=
  ⟨leadsLeft, leadsRight⟩

/-- Runs the first of two steps. -/
theorem Leads.bind {parser : Parser α} {next : α → Parser β} {state : ParseState}
    {middle : α → ParseState → Prop} {post : β → ParseState → Prop}
    (leads : parser.Leads state middle)
    (rest : ∀ value after, middle value after → (next value).Leads after post) :
    (parser >>= next).Leads state post :=
  rest _ _ leads

/-! ### Repetition -/

/-- A repetition keeps the invariant of its step, and ends where the step gives nothing. -/
theorem many_leads {step : Parser (List ParseTree)}
    (invariant : List ParseTree → ParseState → Prop)
    {post : List ParseTree → ParseState → Prop}
    (stepLeads : ∀ pieces state, invariant pieces state → step.Leads state fun new after =>
      new = [] ∧ after = state ∧ post pieces state ∨
        new ≠ [] ∧ after.rest.length < state.rest.length ∧ invariant (pieces ++ new) after)
    {state : ParseState} (start : invariant [] state) : (many step).Leads state post := by
  have within : ∀ limit pieces state, state.rest.length ≤ limit → invariant pieces state →
      (manyWithin step limit).Leads state fun new after => post (pieces ++ new) after := by
    intro limit
    induction limit with
    | zero =>
        intro pieces state bound holds
        rcases stepLeads pieces state holds with ⟨_, _, done⟩ | ⟨_, progress, _⟩
        · simpa [manyWithin] using done
        · omega
    | succ limit ih =>
        intro pieces state bound holds
        rw [manyWithin]
        refine Leads.bind (stepLeads pieces state holds) ?_
        rintro new after (⟨rfl, rfl, done⟩ | ⟨notEmpty, progress, kept⟩)
        · simpa using done
        · cases new with
          | nil => exact absurd rfl notEmpty
          | cons first others =>
              refine Leads.bind (ih _ after (by omega) kept) ?_
              intro more final holdsFinal
              simpa using holdsFinal
  rw [many, leads_bind, leads_get]
  simpa using within state.rest.length [] state (Nat.le_refl _) start

/-- Growing a piece keeps the invariant of its step, and ends where the step grows it no more. -/
theorem grow_leads {step : ParseTree → Parser (Option ParseTree)}
    (invariant : ParseTree → ParseState → Prop) {post : ParseTree → ParseState → Prop}
    (stepLeads : ∀ piece state, invariant piece state → (step piece).Leads state fun grown after =>
      grown = none ∧ after = state ∧ post piece state ∨
        ∃ larger, grown = some larger ∧ after.rest.length < state.rest.length ∧
          invariant larger after)
    {piece : ParseTree} {state : ParseState} (start : invariant piece state) :
    (grow step piece).Leads state post := by
  have within : ∀ limit piece state, state.rest.length ≤ limit → invariant piece state →
      (growWithin step limit piece).Leads state post := by
    intro limit
    induction limit with
    | zero =>
        intro piece state bound holds
        rcases stepLeads piece state holds with ⟨_, _, done⟩ | ⟨_, _, progress, _⟩
        · simpa [growWithin] using done
        · omega
    | succ limit ih =>
        intro piece state bound holds
        rw [growWithin]
        refine Leads.bind (stepLeads piece state holds) ?_
        rintro grown after (⟨rfl, rfl, done⟩ | ⟨larger, rfl, progress, kept⟩)
        · simpa using done
        · exact ih larger after (by omega) kept
  rw [grow, leads_bind, leads_get]
  exact within state.rest.length piece state (Nat.le_refl _) start

end Parser

namespace ParseState

/-- Something about the source was reported as an error. -/
def Damaged (state : ParseState) : Prop :=
  state.diagnostics.hasErrors = true

/-- Too deep nesting was reported. -/
def TooDeep (state : ParseState) : Prop :=
  ∃ diagnostic ∈ state.diagnostics, diagnostic.code = DiagnosticMessage.tooDeeplyNested.code

/-- What holds wherever parsing stands. -/
structure Sound (state : ParseState) : Prop where
  endOfFile_kind : state.endOfFile.kind = .endOfFileToken
  rest_kind : ∀ token ∈ state.rest, token.kind ≠ .endOfFileToken
  unknown_reported : ∀ token ∈ state.rest, token.kind = .unknown → state.Damaged
  tooDeep_reported : state.reportedTooDeep = true → state.Damaged ∧ state.TooDeep

theorem damaged_report (state : ParseState) (span : Span) {message : DiagnosticMessage}
    (isError : message.category = .error) (arguments : List String) :
    (state.report span message arguments).Damaged := by
  simp [Damaged, report, Diagnostics.hasErrors, Diagnostic.isError, Diagnostic.located,
    Diagnostic.ofMessage, isError]

theorem damaged_mono {before after : ParseState}
    (reported : before.diagnostics <+: after.diagnostics) (damaged : before.Damaged) :
    after.Damaged := by
  rcases reported with ⟨new, equal⟩
  simp only [Damaged, Diagnostics.hasErrors] at damaged ⊢
  rw [← equal, List.any_append, damaged, Bool.true_or]

theorem tooDeep_mono {before after : ParseState}
    (reported : before.diagnostics <+: after.diagnostics) (tooDeep : before.TooDeep) :
    after.TooDeep := by
  rcases tooDeep with ⟨diagnostic, member, isTooDeep⟩
  exact ⟨diagnostic, reported.subset member, isTooDeep⟩

theorem current_of_rest_cons {state : ParseState} {token : Token} {rest : List Token}
    (standing : state.rest = token :: rest) : state.current = token.kind := by
  simp [current, currentToken, standing]

/-- What was reported is still reported after a report, -/
theorem reported_report (state : ParseState) (span : Span) (message : DiagnosticMessage)
    (arguments : List String) :
    state.diagnostics <+: (state.report span message arguments).diagnostics :=
  List.prefix_append _ _

/-- and nothing else changes. -/
theorem Sound.report {state : ParseState} (sound : state.Sound) (span : Span)
    (message : DiagnosticMessage) (arguments : List String) :
    (state.report span message arguments).Sound where
  endOfFile_kind := sound.endOfFile_kind
  rest_kind := sound.rest_kind
  unknown_reported := fun token member isUnknown =>
    damaged_mono (state.reported_report span message arguments)
      (sound.unknown_reported token member isUnknown)
  tooDeep_reported := fun isReported =>
    have reported := state.reported_report span message arguments
    (sound.tooDeep_reported isReported).imp (damaged_mono reported)
      (tooDeep_mono reported)

/-- A token that was expected damages the source, -/
theorem damaged_expected (state : ParseState) (kind : Kind) : (state.expected kind).Damaged := by
  have isError :
      (Diagnostic.expectation state.file (kind, .empty state.lastEnd)).isError = true := by
    rw [Diagnostic.expectation]
    split
    · rfl
    · rfl
  simp [Damaged, expected, Diagnostics.hasErrors, isError]

/-- and nothing else changes. -/
theorem Sound.expected {state : ParseState} (sound : state.Sound) (kind : Kind) :
    (state.expected kind).Sound where
  endOfFile_kind := sound.endOfFile_kind
  rest_kind := sound.rest_kind
  unknown_reported := fun _ _ _ => state.damaged_expected kind
  tooDeep_reported := fun isReported =>
    ⟨state.damaged_expected kind,
      tooDeep_mono (List.prefix_append _ _) (sound.tooDeep_reported isReported).2⟩

/-! ### Checked features -/

theorem rest_checked (state : ParseState) (feature : Features) :
    (state.checked feature).rest = state.rest := by
  rw [checked]
  split
  · rfl
  · rfl

theorem endOfFile_checked (state : ParseState) (feature : Features) :
    (state.checked feature).endOfFile = state.endOfFile := by
  rw [checked]
  split
  · rfl
  · rfl

theorem currentToken_checked (state : ParseState) (feature : Features) :
    (state.checked feature).currentToken = state.currentToken := by
  rw [currentToken, currentToken, rest_checked, endOfFile_checked]

theorem lastEnd_checked (state : ParseState) (feature : Features) :
    (state.checked feature).lastEnd = state.lastEnd := by
  rw [checked]
  split
  · rfl
  · rfl

theorem file_checked (state : ParseState) (feature : Features) :
    (state.checked feature).file = state.file := by
  rw [checked]
  split
  · rfl
  · rfl

theorem reported_checked (state : ParseState) (feature : Features) :
    state.diagnostics <+: (state.checked feature).diagnostics := by
  rw [checked]
  split
  · exact List.prefix_rfl
  · exact state.reported_report _ _ _

theorem Sound.checked {state : ParseState} (sound : state.Sound) (feature : Features) :
    (state.checked feature).Sound := by
  rw [ParseState.checked]
  split
  · exact sound
  · exact sound.report _ _ _

/-! ### Places -/

/-- Where parsing does not stand at the end of the file, a token of the source is left. -/
theorem Sound.rest_of_current {state : ParseState} (sound : state.Sound)
    (notEnd : state.current ≠ .endOfFileToken) :
    ∃ token rest, state.rest = token :: rest ∧ token.kind = state.current := by
  cases standing : state.rest with
  | nil =>
      exfalso
      apply notEnd
      simp [current, currentToken, standing, sound.endOfFile_kind]
  | cons token rest => exact ⟨token, rest, rfl, (current_of_rest_cons standing).symm⟩

/-- At the end of the file no token of the source is left. -/
theorem Sound.rest_eq_nil {state : ParseState} (sound : state.Sound)
    (atEnd : state.current = .endOfFileToken) : state.rest = [] := by
  cases standing : state.rest with
  | nil => rfl
  | cons token rest =>
      exfalso
      refine sound.rest_kind token (by simp [standing]) ?_
      rw [← current_of_rest_cons standing, atEnd]

end ParseState

/-- Whether a node of a kind is put around its pieces just so: it is no optional construct, no
binary expression, no member access, and no token in it stands in for something else. -/
def Kind.isPlain : Kind → Bool
  | .queryConclusion | .doStatement | .binaryExpression | .memberAccessExpression => false
  | .identifierName | .selectClause | .block => false
  | _ => true

namespace Kind

variable {kind : Kind} (isPlain : kind.isPlain = true)

include isPlain

theorem feature?_of_isPlain : kind.feature? = none := by
  unfold feature?
  split
  · cases isPlain
  · cases isPlain
  · rfl

theorem ne_binaryExpression : kind ≠ .binaryExpression := by
  rintro rfl
  cases isPlain

theorem ne_memberAccessExpression : kind ≠ .memberAccessExpression := by
  rintro rfl
  cases isPlain

theorem ne_block : kind ≠ .block := by
  rintro rfl
  cases isPlain

theorem standsIn_of_isPlain (isMember : Bool) (token : Kind) :
    kind.standsIn isMember token = false := by
  unfold standsIn
  split
  · cases isPlain
  · cases isPlain
  · cases isPlain
  · rfl

end Kind

/-- Whether a node of a kind is plain, and the source may lack all of it. -/
def Kind.isBare (kind : Kind) : Bool := kind.isPlain && !kind.needsToken

theorem Kind.isPlain_of_isBare {kind : Kind} (isBare : kind.isBare = true) :
    kind.isPlain = true := by
  rw [Kind.isBare, Bool.and_eq_true] at isBare
  exact isBare.1

theorem Kind.needsToken_of_isBare {kind : Kind} (isBare : kind.isBare = true) :
    kind.needsToken = false := by
  simp only [Kind.isBare, Bool.and_eq_true, Bool.not_eq_true'] at isBare
  exact isBare.2

/-- A plain node has the gaps of what it is put around. -/
theorem ParseTree.keepsGaps_of_isPlain {kind : Kind} (isPlain : kind.isPlain = true)
    (pieces : List ParseTree) : KeepsGaps kind pieces := by
  refine keepsGaps (fun first _ => ?_) (Kind.ne_memberAccessExpression isPlain)
  exact standIns_eq_noStandIns (Kind.standsIn_of_isPlain isPlain false) first

/-- Parsing gets from one state to another over pieces of source in their roles. -/
structure ParsedAll (before : ParseState) (roles : List Role) (pieces : List ParseTree)
    (after : ParseState) : Prop where
  formed : FormedAll after.Damaged roles pieces
  rest : before.rest = ParseTree.tokensOfAll pieces ++ after.rest
  reported : before.diagnostics <+: after.diagnostics
  endOfFile : after.endOfFile = before.endOfFile
  screened : before.Screens (ParseTree.constructsOfAll pieces) after
  grouped : ParseTree.GroupedAll pieces
  sourced : ParseTree.SourcedAll pieces
  lastEnd : after.lastEnd = Token.lastStop before.lastEnd (ParseTree.tokensOfAll pieces)
  reportsGaps : before.ReportsGaps (ParseTree.gapsFrom before.lastEnd pieces) after
  braced : after.TooDeep ∨ ParseTree.BracedAll pieces
  sound : after.Sound

/-- Parsing gets from one state to another over one piece of source. -/
abbrev Parsed (before : ParseState) (role : Role) (piece : ParseTree) (after : ParseState) :
    Prop :=
  ParsedAll before [role] [piece] after

/-- The parser takes a piece in a role, wherever it is run. -/
def Parser.Takes (parser : Parser ParseTree) (role : Role) : Prop :=
  ∀ state : ParseState, state.Sound → parser.Leads state (Parsed state role)

/-- Run at a token of a kind, the parser takes a piece in a role that starts with the token. -/
def Parser.TakesFrom (parser : Parser ParseTree) (kind : Kind) (role : Role) : Prop :=
  ∀ state : ParseState, state.Sound → state.current = kind →
    parser.Leads state fun piece after =>
      Parsed state role piece after ∧ after.rest.length < state.rest.length

namespace ParsedAll

variable {before middle after : ParseState} {roles others : List Role}
  {pieces more : List ParseTree}

theorem refl (sound : before.Sound) : ParsedAll before [] [] before where
  formed := .nil
  rest := by simp [ParseTree.tokensOfAll]
  reported := List.prefix_rfl
  endOfFile := rfl
  screened := .refl before
  grouped := .nil
  sourced := .nil
  lastEnd := rfl
  reportsGaps := .nothing rfl
  braced := .inr .nil
  sound := sound

theorem append (first : ParsedAll before roles pieces middle)
    (second : ParsedAll middle others more after) :
    ParsedAll before (roles ++ others) (pieces ++ more) after where
  formed :=
    (first.formed.mono (ParseState.damaged_mono second.reported)).append second.formed
  rest := by simp [first.rest, second.rest]
  reported := first.reported.trans second.reported
  endOfFile := second.endOfFile.trans first.endOfFile
  screened := by
    rw [ParseTree.constructsOfAll_append]
    exact first.screened.append second.screened
  grouped := first.grouped.append second.grouped
  sourced := first.sourced.append second.sourced
  lastEnd := by
    rw [second.lastEnd, first.lastEnd, ParseTree.tokensOfAll_append, Token.lastStop_append]
  reportsGaps := by
    have later := second.reportsGaps
    rw [first.lastEnd] at later
    rw [ParseTree.gapsFrom_append]
    exact first.reportsGaps.append later first.screened.file
  braced := by
    rcases second.braced with tooDeep | bracedMore
    · exact .inl tooDeep
    · exact first.braced.imp (ParseState.tooDeep_mono second.reported)
        fun braced => braced.append bracedMore
  sound := second.sound

theorem cons {role : Role} {piece : ParseTree} (first : Parsed before role piece middle)
    (second : ParsedAll middle others more after) :
    ParsedAll before (role :: others) (piece :: more) after :=
  first.append second

theorem length_le (parsed : ParsedAll before roles pieces after) :
    after.rest.length ≤ before.rest.length := by
  simp [parsed.rest]

theorem damaged (parsed : ParsedAll before roles pieces after) (damaged : before.Damaged) :
    after.Damaged :=
  ParseState.damaged_mono parsed.reported damaged

/-- Puts a node around parsed pieces. It is no optional construct and no binary expression, it has a
token if it needs one, the gaps in it are those of the pieces, and a block has no closing brace
before its last child. -/
theorem nodeAs {role : Role} {kind : Kind} (parsed : ParsedAll before roles pieces after)
    (production : Production after.Damaged role kind roles) (notOptional : kind.feature? = none)
    (notBinary : kind ≠ .binaryExpression) (stands : ParseTree.Stands kind pieces)
    (keepsGaps : ParseTree.KeepsGaps kind pieces)
    (ends : kind = .block → after.TooDeep ∨ ParseTree.Unclosing pieces.dropLast) :
    Parsed before role (.node kind pieces) after where
  formed := .singleton (.node production parsed.formed)
  rest := by simpa [ParseTree.tokensOfAll, ParseTree.tokens] using parsed.rest
  reported := parsed.reported
  endOfFile := parsed.endOfFile
  screened := by
    have noConstruct : Construct.ofNode kind pieces = [] := by
      rw [Construct.ofNode, notOptional]
      rfl
    simpa [ParseTree.constructsOfAll, ParseTree.constructs, noConstruct] using parsed.screened
  grouped := .cons (.node notBinary parsed.grouped) .nil
  sourced := .cons (.node stands parsed.sourced) .nil
  lastEnd := by simpa [ParseTree.tokensOfAll, ParseTree.tokens] using parsed.lastEnd
  reportsGaps := by
    have gapsEq := keepsGaps before.lastEnd
    simpa [ParseTree.gapsFrom_singleton, gapsEq] using parsed.reportsGaps
  braced := by
    rcases parsed.braced with tooDeep | braced
    · exact .inl tooDeep
    · by_cases isBlock : kind = .block
      · exact (ends isBlock).imp_right fun ends => .cons (.node (fun _ => ends) braced) .nil
      · exact .inr (.cons (.node (fun holds => absurd holds isBlock) braced) .nil)
  sound := parsed.sound

/-- Pieces that something was consumed for have a token. -/
theorem stands (parsed : ParsedAll before roles pieces after)
    (progress : after.rest.length < before.rest.length) (kind : Kind) :
    ParseTree.Stands kind pieces := by
  intro _ noTokens
  rw [parsed.rest, noTokens] at progress
  exact Nat.lt_irrefl _ progress

/-- Puts a plain node around parsed pieces. -/
theorem nodePlain {role : Role} {kind : Kind} (parsed : ParsedAll before roles pieces after)
    (production : Production after.Damaged role kind roles) (isPlain : kind.isPlain = true)
    (stands : ParseTree.Stands kind pieces) : Parsed before role (.node kind pieces) after :=
  parsed.nodeAs production (Kind.feature?_of_isPlain isPlain)
    (Kind.ne_binaryExpression isPlain) stands (ParseTree.keepsGaps_of_isPlain isPlain pieces)
    fun isBlock => absurd isBlock (Kind.ne_block isPlain)

/-- Puts a plain node that needs no token around parsed pieces. -/
theorem node {role : Role} {kind : Kind} (parsed : ParsedAll before roles pieces after)
    (production : Production after.Damaged role kind roles) (isBare : kind.isBare = true) :
    Parsed before role (.node kind pieces) after :=
  parsed.nodePlain production (Kind.isPlain_of_isBare isBare)
    (ParseTree.stands_of_bare (Kind.needsToken_of_isBare isBare) pieces)

/-- Puts a node around parsed pieces that start with a token of the source: no token in it stands in
for something else. -/
theorem nodeFrom {role : Role} {kind : Kind} {token : Token}
    (parsed : ParsedAll before roles (.token token :: more) after)
    (production : Production after.Damaged role kind roles) (notOptional : kind.feature? = none)
    (notBinary : kind ≠ .binaryExpression) (noAccess : kind ≠ .memberAccessExpression)
    (ends : kind = .block →
      after.TooDeep ∨ ParseTree.Unclosing (.token token :: more).dropLast) :
    Parsed before role (.node kind (.token token :: more)) after :=
  parsed.nodeAs production notOptional notBinary (ParseTree.stands_token kind token more)
    (ParseTree.keepsGaps_token noAccess token more) ends

/-- Puts a node around parsed pieces, which is opened after the first of them. It is no optional
construct and no block, has a token if it needs one and the gaps of the pieces, and is grouped. -/
theorem wrappedAs {role : Role} {kind : Kind} {first : ParseTree} {rest : List ParseTree}
    (parsed : ParsedAll before roles (first :: rest) after)
    (production : Production after.Damaged role kind roles) (notOptional : kind.feature? = none)
    (notBlock : kind ≠ .block) (stands : ParseTree.Stands kind (first :: rest))
    (keepsGaps : ParseTree.KeepsGaps kind (first :: rest))
    (grouped : (ParseTree.wrapped kind first rest).Grouped) :
    Parsed before role (.wrapped kind first rest) after where
  formed := by
    cases parsed.formed with
    | cons head tail => exact .singleton (.wrapped production (.cons head tail))
  rest := by simpa [ParseTree.tokensOfAll, ParseTree.tokens] using parsed.rest
  reported := parsed.reported
  endOfFile := parsed.endOfFile
  screened := by
    have noConstruct : Construct.ofNode kind (first :: rest) = [] := by
      rw [Construct.ofNode, notOptional]
      rfl
    simpa [ParseTree.constructsOfAll, ParseTree.constructs, noConstruct] using parsed.screened
  grouped := .cons grouped .nil
  sourced := .cons (.wrapped stands parsed.sourced) .nil
  lastEnd := by simpa [ParseTree.tokensOfAll, ParseTree.tokens] using parsed.lastEnd
  reportsGaps := by
    have gapsEq := keepsGaps before.lastEnd
    simpa [ParseTree.gapsFrom_singleton, ParseTree.gaps_wrapped, gapsEq] using parsed.reportsGaps
  braced := parsed.braced.imp_right fun braced => .cons (.wrapped notBlock braced) .nil
  sound := parsed.sound

/-- Puts a plain node around parsed pieces, which is opened after the first of them. -/
theorem wrapped {role : Role} {kind : Kind} {first : ParseTree} {rest : List ParseTree}
    (parsed : ParsedAll before roles (first :: rest) after)
    (production : Production after.Damaged role kind roles) (isPlain : kind.isPlain = true)
    (stands : ParseTree.Stands kind (first :: rest)) :
    Parsed before role (.wrapped kind first rest) after :=
  parsed.wrappedAs production (Kind.feature?_of_isPlain isPlain) (Kind.ne_block isPlain) stands
    (ParseTree.keepsGaps_of_isPlain isPlain _)
    (.wrapped (Kind.ne_binaryExpression isPlain) parsed.grouped)

/-- Puts an operator between its parsed operands, where these respect its precedence. -/
theorem binary {left right : ParseTree} {operator : Token} {precedence : Nat}
    (parsed : ParsedAll before [.expression, .leaf operator.kind, .expression]
      [left, .token operator, right] after)
    (binds : Kind.binaryPrecedence? operator.kind = some precedence)
    (leftBinds : ∀ inner ∈ left.operator?, operator.kind.tightness ≤ inner.tightness)
    (rightBinds : ∀ inner ∈ right.operator?, operator.kind.tightness < inner.tightness) :
    Parsed before .expression (.wrapped .binaryExpression left [.token operator, right]) after := by
  have keepsGaps : ParseTree.KeepsGaps .binaryExpression [left, .token operator, right] :=
    ParseTree.keepsGaps (fun first _ => ParseTree.standIns_eq_noStandIns (fun _ => rfl) first)
      (by simp)
  have stands : ParseTree.Stands .binaryExpression [left, .token operator, right] := by
    simp [ParseTree.Stands, ParseTree.tokensOfAll, ParseTree.tokens]
  exact parsed.wrappedAs (.binary binds) rfl (by simp) stands keepsGaps
    (.binary binds leftBinds rightBinds parsed.grouped)

/-- Puts a member access around its operand, a dot and an identifier. The identifier stands in for
no expression. -/
theorem memberAccess {operand identifier : ParseTree} {dot : Token}
    (parsed : ParsedAll before [.operand, .leaf .dotToken, .leaf .identifierToken]
      [operand, .token dot, identifier] after) :
    Parsed before .operand (.wrapped .memberAccessExpression operand
      [.token dot, .node .identifierName [identifier]]) after where
  formed := by
    cases parsed.formed with
    | cons operand others =>
      cases others with
      | cons dot name =>
        have name : Formed after.Damaged .name (.node .identifierName [identifier]) :=
          .node .name name
        exact .singleton (.wrapped .memberAccess (.cons operand (.cons dot (.singleton name))))
  rest := by simpa [ParseTree.tokensOfAll, ParseTree.tokens] using parsed.rest
  reported := parsed.reported
  endOfFile := parsed.endOfFile
  screened := by
    have noConstruct (pieces : List ParseTree) :
        Construct.ofNode .memberAccessExpression pieces = [] ∧
          Construct.ofNode .identifierName pieces = [] := ⟨rfl, rfl⟩
    simpa [ParseTree.constructsOfAll, ParseTree.constructs, noConstruct] using parsed.screened
  grouped := by
    cases parsed.grouped with
    | cons operand others =>
      cases others with
      | cons dot name =>
        have name : (ParseTree.node .identifierName [identifier]).Grouped := .node (by simp) name
        have grouped := ParseTree.GroupedAll.cons operand (.cons dot (.cons name .nil))
        exact .cons (.wrapped (by simp) grouped) .nil
  sourced := by
    cases parsed.sourced with
    | cons operand others =>
      cases others with
      | cons dot name =>
        have name : (ParseTree.node .identifierName [identifier]).Sourced :=
          .node (ParseTree.stands_of_bare rfl _) name
        have sourced := ParseTree.SourcedAll.cons operand (.cons dot (.cons name .nil))
        refine .cons (.wrapped ?_ sourced) .nil
        simp [ParseTree.Stands, ParseTree.tokensOfAll, ParseTree.tokens]
  lastEnd := by simpa [ParseTree.tokensOfAll, ParseTree.tokens] using parsed.lastEnd
  reportsGaps := by
    have noneStandIn (first : ParseTree) (isMember : Bool) :
        ParseTree.standIns .memberAccessExpression isMember first = ParseTree.noStandIns :=
      ParseTree.standIns_eq_noStandIns (fun _ => rfl) first
    have isName : ParseTree.standIns .identifierName true identifier = ParseTree.noStandIns :=
      ParseTree.standIns_eq_noStandIns Kind.standsIn_member identifier
    simpa [ParseTree.gapsFrom, ParseTree.gapsOfAll, ParseTree.gaps, noneStandIn, isName] using
      parsed.reportsGaps
  braced := by
    rcases parsed.braced with tooDeep | braced
    · exact .inl tooDeep
    · cases braced with
      | cons operand others =>
        cases others with
        | cons dot name =>
          have name : (ParseTree.node .identifierName [identifier]).Braced := .node (by simp) name
          have braced := ParseTree.BracedAll.cons operand (.cons dot (.cons name .nil))
          exact .inr (.cons (.wrapped (by simp) braced) .nil)
  sound := parsed.sound

/-- Takes parsed pieces in another role that includes theirs. -/
theorem recast {role other : Role} {piece : ParseTree} (parsed : Parsed before role piece after)
    (notLeaf : ∀ kind, role ≠ .leaf kind)
    (includes : ∀ {kind roles}, Production after.Damaged role kind roles →
      Production after.Damaged other kind roles) : Parsed before other piece after where
  formed := by
    cases parsed.formed with
    | cons head _ => exact .singleton (head.recast notLeaf includes)
  rest := parsed.rest
  reported := parsed.reported
  endOfFile := parsed.endOfFile
  screened := parsed.screened
  grouped := parsed.grouped
  sourced := parsed.sourced
  lastEnd := parsed.lastEnd
  reportsGaps := parsed.reportsGaps
  braced := parsed.braced
  sound := parsed.sound

/-- A report consumes nothing. -/
theorem report (sound : before.Sound) (span : Span) {message : DiagnosticMessage}
    (isNeutral : message.IsNeutral) (arguments : List String) :
    ParsedAll before [] [] (before.report span message arguments) where
  formed := .nil
  rest := by simp [ParseTree.tokensOfAll, ParseState.report]
  reported := before.reported_report span message arguments
  endOfFile := rfl
  screened := .nothing rfl rfl (before.featureReports_report span isNeutral.1 arguments)
  grouped := .nil
  sourced := .nil
  lastEnd := rfl
  reportsGaps := .nothing (before.expectations_report span isNeutral arguments)
  braced := .inr .nil
  sound := sound.report span message arguments

/-- Puts the node of an optional construct around parsed pieces, where its feature was checked
before them. -/
theorem construct {role : Role} {kind : Kind} {feature : Features}
    (parsed : ParsedAll (before.checked feature) roles (.token before.currentToken :: more) after)
    (isOf : kind.feature? = some feature) (production : Production after.Damaged role kind roles) :
    Parsed before role (.node kind (.token before.currentToken :: more)) after where
  formed := .singleton (.node production parsed.formed)
  rest := by
    rw [← before.rest_checked feature]
    simpa [ParseTree.tokensOfAll, ParseTree.tokens] using parsed.rest
  reported := (before.reported_checked feature).trans parsed.reported
  endOfFile := parsed.endOfFile.trans (before.endOfFile_checked feature)
  screened := by
    have screened := (before.screens_checked isOf more).append parsed.screened
    have isConstruct (pieces : List ParseTree) :
        Construct.ofNode kind pieces = [⟨kind, pieces⟩] := by
      rw [Construct.ofNode, isOf]
      rfl
    simpa [ParseTree.constructsOfAll, ParseTree.constructs, isConstruct] using screened
  grouped := by
    have notBinary : kind ≠ .binaryExpression := by
      rintro rfl
      cases isOf
    exact .cons (.node notBinary parsed.grouped) .nil
  sourced := .cons (.node (ParseTree.stands_token kind _ more) parsed.sourced) .nil
  lastEnd := by
    rw [← before.lastEnd_checked feature]
    simpa [ParseTree.tokensOfAll, ParseTree.tokens] using parsed.lastEnd
  reportsGaps := by
    have noAccess : kind ≠ .memberAccessExpression := by
      rintro rfl
      cases isOf
    have keepsGaps := ParseTree.keepsGaps_token noAccess before.currentToken more
    have reportsGaps := parsed.reportsGaps
    rw [ParseState.ReportsGaps, before.expectations_checked, before.file_checked,
      before.lastEnd_checked, ← keepsGaps] at reportsGaps
    simpa [ParseState.ReportsGaps, ParseTree.gapsFrom_singleton] using reportsGaps
  braced := by
    have notBlock : kind ≠ .block := by
      rintro rfl
      cases isOf
    exact parsed.braced.imp_right fun braced =>
      .cons (.node (fun isBlock => absurd isBlock notBlock) braced) .nil
  sound := parsed.sound

end ParsedAll

/-- A piece of source in some role that consists of missing tokens. -/
structure ParseTree.IsAbsent (role : Role) (piece : ParseTree) : Prop where
  formed : ∀ {damaged : Prop}, damaged → Formed damaged role piece
  tokens : piece.tokens = []
  constructs : piece.constructs = []
  grouped : piece.Grouped
  sourced : piece.Sourced
  braced : piece.Braced

theorem ParseTree.IsAbsent.missing (kind : Kind) : IsAbsent (.leaf kind) (.missing kind) where
  formed isDamaged := .missing kind isDamaged
  tokens := rfl
  constructs := rfl
  grouped := .missing kind
  sourced := .missing kind
  braced := .missing kind

/-- Takes missing tokens in another role that includes theirs. -/
theorem ParseTree.IsAbsent.recast {role other : Role} {piece : ParseTree}
    (isAbsent : IsAbsent role piece) (notLeaf : ∀ kind, role ≠ .leaf kind)
    (includes : ∀ {damaged kind roles}, Production damaged role kind roles →
      Production damaged other kind roles) : IsAbsent other piece :=
  { isAbsent with formed := fun isDamaged => (isAbsent.formed isDamaged).recast notLeaf includes }

namespace ParseTree.IsAbsent

variable {role : Role} {piece : ParseTree} {state : ParseState} (isAbsent : IsAbsent role piece)
  (sound : state.Sound)

include isAbsent sound

/-- In damaged source a piece can stand in for something else. -/
theorem parsed (damaged : state.Damaged)
    (noGaps : piece.gaps noStandIns false state.lastEnd = []) : Parsed state role piece state where
  formed := .singleton (isAbsent.formed damaged)
  rest := by simp [tokensOfAll, isAbsent.tokens]
  reported := List.prefix_rfl
  endOfFile := rfl
  screened := by
    simpa [constructsOfAll, isAbsent.constructs] using ParseState.Screens.refl state
  grouped := .cons isAbsent.grouped .nil
  sourced := .cons isAbsent.sourced .nil
  lastEnd := by simp [tokensOfAll, isAbsent.tokens]
  reportsGaps := by
    simpa [gapsFrom_singleton, noGaps] using ParseState.ReportsGaps.nothing rfl
  braced := .inr (.cons isAbsent.braced .nil)
  sound := sound

/-- A piece with one gap is parsed where this is reported. -/
theorem parsed_expected {kind : Kind}
    (oneGap : piece.gaps noStandIns false state.lastEnd = [(kind, .empty state.lastEnd)]) :
    Parsed state role piece (state.expected kind) where
  formed := .singleton (isAbsent.formed (state.damaged_expected kind))
  rest := by simp [tokensOfAll, isAbsent.tokens, ParseState.expected]
  reported := List.prefix_append _ _
  endOfFile := rfl
  screened := by
    have screens : state.Screens [] (state.expected kind) :=
      .nothing rfl rfl (state.featureReports_expected kind)
    simpa [constructsOfAll, isAbsent.constructs] using screens
  grouped := .cons isAbsent.grouped .nil
  sourced := .cons isAbsent.sourced .nil
  lastEnd := by simp [tokensOfAll, isAbsent.tokens, ParseState.expected]
  reportsGaps := by
    simpa [gapsFrom_singleton, oneGap] using state.reportsGaps_expected kind
  braced := .inr (.cons isAbsent.braced .nil)
  sound := sound.expected kind

end ParseTree.IsAbsent

namespace ParseState

/-- The state after consuming tokens. -/
theorem parsedAll_advance {state : ParseState} (sound : state.Sound) {consumed rest : List Token}
    (split : state.rest = consumed ++ rest) :
    ParsedAll state (consumed.map (.leaf ·.kind)) (consumed.map .token)
      (state.advance consumed rest) where
  formed := by
    clear split
    induction consumed with
    | nil => exact .nil
    | cons token others ih => exact .cons (.token token) ih
  rest := by
    rw [ParseTree.tokensOfAll_map_token]
    exact split
  reported := List.prefix_rfl
  endOfFile := rfl
  screened := by
    rw [ParseTree.constructsOfAll_map_token]
    exact .nothing rfl rfl rfl
  grouped := ParseTree.groupedAll_map_token consumed
  sourced := ParseTree.sourcedAll_map_token consumed
  lastEnd := by
    rw [ParseTree.tokensOfAll_map_token]
    exact state.lastEnd_advance consumed rest
  reportsGaps := by
    rw [ParseTree.gapsFrom_map_token]
    exact .nothing rfl
  braced := .inr (ParseTree.bracedAll_map_token consumed)
  sound := {
    endOfFile_kind := sound.endOfFile_kind
    rest_kind := fun token member =>
      sound.rest_kind token (by rw [split]; exact List.mem_append_right _ member)
    unknown_reported := fun token member =>
      sound.unknown_reported token (by rw [split]; exact List.mem_append_right _ member)
    tooDeep_reported := sound.tooDeep_reported }

end ParseState

namespace Parser

/-- Before the end of the file, the current token is consumed. -/
theorem bump_takesFrom {kind : Kind} (notEnd : kind ≠ .endOfFileToken) :
    bump.TakesFrom kind (.leaf kind) := by
  intro state sound standing
  subst standing
  rcases sound.rest_of_current notEnd with ⟨token, rest, split, kindEq⟩
  rw [bump, leads_bind, leads_get, split]
  simp only [leads_bind, leads_set, leads_pure]
  refine ⟨?_, by simp [ParseState.advance]⟩
  rw [← kindEq]
  have split : state.rest = [token] ++ rest := split
  exact ParseState.parsedAll_advance sound split

/-- What `bump` gives is the current token. -/
theorem bump_currentToken (state : ParseState) :
    bump.Leads state fun piece _ => piece = .token state.currentToken := by
  rw [bump, leads_bind, leads_get]
  split
  · next token rest split =>
    simp only [leads_bind, leads_set, leads_pure]
    simp [ParseState.currentToken, split]
  · next split => simp [ParseState.currentToken, split]

/-- Before the end of the file, the current token is given and consumed. -/
theorem bump_leads {state : ParseState} (sound : state.Sound) {kind : Kind}
    (notEnd : kind ≠ .endOfFileToken) (standing : state.current = kind) :
    bump.Leads state fun piece after => piece = .token state.currentToken ∧
      Parsed state (.leaf kind) piece after ∧ after.rest.length < state.rest.length :=
  (bump_currentToken state).and (bump_takesFrom notEnd state sound standing)

/-- What comes after the current token is the current token once that is consumed. -/
theorem bump_following (state : ParseState) :
    bump.Leads state fun _ after => after.current = state.following := by
  rw [bump, leads_bind, leads_get]
  split
  · next token rest split =>
    simp only [leads_bind, leads_set, leads_pure]
    simp [ParseState.advance, ParseState.current, ParseState.currentToken, ParseState.following,
      split]
  · next split =>
    simp [ParseState.current, ParseState.currentToken, ParseState.following, split]

/-- A report of an error damages the source and consumes nothing. -/
theorem reportAfterLast_leads {state : ParseState} (sound : state.Sound)
    {message : DiagnosticMessage} (isError : message.category = .error)
    (isNeutral : message.IsNeutral) (arguments : List String) :
    (reportAfterLast message arguments).Leads state fun _ after =>
      ParsedAll state [] [] after ∧ after.Damaged :=
  ⟨.report sound _ isNeutral _, state.damaged_report _ isError _⟩

/-- A report of an error damages the source and consumes nothing. -/
theorem reportHere_leads {state : ParseState} (sound : state.Sound)
    {message : DiagnosticMessage} (isError : message.category = .error)
    (isNeutral : message.IsNeutral) (arguments : List String) :
    (reportHere message arguments).Leads state fun _ after =>
      ParsedAll state [] [] after ∧ after.Damaged :=
  ⟨.report sound _ isNeutral _, state.damaged_report _ isError _⟩

/-- Where the expected token is not there, a missing one takes its place and is reported. -/
theorem expect_missing {state : ParseState} {kind : Kind} (absent : state.current ≠ kind) :
    (expect kind).Leads state fun piece after =>
      piece = .missing kind ∧ after = state.expected kind := by
  rw [expect, leads_bind, leads_current, if_neg absent, ParseState.expected, Diagnostic.expectation]
  split
  · exact ⟨rfl, rfl⟩
  · exact ⟨rfl, rfl⟩

/-- What `expect` gives stands for a token of the expected kind. -/
theorem takes_expect {kind : Kind} (notEnd : kind ≠ .endOfFileToken) :
    (expect kind).Takes (.leaf kind) := by
  intro state sound
  by_cases standing : state.current = kind
  · rw [expect, leads_bind, leads_current, if_pos standing]
    exact (bump_takesFrom notEnd state sound standing).mono fun _ _ parsed => parsed.1
  · refine (expect_missing standing).mono ?_
    rintro _ _ ⟨rfl, rfl⟩
    exact (ParseTree.IsAbsent.missing kind).parsed_expected sound rfl

end Parser

end QueryLang
