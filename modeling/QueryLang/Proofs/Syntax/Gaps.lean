import Mathlib.Data.List.Basic
import QueryLang.Proofs.Syntax.Numbering
import QueryLang.Proofs.Syntax.Optional

/-!
# Tokens that the source lacks

Where the source lacks a token, a missing one takes its place. As a rule this is reported as a
token that was expected there. A node that starts with a missing token can have some that stand in
for something else: the identifier of a name for an absent expression, the keyword of a clause that
should end a query, and the closing brace of a block that was never opened. `ParseTree.gaps` are the
missing tokens of a piece of source but for those, and `ParseState.ReportsGaps` says that parsing has
reported exactly these.
-/

namespace QueryLang

/-! ### Reports -/

/-- The report that a token of a kind was expected at a place. -/
def Diagnostic.expectation (file : FileId) (gap : Kind × Span) : Diagnostic :=
  if gap.1 = .identifierToken then .located ⟨file, gap.2⟩ .identifierExpected []
  else .located ⟨file, gap.2⟩ .expected [gap.1.displayText]

/-- The report says that a token was expected. -/
def Diagnostic.isExpectation (report : Diagnostic) : Bool :=
  report.code == DiagnosticMessage.identifierExpected.code ||
    report.code == DiagnosticMessage.expected.code

theorem Diagnostic.isExpectation_expectation (file : FileId) (gap : Kind × Span) :
    (expectation file gap).isExpectation = true := by
  rw [expectation]
  split
  · rfl
  · rfl

/-- A message about neither a feature that is off nor a token that was expected. -/
def DiagnosticMessage.IsNeutral (message : DiagnosticMessage) : Prop :=
  message.IsOther ∧ message.code ≠ identifierExpected.code ∧ message.code ≠ expected.code

instance (message : DiagnosticMessage) : Decidable message.IsNeutral :=
  inferInstanceAs (Decidable (_ ∧ _))

/-! ### Gaps -/

/-- Whether a missing token of a kind stands in for something else in a node that starts with a
missing token. What an access names after its dot is no expression. -/
def Kind.standsIn (node : Kind) (isMember : Bool) (token : Kind) : Bool :=
  match node, token with
  | .identifierName, .identifierToken => !isMember
  | .selectClause, .selectKeyword => true
  | .block, .closeBraceToken => true
  | _, _ => false

theorem Kind.standsIn_member (token : Kind) : standsIn .identifierName true token = false := by
  unfold standsIn
  split
  · rfl
  · next isSelect => cases isSelect
  · next isBlock => cases isBlock
  · rfl

/-- Where the last token ends, or a position if there is none. -/
def Token.lastStop (position : Nat) (tokens : List Token) : Nat :=
  tokens.foldl (fun _ token => token.stop) position

@[simp]
theorem Token.lastStop_nil (position : Nat) : lastStop position [] = position := rfl

theorem Token.lastStop_append (position : Nat) (tokens more : List Token) :
    lastStop position (tokens ++ more) = lastStop (lastStop position tokens) more :=
  List.foldl_append

theorem Token.lastStop_concat (position : Nat) (tokens : List Token) (last : Token) :
    lastStop position (tokens ++ [last]) = last.stop :=
  lastStop_append position tokens [last]

namespace ParseTree

/-- Whether a piece of source is a token that the source lacks. -/
def isMissing : ParseTree → Bool
  | .missing _ => true
  | _ => false

/-- The kinds of missing tokens that stand in for something else in a node. -/
def standIns (node : Kind) (isMember : Bool) (first : ParseTree) (token : Kind) : Bool :=
  first.isMissing && node.standsIn isMember token

mutual

/-- The missing tokens of a piece of source and where they stand, but for those that stand in for
something else. Of the node around the piece, `silent` are the kinds of tokens that do, and
`isMember` says whether the piece is what it names as a member. -/
def gaps (silent : Kind → Bool) (isMember : Bool) (position : Nat) :
    ParseTree → List (Kind × Span)
  | .token _ => []
  | .missing kind => if silent kind then [] else [(kind, .empty position)]
  | .node _ [] => []
  | .node kind (first :: rest) | .wrapped kind first rest =>
    first.gaps (standIns kind isMember first) false position ++
      gapsOfAll (standIns kind isMember first) (kind == .memberAccessExpression)
        (Token.lastStop position first.tokens) rest

/-- The missing tokens of several pieces of source in a node. -/
def gapsOfAll (silent : Kind → Bool) (isMember : Bool) (position : Nat) :
    List ParseTree → List (Kind × Span)
  | [] => []
  | tree :: rest =>
    tree.gaps silent isMember position ++
      gapsOfAll silent isMember (Token.lastStop position tree.tokens) rest

end

/-- No missing token stands in for something else. -/
def noStandIns (_ : Kind) : Bool := false

theorem standIns_eq_noStandIns {node : Kind} {isMember : Bool}
    (noneStandsIn : ∀ token, node.standsIn isMember token = false) (first : ParseTree) :
    standIns node isMember first = noStandIns := by
  funext token
  rw [standIns, noneStandsIn, Bool.and_false, noStandIns]

/-- The gaps of pieces of source that nothing is known about the place of. -/
def gapsFrom (position : Nat) (trees : List ParseTree) : List (Kind × Span) :=
  gapsOfAll noStandIns false position trees

theorem gapsFrom_cons (position : Nat) (tree : ParseTree) (rest : List ParseTree) :
    gapsFrom position (tree :: rest) =
      tree.gaps noStandIns false position ++ gapsFrom (Token.lastStop position tree.tokens) rest :=
  rfl

theorem gapsFrom_singleton (position : Nat) (tree : ParseTree) :
    gapsFrom position [tree] = tree.gaps noStandIns false position :=
  List.append_nil _

theorem gapsFrom_append (position : Nat) (left right : List ParseTree) :
    gapsFrom position (left ++ right) =
      gapsFrom position left ++ gapsFrom (Token.lastStop position (tokensOfAll left)) right := by
  induction left generalizing position with
  | nil => rfl
  | cons tree rest ih =>
    rw [List.cons_append, gapsFrom_cons, gapsFrom_cons, ih, List.append_assoc, tokensOfAll,
      Token.lastStop_append]

theorem gapsFrom_map_token (position : Nat) (leaves : List Token) :
    gapsFrom position (leaves.map .token) = [] := by
  induction leaves generalizing position with
  | nil => rfl
  | cons leaf rest ih => exact ih _

/-- A node around pieces of source has the gaps of the pieces. -/
def KeepsGaps (kind : Kind) (pieces : List ParseTree) : Prop :=
  ∀ position, (node kind pieces).gaps noStandIns false position = gapsFrom position pieces

/-- So it is where no token in the node stands in for something else. -/
theorem keepsGaps {kind : Kind} {pieces : List ParseTree}
    (noneStandIn : ∀ first ∈ pieces.head?, standIns kind false first = noStandIns)
    (noAccess : kind ≠ .memberAccessExpression) : KeepsGaps kind pieces := by
  intro position
  cases pieces with
  | nil => rfl
  | cons first rest =>
    rw [gaps, noneStandIn first rfl, beq_false_of_ne noAccess]
    rfl

/-- A node that starts with a token of the source has no token that stands in for something else. -/
theorem keepsGaps_token {kind : Kind} (noAccess : kind ≠ .memberAccessExpression) (token : Token)
    (rest : List ParseTree) : KeepsGaps kind (.token token :: rest) := by
  refine keepsGaps ?_ noAccess
  rintro first ⟨⟩
  rfl

/-- It makes no difference when the node is opened. -/
theorem gaps_wrapped (silent : Kind → Bool) (isMember : Bool) (position : Nat) (kind : Kind)
    (first : ParseTree) (rest : List ParseTree) :
    (wrapped kind first rest).gaps silent isMember position =
      (node kind (first :: rest)).gaps silent isMember position :=
  rfl

end ParseTree

/-! ### Parsing -/

namespace ParseState

/-- The reports on tokens that were expected. -/
def expectations (state : ParseState) : Diagnostics :=
  state.diagnostics.filter Diagnostic.isExpectation

/-- The state after reporting that a token was expected. -/
def expected (state : ParseState) (kind : Kind) : ParseState :=
  { state with
    diagnostics :=
      state.diagnostics ++ [.expectation state.file (kind, .empty state.lastEnd)] }

/-- Between two states the gaps were reported, and no other token as expected. -/
def ReportsGaps (before : ParseState) (gaps : List (Kind × Span)) (after : ParseState) : Prop :=
  after.expectations = before.expectations ++ gaps.map (.expectation before.file)

variable {before middle after : ParseState} {gaps more : List (Kind × Span)}

namespace ReportsGaps

theorem nothing (same : after.expectations = before.expectations) :
    before.ReportsGaps [] after := by
  rw [ReportsGaps, same, List.map_nil, List.append_nil]

theorem append (first : before.ReportsGaps gaps middle) (second : middle.ReportsGaps more after)
    (sameFile : middle.file = before.file) : before.ReportsGaps (gaps ++ more) after := by
  rw [ReportsGaps] at *
  rw [second, first, sameFile, List.map_append, List.append_assoc]

end ReportsGaps

theorem expectations_report (state : ParseState) (span : Span) {message : DiagnosticMessage}
    (isNeutral : message.IsNeutral) (arguments : List String) :
    (state.report span message arguments).expectations = state.expectations := by
  have noExpectation : Diagnostic.isExpectation (.located ⟨state.file, span⟩ message arguments) =
      false :=
    Bool.or_eq_false_iff.mpr ⟨beq_false_of_ne isNeutral.2.1, beq_false_of_ne isNeutral.2.2⟩
  simp [expectations, report, noExpectation]

theorem expectations_checked (state : ParseState) (feature : Features) :
    (state.checked feature).expectations = state.expectations := by
  have noExpectation (span : Span) : Diagnostic.isExpectation
      (.located ⟨state.file, span⟩ .featureDisabled [feature.displayName]) = false := rfl
  rw [checked]
  split
  · rfl
  · simp [expectations, report, noExpectation]

/-- Reporting that a token was expected reports the gap. -/
theorem reportsGaps_expected (state : ParseState) (kind : Kind) :
    state.ReportsGaps [(kind, .empty state.lastEnd)] (state.expected kind) := by
  have isExpectation := Diagnostic.isExpectation_expectation state.file (kind, .empty state.lastEnd)
  simp [ReportsGaps, expectations, expected, isExpectation]

/-- Reporting that a token was expected says nothing about features. -/
theorem featureReports_expected (state : ParseState) (kind : Kind) :
    (state.expected kind).featureReports = state.featureReports := by
  have noFeature : Diagnostic.isOnFeature
      (.expectation state.file (kind, .empty state.lastEnd)) = false := by
    rw [Diagnostic.expectation]
    split
    · rfl
    · rfl
  simp [featureReports, expected, noFeature]

/-- Consuming tokens moves the end of the last token. -/
theorem lastEnd_advance (state : ParseState) (consumed rest : List Token) :
    (state.advance consumed rest).lastEnd = Token.lastStop state.lastEnd consumed := by
  rcases List.eq_nil_or_concat consumed with rfl | ⟨others, last, rfl⟩
  · rfl
  · rw [List.concat_eq_append, Token.lastStop_concat]
    simp [advance, Token.stop]

end ParseState

end QueryLang
