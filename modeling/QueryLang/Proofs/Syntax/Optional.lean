import Mathlib.Data.List.Basic
import Mathlib.Data.List.Forall2
import QueryLang.Syntax.Parser.Basic

/-!
# Optional constructs

Query conclusions and `do` statements belong to features that can be off. `ParseTree.constructs` are
those in a piece of source, in the order in which their nodes are numbered, and `ParseState.Screens`
says that parsing has reported exactly those of them that are off.
-/

namespace QueryLang

/-- The feature that a construct of a kind belongs to, if it is optional. -/
def Kind.feature? : Kind → Option Features
  | .queryConclusion => some .onlyQueryConclusions
  | .doStatement => some .onlyDoStatements
  | _ => none

/-- Whether constructs of a kind belong to a feature that is not in the set. -/
def Features.disables (features : Features) (kind : Kind) : Bool :=
  kind.feature?.any fun feature => !features.enables feature

/-- An optional construct: its kind, and the pieces of source in it. -/
structure Construct where
  kind : Kind
  pieces : List ParseTree

/-- The construct that a node of a kind is, if that is optional. -/
def Construct.ofNode (kind : Kind) (pieces : List ParseTree) : List Construct :=
  if kind.feature?.isSome then [⟨kind, pieces⟩] else []

/-- The report on a construct, at the token that it starts with. -/
def Construct.ReportedAs (file : FileId) (construct : Construct) (report : Diagnostic) : Prop :=
  ∃ feature token others, construct.kind.feature? = some feature ∧
    construct.pieces = .token token :: others ∧
    report = .located ⟨file, token.span⟩ .featureDisabled [feature.displayName]

namespace ParseTree

mutual

/-- The optional constructs in a piece of source. -/
def constructs : ParseTree → List Construct
  | .token _ | .missing _ => []
  | .node kind children => Construct.ofNode kind children ++ constructsOfAll children
  | .wrapped kind first rest =>
    first.constructs ++ (Construct.ofNode kind (first :: rest) ++ constructsOfAll rest)

/-- The optional constructs in several pieces of source. -/
def constructsOfAll : List ParseTree → List Construct
  | [] => []
  | tree :: rest => tree.constructs ++ constructsOfAll rest

end

@[simp]
theorem constructsOfAll_append (left right : List ParseTree) :
    constructsOfAll (left ++ right) = constructsOfAll left ++ constructsOfAll right := by
  induction left with
  | nil => rfl
  | cons tree rest ih => simp [constructsOfAll, ih]

theorem constructsOfAll_map_token (leaves : List Token) :
    constructsOfAll (leaves.map .token) = [] := by
  induction leaves with
  | nil => rfl
  | cons leaf rest ih => simp [constructsOfAll, constructs, ih]

end ParseTree

/-- The report says that a feature is off. -/
def Diagnostic.isOnFeature (report : Diagnostic) : Bool :=
  report.code == DiagnosticMessage.featureDisabled.code

/-- A message about something else than a feature that is off. -/
def DiagnosticMessage.IsOther (message : DiagnosticMessage) : Prop :=
  message.code ≠ featureDisabled.code

instance (message : DiagnosticMessage) : Decidable message.IsOther :=
  inferInstanceAs (Decidable (_ ≠ _))

namespace ParseState

/-- The reports on features that are off. -/
def featureReports (state : ParseState) : Diagnostics :=
  state.diagnostics.filter Diagnostic.isOnFeature

/-- Between two states the optional constructs were screened: those that are off were reported, one
after the other, and no feature was reported otherwise. -/
structure Screens (before : ParseState) (constructs : List Construct) (after : ParseState) :
    Prop where
  features : after.features = before.features
  file : after.file = before.file
  reported : ∃ reports,
    List.Forall₂ (Construct.ReportedAs before.file)
      (constructs.filter fun construct => before.features.disables construct.kind) reports ∧
    after.featureReports = before.featureReports ++ reports

/-- The state after checking a feature. -/
def checked (state : ParseState) (feature : Features) : ParseState :=
  if state.features.enables feature then state
  else state.report state.currentToken.span .featureDisabled [feature.displayName]

variable {before middle after state : ParseState} {constructs others : List Construct}

namespace Screens

/-- Where nothing was reported, nothing was to be screened. -/
theorem nothing (features : after.features = before.features) (file : after.file = before.file)
    (reported : after.featureReports = before.featureReports) : before.Screens [] after :=
  ⟨features, file, [], .nil, by rw [reported, List.append_nil]⟩

theorem refl (state : ParseState) : state.Screens [] state := .nothing rfl rfl rfl

theorem append (first : before.Screens constructs middle) (second : middle.Screens others after) :
    before.Screens (constructs ++ others) after := by
  rcases first.reported with ⟨reports, related, reportsEq⟩
  rcases second.reported with ⟨more, relatedMore, moreEq⟩
  rw [first.features, first.file] at relatedMore
  refine ⟨second.features.trans first.features, second.file.trans first.file, reports ++ more, ?_,
    ?_⟩
  · rw [List.filter_append]
    exact List.rel_append related relatedMore
  · rw [moreEq, reportsEq, List.append_assoc]

end Screens

theorem featureReports_report (state : ParseState) (span : Span) {message : DiagnosticMessage}
    (isOther : message.IsOther) (arguments : List String) :
    (state.report span message arguments).featureReports = state.featureReports := by
  have noFeature : Diagnostic.isOnFeature (.located ⟨state.file, span⟩ message arguments) = false :=
    beq_false_of_ne isOther
  simp [featureReports, report, noFeature]

/-- Checking the feature of a construct where the construct starts screens it. -/
theorem screens_checked {kind : Kind} {feature : Features} (isOf : kind.feature? = some feature)
    (others : List ParseTree) :
    state.Screens [⟨kind, .token state.currentToken :: others⟩] (state.checked feature) := by
  have disables : state.features.disables kind = !state.features.enables feature := by
    rw [Features.disables, isOf, Option.any_some]
  rw [checked]
  split
  · next isOn =>
    rw [isOn, Bool.not_true] at disables
    exact ⟨rfl, rfl, [], by simp [disables], by simp⟩
  · next isOff =>
    rw [Bool.not_eq_true] at isOff
    rw [isOff, Bool.not_false] at disables
    refine ⟨rfl, rfl, [.located ⟨state.file, state.currentToken.span⟩ .featureDisabled
      [feature.displayName]], ?_, ?_⟩
    · rw [List.filter_singleton, disables]
      exact .cons ⟨feature, state.currentToken, others, isOf, rfl, rfl⟩ .nil
    · have onFeature : Diagnostic.isOnFeature (.located ⟨state.file, state.currentToken.span⟩
          .featureDisabled [feature.displayName]) = true := rfl
      simp only [featureReports, report, List.filter_append, List.filter_singleton, onFeature,
        cond_true]

end ParseState

end QueryLang
