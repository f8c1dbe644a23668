import QueryLang.Proofs.Syntax.ParserGrowth

/-!
# Following the kinds of tokens

`Parser.Follows` says what a parser leaves of the tokens when it has nothing to report. Only kinds
matter for that. Too deep nesting is the one thing that may be reported: then nothing is said about
what is left, and the report stays whatever is parsed next.
-/

namespace QueryLang

namespace ParseState

/-- Nothing was reported, and tokens of these kinds are left. -/
structure Clean (state : ParseState) (kinds : List Kind) : Prop where
  rest_kinds : state.rest.map Token.kind = kinds
  endOfFile_kind : state.endOfFile.kind = .endOfFileToken
  features : state.features = .all
  unreported : state.diagnostics = []
  notTooDeep : state.reportedTooDeep = false

variable {state : ParseState} {kinds : List Kind}

theorem Clean.current_eq (clean : state.Clean kinds) :
    state.current = kinds.headD .endOfFileToken := by
  rw [← clean.rest_kinds, current, currentToken]
  cases state.rest with
  | nil => exact clean.endOfFile_kind
  | cons => rfl

theorem Clean.following_eq {kind : Kind} (clean : state.Clean (kind :: kinds)) :
    state.following = kinds.headD .endOfFileToken := by
  have rest := clean.rest_kinds
  rw [following]
  cases standing : state.rest with
  | nil => simp [standing] at rest
  | cons token tokens =>
      rw [standing, List.map_cons, List.cons.injEq] at rest
      rw [← rest.2]
      cases tokens with
      | nil => exact clean.endOfFile_kind
      | cons => rfl

theorem Clean.length_eq (clean : state.Clean kinds) : state.rest.length = kinds.length := by
  rw [← clean.rest_kinds, List.length_map]

/-- Whatever is parsed next, too deep nesting stays reported. -/
theorem TooDeep.kept {α : Type} {parser : Parser α} [Parser.Grows parser]
    (tooDeep : state.TooDeep) : parser.Leads state fun _ after => after.TooDeep :=
  (Parser.Grows.reported state).mono fun _ _ reported => tooDeep_mono reported tooDeep

end ParseState

namespace Parser

variable {α β : Type}

/-- Run where tokens of these kinds are left and nothing was reported, the parser leaves tokens of
which `post` holds, still without a report, unless it reports too deep nesting. -/
def Follows (parser : Parser α) (kinds : List Kind) (post : α → List Kind → Prop) : Prop :=
  ∀ state : ParseState, state.Clean kinds → parser.Leads state fun value after =>
    after.TooDeep ∨ ∃ left, after.Clean left ∧ left <:+ kinds ∧ post value left

/-- The parser gets from tokens of these kinds to the rest of them. -/
abbrev Gets (parser : Parser α) (kinds rest : List Kind) : Prop :=
  parser.Follows kinds fun _ left => left = rest

variable {parser : Parser α} {next : α → Parser β} {kinds rest : List Kind}
  {post : β → List Kind → Prop}

theorem Follows.mono {post weaker : α → List Kind → Prop} (follows : parser.Follows kinds post)
    (weaken : ∀ value left, left <:+ kinds → post value left → weaker value left) :
    parser.Follows kinds weaker := by
  intro state clean
  refine (follows state clean).mono ?_
  rintro value after (tooDeep | ⟨left, cleanAfter, isRest, holds⟩)
  · exact .inl tooDeep
  · exact .inr ⟨left, cleanAfter, isRest, weaken value left isRest holds⟩

theorem follows_pure {post : α → List Kind → Prop} {value : α} (holds : post value kinds) :
    (pure value : Parser α).Follows kinds post := by
  intro state clean
  exact .inr ⟨kinds, clean, List.suffix_rfl, holds⟩

theorem Follows.bind_of_grows {middle : α → List Kind → Prop}
    (grows : ∀ value, Grows (next value)) (follows : parser.Follows kinds middle)
    (continues : ∀ value left, middle value left → (next value).Follows left post) :
    (parser >>= next).Follows kinds post := by
  intro state clean
  refine Leads.bind (follows state clean) ?_
  rintro value after (tooDeep | ⟨left, cleanAfter, isRest, holds⟩)
  · have stays := grows value
    exact tooDeep.kept.mono fun _ _ => .inl
  · refine (continues value left holds after cleanAfter).mono ?_
    rintro result final (tooDeep | ⟨remaining, cleanFinal, isLeft, holdsFinal⟩)
    · exact .inl tooDeep
    · exact .inr ⟨remaining, cleanFinal, isLeft.trans isRest, holdsFinal⟩

theorem Follows.bind [grows : ∀ value, Grows (next value)] {middle : α → List Kind → Prop}
    (follows : parser.Follows kinds middle)
    (continues : ∀ value left, middle value left → (next value).Follows left post) :
    (parser >>= next).Follows kinds post :=
  .bind_of_grows grows follows continues

theorem Gets.bind [∀ value, Grows (next value)] (gets : parser.Gets kinds rest)
    (continues : ∀ value, (next value).Follows rest post) :
    (parser >>= next).Follows kinds post :=
  Follows.bind gets fun value _ equal => equal ▸ continues value

theorem follows_get {next : ParseState → Parser β}
    (continues : ∀ state : ParseState, state.Clean kinds → (next state).Follows kinds post) :
    (get >>= next).Follows kinds post :=
  fun state clean => continues state clean state clean

theorem follows_current {next : Kind → Parser β}
    (continues : (next (kinds.headD .endOfFileToken)).Follows kinds post) :
    (current >>= next).Follows kinds post := by
  intro state clean
  rw [leads_bind, leads_current, clean.current_eq]
  exact continues state clean

theorem bump_gets (kind : Kind) (rest : List Kind) : bump.Gets (kind :: rest) rest := by
  intro state clean
  have kinds := clean.rest_kinds
  rw [bump, leads_bind, leads_get]
  cases standing : state.rest with
  | nil => simp [standing] at kinds
  | cons token tokens =>
      rw [standing, List.map_cons, List.cons.injEq] at kinds
      exact .inr ⟨rest, ⟨kinds.2, clean.endOfFile_kind, clean.features, clean.unreported,
        clean.notTooDeep⟩, List.suffix_cons kind rest, rfl⟩

theorem expect_gets (kind : Kind) (rest : List Kind) :
    (expect kind).Gets (kind :: rest) rest := by
  refine follows_current ?_
  rw [List.headD_cons, if_pos rfl]
  exact bump_gets kind rest

theorem checkFeature_gets (feature : Features) (kinds : List Kind) :
    (checkFeature feature).Gets kinds kinds := by
  refine follows_get fun state clean => ?_
  have enabled : state.features.enables feature = true := by
    simp [clean.features, Features.enables, Features.all]
  rw [if_pos enabled]
  exact follows_pure rfl

theorem reportTooDeep_follows (post : Unit → List Kind → Prop) :
    reportTooDeep.Follows kinds post := by
  intro state clean
  rw [reportTooDeep, leads_bind, leads_get, clean.notTooDeep]
  refine .inl ⟨_, List.mem_append_right _ (List.mem_singleton_self _), rfl⟩

/-! ### Repetition -/

/-- A repetition keeps the invariant of its step. -/
theorem many_follows {step : Parser (List ParseTree)} [Grows step]
    (invariant : List Kind → Prop) {post : List Kind → Prop}
    (stepFollows : ∀ kinds, invariant kinds → step.Follows kinds fun new left =>
      new = [] ∧ post left ∨ new ≠ [] ∧ left.length < kinds.length ∧ invariant left)
    (atEnd : invariant [] → post []) (start : invariant kinds) :
    (many step).Follows kinds fun _ left => post left := by
  have within : ∀ limit kinds, kinds.length ≤ limit → invariant kinds →
      (manyWithin step limit).Follows kinds fun _ left => post left := by
    intro limit
    induction limit with
    | zero =>
        intro kinds bound holds
        have noKinds : kinds = [] := List.eq_nil_of_length_eq_zero (Nat.le_zero.mp bound)
        subst noKinds
        exact follows_pure (atEnd holds)
    | succ limit ih =>
        intro kinds bound holds
        rw [manyWithin]
        refine Follows.bind_of_grows ?_ (stepFollows kinds holds) ?_
        · intro pieces
          cases pieces <;> infer_instance
        rintro new left (⟨rfl, done⟩ | ⟨notEmpty, progress, kept⟩)
        · exact follows_pure done
        · cases new with
          | nil => exact absurd rfl notEmpty
          | cons first others =>
              refine Follows.bind (ih left (by omega) kept) ?_
              intro more final holdsFinal
              exact follows_pure holdsFinal
  refine follows_get fun state clean => ?_
  rw [clean.length_eq]
  exact within kinds.length kinds (Nat.le_refl _) start

/-- Growing a piece keeps the invariant of its step. -/
theorem grow_follows {step : ParseTree → Parser (Option ParseTree)}
    [∀ piece, Grows (step piece)] (invariant : List Kind → Prop) {post : List Kind → Prop}
    (stepFollows : ∀ piece kinds, invariant kinds → (step piece).Follows kinds fun grown left =>
      grown = none ∧ post left ∨
        grown ≠ none ∧ left.length < kinds.length ∧ invariant left)
    (atEnd : invariant [] → post []) {piece : ParseTree} (start : invariant kinds) :
    (grow step piece).Follows kinds fun _ left => post left := by
  have within : ∀ limit piece kinds, kinds.length ≤ limit → invariant kinds →
      (growWithin step limit piece).Follows kinds fun _ left => post left := by
    intro limit
    induction limit with
    | zero =>
        intro piece kinds bound holds
        have noKinds : kinds = [] := List.eq_nil_of_length_eq_zero (Nat.le_zero.mp bound)
        subst noKinds
        exact follows_pure (atEnd holds)
    | succ limit ih =>
        intro piece kinds bound holds
        rw [growWithin]
        refine Follows.bind_of_grows ?_ (stepFollows piece kinds holds) ?_
        · intro grown
          cases grown <;> infer_instance
        rintro grown left (⟨rfl, done⟩ | ⟨isSome, progress, kept⟩)
        · exact follows_pure done
        · cases grown with
          | none => exact absurd rfl isSome
          | some larger => exact ih larger left (by omega) kept
  refine follows_get fun state clean => ?_
  rw [clean.length_eq]
  exact within kinds.length piece kinds (Nat.le_refl _) start

end Parser

end QueryLang
