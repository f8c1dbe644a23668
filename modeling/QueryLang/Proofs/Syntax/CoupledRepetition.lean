import QueryLang.Proofs.Syntax.Coupling

/-!
# Repetitions that meet the target

A repetition meets the target when its step does. The bounds of the repetition differ in the two
runs; in front of the target they never stop it, since each step consumes a token.
-/

namespace QueryLang

namespace Parser

variable {α β γ δ : Type} {typed : TypedKeyword} {target : Token} {before : List Token}
  {state twin : ParseState}

theorem LeadBoth.and_left {parser : Parser α} {other : Parser β}
    {post : α → β → ParseState → ParseState → Prop} {holds : α → ParseState → Prop}
    (lead : LeadBoth parser other state twin post) (leads : parser.Leads state holds) :
    LeadBoth parser other state twin
      fun value otherValue after otherAfter =>
        post value otherValue after otherAfter ∧ holds value after :=
  ⟨lead, leads⟩

/-! ### Growing -/

/-- What one step does to the piece that it grows, run where the target is ahead. -/
inductive Grown (typed : TypedKeyword) (target : Token) (before : List Token) (piece : ParseTree)
    (state twin : ParseState) : (grown other : Option ParseTree) → ParseState → ParseState → Prop
  | stop : Grown typed target before piece state twin none none state twin
  | larger {kind rest last others after otherAfter}
      (met : Met typed target before (last.EndsWith target)
        (AnyAccepts typed target (rest ++ [last])) (rest ++ [last]) others after otherAfter)
      (isPlain : kind ∉ ParseTree.acceptingKinds)
      (progress : ParseTree.tokensOfAll (rest ++ [last]) ≠ []) :
      Grown typed target before piece state twin (some (.wrapped kind piece (rest ++ [last])))
        (some (.wrapped kind piece others)) after otherAfter

/-- A step that grows pieces meets the target, and never grows one at the keyword. -/
structure Extends (typed : TypedKeyword) (target : Token)
    (step : ParseTree → Parser (Option ParseTree)) : Prop where
  agrees : ∀ {states trees piece other}, KeptByParsing states trees → trees piece other →
    Agree states (Option.Rel trees) (step piece) (step other)
  ahead : ∀ {before state twin} (piece : ParseTree), state.Ahead typed target before twin →
    LeadBoth (step piece) (step piece) state twin (Grown typed target before piece state twin)
  behind : ∀ {state} (piece : ParseTree), state.Behind target →
    (step piece).Leads state fun grown after => after.Behind target ∧
      ∀ larger, grown = some larger → ∃ kind rest last,
        larger = .wrapped kind piece (rest ++ [last]) ∧ kind ∉ ParseTree.acceptingKinds ∧
          ∀ part ∈ rest ++ [last], target ∉ part.tokens
  ready : ∀ {state} (piece : ParseTree), state.Ready typed →
    (step piece).Leads state fun grown after => grown = none ∧ after = state

namespace Extends

variable {step : ParseTree → Parser (Option ParseTree)} {piece other : ParseTree}

/-- Behind the target, growing a piece makes it neither end with the target nor accept the keyword
if it did not. -/
theorem growWithin_behind (growing : Extends typed target step) (limit : Nat)
    (behind : state.Behind target) :
    (growWithin step limit piece).Leads state fun value after => after.Behind target ∧
      (value.EndsWith target → piece.EndsWith target) ∧
      (value.Accepts target typed.token.kind → piece.Accepts target typed.token.kind) := by
  induction limit generalizing piece state with
  | zero => exact ⟨behind, id, id⟩
  | succ limit ih =>
    refine (growing.behind piece behind).bind fun grown after => ?_
    rintro ⟨behindAfter, isLarger⟩
    cases grown with
    | none => exact ⟨behindAfter, id, id⟩
    | some larger =>
      obtain ⟨kind, rest, last, rfl, isPlain, free⟩ := isLarger larger rfl
      refine (ih behindAfter).mono fun value final => ?_
      rintro ⟨behindFinal, endsOf, acceptsOf⟩
      refine ⟨behindFinal, fun ends => ?_, fun accepts => ?_⟩
      · exact absurd (endsOf ends).of_wrapped.mem_tokens (free last (by simp))
      · obtain ⟨child, isChild, accepts⟩ := (acceptsOf accepts).of_wrapped isPlain
        rcases List.mem_cons.mp isChild with rfl | isRest
        · exact accepts
        · exact absurd accepts.mem_tokens (free child isRest)

theorem growWithin_ready (growing : Extends typed target step) (limit : Nat)
    (ready : state.Ready typed) :
    (growWithin step limit piece).Leads state fun _ after => after.Ready typed := by
  cases limit with
  | zero => exact ready
  | succ limit =>
    refine (growing.ready piece ready).bind ?_
    rintro _ _ ⟨rfl, rfl⟩
    exact ready

theorem growWithin_harmless (growing : Extends typed target step) (limit : Nat)
    (harmless : state.Harmless typed) :
    (growWithin step limit piece).Leads state fun _ after => after.Harmless typed := by
  have related (other : ParseTree) : ∀ token ∈ other.tokens, True := fun _ _ => trivial
  have agree : Agree _ _ (growWithin step limit piece) (growWithin step limit piece) :=
    .growWithin (fun _ _ related => growing.agrees (kept_harmless typed) related) limit
      (related piece)
  exact (agree.leads harmless).mono fun _ _ => And.right

/-- Where the target was consumed, both runs grow their pieces on. -/
theorem growWithin_past (growing : Extends typed target step) (limit otherLimit : Nat)
    (behind : state.Behind target) {ends accepts : Prop}
    (ended : ends → twin.Ready typed ∨ twin.Harmless typed) (accepted : accepts → twin.Harmless typed)
    (endsOf : piece.EndsWith target → ends)
    (acceptsOf : piece.Accepts target typed.token.kind → accepts) :
    LeadBoth (growWithin step limit piece) (growWithin step otherLimit other) state twin
      fun value otherValue =>
        Met typed target before (value.EndsWith target) (value.Accepts target typed.token.kind)
          [value] [otherValue] := by
  refine (growing.growWithin_behind limit behind).mono fun value after => ?_
  rintro ⟨behindAfter, endsBefore, acceptsBefore⟩
  refine .past behindAfter (fun ends => ?_) fun accepts => ?_
  · rcases ended (endsOf (endsBefore ends)) with ready | harmless
    · exact .inl (growing.growWithin_ready otherLimit ready)
    · exact .inr (growing.growWithin_harmless otherLimit harmless)
  · exact growing.growWithin_harmless otherLimit (accepted (acceptsOf (acceptsBefore accepts)))

theorem growWithin_ahead (growing : Extends typed target step) {limit otherLimit : Nat}
    {left : List Token} (enough : left.length < limit) (otherEnough : left.length < otherLimit)
    (split : before = piece.tokens ++ left) (ahead : state.Ahead typed target left twin)
    (notEnds : ¬piece.EndsWith target) (notAccepts : ¬piece.Accepts target typed.token.kind) :
    LeadBoth (growWithin step limit piece) (growWithin step otherLimit piece) state twin
      fun value otherValue =>
        Met typed target before (value.EndsWith target) (value.Accepts target typed.token.kind)
          [value] [otherValue] := by
  induction limit generalizing piece left otherLimit state twin with
  | zero => exact absurd enough (Nat.not_lt_zero _)
  | succ limit ih =>
    obtain ⟨otherLimit, rfl⟩ := Nat.exists_eq_succ_of_ne_zero (Nat.ne_zero_of_lt otherEnough)
    refine LeadBoth.bind (growing.ahead piece ahead) fun grown other after otherAfter step => ?_
    cases step with
    | stop =>
      rw [← ParseTree.tokensOfAll_singleton] at split
      exact .ahead split rfl notEnds notAccepts ahead
    | @larger kind rest last others _ _ met isPlain progress =>
      have endsOf : (ParseTree.wrapped kind piece (rest ++ [last])).EndsWith target →
          last.EndsWith target := .of_wrapped
      have acceptsOf (accepts : (ParseTree.wrapped kind piece (rest ++ [last])).Accepts target
          typed.token.kind) : AnyAccepts typed target (rest ++ [last]) := by
        obtain ⟨child, isChild, accepts⟩ := accepts.of_wrapped isPlain
        rcases List.mem_cons.mp isChild with isPiece | isRest
        · exact absurd (isPiece ▸ accepts) notAccepts
        · exact ⟨child, isRest, accepts⟩
      cases met with
      | ahead splitRest same notEndsRest notAcceptsRest aheadAfter =>
        subst same
        have consumed := List.length_pos_of_ne_nil progress
        rw [splitRest, List.length_append] at enough otherEnough
        refine ih (by omega) (by omega) ?_ aheadAfter (notEndsRest ∘ endsOf)
          (notAcceptsRest ∘ acceptsOf)
        rw [split, splitRest, ParseTree.tokens, List.append_assoc]
      | past behind ended accepted =>
        exact growing.growWithin_past limit otherLimit behind ended accepted endsOf acceptsOf

end Extends

/-- A piece that may end with the target is grown on. -/
theorem Met.grow {step : ParseTree → Parser (Option ParseTree)} {piece other : ParseTree}
    (met : Met typed target before (piece.EndsWith target)
      (piece.Accepts target typed.token.kind) [piece] [other] state twin)
    (growing : Extends typed target step) :
    LeadBoth (grow step piece) (grow step other) state twin fun value otherValue =>
      Met typed target before (value.EndsWith target) (value.Accepts target typed.token.kind)
        [value] [otherValue] := by
  unfold LeadBoth Parser.grow
  simp only [leads_bind, leads_get]
  cases met with
  | ahead split same notEnds notAccepts ahead =>
    cases same
    rw [ParseTree.tokensOfAll_singleton] at split
    refine growing.growWithin_ahead ?_ ?_ split ahead notEnds notAccepts
    · rw [ahead.left, List.length_append, List.length_cons]
      omega
    · rw [ahead.right, List.length_append, List.length_cons]
      omega
  | past behind ended accepted => exact growing.growWithin_past _ _ behind ended accepted id id

namespace Met

variable {ends accepts : Prop} {pieces others : List ParseTree}

/-- Pieces that accept the keyword need not end with the target. -/
theorem or_accepts (met : Met typed target before ends accepts pieces others state twin) :
    Met typed target before (ends ∨ accepts) accepts pieces others state twin := by
  cases met with
  | ahead split same notEnds notAccepts ahead =>
    exact .ahead split same (not_or.mpr ⟨notEnds, notAccepts⟩) notAccepts ahead
  | past behind ended accepted =>
    exact .past behind (fun either => either.elim ended fun accepts => .inr (accepted accepts))
      accepted

/-- More pieces come in front, which both runs had consumed. -/
theorem prepend {left : List Token} {front : List ParseTree}
    (met : Met typed target left ends accepts pieces others state twin)
    (split : before = ParseTree.tokensOfAll front ++ left) :
    Met typed target before ends accepts (front ++ pieces) (front ++ others) state twin := by
  cases met with
  | ahead splitLeft same notEnds notAccepts ahead =>
    refine .ahead ?_ (congrArg _ same) notEnds notAccepts ahead
    rw [split, splitLeft, ParseTree.tokensOfAll_append, List.append_assoc]
  | past behind ended accepted => exact .past behind ended accepted

end Met

/-! ### Repeating -/

/-- What one step of a repetition does, run where the target is ahead. -/
inductive Stepped (typed : TypedKeyword) (target : Token) (before : List Token)
    (reaches : ParseTree → Prop) (state twin : ParseState) :
    (new others : List ParseTree) → ParseState → ParseState → Prop
  | stop : Stepped typed target before reaches state twin [] [] state twin
  | pieces {first rest other others after otherAfter}
      (met : Met typed target before (∃ piece ∈ first :: rest, reaches piece)
        (AnyAccepts typed target (first :: rest)) (first :: rest) (other :: others) after otherAfter)
      (progress : ParseTree.tokensOfAll (first :: rest) ≠ [] ∨ after.Behind target) :
      Stepped typed target before reaches state twin (first :: rest) (other :: others) after
        otherAfter

/-- A step that is repeated meets the target. A piece that reaches the end of the cut text may leave
the keyword to the next step. -/
structure Repeats (typed : TypedKeyword) (target : Token) (step : Parser (List ParseTree))
    (reaches : ParseTree → Prop) : Prop where
  free : ∀ {piece}, target ∉ piece.tokens → ¬reaches piece
  agrees : ∀ {states trees}, KeptByParsing states trees →
    Agree states (List.Forall₂ trees) step step
  ahead : ∀ {before state twin}, state.Ahead typed target before twin →
    LeadBoth step step state twin (Stepped typed target before reaches state twin)
  takes : ∀ {piece}, reaches piece → ¬piece.Accepts target typed.token.kind →
    TakesKeyword typed step

theorem TakesKeyword.manyWithin {step : Parser (List ParseTree)} (takes : TakesKeyword typed step)
    [keeps : ∀ limit, KeepsHarmless typed (manyWithin step limit)] {limit : Nat}
    (positive : 0 < limit) : TakesKeyword typed (manyWithin step limit) := by
  intro state ready
  obtain ⟨limit, rfl⟩ := Nat.exists_eq_succ_of_ne_zero (Nat.ne_of_gt positive)
  refine (takes _ ready).bind fun pieces after harmless => ?_
  cases pieces with
  | nil => exact harmless
  | cons => exact ((keeps limit).leads harmless).bind fun _ _ => id

theorem TakesKeyword.many {step : Parser (List ParseTree)} (takes : TakesKeyword typed step)
    [keeps : ∀ limit, KeepsHarmless typed (Parser.manyWithin step limit)] :
    TakesKeyword typed (Parser.many step) := by
  intro state ready
  rw [Parser.many, leads_bind, leads_get, ready.rest]
  exact takes.manyWithin Nat.one_pos _ ready

namespace Repeats

variable {step : Parser (List ParseTree)} {reaches : ParseTree → Prop}

theorem keepsHarmless (repeats : Repeats typed target step reaches) (limit : Nat) :
    KeepsHarmless typed (manyWithin step limit) :=
  .ofAgree ((repeats.agrees (kept_harmless typed)).manyWithin limit)

theorem manyWithin_behind (repeats : Repeats typed target step reaches) (limit : Nat)
    (behind : state.Behind target) :
    (manyWithin step limit).Leads state fun more after =>
      (∀ piece ∈ more, ¬reaches piece) ∧ after.Behind target := by
  have agree := (repeats.agrees (kept_behind target)).manyWithin limit
  refine (agree.leads behind).mono fun more after kept => ⟨fun piece isPiece => ?_, kept.2⟩
  exact repeats.free fun isTarget => forall_left_of_forall₂ kept.1 piece isPiece target isTarget rfl

/-- Behind the target both runs repeat the step on. If a piece has reached the end of the cut text,
the second run takes the keyword. -/
theorem manyWithin_past (repeats : Repeats typed target step reaches) {limit otherLimit : Nat}
    (positive : 0 < otherLimit) {pieces : List ParseTree} (behind : state.Behind target)
    (ended : (∃ piece ∈ pieces, reaches piece) → twin.Ready typed ∨ twin.Harmless typed)
    (accepted : AnyAccepts typed target pieces → twin.Harmless typed) :
    LeadBoth (manyWithin step limit) (manyWithin step otherLimit) state twin
      fun more _ after otherAfter => (∀ piece ∈ more, ¬reaches piece) ∧ after.Behind target ∧
        ((∃ piece ∈ pieces, reaches piece) → otherAfter.Harmless typed) := by
  refine (repeats.manyWithin_behind limit behind).mono fun more after => ?_
  rintro ⟨notReached, behindAfter⟩
  refine ⟨notReached, behindAfter, ?_⟩
  rintro ⟨piece, isPiece, isReached⟩
  have keeps := repeats.keepsHarmless
  by_cases accepts : piece.Accepts target typed.token.kind
  · exact (keeps otherLimit).leads (accepted ⟨piece, isPiece, accepts⟩)
  · have takes : TakesKeyword typed step := repeats.takes isReached accepts
    rcases ended ⟨piece, isPiece, isReached⟩ with ready | harmless
    · exact takes.manyWithin positive _ ready
    · exact (keeps otherLimit).leads harmless

theorem manyWithin_ahead (repeats : Repeats typed target step reaches) {limit otherLimit : Nat}
    (enough : before.length < limit) (otherEnough : before.length + 1 < otherLimit)
    (ahead : state.Ahead typed target before twin) :
    LeadBoth (manyWithin step limit) (manyWithin step otherLimit) state twin fun new others =>
      Met typed target before False (∃ piece ∈ new, reaches piece) new others := by
  induction limit generalizing before otherLimit state twin with
  | zero => exact absurd enough (Nat.not_lt_zero _)
  | succ limit ih =>
    obtain ⟨otherLimit, rfl⟩ := Nat.exists_eq_succ_of_ne_zero (Nat.ne_zero_of_lt otherEnough)
    refine LeadBoth.bind (repeats.ahead ahead) fun new others after otherAfter step => ?_
    cases step with
    | stop => exact .ahead rfl rfl id nofun ahead
    | @pieces first rest other others _ _ met progress =>
      cases met with
      | @ahead left split same notReached _ aheadAfter =>
        have consumed := List.length_pos_of_ne_nil (progress.resolve_right aheadAfter.not_behind)
        rw [split, List.length_append] at enough otherEnough
        refine LeadBoth.bind (ih (by omega) (by omega) aheadAfter)
          fun more otherMore final otherFinal metMore => ?_
        rw [← same]
        refine (metMore.prepend split).recast rfl id id ?_
        rintro ⟨piece, isPiece, isReached⟩
        rcases List.mem_append.mp isPiece with isNew | isMore
        · exact absurd ⟨piece, isNew, isReached⟩ notReached
        · exact ⟨piece, isMore, isReached⟩
      | past behind ended accepted =>
        refine LeadBoth.bind (repeats.manyWithin_past (by omega) behind ended accepted) ?_
        rintro more otherMore final otherFinal ⟨notReached, behindFinal, taken⟩
        refine .past behindFinal nofun ?_
        rintro ⟨piece, isPiece, isReached⟩
        rcases List.mem_append.mp isPiece with isNew | isMore
        · exact taken ⟨piece, isNew, isReached⟩
        · exact absurd isReached (notReached piece isMore)

theorem many (repeats : Repeats typed target step reaches) :
    Couples typed target (many step) id (fun _ => False)
      (fun pieces => ∃ piece ∈ pieces, reaches piece) where
  free free := by
    refine ⟨id, ?_⟩
    rintro ⟨piece, isPiece, isReached⟩
    exact repeats.free (free piece isPiece) isReached
  agrees kept := kept.many (repeats.agrees kept)
  ahead {before state twin} ahead := by
    have enough : before.length < state.rest.length := by
      rw [ahead.left, List.length_append, List.length_cons]
      omega
    have otherEnough : before.length + 1 < twin.rest.length := by
      rw [ahead.right, List.length_append, List.length_cons, List.length_singleton]
      omega
    exact repeats.manyWithin_ahead enough otherEnough ahead

end Repeats

end Parser

end QueryLang
