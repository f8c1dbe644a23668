import QueryLang.Proofs.Compilation.Answers
import QueryLang.Proofs.Compilation.Beginning

/-!
# Questions over time

Questions about one file can come in any order, some of them cancelled, and other files can be bound
in between. A question is refused exactly when its token is cancelled and the file is not bound yet,
and then nothing changes. All other questions have the answer that a new model of the file would
give; only what the symbols of the file are numbered by is different there, because numbers are given
out once.
-/

namespace QueryLang

/-- The number of a symbol, and of the symbol in its place once a file is bound again. Binding the
file gave out the numbers from `first` up to `last`, and gives out those from `next` on when it is
done again. All other numbers given out so far stay. -/
inductive Renumbered (first last next : Nat) : Nat → Nat → Prop
  | again {number : Nat} (isOwn : first ≤ number) (isBelow : number < last) :
      Renumbered first last next number (next + (number - first))
  | kept {number : Nat} (isOther : number < first ∨ last ≤ number) (isGiven : number < next) :
      Renumbered first last next number number

theorem Renumbered.biUnique (first last next : Nat) :
    Relator.BiUnique (Renumbered first last next) := by
  constructor
  · rintro number other _ (⟨isOwn, isBelow⟩ | ⟨isOther, isGiven⟩) related
    · generalize resultEq : next + (number - first) = result at related
      cases related <;> omega
    · cases related <;> omega
  · rintro number _ _ (⟨isOwn, isBelow⟩ | ⟨isOther, isGiven⟩) (⟨_, _⟩ | ⟨_, _⟩)
    all_goals omega

/-- Every number that was given out stands for one. -/
theorem Renumbered.exists_renumbered (first last : Nat) {next number : Nat} (isGiven : number < next) :
    ∃ other, Renumbered first last next number other := by
  by_cases isOwn : first ≤ number ∧ number < last
  · exact ⟨_, .again isOwn.1 isOwn.2⟩
  · exact ⟨number, .kept (by omega) isGiven⟩

/-- Numbers that belong together when a file is bound early, and again later. -/
theorem Renumbered.of_numbers {first last next end' : Nat} (isLater : first ≤ next)
    {number other : Nat} (numbers : NumbersBelow (SameNumber first first next) last end' number other) :
    Renumbered first last next number other := by
  rcases numbers with ⟨⟨rfl, isBelow⟩ | ⟨count, rfl, rfl⟩, isGiven, _⟩
  · exact .kept (.inl isBelow) (Nat.lt_of_lt_of_le isBelow isLater)
  · have again : Renumbered first last next (first + count) (next + (first + count - first)) :=
      .again (Nat.le_add_right first count) isGiven
    rwa [Nat.add_sub_cancel_left] at again

namespace Compilation

variable {base origin compilation after : Compilation} {file : FileId} {source : SourceFile}
  {model current : SemanticModel} {unit : BoundUnit}

/-! ### One question -/

theorem ask_of_bound (isBound : current.bound = some unit) (compilation : Compilation)
    (question : Question) (isCancelled : Bool) :
    compilation.ask current question isCancelled =
      (current.answer unit question, current, compilation) := by
  have ran : compilation.run (current.bind isCancelled) =
      (.ok ((unit, current), []), compilation) := by
    rw [SemanticModel.bind, isBound]
    rfl
  rw [ask, ran]

theorem ask_of_cancelled (unbound : current.bound = none) (compilation : Compilation)
    (question : Question) :
    compilation.ask current question true = (.error .cancelled, current, compilation) := by
  have ran : compilation.run (current.bind true) = (.error .cancelled, compilation) := by
    rw [SemanticModel.bind, unbound]
    rfl
  rw [ask, ran]

theorem ask_of_run {bound : SemanticModel} {isCancelled : Bool} {reported : Diagnostics}
    (ran : compilation.run (current.bind isCancelled) = (.ok ((unit, bound), reported), after))
    (question : Question) :
    compilation.ask current question isCancelled = (bound.answer unit question, bound, after) := by
  rw [ask, ran]

/-! ### Questions one after the other -/

/-- What a model and the compilation that it belongs to can become: questions are asked, and other
files are bound in between. -/
inductive Session (model : SemanticModel) (base : Compilation) :
    SemanticModel → Compilation → Prop
  | start : Session model base model base
  | ask {current : SemanticModel} {compilation : Compilation}
      (session : Session model base current compilation) (question : Question)
      (isCancelled : Bool) :
      Session model base (compilation.ask current question isCancelled).2.1
        (compilation.ask current question isCancelled).2.2
  | others {current : SemanticModel} {compilation later : Compilation}
      (session : Session model base current compilation) (grows : Later compilation later) :
      Session model base current later

/-- What becomes of questions to a model that was new in a compilation. It refuses those whose token
is cancelled before it is bound, and then nothing changes. It gives the others the answer that a new
model gives to the same question. Once it is bound, no question changes anything. -/
structure AnswersAsNew (base compilation : Compilation) (model current : SemanticModel) : Prop where
  refused : current.bound = none → ∀ question,
    compilation.ask current question true = (.error .cancelled, current, compilation)
  kept : current.bound.isSome → ∀ question isCancelled,
    (compilation.ask current question isCancelled).2 = (current, compilation)
  answered : ∃ first last, base.nextSymbol ≤ first ∧ first ≤ last ∧
    ∀ question isCancelled, ¬(current.bound = none ∧ isCancelled = true) →
      ∃ answer, (compilation.ask current question isCancelled).1 = .ok answer ∧
        ((∀ number ∈ question.numbers, number < compilation.nextSymbol) →
          ∃ asked, question.Alike Eq (Renumbered first last compilation.nextSymbol) asked) ∧
        ∀ asked, question.Alike Eq (Renumbered first last compilation.nextSymbol) asked →
          ∃ own, (compilation.ask model asked false).1 = .ok own ∧
            answer.Alike Eq (Renumbered first last compilation.nextSymbol) own

/-- How a model stands after questions: it is still new, or it was bound at some time. -/
inductive Standing (model : SemanticModel) (base : Compilation) :
    SemanticModel → Compilation → Prop
  | unbound {compilation : Compilation} (fromBase : Later base compilation) :
      Standing model base model compilation
  | bound {origin after compilation : Compilation} {unit : BoundUnit}
      (fromBase : Later base origin)
      (ran : origin.run (model.bind false) =
        (.ok ((unit, { model with bound := some unit }), []), after))
      (fromOrigin : Later origin after) (further : Later after compilation) :
      Standing model base { model with bound := some unit } compilation

namespace Settled

variable (settled : base.Settled)

include settled

/-- Binding a file gives a compilation in which more files were bound. -/
theorem later_of_bind (fromBase : Later base origin)
    (isModel : base.modelOf file source = .ok model) :
    ∃ (unit : BoundUnit) (after : Compilation),
      origin.run (model.bind false) =
        (.ok ((unit, { model with bound := some unit }), []), after) ∧
      Later origin after := by
  rcases settled.bind_alike fromBase fromBase isModel with
    ⟨unit, _, after, _, ran, _, _, _, further, _⟩
  exact ⟨unit, after, ran, further⟩

/-- A question leaves a model in one of the two ways. -/
theorem standing_ask (isModel : base.modelOf file source = .ok model)
    (standing : Standing model base current compilation) (question : Question)
    (isCancelled : Bool) :
    Standing model base (compilation.ask current question isCancelled).2.1
      (compilation.ask current question isCancelled).2.2 := by
  cases standing with
  | bound fromBase ran fromOrigin further =>
      rw [ask_of_bound rfl]
      exact .bound fromBase ran fromOrigin further
  | unbound fromBase =>
      cases isCancelled with
      | true =>
          rw [ask_of_cancelled (modelOf_gives isModel).1]
          exact .unbound fromBase
      | false =>
          rcases settled.later_of_bind fromBase isModel with ⟨unit, after, ran, further⟩
          rw [ask_of_run ran]
          exact .bound fromBase ran further
            ((settled.of_later (fromBase.trans further)).later_self)

theorem standing_of_session (isModel : base.modelOf file source = .ok model)
    (session : Session model base current compilation) :
    Standing model base current compilation := by
  induction session with
  | start => exact .unbound settled.later_self
  | ask _ question isCancelled ih => exact settled.standing_ask isModel ih question isCancelled
  | others _ grows ih =>
      cases ih with
      | unbound fromBase => exact .unbound (fromBase.trans grows)
      | bound fromBase ran fromOrigin further =>
          exact .bound fromBase ran fromOrigin (further.trans grows)

section Again

variable (fromBase : Later base origin) (isModel : base.modelOf file source = .ok model)
  (ran : origin.run (model.bind false) =
    (.ok ((unit, { model with bound := some unit }), []), after))
  (fromOrigin : Later origin after) (now : compilation = origin ∨ Later after compilation)

include fromBase isModel ran

/-- A file that is bound can be relied on, whenever it is bound. -/
theorem reliable_of_run : unit.Reliable model.tree after.types False := by
  rcases settled.runs_bind fromBase isModel with ⟨_, _, sameRan, reliable⟩
  cases ran.symm.trans sameRan
  exact reliable

include fromOrigin now

/-- A file that was bound is bound to the same once more, both right away and after more was
bound. -/
theorem bind_again : ∃ (other : BoundUnit) (again : Compilation),
    compilation.run (model.bind false) =
      (.ok ((other, { model with bound := some other }), []), again) ∧
    unit.Alike Eq (Renumbered origin.nextSymbol after.nextSymbol compilation.nextSymbol) other ∧
    other.Reliable model.tree again.types False := by
  have atOrigin := settled.of_later fromBase
  have isOriginModel := (fromBase.modelOf_eq file source).trans isModel
  have sinceOrigin : Later origin compilation := by
    rcases now with rfl | further
    · exact atOrigin.later_self
    · exact fromOrigin.trans further
  rcases atOrigin.bind_alike atOrigin.later_self sinceOrigin isOriginModel with
    ⟨_, other, _, again, sameRan, ranAgain, units, _, _, furtherAgain⟩
  cases ran.symm.trans sameRan
  -- The types of the first binding keep their indices, so the second finds them there.
  have grows : after.types.Extends again.types := by
    rcases now with rfl | further
    · cases ran.symm.trans ranAgain
      exact .refl _
    · exact further.types.trans furtherAgain.types
  refine ⟨other, again, ranAgain, ?_, ?_⟩
  · exact units.mono (fun _ _ matching => matching.eq_of_extends grows furtherAgain.interned)
      (fun _ _ numbers => .of_numbers sinceOrigin.nextSymbol numbers)
  · exact atOrigin.reliable_of_run sinceOrigin isOriginModel ranAgain

/-- Every question about a file that was bound has an answer, and a new model of the file gives the
same one, both right away and after more was bound. -/
theorem answers_again (question : Question) :
    ∃ answer, SemanticModel.answer { model with bound := some unit } unit question = .ok answer ∧
      ((∀ number ∈ question.numbers, number < compilation.nextSymbol) →
        ∃ asked, question.Alike Eq
          (Renumbered origin.nextSymbol after.nextSymbol compilation.nextSymbol) asked) ∧
      ∀ asked, question.Alike Eq
        (Renumbered origin.nextSymbol after.nextSymbol compilation.nextSymbol) asked →
          ∃ own, (compilation.ask model asked false).1 = .ok own ∧ answer.Alike Eq
            (Renumbered origin.nextSymbol after.nextSymbol compilation.nextSymbol) own := by
  rcases settled.bind_again fromBase isModel ran fromOrigin now with
    ⟨other, again, ranAgain, alike, otherReliable⟩
  have reliable := settled.reliable_of_run fromBase isModel ran
  rcases modelOf_gives isModel with ⟨_, _, wellFormed⟩
  rcases SemanticModel.answer_gives wellFormed reliable question with ⟨answer, answers, _⟩
  refine ⟨answer, answers, fun areGiven => ?_, fun asked questions => ?_⟩
  · exact Question.exists_alike fun number isOwn =>
      Renumbered.exists_renumbered _ _ (areGiven number isOwn)
  · rcases SemanticModel.answer_gives wellFormed otherReliable asked with ⟨own, ownAnswers, _⟩
    refine ⟨own, by rw [ask_of_run ranAgain]; exact ownAnswers, ?_⟩
    have uniqueTypes : Relator.BiUnique (Eq : TypeId → TypeId → Prop) :=
      ⟨fun _ _ _ first second => first.trans second.symm,
        fun _ _ _ first second => first.symm.trans second⟩
    exact SemanticModel.answer_alike uniqueTypes (Renumbered.biUnique _ _ _) rfl rfl alike
      questions answers ownAnswers

end Again

/-- After any questions, a model answers as a new one. -/
theorem answersAsNew (isModel : base.modelOf file source = .ok model)
    (session : Session model base current compilation) :
    AnswersAsNew base compilation model current := by
  refine ⟨fun unbound question => ask_of_cancelled unbound compilation question, ?_, ?_⟩
  · intro isBound question isCancelled
    rcases Option.isSome_iff_exists.mp isBound with ⟨unit, boundEq⟩
    rw [ask_of_bound boundEq]
  · cases settled.standing_of_session isModel session with
    | unbound fromBase =>
        rcases settled.later_of_bind fromBase isModel with ⟨unit, after, ran, further⟩
        refine ⟨compilation.nextSymbol, after.nextSymbol, fromBase.nextSymbol,
          further.nextSymbol, ?_⟩
        intro question isCancelled served
        cases isCancelled with
        | true => exact absurd ⟨(modelOf_gives isModel).1, rfl⟩ served
        | false =>
            rw [ask_of_run ran]
            exact settled.answers_again fromBase isModel ran further (.inl rfl) question
    | @bound origin after _ unit fromBase ran fromOrigin further =>
        refine ⟨origin.nextSymbol, after.nextSymbol, fromBase.nextSymbol,
          fromOrigin.nextSymbol, ?_⟩
        intro question isCancelled _
        rw [ask_of_bound rfl]
        exact settled.answers_again fromBase isModel ran fromOrigin (.inr further) question

end Settled

end Compilation

end QueryLang
