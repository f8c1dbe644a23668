import QueryLang.Proofs.Compilation.Asking
import QueryLang.Proofs.Compilation.Deferred

/-!
# Binding on request

What is bound on request is bound once: the body of a conclusion that is kept for later, and a file
that is asked about. Until then a cancelled request is refused and leaves nothing behind. What is
given later does not depend on the order of the requests, or on which of them were cancelled.
-/

namespace QueryLang

namespace Compilation

variable {base : Compilation} {file : FileId} {source : SourceFile} {model : SemanticModel}

/-- A body of a conclusion that is kept for later is bound once, whatever requests come and whatever
else is bound in between. After any questions, a model of a file answers as a new one. -/
theorem SetUp.bound_on_request (setUp : base.SetUp)
    (provides : base.Provides (· < base.types.size))
    (isModel : base.modelOf file source = .ok model) :
    (∀ origin body exchanges last, Later base origin → body.IsKept model.tree origin.types →
      Deferral.History ⟨body, origin⟩ exchanges last →
        Deferral.BindsOnce body exchanges last.body) ∧
    ∀ current compilation, Session model base current compilation →
      AnswersAsNew base compilation model current := by
  have settled : base.Settled := ⟨setUp.sound, setUp.hosted, provides⟩
  constructor
  · intro origin body exchanges last fromBase isKept history
    rcases isKept.bindable (modelOf_gives isModel).2.2 with ⟨unbound, bindable⟩
    exact history.bindsOnce unbound (settled.of_later fromBase) bindable
  · exact fun current compilation session => settled.answersAsNew isModel session

/-- The body of a conclusion is kept for later, and its file is asked for what was reported, by one
request that is cancelled and by one that is not. -/
theorem bound_on_request_conclusion :
    let text := "var q = from n in numbers select n yield into r do r + missing;"
    let declared := Symbol.plain 3 "r" none [] .queryConclusionVariable
    ∃ compilation model body,
      ofOptions ⟨["queryConclusions"], none, [("numbers", "seq<int>")], by decide⟩ =
        .ok compilation ∧
      compilation.modelOf 0 ⟨"main", ⟨text.toList, by decide +kernel⟩⟩ = .ok model ∧
      DeferredBody.ofNode model.tree 8 declared 5 model.binder = .ok body ∧
      (∀ requests, ∃ exchanges last, exchanges.map (·.request) = requests ∧
        Deferral.History ⟨body, compilation⟩ exchanges last ∧
        Deferral.BindsOnce body exchanges last.body) ∧
      ∀ isCancelled, AnswersAsNew compilation
        (compilation.ask model .diagnostics isCancelled).2.2 model
        (compilation.ask model .diagnostics isCancelled).2.1 := by
  intro text declared
  let source : SourceFile := ⟨"main", ⟨text.toList, by decide +kernel⟩⟩
  have isMade :
      (ofOptions ⟨["queryConclusions"], none, [("numbers", "seq<int>")], by decide⟩).isOk := by
    decide +kernel
  have isScanned : (scanText 0 source.text).isOk := by decide +kernel
  have isConclusion :
      ∀ compilation ∈
        (ofOptions ⟨["queryConclusions"], none, [("numbers", "seq<int>")], by decide⟩).toOption,
      ∀ model ∈ (compilation.modelOf 0 source).toOption,
        5 < compilation.types.size ∧ model.tree.kind 8 = .ok .queryConclusion ∧
          (DeferredBody.ofNode model.tree 8 declared 5 model.binder).bind (·.parameterName 0) =
            .ok declared.name := by
    decide +kernel
  rcases Checked.exists_ok_of_isOk isMade with ⟨compilation, made⟩
  rcases Checked.exists_ok_of_isOk isScanned with ⟨scanned, scans⟩
  rcases modelOf_eq_ok compilation scans with ⟨model, isModel⟩
  rcases isConclusion compilation (by rw [made]; rfl) model (by rw [isModel]; rfl) with
    ⟨issued, kindEq, nameEq⟩
  rcases Checked.bind_eq_ok_iff.mp nameEq with ⟨body, isBody, named⟩
  have setUp : compilation.SetUp := .ofOptions made
  have provides := (ofOptions_gives made).2.mono fun _ has => has.1
  have settled : compilation.Settled := ⟨setUp.sound, setUp.hosted, provides⟩
  rcases SetUp.bound_on_request setUp provides isModel with ⟨bodies, models⟩
  have isKept : body.IsKept model.tree compilation.types := by
    refine .ofNode kindEq isBody named issued ?_
    have footing : Footing True compilation.rootBinder compilation.types False :=
      footing_of_provides settled.sound.types settled.sound.noLambdas provides.has False.elim
    rw [(modelOf_gives isModel).2.1]
    exact footing.binder.scopes
  refine ⟨compilation, model, body, made, isModel, isBody, fun requests => ?_, fun isCancelled => ?_⟩
  · rcases Deferral.exists_history ⟨body, compilation⟩ requests with
      ⟨exchanges, last, history, requestsEq⟩
    exact ⟨exchanges, last, requestsEq, history,
      bodies compilation body exchanges last settled.later_self isKept history⟩
  · exact models _ _ (.ask .start .diagnostics isCancelled)

end Compilation

end QueryLang
