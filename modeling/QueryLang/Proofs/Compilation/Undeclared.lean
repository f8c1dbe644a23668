import QueryLang.Proofs.Binding.Undeclared
import QueryLang.Proofs.Compilation.Names

/-!
# Which names are said not to exist

In a file that is bound, it is said of a name that it does not exist where neither the file nor the
host declares it, and also where the host has several good answers for it.
-/

namespace QueryLang

/-- No two values of the host have one name. -/
def HostUnambiguous (globals : List Symbol) : Prop :=
  ∀ name, (globals.filter fun symbol =>
    symbol.name == name && !symbol.kind.isTypeLike).length ≤ 1

namespace NameUse

variable {globals : List Symbol}

theorem isAmbiguous_eq_false (unambiguous : HostUnambiguous globals) (use : NameUse) :
    use.isAmbiguous globals = false := by
  have atMost : (use.hostAnswers globals).length ≤ 1 := by
    refine Nat.le_trans (List.Sublist.length_le ?_) (unambiguous use.name)
    refine List.monotone_filter_right globals fun symbol isAnswer => ?_
    rw [Bool.and_eq_true] at isAnswer ⊢
    refine ⟨isAnswer.1, ?_⟩
    have isGood := isAnswer.2
    cases kindEq : symbol.kind <;> simp_all [SymbolKind.isTypeLike, SymbolKind.isInvocable]
  simp [isAmbiguous, Nat.not_lt.mpr atMost]

/-- All that is reported about what is in scope is that names do not exist. -/
theorem filter_of_isAboutScope {reported : Diagnostics} {uses : List NameUse}
    (told : reported.filter Diagnostic.isAboutScope = reports globals uses) :
    reported.filter (·.code == DiagnosticMessage.undeclaredName.code) = reports globals uses ∧
      ∀ diagnostic ∈ reported,
        diagnostic.code ≠ DiagnosticMessage.conclusionOutOfScope.code := by
  have ofCode : ∀ diagnostic ∈ reports globals uses,
      diagnostic.code = DiagnosticMessage.undeclaredName.code := by
    intro diagnostic isReport
    rcases List.mem_map.mp isReport with ⟨use, _, rfl⟩
    rfl
  constructor
  · have narrowed : (reported.filter Diagnostic.isAboutScope).filter
        (·.code == DiagnosticMessage.undeclaredName.code) =
          reported.filter (·.code == DiagnosticMessage.undeclaredName.code) := by
      rw [List.filter_filter]
      apply List.filter_congr
      intro diagnostic _
      by_cases isCode : diagnostic.code = DiagnosticMessage.undeclaredName.code
      · simp [Diagnostic.isAboutScope, scopeCodes, isCode]
      · simp [isCode]
    rw [← narrowed, told]
    exact List.filter_eq_self.mpr fun diagnostic isReport => beq_iff_eq.mpr (ofCode _ isReport)
  · intro diagnostic isReported isCode
    have isAbout : diagnostic ∈ reported.filter Diagnostic.isAboutScope :=
      List.mem_filter.mpr ⟨isReported, by simp [Diagnostic.isAboutScope, scopeCodes, isCode]⟩
    rw [told] at isAbout
    cases isCode.symm.trans (ofCode diagnostic isAbout)

end NameUse

theorem SemanticModel.bind_tells {model : SemanticModel} {globals : List Symbol}
    (kinds : HostKinds globals) (unbound : model.bound = none)
    (isRoot : model.binder.scopes = [.global globals]) {list : StatementList}
    (isRead : StatementList.ofTree model.tree = .ok list) :
    (model.bind false).Yields fun result =>
      result.1.diagnostics.filter Diagnostic.isAboutScope =
        NameUse.reports globals list.uses := by
  have sees : Binder.Sees { model.binder with isCancelled := false } globals [] := by
    refine ⟨?_, rfl⟩
    rw [isRoot]
    exact .host
  rw [SemanticModel.bind, unbound]
  refine .next fun before => ?_
  refine (Binding.Tells.collecting (bindFile_tells kinds sees isRead)).yields.bind ?_
  rintro ⟨block, diagnostics⟩ ⟨reported, told, rfl⟩
  exact .next fun _ => .pure told.1

namespace Compilation

/-- A file is bound, and then the names that are said not to exist are, in order, those of its uses
that neither the file nor the host declares, and those for which the host has several good answers.
If no two values of the host have one name, they are those that nothing declares. -/
theorem SetUp.undeclared_reported {compilation : Compilation} (setUp : compilation.SetUp)
    (provides : compilation.Provides (· < compilation.types.size)) {file : FileId}
    {source : SourceFile} {model : SemanticModel}
    (isModel : compilation.modelOf file source = .ok model) :
    ∃ list unit bound after, StatementList.ofTree model.tree = .ok list ∧
      compilation.run (model.bind false) = (.ok ((unit, bound), []), after) ∧
      unit.diagnostics.filter (·.code == DiagnosticMessage.undeclaredName.code) =
        (list.uses.filter fun use => use.isUndeclared compilation.globals ||
          use.isAmbiguous compilation.globals).map NameUse.report ∧
      (HostUnambiguous compilation.globals →
        unit.diagnostics.filter (·.code == DiagnosticMessage.undeclaredName.code) =
          (list.uses.filter (·.isUndeclared compilation.globals)).map NameUse.report) := by
  rcases setUp.runs_bind provides isModel with ⟨unit, bound, after, ran⟩
  rcases modelOf_gives isModel with ⟨unbound, isRoot, wellFormed⟩
  rcases StatementList.ofTree_gives wellFormed with ⟨list, isRead, _⟩
  have told := (SemanticModel.bind_tells setUp.sound.kinds unbound
    (congrArg Binder.scopes isRoot) isRead).of_run ran
  have reported := (NameUse.filter_of_isAboutScope told).1
  refine ⟨list, unit, bound, after, isRead, ran, reported, fun unambiguous => ?_⟩
  rw [reported, NameUse.reports]
  congr 1
  apply List.filter_congr
  intro use _
  rw [NameUse.fails, NameUse.isAmbiguous_eq_false unambiguous, Bool.or_false]

/-- A file that uses names in a query, in its conclusion and as callees. -/
theorem undeclared_reported_conclusion :
    let text := "var n = m; from m in numbers where nope(m) select n yield into r do r + m;"
    ∃ compilation model,
      ofOptions ⟨["queryConclusions"], none, [("numbers", "seq<int>")], by decide⟩ =
        .ok compilation ∧
      compilation.modelOf 0 ⟨"main", ⟨text.toList, by decide +kernel⟩⟩ = .ok model ∧
      ∃ list unit bound after, StatementList.ofTree model.tree = .ok list ∧
        compilation.run (model.bind false) = (.ok ((unit, bound), []), after) ∧
        unit.diagnostics.filter (·.code == DiagnosticMessage.undeclaredName.code) =
          (list.uses.filter fun use => use.isUndeclared compilation.globals ||
            use.isAmbiguous compilation.globals).map NameUse.report := by
  intro text
  let source : SourceFile := ⟨"main", ⟨text.toList, by decide +kernel⟩⟩
  have isMade :
      (ofOptions ⟨["queryConclusions"], none, [("numbers", "seq<int>")], by decide⟩).isOk := by
    decide +kernel
  have isScanned : (scanText 0 source.text).isOk := by decide +kernel
  rcases Checked.exists_ok_of_isOk isMade with ⟨compilation, made⟩
  rcases Checked.exists_ok_of_isOk isScanned with ⟨scanned, scans⟩
  have provides := (ofOptions_gives made).2.mono fun _ has => has.1
  rcases modelOf_eq_ok compilation scans with ⟨model, isModel⟩
  rcases SetUp.undeclared_reported (.ofOptions made) provides isModel with
    ⟨list, unit, bound, after, isRead, ran, reported, _⟩
  exact ⟨compilation, model, made, isModel, list, unit, bound, after, isRead, ran, reported⟩

/-- Two globals of the host have one name. The name is said not to exist, although the host declares
it. -/
theorem ambiguous_reported :
    let text := "var x = a;"
    ∃ start model list unit bound after use,
      ofOptions .default = .ok start ∧
      let compilation := (start.declareGlobal "a" .int).declareGlobal "a" .string
      compilation.modelOf 0 ⟨"main", ⟨text.toList, by decide +kernel⟩⟩ = .ok model ∧
      StatementList.ofTree model.tree = .ok list ∧
      compilation.run (model.bind false) = (.ok ((unit, bound), []), after) ∧
      use ∈ list.uses ∧ (∃ symbol ∈ compilation.globals, symbol.name = use.name) ∧
      unit.diagnostics = [use.report] := by
  intro text
  let source : SourceFile := ⟨"main", ⟨text.toList, by decide +kernel⟩⟩
  let twice (start : Compilation) : Compilation :=
    (start.declareGlobal "a" .int).declareGlobal "a" .string
  have isMade : (ofOptions .default).isOk := by decide +kernel
  have isScanned : (scanText 0 source.text).isOk := by decide +kernel
  have isReported :
      ∀ start ∈ (ofOptions .default).toOption,
      ∀ model ∈ ((twice start).modelOf 0 source).toOption,
      ∀ list ∈ (StatementList.ofTree model.tree).toOption,
      ∀ result ∈ ((twice start).run (model.bind false)).1.toOption,
        ∃ use ∈ list.uses, (∃ symbol ∈ (twice start).globals, symbol.name = use.name) ∧
          result.1.1.diagnostics = [use.report] := by
    decide +kernel
  rcases Checked.exists_ok_of_isOk isMade with ⟨start, made⟩
  rcases Checked.exists_ok_of_isOk isScanned with ⟨scanned, scans⟩
  have types := (ofOptions_gives made).1.types
  have isInt : start.types.Has True .int := types.int_has
  have isString : start.types.Has True .string := types.string_has
  have setUp : (twice start).SetUp :=
    ((SetUp.ofOptions made).declareGlobal "a" .int).declareGlobal "a" .string
  have provides : (twice start).Provides (· < start.types.size) :=
    (((ofOptions_gives made).2.declareGlobal "a" isInt).declareGlobal "a" isString).mono
      fun _ has => has.1
  rcases setUp.runs provides scans with ⟨model, unit, bound, after, isModel, ran⟩
  rcases StatementList.ofTree_gives (modelOf_gives isModel).2.2 with ⟨list, isRead, _⟩
  rcases isReported start (by rw [made]; rfl) model (by rw [isModel]; rfl) list
    (by rw [isRead]; rfl) ((unit, bound), []) (by rw [ran]; rfl) with
      ⟨use, isUse, isDeclared, reported⟩
  exact ⟨start, model, list, unit, bound, after, use, made, isModel, isRead, ran, isUse,
    isDeclared, reported⟩

end Compilation

end QueryLang
