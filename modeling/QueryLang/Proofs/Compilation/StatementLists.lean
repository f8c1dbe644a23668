import QueryLang.Proofs.Binding.StatementLists
import QueryLang.Proofs.Compilation.Names

/-!
# Which locals are repeated, and which code is unreachable

In a file that is bound, every list of statements is judged by itself, the file as well as each of
its blocks: each local is reported that has the name of an earlier one of its list, and of each list
the first statement that control does not reach.
-/

namespace QueryLang

theorem SemanticModel.bind_lists {model : SemanticModel} (unbound : model.bound = none)
    {list : StatementList} (isRead : StatementList.ofTree model.tree = .ok list)
    (isCancelled : Bool) :
    (model.bind isCancelled).Yields fun result =>
      (result.1.diagnostics.filter Diagnostic.isAboutList).Perm
        (list.nested.flatMap StatementList.reports) := by
  rw [SemanticModel.bind, unbound]
  refine .next fun before => ?_
  refine (Binding.Tells.collecting (bindFile_lists _ isRead)).yields.bind ?_
  rintro ⟨block, diagnostics⟩ ⟨reported, told, rfl⟩
  exact .next fun _ => .pure told.1

namespace StatementList

/-- Of what is reported about a list by itself, one message is for locals and the other for code
that is unreachable. -/
theorem filter_reports (list : StatementList) :
    list.reports.filter (·.code == DiagnosticMessage.duplicateLocal.code) =
        list.duplicateReports ∧
      list.reports.filter (·.code == DiagnosticMessage.unreachableCode.code) =
        list.unreachableReports := by
  have duplicate : ∀ diagnostic ∈ list.duplicateReports,
      diagnostic.code = DiagnosticMessage.duplicateLocal.code := by
    intro diagnostic isReport
    rcases List.mem_map.mp isReport with ⟨identifier, _, rfl⟩
    rfl
  have unreachable : ∀ diagnostic ∈ list.unreachableReports,
      diagnostic.code = DiagnosticMessage.unreachableCode.code := by
    intro diagnostic isReport
    rcases List.mem_map.mp isReport with ⟨statement, _, rfl⟩
    rfl
  rw [reports, List.filter_append, List.filter_append]
  constructor
  · rw [List.filter_eq_self.mpr fun own isOwn => beq_iff_eq.mpr (duplicate own isOwn),
      List.filter_eq_nil_iff.mpr fun own isOwn => by rw [unreachable own isOwn]; decide,
      List.append_nil]
  · rw [List.filter_eq_nil_iff.mpr fun own isOwn => by rw [duplicate own isOwn]; decide,
      List.filter_eq_self.mpr fun own isOwn => beq_iff_eq.mpr (unreachable own isOwn),
      List.nil_append]

/-- What is reported with one of the messages about lists is what the lists call for with it. -/
theorem filter_code {lists : List StatementList} {reported : Diagnostics} {code : Nat}
    {own : StatementList → Diagnostics} (isAbout : code ∈ listCodes)
    (told : (reported.filter Diagnostic.isAboutList).Perm (lists.flatMap reports))
    (isOwn : ∀ list : StatementList, list.reports.filter (·.code == code) = own list) :
    (reported.filter (·.code == code)).Perm (lists.flatMap own) := by
  have narrowed : (reported.filter Diagnostic.isAboutList).filter (·.code == code) =
      reported.filter (·.code == code) := by
    rw [List.filter_filter]
    refine List.filter_congr fun diagnostic _ => ?_
    by_cases isCode : diagnostic.code = code
    · simp [Diagnostic.isAboutList, isCode, isAbout]
    · simp [isCode]
  have filtered := told.filter (·.code == code)
  rwa [narrowed, List.filter_flatMap, funext isOwn] at filtered

end StatementList

namespace Compilation

/-- A file is bound, and then it is reported, up to order, just this about the lists of statements,
which are the file and each of its blocks: of every list the locals that have the name of an earlier
one of that list, and of every list the statement right after the first that control does not come
past, which is there just if a statement before the last is such a one. -/
theorem SetUp.lists_reported {compilation : Compilation} (setUp : compilation.SetUp)
    (provides : compilation.Provides (· < compilation.types.size)) {file : FileId}
    {source : SourceFile} {model : SemanticModel}
    (isModel : compilation.modelOf file source = .ok model) :
    ∃ list unit bound after, StatementList.ofTree model.tree = .ok list ∧
      StatementList.AreListsOf list.nested model.tree
        (Diagnostics.hasErrors model.parseDiagnostics = true) ∧
      compilation.run (model.bind false) = (.ok ((unit, bound), []), after) ∧
      (unit.diagnostics.filter (·.code == DiagnosticMessage.duplicateLocal.code)).Perm
        (list.nested.flatMap StatementList.duplicateReports) ∧
      (unit.diagnostics.filter (·.code == DiagnosticMessage.unreachableCode.code)).Perm
        (list.nested.flatMap StatementList.unreachableReports) ∧
      ∀ inner ∈ list.nested, (Statement.firstUnreachable? inner.statements).isSome ↔
        ∃ statement ∈ inner.statements.dropLast, statement.isTerminal = true := by
  rcases setUp.runs_bind provides isModel with ⟨unit, bound, after, ran⟩
  rcases modelOf_gives isModel with ⟨unbound, _, wellFormed⟩
  rcases StatementList.ofTree_gives wellFormed with ⟨list, isRead, isRoot, isAt⟩
  have told := (SemanticModel.bind_lists unbound isRead false).of_run ran
  have areLists := StatementList.nested_areListsOf wellFormed isRoot isAt
    (StatementList.ofTree_sites _ list isRead)
  exact ⟨list, unit, bound, after, isRead, areLists, ran,
    StatementList.filter_code (by decide) told fun list => list.filter_reports.1,
    StatementList.filter_code (by decide) told fun list => list.filter_reports.2,
    fun inner _ => Statement.firstUnreachable?_isSome_iff inner.statements⟩

/-- A file with a block and a loop, in all of which locals are repeated or lack a name, and
statements follow others that control does not come past. -/
theorem lists_reported_nested :
    let text := "var x = 1; \x7b var x = 2; var x = 3; return x; x; \x7d do \x7b yield break; " ++
      "var = 4; var = 5; x; \x7d while true; var x = x; \x7b return x; \x7d yield break; return; x;"
    ∃ compilation model,
      ofOptions ⟨[], none, [], by decide⟩ = .ok compilation ∧
      compilation.modelOf 0 ⟨"main", ⟨text.toList, by decide +kernel⟩⟩ = .ok model ∧
      ∃ list unit bound after, StatementList.ofTree model.tree = .ok list ∧
        compilation.run (model.bind false) = (.ok ((unit, bound), []), after) ∧
        (unit.diagnostics.filter (·.code == DiagnosticMessage.duplicateLocal.code)).Perm
          (list.nested.flatMap StatementList.duplicateReports) ∧
        (unit.diagnostics.filter (·.code == DiagnosticMessage.unreachableCode.code)).Perm
          (list.nested.flatMap StatementList.unreachableReports) ∧
        list.nested.map (·.duplicateReports.length) = [1, 1, 0, 0] ∧
        list.nested.map (·.unreachableReports.length) = [1, 1, 1, 0] := by
  intro text
  let source : SourceFile := ⟨"main", ⟨text.toList, by decide +kernel⟩⟩
  have isMade : (ofOptions ⟨[], none, [], by decide⟩).isOk := by decide +kernel
  have isScanned : (scanText 0 source.text).isOk := by decide +kernel
  have counts :
      ∀ compilation ∈ (ofOptions ⟨[], none, [], by decide⟩).toOption,
      ∀ model ∈ (compilation.modelOf 0 source).toOption,
      ∀ list ∈ (StatementList.ofTree model.tree).toOption,
        list.nested.map (·.duplicateReports.length) = [1, 1, 0, 0] ∧
          list.nested.map (·.unreachableReports.length) = [1, 1, 1, 0] := by
    decide +kernel
  rcases Checked.exists_ok_of_isOk isMade with ⟨compilation, made⟩
  rcases Checked.exists_ok_of_isOk isScanned with ⟨scanned, scans⟩
  have provides := (ofOptions_gives made).2.mono fun _ has => has.1
  rcases modelOf_eq_ok compilation scans with ⟨model, isModel⟩
  rcases SetUp.lists_reported (.ofOptions made) provides isModel with
    ⟨list, unit, bound, after, isRead, _, ran, duplicates, unreachables, _⟩
  rcases counts compilation (by rw [made]; rfl) model (by rw [isModel]; rfl) list
    (by rw [isRead]; rfl) with ⟨repeated, unreached⟩
  exact ⟨compilation, model, made, isModel, list, unit, bound, after, isRead, ran, duplicates,
    unreachables, repeated, unreached⟩

end Compilation

end QueryLang
