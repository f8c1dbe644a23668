import QueryLang.Proofs.Compilation.Beginning

/-!
# Files are independent

Files share the types and the numbers of their compilation, but what is reported about a file does
not depend on which files were bound before it. So the order in which files are bound does not
matter to what compiling reports: the reports of each file on its own, one file after the other.
-/

namespace QueryLang

namespace Compilation

/-- The reports up to the limit that the options set. -/
def limited (compilation : Compilation) (reports : Diagnostics) : Diagnostics :=
  match compilation.options.maxDiagnostics with
  | some limit => reports.take limit
  | none => reports

/-- Parses and binds a file, and gives all that its model reports. -/
def report (compilation : Compilation) (file : FileId) (source : SourceFile) :
    Checked (Diagnostics × Compilation) := do
  let model ← compilation.modelOf file source
  let (result, after) := compilation.run (model.bind false)
  let ((unit, bound), _) ← result
  return (bound.diagnostics unit, after)

/-- What is reported about the file with a number when it is bound in a compilation as it is. -/
def ownDiagnostics (compilation : Compilation) (file : FileId) : Checked Diagnostics :=
  match compilation.sources[file]? with
  | some source => Prod.fst <$> compilation.report file source
  | none => .ok []

/-- Parses and binds files one after the other, and gives what is reported about each. -/
def reportEach (compilation : Compilation) : List FileId → Checked (List (FileId × Diagnostics))
  | [] => return []
  | file :: rest =>
    match compilation.sources[file]? with
    | some source => do
      let (own, after) ← compilation.report file source
      return (file, own) :: (← after.reportEach rest)
    | none => compilation.reportEach rest

/-- Compiles the files, which are parsed and bound in an order of their own. -/
def compileInOrder (compilation : Compilation) (order : List FileId) : Checked Diagnostics := do
  let reports ← compilation.reportEach order
  let all := (List.range compilation.sources.length).flatMap fun file =>
    (reports.lookup file).getD []
  return compilation.limited (Diagnostics.sorted all)

/-- A compilation in which files were bound, any of them and any number of times, and in which
binding them may have been cancelled. -/
inductive AfterBinding (base : Compilation) : Compilation → Prop
  | start : AfterBinding base base
  | bind {compilation file source model} (after : AfterBinding base compilation)
      (isModel : compilation.modelOf file source = .ok model) (isCancelled : Bool) :
      AfterBinding base (compilation.run (model.bind isCancelled)).2

variable {base later : Compilation} {own : FileId → Diagnostics}

theorem AfterBinding.isLater (settled : base.Settled) (after : base.AfterBinding later) :
    Later base later := by
  induction after with
  | start => exact settled.later_self
  | bind _ isModel isCancelled ih =>
      cases isCancelled with
      | true => rwa [run_bind_cancelled (modelOf_gives isModel).1]
      | false =>
          rw [ih.modelOf_eq] at isModel
          rcases settled.bind_later ih isModel with ⟨unit, _, after, _, ran, _, _, _, fromBase⟩
          rwa [ran]

/-! ### The reports of one file -/

/-- The reports belong to the files of a compilation: they are what is reported about each file,
whatever files were bound before, in the order of their places, which lie in the text of the
file. -/
structure Reports (base : Compilation) (own : FileId → Diagnostics) : Prop where
  reports : ∀ {later file source}, Later base later → base.sources[file]? = some source →
    ∃ after, later.report file source = .ok (own file, after) ∧ Later base after
  isSorted : ∀ {file source}, base.sources[file]? = some source →
    (own file).Pairwise (·.precedes · = true)
  placed : ∀ {file source}, base.sources[file]? = some source →
    ∀ diagnostic ∈ own file, diagnostic.Placed (Location.InText file source.text.chars)

theorem report_eq_ok {compilation after : Compilation} {file : FileId} {source : SourceFile}
    {model : SemanticModel} {unit : BoundUnit}
    (isModel : compilation.modelOf file source = .ok model)
    (ran : compilation.run (model.bind false) =
      (.ok ((unit, { model with bound := some unit }), []), after)) :
    compilation.report file source = .ok (model.diagnostics unit, after) := by
  rw [report, isModel, Checked.ok_bind, ran]
  rfl

/-- A file has the same reports whatever files were bound before, and they are in its text. -/
theorem Settled.report_later (settled : base.Settled) (fromBase : Later base later) {file : FileId}
    {source : SourceFile} {model : SemanticModel}
    (isModel : base.modelOf file source = .ok model) :
    ∃ own after ownAfter, later.report file source = .ok (own, after) ∧ Later base after ∧
      base.report file source = .ok (own, ownAfter) ∧ own.Pairwise (·.precedes · = true) ∧
      ∀ diagnostic ∈ own, diagnostic.Placed (Location.InText file source.text.chars) := by
  rcases settled.bind_later fromBase isModel with
    ⟨unit, own, after, ownAfter, ran, ownRan, same, placed, stillFrom⟩
  have sameReports : model.diagnostics unit = model.diagnostics own := by
    rw [SemanticModel.diagnostics, SemanticModel.diagnostics, same]
  refine ⟨model.diagnostics unit, after, ownAfter, ?_, stillFrom, ?_,
    Diagnostics.sorted_pairwise _, fun diagnostic member => ?_⟩
  · exact report_eq_ok ((fromBase.modelOf_eq file source).trans isModel) ran
  · rw [sameReports]
    exact report_eq_ok isModel ownRan
  · rcases List.mem_append.mp (Diagnostics.mem_sorted.mp member) with isParsed | isBound
    · exact (modelOf_placed isModel).2 diagnostic isParsed
    · exact placed diagnostic isBound

theorem Settled.reports (settled : base.Settled)
    (scans : ∀ (file : FileId) source, base.sources[file]? = some source →
      ∃ scanned, scanText file source.text = .ok scanned)
    (isOwn : ∀ file, base.ownDiagnostics file = .ok (own file)) : base.Reports own := by
  have gives {later : Compilation} {file : FileId} {source : SourceFile}
      (fromBase : Later base later) (isSource : base.sources[file]? = some source) :
      ∃ after, later.report file source = .ok (own file, after) ∧ Later base after ∧
        (own file).Pairwise (·.precedes · = true) ∧
        ∀ diagnostic ∈ own file, diagnostic.Placed (Location.InText file source.text.chars) := by
    rcases scans file source isSource with ⟨scanned, isScanned⟩
    rcases modelOf_eq_ok base isScanned with ⟨model, isModel⟩
    rcases settled.report_later fromBase isModel with
      ⟨reported, after, ownAfter, isReported, stillFrom, isBase, isSorted, placed⟩
    have same := isOwn file
    rw [ownDiagnostics, isSource] at same
    dsimp only at same
    rw [isBase] at same
    cases same
    exact ⟨after, isReported, stillFrom, isSorted, placed⟩
  refine ⟨fun fromBase isSource => ?_, fun isSource => ?_, fun isSource => ?_⟩
  · rcases gives fromBase isSource with ⟨after, isReported, stillFrom, _⟩
    exact ⟨after, isReported, stillFrom⟩
  · rcases gives settled.later_self isSource with ⟨_, _, _, isSorted, _⟩
    exact isSorted
  · rcases gives settled.later_self isSource with ⟨_, _, _, _, placed⟩
    exact placed

/-- Files that can be scanned have reports. -/
theorem Settled.exists_reports (settled : base.Settled)
    (scans : ∀ (file : FileId) source, base.sources[file]? = some source →
      ∃ scanned, scanText file source.text = .ok scanned) :
    ∃ own : FileId → Diagnostics,
      (∀ file, base.ownDiagnostics file = .ok (own file)) ∧ base.Reports own := by
  have gives : ∀ file, ∃ own, base.ownDiagnostics file = .ok own := by
    intro file
    rw [ownDiagnostics]
    split
    · next source isSource =>
        rcases scans file source isSource with ⟨scanned, isScanned⟩
        rcases modelOf_eq_ok base isScanned with ⟨model, isModel⟩
        rcases settled.report_later settled.later_self isModel with
          ⟨own, after, _, isReported, _⟩
        rw [isReported]
        exact ⟨own, rfl⟩
    · exact ⟨[], rfl⟩
  choose own isOwn using gives
  exact ⟨own, isOwn, settled.reports scans isOwn⟩

/-! ### The reports of all files -/

theorem diagnosticsFrom_cons (compilation : Compilation) (first : FileId) (source : SourceFile)
    (rest : List SourceFile) :
    compilation.diagnosticsFrom false first (source :: rest) = (do
      let (own, after) ← compilation.report first source
      return own ++ (← after.diagnosticsFrom false (first + 1) rest)) := by
  rw [diagnosticsFrom, report]
  cases compilation.modelOf first source with
  | error fault => rfl
  | ok model =>
      rw [Checked.ok_bind, Checked.ok_bind]
      cases compilation.run (model.bind false) with
      | mk result after =>
          cases result with
          | error fault => rfl
          | ok bound => rfl

namespace Reports

variable (reports : base.Reports own)

include reports

theorem diagnosticsFrom_eq (fromBase : Later base later) {first : FileId} {rest : List SourceFile}
    (areSources : ∀ index source, rest[index]? = some source →
      base.sources[first + index]? = some source) :
    later.diagnosticsFrom false first rest =
      .ok ((List.range' first rest.length).flatMap own) := by
  induction rest generalizing later first with
  | nil => rfl
  | cons source rest ih =>
      have isSource : base.sources[first]? = some source := areSources 0 source rfl
      rcases reports.reports fromBase isSource with ⟨after, isReported, stillFrom⟩
      have areRest : ∀ index own, rest[index]? = some own →
          base.sources[first + 1 + index]? = some own := by
        intro index own isOwn
        have isSource := areSources (index + 1) own isOwn
        rwa [Nat.add_comm index, ← Nat.add_assoc] at isSource
      rw [diagnosticsFrom_cons, isReported, Checked.ok_bind]
      dsimp only
      rw [ih stillFrom areRest]
      rfl

theorem reportEach_eq (fromBase : Later base later) {order : List FileId}
    (areFiles : ∀ file ∈ order, file < base.sources.length) :
    later.reportEach order = .ok (order.map fun file => (file, own file)) := by
  induction order generalizing later with
  | nil => rfl
  | cons file rest ih =>
      rcases List.forall_mem_cons.mp areFiles with ⟨isFile, areRest⟩
      have isSource := List.getElem?_eq_getElem isFile
      have sameSources : later.sources = base.sources := by rw [fromBase.rest]
      rcases reports.reports fromBase isSource with ⟨after, isReported, stillFrom⟩
      rw [reportEach, sameSources, isSource]
      dsimp only
      rw [isReported, Checked.ok_bind]
      dsimp only
      rw [ih stillFrom areRest]
      rfl

/-- The reports of all files, one file after the other, are in order. -/
theorem sorted_eq :
    Diagnostics.sorted ((List.range base.sources.length).flatMap own) =
      (List.range base.sources.length).flatMap own := by
  have isSource {file : Nat} (isFile : file < base.sources.length) :
      base.sources[file]? = some base.sources[file] :=
    List.getElem?_eq_getElem isFile
  rw [List.flatMap_def]
  refine Diagnostics.sorted_flatten (fun reported member => ?_) fun file reported isReported => ?_
  · rcases List.mem_map.mp member with ⟨file, inRange, rfl⟩
    exact reports.isSorted (isSource (List.mem_range.mp inRange))
  · rw [List.getElem?_map] at isReported
    rcases Option.map_eq_some_iff.mp isReported with ⟨own, isOwn, rfl⟩
    rcases List.getElem?_eq_some_iff.mp isOwn with ⟨isBelow, ownEq⟩
    rw [List.getElem_range] at ownEq
    rw [List.length_range] at isBelow
    rw [← ownEq]
    exact fun diagnostic isReported =>
      (reports.placed (isSource isBelow) diagnostic isReported).mono fun _ inText => inText.file_eq

theorem compile_eq (fromBase : Later base later) :
    later.compile false =
      .ok (base.limited ((List.range base.sources.length).flatMap own)) := by
  have sameSources : later.sources = base.sources := by rw [fromBase.rest]
  have sameOptions : later.options = base.options := by rw [fromBase.rest]
  have areSources : ∀ index source, base.sources[index]? = some source →
      base.sources[0 + index]? = some source := by
    intro index source isSource
    rwa [Nat.zero_add]
  rw [compile, sameSources, reports.diagnosticsFrom_eq fromBase areSources, Checked.ok_bind,
    ← List.range_eq_range', reports.sorted_eq, sameOptions, limited]
  cases base.options.maxDiagnostics with
  | none => rfl
  | some limit => rfl

theorem compileInOrder_eq (fromBase : Later base later) {order : List FileId}
    (isOrder : order.Perm (List.range base.sources.length)) :
    later.compileInOrder order =
      .ok (base.limited ((List.range base.sources.length).flatMap own)) := by
  have sameSources : later.sources = base.sources := by rw [fromBase.rest]
  have sameOptions : later.options = base.options := by rw [fromBase.rest]
  have areFiles : ∀ file ∈ order, file < base.sources.length := fun file member =>
    List.mem_range.mp (isOrder.subset member)
  have found : ∀ file ∈ List.range base.sources.length,
      ((order.map fun file => (file, own file)).lookup file).getD [] = own file := by
    intro file inRange
    rw [List.lookup_graph own (isOrder.mem_iff.mpr inRange), Option.getD_some]
  rw [compileInOrder, reports.reportEach_eq fromBase areFiles, Checked.ok_bind, sameSources,
    List.flatMap_congr found]
  dsimp only
  rw [reports.sorted_eq, limited, limited, sameOptions]
  rfl

end Reports

/-- Files are compiled independently of one another. Once the host has set up a compilation, what
compiling reports is what each file reports on its own, one file after the other and up to the
limit: whatever files were bound before, and in whatever order the files are parsed and bound. -/
theorem SetUp.files_independent {compilation : Compilation} (setUp : compilation.SetUp)
    (provides : compilation.Provides (· < compilation.types.size))
    (scans : ∀ (file : FileId) source, compilation.sources[file]? = some source →
      ∃ scanned, scanText file source.text = .ok scanned) :
    ∃ own : FileId → Diagnostics,
      (∀ file, compilation.ownDiagnostics file = .ok (own file)) ∧
      ∀ later, compilation.AfterBinding later →
        later.compile false =
          .ok (compilation.limited
            ((List.range compilation.sources.length).flatMap own)) ∧
        ∀ order, order.Perm (List.range compilation.sources.length) →
          later.compileInOrder order =
            .ok (compilation.limited
              ((List.range compilation.sources.length).flatMap own)) := by
  have settled : compilation.Settled := ⟨setUp.sound, setUp.hosted, provides⟩
  rcases settled.exists_reports scans with ⟨own, isOwn, reports⟩
  refine ⟨own, isOwn, fun later after => ⟨?_, fun order isOrder => ?_⟩⟩
  · exact reports.compile_eq (after.isLater settled)
  · exact reports.compileInOrder_eq (after.isLater settled) isOrder

/-- Two files whose queries need different types, which are reported in errors. Two errors are let
through, in whatever order the files are bound. -/
theorem files_independent_two :
    let first := "var a = from n in numbers group n by n; a + 1;"
    let second := "var b = from n in numbers select numbers; b + true; c;"
    ∃ start compilation,
      ofOptions ⟨["queryConclusions"], some 2, [("numbers", "seq<int>")], by decide⟩ = .ok start ∧
      compilation = (start.addSource "first" ⟨first.toList, by decide +kernel⟩).addSource "second"
        ⟨second.toList, by decide +kernel⟩ ∧
      ∃ own : FileId → Diagnostics,
        (∀ file, compilation.ownDiagnostics file = .ok (own file)) ∧
        ∀ later, compilation.AfterBinding later →
          later.compile false = .ok ((own 0 ++ own 1).take 2) ∧
          later.compileInOrder [1, 0] = .ok ((own 0 ++ own 1).take 2) := by
  intro first second
  let firstFile : SourceFile := ⟨"first", ⟨first.toList, by decide +kernel⟩⟩
  let secondFile : SourceFile := ⟨"second", ⟨second.toList, by decide +kernel⟩⟩
  let addBoth (start : Compilation) : Compilation :=
    (start.addSource firstFile.name firstFile.text).addSource secondFile.name secondFile.text
  have isMade :
      (ofOptions ⟨["queryConclusions"], some 2, [("numbers", "seq<int>")], by decide⟩).isOk := by
    decide +kernel
  have firstScanned : (scanText 0 firstFile.text).isOk := by decide +kernel
  have secondScanned : (scanText 1 secondFile.text).isOk := by decide +kernel
  have isEmpty :
      ∀ start ∈
        (ofOptions ⟨["queryConclusions"], some 2, [("numbers", "seq<int>")], by decide⟩).toOption,
        start.sources = [] ∧ start.options.maxDiagnostics = some 2 := by
    decide +kernel
  rcases Checked.exists_ok_of_isOk isMade with ⟨start, made⟩
  rcases isEmpty start (by rw [made]; rfl) with ⟨noSources, isLimit⟩
  have sources : (addBoth start).sources = [firstFile, secondFile] := by
    simp only [addBoth, addSource, noSources]
    rfl
  have startProvides := (ofOptions_gives made).2.mono fun _ has => has.1
  have provides : (addBoth start).Provides (· < (addBoth start).types.size) :=
    ⟨startProvides.globals, @startProvides.members⟩
  have scans : ∀ (file : FileId) source, (addBoth start).sources[file]? = some source →
      ∃ scanned, scanText file source.text = .ok scanned := by
    intro file source isSource
    rw [sources] at isSource
    match file with
    | 0 =>
        cases isSource
        exact Checked.exists_ok_of_isOk firstScanned
    | 1 =>
        cases isSource
        exact Checked.exists_ok_of_isOk secondScanned
  rcases SetUp.files_independent (.addSource (.addSource (.ofOptions made) _ _) _ _) provides scans
    with ⟨own, isOwn, independent⟩
  have limitedEq : (addBoth start).limited ((List.range (addBoth start).sources.length).flatMap own)
      = (own 0 ++ own 1).take 2 := by
    have sameLimit : (addBoth start).options.maxDiagnostics = some 2 := isLimit
    rw [limited, sameLimit, sources]
    simp [List.range_succ]
  rw [limitedEq, sources] at independent
  refine ⟨start, addBoth start, made, rfl, own, isOwn, fun later after => ?_⟩
  exact ⟨(independent later after).1, (independent later after).2 [1, 0] (by decide)⟩

end Compilation

end QueryLang
