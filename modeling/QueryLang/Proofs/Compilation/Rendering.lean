import QueryLang.Proofs.Compilation.Order
import QueryLang.Proofs.Syntax.Lexing
import QueryLang.Proofs.Text.Lines

/-!
# Reports can be shown

Whatever compiling reports has a place in the file that it is about, between characters of the text.
The line map of the text finds a line and a column for it that lead back to the place, and the
report is shown with these. They are counted from one there, which leads out of the range of
positions at the end of a text of the greatest length: a report on this place cannot be shown.
-/

namespace QueryLang

/-- The line map of the file. -/
def SourceFile.lines (source : SourceFile) : LineMap :=
  LineMap.ofText source.text.toString

namespace Diagnostic

/-- The diagnostic can be shown to who reads the file: its location is in the text, and has a line
and a column there. The line starts as many bytes in front of the location as the column says. Both
numbers are shown, counted from one, if these are positions. They are unless the location is at the
end of a text of the greatest length. -/
structure RendersIn (diagnostic : Diagnostic) (file : FileId) (source : SourceFile)
    (location : Location) (place : LineColumn) : Prop where
  isLocated : diagnostic.location = some location
  inText : location.InText file source.text.chars
  isPlace : source.lines.lineColumn location.start = place
  isLine : place.line < source.lines.lineCount
  leadsBack : source.lines.lineStart place.line + place.column = location.start
  fits : location.start + 1 < positionLimit →
    place.line + 1 < positionLimit ∧ place.column + 1 < positionLimit
  renders : place.line + 1 < positionLimit → place.column + 1 < positionLimit →
    diagnostic.render source.name source.lines =
      .ok s!"{source.name}({place.line + 1},{place.column + 1}): {diagnostic.summary}"

variable {diagnostic : Diagnostic} {file : FileId} {source : SourceFile} {location : Location}

/-- Rendering adds one to the line and to the column, in the range of positions. -/
theorem render_eq (isLocated : diagnostic.location = some location) (fileName : String)
    {lines : LineMap} {place : LineColumn} (isFound : lines.findPlace location.start = .ok place) :
    diagnostic.render fileName lines =
      if place.line + 1 < positionLimit ∧ place.column + 1 < positionLimit then
        .ok s!"{fileName}({place.line + 1},{place.column + 1}): {diagnostic.summary}"
      else .error .positionOverflow := by
  rw [render, isLocated]
  dsimp only
  rw [isFound, Checked.ok_bind]
  by_cases lineFits : place.line + 1 < positionLimit
  · by_cases columnFits : place.column + 1 < positionLimit
    · rw [addPositions, addPositions, if_pos lineFits, if_pos columnFits,
        if_pos ⟨lineFits, columnFits⟩]
      rfl
    · rw [addPositions, addPositions, if_pos lineFits, if_neg columnFits,
        if_neg fun fits => columnFits fits.2]
      rfl
  · rw [addPositions, if_neg lineFits, if_neg fun fits => lineFits fits.1]
    rfl

/-- A diagnostic in the text of a file has a line and a column there. -/
theorem rendersIn (isLocated : diagnostic.location = some location)
    (inText : location.InText file source.text.chars) :
    diagnostic.RendersIn file source location (source.lines.lineColumn location.start) := by
  have inOrder : source.lines.InOrder := LineMap.ofText_inOrder source.text
  have isFound : source.lines.findPlace location.start =
      .ok (source.lines.lineColumn location.start) :=
    inOrder.findPlace_eq (LineMap.lineCount_ofText_le source.text) location.start
  have isLine := source.lines.lineOf_lt_lineCount location.start
  have leadsBack := inOrder.lineStart_add_column location.start
  have lineBefore : (source.lines.lineColumn location.start).line ≤
      source.lines.lineStart (source.lines.lineColumn location.start).line :=
    inOrder.le_lineStart isLine
  refine ⟨isLocated, inText, rfl, isLine, leadsBack, fun fits => by omega, ?_⟩
  intro lineFits columnFits
  rw [render_eq isLocated _ isFound, if_pos ⟨lineFits, columnFits⟩]

end Diagnostic

namespace Compilation

variable {base : Compilation} {own : FileId → Diagnostics}

theorem limited_subset (compilation : Compilation) (reports : Diagnostics) :
    compilation.limited reports ⊆ reports := by
  rw [limited]
  split
  · exact List.take_subset _ _
  · exact List.Subset.refl _

/-- What is reported about a file is shown with its line and column there. -/
theorem Reports.rendersIn (reports : base.Reports own) {file : FileId} {source : SourceFile}
    (isSource : base.sources[file]? = some source) {diagnostic : Diagnostic}
    (isOwn : diagnostic ∈ own file) :
    ∃ location place, diagnostic.RendersIn file source location place ∧
      base.render diagnostic = diagnostic.render source.name source.lines := by
  rcases reports.placed isSource diagnostic isOwn with ⟨location, isLocated, inText⟩
  refine ⟨location, _, Diagnostic.rendersIn isLocated inText, ?_⟩
  rw [render, isLocated, Option.bind_some, inText.file_eq, isSource]
  rfl

/-- A cancelled compilation reports nothing: it gives no result unless there is no file. -/
theorem compile_cancelled {reported : Diagnostics} (compiled : base.compile true = .ok reported) :
    reported = [] := by
  rcases Checked.bind_eq_ok_iff.mp compiled with ⟨all, isAll, isLimited⟩
  have noReports : all = [] := by
    cases sources : base.sources with
    | nil =>
        rw [sources] at isAll
        cases isAll
        rfl
    | cons source rest =>
        rw [sources, diagnosticsFrom] at isAll
        rcases Checked.bind_eq_ok_iff.mp isAll with ⟨model, isModel, isBound⟩
        have stopped : base.run (model.bind true) = (.error .cancelled, base) := by
          rw [SemanticModel.bind, (modelOf_gives isModel).1]
          rfl
        rw [stopped] at isBound
        cases isBound
  have sortedEq : Diagnostics.sorted [] = [] := List.mergeSort_nil
  subst noReports
  rw [sortedEq] at isLimited
  cases limit : base.options.maxDiagnostics with
  | none =>
      rw [limit] at isLimited
      cases isLimited
      rfl
  | some count =>
      rw [limit] at isLimited
      cases isLimited
      exact List.take_nil

/-- Once the host has set up a compilation whose files can be scanned, compiling gives a result, and
each report in it is one on some file of the compilation: it has its location in the text of this
file, between characters, and is shown there with the line and the column that lead back to where
the location starts, if counted from one these are positions. -/
theorem SetUp.compile_renders {compilation : Compilation} (setUp : compilation.SetUp)
    (provides : compilation.Provides (· < compilation.types.size))
    (scans : ∀ (file : FileId) source, compilation.sources[file]? = some source →
      ∃ scanned, scanText file source.text = .ok scanned) :
    ∃ (own : FileId → Diagnostics) (reported : Diagnostics),
      (∀ file, compilation.ownDiagnostics file = .ok (own file)) ∧
      compilation.compile false = .ok reported ∧
      (∀ diagnostic ∈ reported, ∃ file source location place,
        compilation.sources[file]? = some source ∧ diagnostic ∈ own file ∧
        diagnostic.RendersIn file source location place ∧
        compilation.render diagnostic = diagnostic.render source.name source.lines) ∧
      ∀ others, compilation.compile true = .ok others → others = [] := by
  have settled : compilation.Settled := ⟨setUp.sound, setUp.hosted, provides⟩
  rcases settled.exists_reports scans with ⟨own, isOwn, reports⟩
  refine ⟨own, _, isOwn, reports.compile_eq settled.later_self, ?_, fun others => compile_cancelled⟩
  intro diagnostic isReported
  rcases List.mem_flatMap.mp (limited_subset _ _ isReported) with ⟨file, isFile, isOfFile⟩
  have isSource := List.getElem?_eq_getElem (List.mem_range.mp isFile)
  rcases reports.rendersIn isSource isOfFile with ⟨location, place, rendersIn, sameRender⟩
  exact ⟨file, _, location, place, isSource, isOfFile, rendersIn, sameRender⟩

/-- Two files with reports of scanning, parsing and binding, some of them after a letter that takes
two bytes and at the end of a text. -/
theorem compile_renders_two :
    let first := "var a = 1;\n\"é\" + b"
    let second := "do \x7b #\n\x7d\nwhile (\"é"
    ∃ start compilation reported,
      ofOptions ⟨[], none, [], by decide⟩ = .ok start ∧
      compilation = (start.addSource "first" ⟨first.toList, by decide +kernel⟩).addSource "second"
        ⟨second.toList, by decide +kernel⟩ ∧
      compilation.compile false = .ok reported ∧
      ∀ diagnostic ∈ reported, ∃ file source location place,
        compilation.sources[file]? = some source ∧
        diagnostic.RendersIn file source location place := by
  intro first second
  let firstFile : SourceFile := ⟨"first", ⟨first.toList, by decide +kernel⟩⟩
  let secondFile : SourceFile := ⟨"second", ⟨second.toList, by decide +kernel⟩⟩
  let addBoth (start : Compilation) : Compilation :=
    (start.addSource firstFile.name firstFile.text).addSource secondFile.name secondFile.text
  have isMade : (ofOptions ⟨[], none, [], by decide⟩).isOk := by decide +kernel
  have firstScanned : (scanText 0 firstFile.text).isOk := by decide +kernel
  have secondScanned : (scanText 1 secondFile.text).isOk := by decide +kernel
  have isEmpty : ∀ start ∈ (ofOptions ⟨[], none, [], by decide⟩).toOption, start.sources = [] := by
    decide +kernel
  rcases Checked.exists_ok_of_isOk isMade with ⟨start, made⟩
  have noSources := isEmpty start (by rw [made]; rfl)
  have sources : (addBoth start).sources = [firstFile, secondFile] := by
    simp only [addBoth, addSource, noSources]
    rfl
  have startProvides := (ofOptions_gives made).2.mono fun _ has => has.1
  have provides : (addBoth start).Provides (· < (addBoth start).types.size) :=
    ⟨startProvides.globals, @startProvides.members⟩
  have scans : ∀ (file : FileId) source, (addBoth start).sources[file]? = some source →
      ∃ scanned, scanText file source.text = .ok scanned := by
    intro file source isSource
    rw [sources] at isSource
    rcases file with _ | _ | _
    · cases isSource
      exact Checked.exists_ok_of_isOk firstScanned
    · cases isSource
      exact Checked.exists_ok_of_isOk secondScanned
    · cases isSource
  rcases SetUp.compile_renders (.addSource (.addSource (.ofOptions made) _ _) _ _) provides scans
    with ⟨own, reported, _, compiled, renders, _⟩
  refine ⟨start, addBoth start, reported, made, rfl, compiled, fun diagnostic isReported => ?_⟩
  rcases renders diagnostic isReported with
    ⟨file, source, location, place, isSource, _, rendersIn, _⟩
  exact ⟨file, source, location, place, isSource, rendersIn⟩

/-! ### A text of the greatest length -/

/-- What parsing a file reports is among what is reported about the file. -/
theorem Reports.parsed_subset (reports : base.Reports own) (settled : base.Settled) {file : FileId}
    {source : SourceFile} {model : SemanticModel} (isSource : base.sources[file]? = some source)
    (isModel : base.modelOf file source = .ok model) : model.parseDiagnostics ⊆ own file := by
  rcases settled.bind_later settled.later_self isModel with
    ⟨unit, _, after, _, ran, _, _, _, _⟩
  rcases reports.reports settled.later_self isSource with ⟨_, isReported, _⟩
  rw [report_eq_ok isModel ran, Except.ok.injEq, Prod.mk.injEq] at isReported
  rw [← isReported.1]
  intro diagnostic isParsed
  exact Diagnostics.mem_sorted.mpr (List.mem_append_left _ isParsed)

/-- Compiling without a limit reports what parsing reports. -/
theorem Settled.compile_parsed (settled : base.Settled)
    (scans : ∀ (file : FileId) source, base.sources[file]? = some source →
      ∃ scanned, scanText file source.text = .ok scanned)
    (noLimit : base.options.maxDiagnostics = none) {file : FileId} {source : SourceFile}
    {scanned : ScannedText} (isSource : base.sources[file]? = some source)
    (isScanned : scanText file source.text = .ok scanned) :
    ∃ reported, base.compile false = .ok reported ∧
      (parseTokens file base.features scanned).diagnostics ⊆ reported := by
  rcases settled.exists_reports scans with ⟨own, _, reports⟩
  have isModel := modelOf_eq base isScanned
  refine ⟨_, reports.compile_eq settled.later_self, fun diagnostic isParsed => ?_⟩
  rw [limited, noLimit]
  have isFile := List.mem_range.mpr (List.getElem?_eq_some_iff.mp isSource).1
  exact List.mem_flatMap.mpr ⟨file, isFile, reports.parsed_subset settled isSource isModel
    (Diagnostics.mem_sorted.mpr isParsed)⟩

/-- A text that opens a parenthesis at its start and has only blanks behind it. -/
theorem scanText_opened {source : SourceText} {count : Nat} (file : FileId)
    (isText : source.chars = '(' :: List.replicate count ' ') :
    scanText file source = .ok
      ⟨[⟨.openParenToken, ⟨0, 1⟩, "("⟩], ⟨.endOfFileToken, .empty (1 + count), ""⟩, []⟩ := by
  have noDouble : leadingDoubleKind? '(' (List.replicate count ' ') = none := by
    cases count <;> rfl
  have lexed := Lexed.single ⟨by decide, by simp⟩ noDouble rfl (.blanks 1 count)
  exact scanText_eq_ok_iff.mpr ⟨_, _, isText ▸ lexed, rfl⟩

/-- Such a text has one line. -/
theorem lines_opened {source : SourceFile} {count : Nat}
    (isText : source.text.chars = '(' :: List.replicate count ' ') : source.lines = ⟨[]⟩ := by
  have noLineFeed : '\n' ∉ source.text.chars := by simp [isText, List.mem_replicate]
  rw [SourceFile.lines, LineMap.ofText, SourceText.toString, String.toList_ofList,
    LineMap.startsFrom_eq_nil noLineFeed]

/-- If such a text has the greatest length, its end is reported to be no expression, which cannot be
shown: counted from one, the column is not a position. -/
theorem compile_opened {count : Nat} (isGreatest : 1 + count = 4294967295)
    (fits : byteLength ('(' :: List.replicate count ' ') < positionLimit) :
    ∃ start reported diagnostic,
      ofOptions .default = .ok start ∧
      let compilation := start.addSource "main" ⟨'(' :: List.replicate count ' ', fits⟩
      compilation.compile false = .ok reported ∧ diagnostic ∈ reported ∧
      diagnostic.location = some ⟨0, ⟨4294967295, 0⟩⟩ ∧
      compilation.render diagnostic = .error .positionOverflow := by
  let source : SourceFile := ⟨"main", ⟨'(' :: List.replicate count ' ', fits⟩⟩
  let scanned : ScannedText :=
    ⟨[⟨.openParenToken, ⟨0, 1⟩, "("⟩], ⟨.endOfFileToken, .empty 4294967295, ""⟩, []⟩
  have isMade : (ofOptions .default).isOk := by decide +kernel
  have begins : ∀ start ∈ (ofOptions .default).toOption,
      start.sources = [] ∧ start.options.maxDiagnostics = none ∧
        ∃ diagnostic ∈ (parseTokens 0 start.features scanned).diagnostics,
          diagnostic.location = some ⟨0, ⟨4294967295, 0⟩⟩ := by
    decide +kernel
  rcases Checked.exists_ok_of_isOk isMade with ⟨start, made⟩
  rcases begins start (by rw [made]; rfl) with ⟨noSources, noLimit, diagnostic, isOwn, isLocated⟩
  let compilation := start.addSource source.name source.text
  have sources : compilation.sources = [source] := by
    simp only [compilation, addSource, noSources]
    rfl
  have isScanned (file : FileId) : scanText file source.text = .ok scanned := by
    rw [scanText_opened file rfl, isGreatest]
  have scans : ∀ (file : FileId) other, compilation.sources[file]? = some other →
      ∃ scanned, scanText file other.text = .ok scanned := by
    intro file other isOther
    rw [sources] at isOther
    cases List.mem_singleton.mp (List.mem_of_getElem? isOther)
    exact ⟨scanned, isScanned file⟩
  have setUp : compilation.SetUp := (SetUp.ofOptions made).addSource _ _
  have startProvides := (ofOptions_gives made).2.mono fun _ has => has.1
  have settled : compilation.Settled :=
    ⟨setUp.sound, setUp.hosted, startProvides.globals, @startProvides.members⟩
  have isSource : compilation.sources[0]? = some source := by rw [sources]; rfl
  rcases settled.compile_parsed scans noLimit isSource (isScanned 0) with ⟨reported, compiled, all⟩
  refine ⟨start, reported, diagnostic, made, compiled, all isOwn, isLocated, ?_⟩
  have isFound : source.lines.findPlace 4294967295 = .ok ⟨0, 4294967295⟩ := by
    rw [lines_opened rfl]
    decide
  have sameRender : compilation.render diagnostic = diagnostic.render "main" source.lines := by
    rw [render, isLocated, Option.bind_some, isSource]
    rfl
  exact sameRender.trans ((Diagnostic.render_eq isLocated "main" isFound).trans
    (if_neg fun fits => absurd fits.2 (by decide)))

/-- A text of 4294967295 bytes, the most that a text can have. -/
theorem rendering_overflows :
    let text := '(' :: List.replicate 4294967294 ' '
    ∃ (fits : byteLength text < positionLimit) (start : Compilation) (reported : Diagnostics)
      (diagnostic : Diagnostic),
      ofOptions .default = .ok start ∧
      let compilation := start.addSource "main" ⟨text, fits⟩
      compilation.compile false = .ok reported ∧ diagnostic ∈ reported ∧
      diagnostic.location = some ⟨0, ⟨4294967295, 0⟩⟩ ∧
      compilation.render diagnostic = .error .positionOverflow := by
  intro text
  have fits : byteLength text < positionLimit := by
    rw [byteLength_cons, byteLength_replicate]
    decide
  exact ⟨fits, compile_opened (by decide) fits⟩

end Compilation

end QueryLang
