import QueryLang.Proofs.Compilation.Order
import QueryLang.Proofs.Syntax.Escapes

/-!
# What makes a compilation fail

Parsing fails where scanning does, and nowhere else; compiling fails if parsing one of the files
does. So a compilation fails only on a text that breaks off in an escape.
-/

namespace QueryLang

variable {α β : Type} {condition : Prop}

/-- An operation fails out of range under a condition, and otherwise gives a result. -/
structure Checked.OutOfRangeIff (operation : Checked α) (condition : Prop) : Prop where
  fails : operation = .error .outOfRange ↔ condition
  returns : (∃ result, operation = .ok result) ↔ ¬ condition

namespace Checked.OutOfRangeIff

variable {operation : Checked α}

theorem intro (fails : condition → operation = .error .outOfRange)
    (returns : ¬ condition → ∃ result, operation = .ok result) :
    operation.OutOfRangeIff condition := by
  by_cases holds : condition
  · have failed := fails holds
    exact ⟨⟨fun _ => holds, fails⟩, by simp [failed, holds]⟩
  · obtain ⟨result, isResult⟩ := returns holds
    exact ⟨⟨by simp [isResult], fun isFault => absurd isFault holds⟩, ⟨fun _ => holds, returns⟩⟩

/-- What comes after an operation can give a result whenever the operation does. -/
theorem bind {next : α → Checked β} (operates : operation.OutOfRangeIff condition)
    (goesOn : ∀ result, operation = .ok result → ∃ last, next result = .ok last) :
    (operation >>= next).OutOfRangeIff condition := by
  refine .intro (fun holds => ?_) fun fails => ?_
  · rw [operates.fails.mpr holds]
    rfl
  · obtain ⟨result, isResult⟩ := operates.returns.mpr fails
    obtain ⟨last, isLast⟩ := goesOn result isResult
    exact ⟨last, Checked.bind_eq_ok_iff.mpr ⟨result, isResult, isLast⟩⟩

end Checked.OutOfRangeIff

/-- Scanning fails on a text that breaks off. -/
theorem scanText_outOfRangeIff (file : FileId) (source : SourceText) :
    (scanText file source).OutOfRangeIff (source.BreaksOff file) :=
  .intro scanText_of_breaksOff exists_scanText

/-- Every text that can be scanned can be parsed. -/
theorem parseText_outOfRangeIff (file : FileId) (name : String) (source : SourceText)
    (features : Features) :
    (parseText file name source features).OutOfRangeIff (source.BreaksOff file) := by
  refine (scanText_outOfRangeIff file source).bind fun scanned scans => ?_
  have parses : parseText file name source features = .ok _ := parseText_eq_ok scans
  rw [parseText, scans, Checked.ok_bind] at parses
  exact ⟨_, parses⟩

namespace Compilation

variable {base later : Compilation}

/-- A file is bound whatever files were bound before, unless its text breaks off. -/
theorem Settled.reports_unless (settled : base.Settled) (fromBase : Later base later)
    {file : FileId} {source : SourceFile} (notBroken : ¬ source.text.BreaksOff file) :
    ∃ own after, later.report file source = .ok (own, after) ∧ Later base after := by
  obtain ⟨scanned, scans⟩ := exists_scanText notBroken
  obtain ⟨model, isModel⟩ := modelOf_eq_ok base scans
  obtain ⟨own, after, _, isReported, stillFrom, _⟩ := settled.report_later fromBase isModel
  exact ⟨own, after, isReported, stillFrom⟩

/-- One of the files, which are numbered from `first` on, has a text that breaks off. -/
def SomeBreaksOff (first : FileId) (files : List SourceFile) : Prop :=
  ∃ (index : Nat) (source : SourceFile), files[index]? = some source ∧
    source.text.BreaksOff (first + index)

theorem someBreaksOff_cons {first : FileId} {source : SourceFile} {rest : List SourceFile} :
    SomeBreaksOff first (source :: rest) ↔
      source.text.BreaksOff first ∨ SomeBreaksOff (first + 1) rest := by
  constructor
  · rintro ⟨_ | index, own, isOwn, breaksOff⟩
    · cases isOwn
      exact .inl breaksOff
    · rw [← Nat.succ_add_eq_add_succ] at breaksOff
      exact .inr ⟨index, own, isOwn, breaksOff⟩
  · rintro (breaksOff | ⟨index, own, isOwn, breaksOff⟩)
    · exact ⟨0, source, rfl, breaksOff⟩
    · rw [Nat.succ_add_eq_add_succ] at breaksOff
      exact ⟨index + 1, own, isOwn, breaksOff⟩

/-- Files that are numbered from `first` on are bound one after the other, unless the text of one
of them breaks off. -/
theorem Settled.diagnosticsFrom_outOfRangeIff (settled : base.Settled)
    (fromBase : Later base later) (first : FileId) (rest : List SourceFile) :
    (later.diagnosticsFrom false first rest).OutOfRangeIff (SomeBreaksOff first rest) := by
  induction rest generalizing later first with
  | nil => exact .intro (by simp [SomeBreaksOff]) fun _ => ⟨[], rfl⟩
  | cons source rest ih =>
    rw [diagnosticsFrom_cons, someBreaksOff_cons]
    refine .intro ?_ fun notBroken => ?_
    · intro breaksOff
      by_cases scans : source.text.BreaksOff first
      · have fails := (parseText_outOfRangeIff first source.name source.text later.features).fails
        rw [report, modelOf, fails.mpr scans]
        rfl
      · obtain ⟨own, after, isReported, stillFrom⟩ := settled.reports_unless fromBase scans
        have fails := (ih stillFrom (first + 1)).fails.mpr (breaksOff.resolve_left scans)
        rw [isReported, Checked.ok_bind]
        dsimp only
        rw [fails]
        rfl
    · obtain ⟨firstScans, restScans⟩ := not_or.mp notBroken
      obtain ⟨own, after, isReported, stillFrom⟩ := settled.reports_unless fromBase firstScans
      obtain ⟨others, isOthers⟩ := (ih stillFrom (first + 1)).returns.mpr restScans
      rw [isReported, Checked.ok_bind]
      dsimp only
      rw [isOthers]
      exact ⟨own ++ others, rfl⟩

/-- Compiling does not fail in the end on what was reported. -/
theorem compile_outOfRangeIff {compilation : Compilation}
    (reported : (compilation.diagnosticsFrom false 0 compilation.sources).OutOfRangeIff condition) :
    (compilation.compile false).OutOfRangeIff condition := by
  refine reported.bind fun all _ => ?_
  cases compilation.options.maxDiagnostics with
  | none => exact ⟨_, rfl⟩
  | some limit => exact ⟨_, rfl⟩

/-- There is exactly one kind of text on which scanning fails, and with it parsing and compiling: a
text that ends in a string literal with a backslash that has nothing to escape. Wherever scanning
gets in another text, it takes the next token, stays in the text, and gets nearer to its end. -/
theorem SetUp.fails_only_in_escape {compilation : Compilation} (setUp : compilation.SetUp)
    (provides : compilation.Provides (· < compilation.types.size)) :
    (∀ (file : FileId) (source : SourceText),
      (scanText file source).OutOfRangeIff (source.BreaksOff file) ∧
      (∀ name features,
        (parseText file name source features).OutOfRangeIff (source.BreaksOff file)) ∧
      ∀ scanner, (Scanner.start file source).Reaches scanner →
        scanner.BreaksOff ∧ scanner.scan = .error .outOfRange ∨
          ¬ scanner.BreaksOff ∧
            ∃ step, scanner.scan = .ok step ∧ scanner.Advances source.chars step) ∧
    (compilation.compile false).OutOfRangeIff
      (∃ (file : FileId) (source : SourceFile), compilation.sources[file]? = some source ∧
        source.text.BreaksOff file) := by
  have settled : compilation.Settled := ⟨setUp.sound, setUp.hosted, provides⟩
  refine ⟨fun file source => ⟨scanText_outOfRangeIff file source,
    fun name features => parseText_outOfRangeIff file name source features,
    fun scanner reaches => ?_⟩, ?_⟩
  · exact Scanner.scan_cases (reaches.standsIn (Scanner.start_standsIn file source))
  · have reported := settled.diagnosticsFrom_outOfRangeIff settled.later_self 0 compilation.sources
    simp only [SomeBreaksOff, Nat.zero_add] at reported
    exact compile_outOfRangeIff reported

/-- The first text ends in a comment, in which a quote and a backslash are nothing special, after a
string literal that ends in an escaped backslash. The second one breaks off: its second backslash
is escaped, its third escapes a quote, and its last has nothing to escape. -/
theorem fails_only_in_escape_second :
    let first : SourceText := ⟨"a + \"\\\\\"; // \"b\\".toList, by decide +kernel⟩
    let second : SourceText := ⟨"a + \"\\\\\\\"b\\".toList, by decide +kernel⟩
    ∃ start, ofOptions ⟨[], none, [], by decide⟩ = .ok start ∧
      (∃ reported, (start.addSource "first" first).compile false = .ok reported) ∧
      ((start.addSource "first" first).addSource "second" second).compile false =
        .error .outOfRange := by
  intro first second
  have isMade : (ofOptions ⟨[], none, [], by decide⟩).isOk := by decide +kernel
  have noFiles : ∀ start ∈ (ofOptions ⟨[], none, [], by decide⟩).toOption, start.sources = [] := by
    decide +kernel
  have firstScanned : (scanText 0 first).isOk := by decide +kernel
  have secondFails : (scanText 1 second).isOk = false := by decide +kernel
  obtain ⟨start, made⟩ := Checked.exists_ok_of_isOk isMade
  have noSources := noFiles start (by rw [made]; rfl)
  have startProvides := (ofOptions_gives made).2.mono fun _ has => has.1
  have provides : start.Provides (· < start.types.size) :=
    ⟨startProvides.globals, @startProvides.members⟩
  have one := (SetUp.ofOptions made |>.addSource "first" first).fails_only_in_escape
    ⟨provides.globals, @provides.members⟩
  have two := (SetUp.ofOptions made |>.addSource "first" first |>.addSource "second"
    second).fails_only_in_escape ⟨provides.globals, @provides.members⟩
  refine ⟨start, made, one.2.returns.mpr ?_, two.2.fails.mpr ⟨1, ⟨"second", second⟩, ?_, ?_⟩⟩
  · rintro ⟨file, source, isSource, breaksOff⟩
    simp only [addSource, noSources, List.nil_append, List.getElem?_singleton] at isSource
    split at isSource
    · next isFirst =>
      cases isSource
      subst isFirst
      obtain ⟨scanned, scans⟩ := Checked.exists_ok_of_isOk firstScanned
      exact (one.1 0 first).1.returns.mp ⟨scanned, scans⟩ breaksOff
    · cases isSource
  · simp [addSource, noSources]
  · by_contra notBroken
    obtain ⟨scanned, scans⟩ := (two.1 1 second).1.returns.mpr notBroken
    rw [scans] at secondFails
    cases secondFails

end Compilation

end QueryLang
