import QueryLang.Proofs.Syntax.ParserGrowth
import QueryLang.Proofs.Syntax.Parsing

/-!
# Where scanning and parsing report

Everything that is reported about a text while it is scanned and parsed has its place in the file of
the text, between characters of it. Scanning reports on the tokens it takes, and parsing where a
token stands or right after one.
-/

namespace QueryLang

variable {file : FileId}

/-! ### Scanning -/

/-- The location is that of one of the tokens. -/
def Location.OfToken (file : FileId) (tokens : List Token) (location : Location) : Prop :=
  ∃ token ∈ tokens, location = ⟨file, token.span⟩

theorem Location.OfToken.mono {tokens more : List Token} (areMore : tokens ⊆ more)
    {location : Location} (isPlace : location.OfToken file tokens) :
    location.OfToken file more := by
  rcases isPlace with ⟨token, isToken, isLocation⟩
  exact ⟨token, areMore isToken, isLocation⟩

/-- A step of scanning stays in the file, and reports on the token that it takes. -/
structure ScanStep.Placed (step : ScanStep) (file : FileId) : Prop where
  after : step.after.file = file
  reported : ∀ diagnostic ∈ step.diagnostics,
    diagnostic.Placed (Location.OfToken file [step.token])

theorem LexicalProblem.report_placed {places : Location → Prop} {location : Location}
    (isPlace : places location) (problem : LexicalProblem) :
    Checked.Yields ((problem.report location).map ([·])) fun reported =>
      ∀ diagnostic ∈ reported, diagnostic.Placed places := by
  cases problem with
  | unexpectedCharacter char =>
      exact .pure (List.forall_mem_singleton.mpr (.located isPlace _ _))
  | newlineInConstant => exact .pure (List.forall_mem_singleton.mpr (.located isPlace _ _))
  | danglingEscape => exact .error _

namespace Scanner

variable {scanner : Scanner}

theorem take_placed (sameFile : scanner.file = file) (lexeme : Lexeme) :
    (scanner.take lexeme).Yields (ScanStep.Placed · file) := by
  unfold take
  dsimp only
  split
  · next problem _ =>
      let span : Span := ⟨scanner.offset, byteLength lexeme.chars⟩
      have isPlace : Location.OfToken file [⟨lexeme.kind, span, String.ofList lexeme.chars⟩]
          ⟨scanner.file, span⟩ :=
        ⟨_, List.mem_singleton_self _, by rw [sameFile]⟩
      exact (problem.report_placed isPlace).bind fun _ placed => .pure ⟨sameFile, placed⟩
  · exact .pure ⟨sameFile, List.forall_mem_nil _⟩

theorem scan_placed (sameFile : scanner.file = file) :
    scanner.scan.Yields (ScanStep.Placed · file) := by
  unfold scan
  dsimp only
  split
  · exact .pure ⟨sameFile, List.forall_mem_nil _⟩
  · have skipped : scanner.skipTrivia.file = file := sameFile
    exact take_placed skipped _

theorem scanRest_placed (sameFile : scanner.file = file) (limit : Nat) :
    (scanner.scanRest limit).Yields fun scanned =>
      ∀ diagnostic ∈ scanned.diagnostics,
        diagnostic.Placed (Location.OfToken file scanned.allTokens) := by
  induction limit generalizing scanner with
  | zero => exact .pure (List.forall_mem_nil _)
  | succ limit ih =>
      rw [scanRest]
      refine (scan_placed sameFile).bind fun step stepPlaced => ?_
      split
      · exact .pure stepPlaced.reported
      · refine (ih stepPlaced.after).bind fun scanned restPlaced => .pure ?_
        refine List.forall_mem_append.mpr ⟨fun diagnostic isOwn => ?_, fun diagnostic isOther => ?_⟩
        · refine (stepPlaced.reported diagnostic isOwn).mono fun _ => Location.OfToken.mono ?_
          exact List.cons_subset_cons _ (List.nil_subset _)
        · refine (restPlaced diagnostic isOther).mono fun _ => Location.OfToken.mono ?_
          exact List.subset_cons_self _ _

end Scanner

/-- The tokens of a text lie between its characters. -/
theorem ScannedText.Covers.within {scanned : ScannedText} {source : SourceText}
    (covers : scanned.Covers 0 source.chars) :
    ∀ token ∈ scanned.allTokens, token.span.Within source.chars := by
  have atStart : byteLength [] = 0 := rfl
  exact covers.tiled.within atStart

theorem scanText_placed {source : SourceText} {scanned : ScannedText}
    (scans : scanText file source = .ok scanned) :
    ∀ diagnostic ∈ scanned.diagnostics,
      diagnostic.Placed (Location.InText file source.chars) := by
  intro diagnostic isReported
  have onTokens := Scanner.scanRest_placed rfl _ scanned scans diagnostic isReported
  refine onTokens.mono fun location isPlace => ?_
  rcases isPlace with ⟨token, isToken, rfl⟩
  exact ⟨rfl, (scanText_covers scans).within token isToken⟩

/-! ### Parsing -/

theorem parseTokens_placed (features : Features) {source : SourceText} {scanned : ScannedText}
    (scans : scanText file source = .ok scanned) :
    ∀ diagnostic ∈ (parseTokens file features scanned).diagnostics,
      diagnostic.Placed (Location.InText file source.chars) := by
  let start : ParseState :=
    { file, features
      rest := scanned.tokens
      endOfFile := scanned.endOfFile
      lastEnd := 0
      diagnostics := scanned.diagnostics
      reportedTooDeep := false }
  have adds : Parser.compilationUnit.Leads start fun _ after => start.Adds after :=
    Parser.Grows.adds start
  have within := List.forall_mem_append.mp (scanText_covers scans).within
  have starts : start.LiesIn source.chars :=
    ⟨within.1, within.2 _ (List.mem_singleton_self _), .zero _, scanText_placed scans⟩
  have placed := (adds.lies source.chars starts).placed
  rwa [adds.file] at placed

/-- The reports on a parsed text are in the text, as the nodes and tokens of its tree are. -/
theorem parseText_placed (file : FileId) (fileName : String) (source : SourceText)
    (features : Features) :
    (parseText file fileName source features).Yields fun parsed => parsed.tree.file = file ∧
      parsed.tree.text = source.chars ∧
      ∀ diagnostic ∈ parsed.diagnostics,
        diagnostic.Placed (Location.InText file source.chars) := by
  intro parsed isParsed
  rcases exists_scanned_of_parseText isParsed with ⟨scanned, scans, rfl⟩
  have placed := parseTokens_placed features scans
  exact ⟨rfl, rfl, fun diagnostic member => placed diagnostic (Diagnostics.mem_sorted.mp member)⟩

end QueryLang
