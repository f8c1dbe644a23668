import QueryLang.Proofs.Syntax.Crossing
import QueryLang.Proofs.Syntax.SkippedBlock
import QueryLang.Proofs.Syntax.TypedText

/-!
# Blocks that are nested too deep

The content of a block that is nested too deep is skipped, and nothing outside of the block depends
on it. Two files that differ only in such content are parsed as trees that are the same outside of
it, with the same reports of the parser.
-/

namespace QueryLang

/-! ### Reports of the parser -/

/-- The first state is the second one, in which less had been reported at first. -/
def ParseState.ReportedBefore (reported : Diagnostics) (state twin : ParseState) : Prop :=
  state = { twin with diagnostics := reported ++ twin.diagnostics }

namespace ParseState.ReportedBefore

variable {reported : Diagnostics} {state twin : ParseState}
  (before : ReportedBefore reported state twin)

include before

theorem report (span : Span) (message : DiagnosticMessage) (arguments : List String) :
    ReportedBefore reported (state.report span message arguments)
      (twin.report span message arguments) := by
  subst before
  simp [ReportedBefore, ParseState.report]

theorem advance (consumed rest : List Token) :
    ReportedBefore reported (state.advance consumed rest) (twin.advance consumed rest) := by
  subst before
  rfl

end ParseState.ReportedBefore

namespace Parser

variable {reported : Diagnostics}

theorem reportHere_reported (message : DiagnosticMessage) (arguments : List String) :
    Agree (ParseState.ReportedBefore reported) Eq (reportHere message arguments)
      (reportHere message arguments) :=
  .modify fun state twin before => by
    have current : state.currentToken = twin.currentToken := by
      rw [before]
      rfl
    rw [current]
    exact before.report _ message arguments

/-- No parser looks at what is reported. -/
theorem kept_reported (reported : Diagnostics) :
    KeptByParsing (ParseState.ReportedBefore reported) Eq where
  current before := by rw [before]; rfl
  following before := by rw [before]; rfl
  text before := by rw [before]; rfl
  length before := by rw [before]
  missing _ := rfl
  node children := congrArg (ParseTree.node _) (List.forall₂_eq_eq_eq ▸ children)
  wrapped first rest := congrArg₂ (ParseTree.wrapped _) first (List.forall₂_eq_eq_eq ▸ rest)
  bump := by
    refine .get fun state twin before => ?_
    have advanced := before.advance
    subst before
    dsimp only
    split
    · exact (Agree.set (advanced _ _)).bind fun _ _ _ => .pure rfl
    · exact .pure rfl
  reportHere := reportHere_reported
  reportAfterLast message arguments := .modify fun state twin before => by
    have lastEnd : state.lastEnd = twin.lastEnd := by rw [before]
    rw [lastEnd]
    exact before.report _ message arguments
  reportTooDeep := by
    refine .get fun state twin before => ?_
    subst before
    refine .ite (.pure rfl) ?_
    exact (Agree.modify fun _ _ before => by subst before; rfl).bind fun _ _ _ =>
      reportHere_reported _ _
  checkFeature feature := by
    refine .get fun state twin before => ?_
    subst before
    exact .ite (.pure rfl) (reportHere_reported _ _)
  looseTokens := by
    refine .get fun state twin before => ?_
    have advanced := before.advance
    subst before
    refine (Agree.set (advanced _ _)).bind fun _ _ _ => .pure ?_
    exact List.forall₂_refl _

end Parser

/-- The reports of parsing the tokens of a file, without those of scanning it. -/
def ownDiagnostics (file : FileId) (features : Features) (scanned : ScannedText) : Diagnostics :=
  (parseTokens file features { scanned with diagnostics := [] }).diagnostics

/-- The parser adds its reports to those of the scanner. -/
theorem parseTokens_reported (file : FileId) (features : Features) (scanned : ScannedText) :
    parseTokens file features scanned =
      { shape := (parseTokens file features { scanned with diagnostics := [] }).shape
        diagnostics := scanned.diagnostics ++ ownDiagnostics file features scanned } := by
  have start : (ParseState.start file features scanned).ReportedBefore scanned.diagnostics
      (.start file features { scanned with diagnostics := [] }) := by
    simp [ParseState.ReportedBefore, ParseState.start]
  obtain ⟨shapes, finished⟩ :=
    (Parser.kept_reported scanned.diagnostics).compilationUnit _ _ start
  exact congrArg₂ ParsedShape.mk shapes (congrArg ParseState.diagnostics finished)

/-! ### Two files -/

/-- Two scanned files are the same apart from places and from what stands behind an opening brace:
balanced tokens, behind which the block or the file ends. -/
structure ScannedText.Refilled (scanned again : ScannedText) (brace otherBrace : Token)
    (content filling : List Token) : Prop where
  isOpen : brace.kind = .openBraceToken
  sameBrace : brace.unplaced = otherBrace.unplaced
  balanced : Balanced content
  balancedFilling : Balanced filling
  around : ∃ front back otherFront otherBack,
    scanned.tokens = front ++ brace :: (content ++ back) ∧
    again.tokens = otherFront ++ otherBrace :: (filling ++ otherBack) ∧
    front.map Token.unplaced = otherFront.map Token.unplaced ∧
    back.map Token.unplaced = otherBack.map Token.unplaced ∧
    ∀ token ∈ back.head?, token.kind = .closeBraceToken

open ParseTree (Frame)

section Files

variable {file : FileId} {features : Features} {source changed : SourceText}
  {scanned again : ScannedText} {brace otherBrace : Token} {content filling : List Token}
  {count : Nat}

theorem scanText_endOfFile (scans : scanText file source = .ok scanned) :
    scanned.endOfFile.unplaced = ⟨.endOfFileToken, .empty 0, ""⟩ := by
  obtain ⟨lexemes, stop, _, rfl⟩ := scanText_eq_ok_iff.mp scans
  rfl

/-- A token of a scanned file stands nowhere else in it. -/
theorem scanText_once {front later : List Token} (scans : scanText file source = .ok scanned)
    (tokensEq : scanned.tokens = front ++ brace :: later) :
    brace ∉ front ∧ brace ∉ later ++ [scanned.endOfFile] := by
  have precede := scanText_precede scans
  rw [tokensEq, List.append_assoc, List.cons_append] at precede
  refine ⟨fun isFront => ?_, fun isLater => ?_⟩
  · exact Nat.lt_irrefl _ (Token.in_front precede brace isFront).1
  · have ordered := Token.in_back precede brace isLater
    omega

/-- A token of a scanned file is known by where it stands. -/
theorem scanText_eq_of_span {front later : List Token} {token : Token}
    (scans : scanText file source = .ok scanned)
    (tokensEq : scanned.tokens = front ++ brace :: later)
    (isToken : token ∈ scanned.tokens ++ [scanned.endOfFile]) (sameSpan : token.span = brace.span) :
    token = brace := by
  have precede := scanText_precede scans
  rw [tokensEq, List.append_assoc, List.cons_append] at precede isToken
  obtain isFront | isBrace | isLater := List.mem_append.mp isToken |>.imp_right List.mem_cons.mp
  · have ordered := Token.in_front precede token isFront
    rw [sameSpan] at ordered
    exact absurd ordered.1 (Nat.lt_irrefl _)
  · exact isBrace
  · have ordered := Token.in_back precede token isLater
    rw [sameSpan] at ordered
    omega

/-- The file with other tokens in the block is parsed as the same shape around them, with the same
reports of the parser. -/
theorem parseTokens_crossed {front back : List Token} (scans : scanText file source = .ok scanned)
    (tokensEq : scanned.tokens = front ++ brace :: (content ++ back))
    (isOpen : brace.kind = .openBraceToken) (balanced : Balanced content)
    (balancedFilling : Balanced filling)
    (closes : ∀ token ∈ back.head?, token.kind = .closeBraceToken)
    (opens : (parseTokens file features scanned).shape.Opens brace count)
    (deep : nestingLimit ≤ count) :
    let other : ScannedText := { scanned with tokens := front ++ brace :: (filling ++ back) }
    ∃ frame : Frame, (parseTokens file features scanned).shape = frame.fill (brace :: content) ∧
      (parseTokens file features other).shape.Alike (frame.fill (brace :: filling)) ∧
      (ownDiagnostics file features scanned).map Diagnostic.unplaced =
        (ownDiagnostics file features other).map Diagnostic.unplaced := by
  intro other
  obtain ⟨notFront, notLater⟩ := scanText_once scans tokensEq
  let refilling : Refilling := {
    brace, content, filling, back, isOpen, balanced, balancedFilling, closes
    once := fun isLater => notLater (List.mem_append_left _ isLater) }
  have ahead : refilling.Ahead front (.start file features scanned)
      (.start file features other) := {
    facing := ⟨tokensEq, rfl⟩
    sound := ParseState.start_sound file features (scanText_covers scans)
    fresh := notFront }
  have crosses := Parser.compilationUnit_crosses ahead
  have crossed := crosses (ParseTree.OpensDeep.singleton_iff.mpr ⟨count, deep, opens⟩)
  obtain ⟨before, frame, after, isShape, alike⟩ := crossed.filled
  obtain ⟨rfl, single⟩ | ⟨_, noFill⟩ := List.append_eq_singleton_iff.mp isShape.symm
  case inr => cases noFill
  obtain ⟨isFilled, rfl⟩ := List.cons.inj single
  have sameShape := (List.forall₂_cons.mp alike).1
  have sameReports : (parseTokens file features scanned).diagnostics.map Diagnostic.unplaced =
      (parseTokens file features other).diagnostics.map Diagnostic.unplaced :=
    crossed.alike.diagnostics
  rw [parseTokens_reported file features scanned, parseTokens_reported file features other,
    List.map_append, List.map_append] at sameReports
  exact ⟨frame, isFilled.symm, sameShape.symm, List.append_cancel_left sameReports⟩

/-- The frame of a file has the tokens of the file in front of the block. -/
theorem tokensBefore_eq {front later : List Token} {frame : Frame}
    (scans : scanText file source = .ok scanned)
    (tokensEq : scanned.tokens = front ++ brace :: later)
    (isFilled : (parseTokens file features scanned).shape = frame.fill (brace :: content)) :
    frame.tokensBefore = front := by
  obtain ⟨notFront, notLater⟩ := scanText_once scans tokensEq
  have tokens := (parseTokens_faithful file features (scanText_covers scans)).tokens
  rw [isFilled, Frame.tokens_fill, tokensEq, List.append_assoc] at tokens
  exact ((List.append_cons_inj_of_notMem notFront notLater).mp tokens.symm).1.symm

/-- What the block of a file is filled with stands behind the tokens in front of the block. -/
theorem fill_eq {front opened later tokens : List Token} {frame : Frame}
    (scans : scanText file source = .ok scanned)
    (tokensEq : scanned.tokens = front ++ (opened ++ later))
    (isFilled : (parseTokens file features scanned).shape = frame.fill tokens)
    (frontLength : frame.tokensBefore.length = front.length)
    (sameLength : tokens.length = opened.length) : tokens = opened := by
  have allTokens := (parseTokens_faithful file features (scanText_covers scans)).tokens
  rw [isFilled, Frame.tokens_fill, tokensEq, List.append_assoc, List.append_assoc] at allTokens
  exact (List.append_inj (List.append_inj allTokens frontLength).2 sameLength).1

/-- The shapes of the two files are the same around the content of a block that is nested too deep,
and the parser reports the same. -/
theorem parseTokens_refilled (scans : scanText file source = .ok scanned)
    (scansAgain : scanText file changed = .ok again)
    (refilled : scanned.Refilled again brace otherBrace content filling)
    (opens : (parseTokens file features scanned).shape.Opens brace count)
    (deep : nestingLimit ≤ count) :
    ∃ frame other : Frame,
      (parseTokens file features scanned).shape = frame.fill (brace :: content) ∧
      (parseTokens file features again).shape = other.fill (otherBrace :: filling) ∧
      other.SameFront frame ∧
      (other.fill (otherBrace :: filling)).Alike (frame.fill (brace :: filling)) ∧
      (ownDiagnostics file features scanned).map Diagnostic.unplaced =
        (ownDiagnostics file features again).map Diagnostic.unplaced := by
  obtain ⟨front, back, otherFront, otherBack, tokensEq, otherTokensEq, sameFront, sameBack,
    closes⟩ := refilled.around
  -- The first file with the content of the second one.
  let middle : ScannedText := { scanned with tokens := front ++ brace :: (filling ++ back) }
  obtain ⟨frame, isFilled, middleShape, middleReports⟩ := parseTokens_crossed scans tokensEq
    refilled.isOpen refilled.balanced refilled.balancedFilling closes opens deep
  have alike : ({ middle with diagnostics := [] } : ScannedText).Alike
      { again with diagnostics := [] } := {
    tokens := by simp [middle, otherTokensEq, sameFront, refilled.sameBrace, sameBack]
    endOfFile := (scanText_endOfFile scans).trans (scanText_endOfFile scansAgain).symm
    diagnostics := rfl }
  obtain ⟨sameShape, sameReports⟩ :=
    @parseTokens_alike file file features { middle with diagnostics := [] } _ alike
  have again_eq := congrArg ParsedShape.shape (parseTokens_reported file features again)
  have middle_eq := congrArg ParsedShape.shape (parseTokens_reported file features middle)
  have againAlike : (parseTokens file features again).shape.Alike
      (frame.fill (brace :: filling)) := by
    rw [again_eq]
    rw [middle_eq] at middleShape
    exact Eq.trans (Eq.symm sameShape) middleShape
  obtain ⟨other, tokens, isFilledAgain, sameTokens, sameBefore⟩ := againAlike.exists_fill
  have frontLength : other.tokensBefore.length = otherFront.length := by
    rw [sameBefore.tokensBefore, tokensBefore_eq scans tokensEq isFilled]
    simpa using congrArg List.length sameFront
  have sameLength : tokens.length = (otherBrace :: filling).length := by
    simpa using congrArg List.length sameTokens
  obtain rfl := fill_eq scansAgain otherTokensEq isFilledAgain frontLength sameLength
  rw [isFilledAgain] at againAlike
  exact ⟨frame, other, isFilled, isFilledAgain, sameBefore, againAlike,
    middleReports.trans sameReports⟩

/-- Skipping to the end of a block leaves no brace open that it closes, and stops before the brace
that has no partner in what was skipped, or at the end of the file. -/
theorem looseTokens_stops (state : ParseState) :
    ∃ loose rest, state.rest = loose ++ rest ∧
      Parser.looseTokens.run state = (loose.map .token, state.advance loose rest) ∧
      StaysWithin 0 loose ∧
      ∀ token ∈ rest.head?, token.kind = .closeBraceToken ∧ Balanced loose := by
  obtain ⟨stays, ends⟩ := splitAtClosingBrace_stops 0 state.rest
  refine ⟨_, _, (Parser.splitAtClosingBrace_append 0 state.rest).symm, rfl, stays, ?_⟩
  intro token isNext
  obtain ⟨isClose, equal⟩ := ends token isNext
  exact ⟨isClose, stays, equal.trans (Nat.zero_add _)⟩

end Files

/-- A block that is nested too deep contains its damage. Take two texts that are the same but for
balanced tokens in such a block. (1) Both are parsed, and without these tokens the trees are the
same apart from places. The block has the same parent, and the other tokens of a text stand where
the text has them. (2) In both trees the tokens are children of the block, loose between its braces.
(3) Apart from places the parser reports the same. (4) To skip such tokens, the parser goes on to
the brace that closes the block, or to the end of the file. -/
theorem parseText_refilled {file : FileId} {fileName : String} {features : Features}
    {source changed : SourceText} {scanned again : ScannedText} {brace otherBrace : Token}
    {content filling : List Token} {parsed : ParsedFile} {id opening count : Nat}
    (scans : scanText file source = .ok scanned) (scansAgain : scanText file changed = .ok again)
    (refilled : scanned.Refilled again brace otherBrace content filling)
    (parses : parseText file fileName source features = .ok parsed)
    (isOpened : parsed.tree.IsOpenedBy id opening brace)
    (inBlocks : parsed.tree.InBlocks count id) (deep : nestingLimit ≤ count) :
    (∃ parsedAgain, parseText file fileName changed features = .ok parsedAgain ∧
      ((parsed.tree.outside (opening + 1) content.length).Alike
          (parsedAgain.tree.outside (opening + 1) filling.length) ∧
        parsed.tree.nodes[id]?.map TreeNode.parent =
          parsedAgain.tree.nodes[id]?.map TreeNode.parent ∧
        (parsed.tree.outside (opening + 1) content.length).realTokens.map TreeToken.placed =
          (scanned.allTokens.map Token.placed).filter (· ∉ content.map Token.placed) ∧
        (parsedAgain.tree.outside (opening + 1) filling.length).realTokens.map TreeToken.placed =
          (again.allTokens.map Token.placed).filter (· ∉ filling.map Token.placed)) ∧
      (parsed.tree.IsSkippedBlock id opening brace content ∧
        parsedAgain.tree.IsSkippedBlock id opening otherBrace filling) ∧
      ∃ own ownAgain, parsed.diagnostics.Perm (scanned.diagnostics ++ own) ∧
        parsedAgain.diagnostics.Perm (again.diagnostics ++ ownAgain) ∧
        own.map Diagnostic.unplaced = ownAgain.map Diagnostic.unplaced) ∧
    ∀ state : ParseState, ∃ loose rest, state.rest = loose ++ rest ∧
      Parser.looseTokens.run state = (loose.map .token, state.advance loose rest) ∧
      StaysWithin 0 loose ∧
      ∀ token ∈ rest.head?, token.kind = .closeBraceToken ∧ Balanced loose := by
  rw [parseText_eq_ok scans, Except.ok.injEq] at parses
  subst parses
  obtain ⟨_, _, _, _, tokensEq, _⟩ := refilled.around
  have shows : ((parseTokens file features scanned).shape.toTree file fileName source
      features).Shows _ _ := SyntaxTree.shows_of_scanText scans
  have showsAgain : ((parseTokens file features again).shape.toTree file fileName changed
      features).Shows _ _ := SyntaxTree.shows_of_scanText scansAgain
  obtain ⟨leaf, sameSpan, opens⟩ := shows.exists_opens inBlocks isOpened
  have isLeaf := opens.mem_tokens
  rw [(parseTokens_faithful file features (scanText_covers scans)).tokens] at isLeaf
  obtain rfl := scanText_eq_of_span scans tokensEq isLeaf sameSpan
  obtain ⟨frame, other, isFilled, isFilledAgain, sameFront, alike, sameReports⟩ :=
    parseTokens_refilled scans scansAgain refilled opens deep
  have reports (scanned : ScannedText) :
      (Diagnostics.sorted (parseTokens file features scanned).diagnostics).Perm
        (scanned.diagnostics ++ ownDiagnostics file features scanned) := by
    rw [parseTokens_reported]
    exact List.mergeSort_perm _ _
  rw [isFilled] at shows isOpened
  rw [isFilledAgain] at showsAgain
  obtain ⟨rfl, rfl⟩ := isOpened.isFrame shows
  have skipped := SyntaxTree.isSkippedBlock shows.whole.formed shows.whole.holds
  have skippedAgain := SyntaxTree.isSkippedBlock showsAgain.whole.formed showsAgain.whole.holds
  rw [sameFront.nodesBefore, sameFront.leavesBefore] at skippedAgain
  have sameOutside := Frame.outside_alike alike content file fileName source changed features
  have places := skipped.realTokens_outside shows.laidOut
  have placesAgain := skippedAgain.realTokens_outside showsAgain.laidOut
  rw [← isFilled] at skipped sameOutside places
  rw [← isFilledAgain] at skippedAgain sameOutside placesAgain
  rw [realTokens_eq scans] at places
  rw [realTokens_eq scansAgain] at placesAgain
  exact ⟨⟨_, parseText_eq_ok scansAgain,
    ⟨sameOutside, sameOutside.parent_eq _, places, placesAgain⟩, ⟨skipped, skippedAgain⟩,
    _, _, reports scanned, reports again, sameReports⟩, looseTokens_stops⟩

/-- Two contents of the last of 201 blocks that stand one in the other. -/
theorem parseText_refilled_nested :
    let nested (content : String) : List Char :=
      List.replicate 201 '\x7b' ++ content.toList ++ List.replicate 201 '\x7d'
    let source : SourceText := ⟨nested "a\x7b\x7d", by decide +kernel⟩
    let changed : SourceText := ⟨nested " b=\x7b;\x7d\x7b\x7d", by decide +kernel⟩
    let brace : Token := ⟨.openBraceToken, ⟨200, 1⟩, "\x7b"⟩
    let content : List Token := [⟨.identifierToken, ⟨201, 1⟩, "a"⟩,
      ⟨.openBraceToken, ⟨202, 1⟩, "\x7b"⟩, ⟨.closeBraceToken, ⟨203, 1⟩, "\x7d"⟩]
    let filling : List Token := [⟨.identifierToken, ⟨202, 1⟩, "b"⟩, ⟨.equalsToken, ⟨203, 1⟩, "="⟩,
      ⟨.openBraceToken, ⟨204, 1⟩, "\x7b"⟩, ⟨.semicolonToken, ⟨205, 1⟩, ";"⟩,
      ⟨.closeBraceToken, ⟨206, 1⟩, "\x7d"⟩, ⟨.openBraceToken, ⟨207, 1⟩, "\x7b"⟩,
      ⟨.closeBraceToken, ⟨208, 1⟩, "\x7d"⟩]
    ∃ scanned again parsed, scanText 0 source = .ok scanned ∧ scanText 0 changed = .ok again ∧
      scanned.Refilled again brace brace content filling ∧
      parseText 0 "main" source .all = .ok parsed ∧
      parsed.tree.IsOpenedBy 201 200 brace ∧ parsed.tree.InBlocks nestingLimit 201 ∧
      ∃ parsedAgain, parseText 0 "main" changed .all = .ok parsedAgain ∧
        ((parsed.tree.outside 201 3).Alike (parsedAgain.tree.outside 201 7) ∧
          parsed.tree.nodes[201]?.map TreeNode.parent =
            parsedAgain.tree.nodes[201]?.map TreeNode.parent ∧
          (parsed.tree.outside 201 3).realTokens.map TreeToken.placed =
            (scanned.allTokens.map Token.placed).filter (· ∉ content.map Token.placed) ∧
          (parsedAgain.tree.outside 201 7).realTokens.map TreeToken.placed =
            (again.allTokens.map Token.placed).filter (· ∉ filling.map Token.placed)) ∧
        (parsed.tree.IsSkippedBlock 201 200 brace content ∧
          parsedAgain.tree.IsSkippedBlock 201 200 brace filling) ∧
        ∃ own ownAgain, parsed.diagnostics.Perm (scanned.diagnostics ++ own) ∧
          parsedAgain.diagnostics.Perm (again.diagnostics ++ ownAgain) ∧
          own.map Diagnostic.unplaced = ownAgain.map Diagnostic.unplaced := by
  intro nested source changed brace content filling
  have areScanned : (scanText 0 source).isOk ∧ (scanText 0 changed).isOk := by decide +kernel
  have tokens : ∀ scanned ∈ (scanText 0 source).toOption, ∀ again ∈ (scanText 0 changed).toOption,
      scanned.tokens = scanned.tokens.take 200 ++ brace :: (content ++ scanned.tokens.drop 204) ∧
      again.tokens = again.tokens.take 200 ++ brace :: (filling ++ again.tokens.drop 208) ∧
      (scanned.tokens.take 200).map Token.unplaced =
        (again.tokens.take 200).map Token.unplaced ∧
      (scanned.tokens.drop 204).map Token.unplaced =
        (again.tokens.drop 208).map Token.unplaced ∧
      ∀ token ∈ (scanned.tokens.drop 204).head?, token.kind = .closeBraceToken := by
    decide +kernel
  have nodes : ∀ scanned ∈ (scanText 0 source).toOption,
      let tree := (parseTokens 0 .all scanned).shape.toTree 0 "main" source .all
      (tree.kind 201 = .ok .block ∧
        tree.nodes[201]?.bind (·.children[0]?) = some (.token 200) ∧
        tree.tokens[200]? = some (.ofToken 201 brace)) ∧
      tree.kind SyntaxTree.root = .ok .compilationUnit ∧
      tree.IsChildOf (.node 1) SyntaxTree.root ∧
      ∀ id < nestingLimit, tree.kind (id + 1) = .ok .block ∧
        tree.IsChildOf (.node (id + 2)) (id + 1) := by
    decide +kernel
  obtain ⟨scanned, scans⟩ := Checked.exists_ok_of_isOk areScanned.1
  obtain ⟨again, scansAgain⟩ := Checked.exists_ok_of_isOk areScanned.2
  have isScanned : scanned ∈ (scanText 0 source).toOption := by
    rw [scans]
    rfl
  have isScannedAgain : again ∈ (scanText 0 changed).toOption := by
    rw [scansAgain]
    rfl
  obtain ⟨isOpened, isFile, isFirst, chain⟩ := nodes scanned isScanned
  have refilled : scanned.Refilled again brace brace content filling := {
    isOpen := rfl
    sameBrace := rfl
    balanced := by decide +kernel
    balancedFilling := by decide +kernel
    around := ⟨_, _, _, _, tokens scanned isScanned again isScannedAgain⟩ }
  have parses : parseText 0 "main" source .all = .ok _ := parseText_eq_ok scans
  have inBlocks := SyntaxTree.inBlocks_of_nested isFile isFirst chain
  have isOpened : SyntaxTree.IsOpenedBy _ 201 200 brace := ⟨isOpened.1, isOpened.2.1, isOpened.2.2⟩
  exact ⟨scanned, again, _, scans, scansAgain, refilled, parses, isOpened, inBlocks,
    (parseText_refilled scans scansAgain refilled parses isOpened inBlocks (Nat.le_refl _)).1⟩

end QueryLang
