import QueryLang.Proofs.Editor.Carets
import QueryLang.Proofs.Syntax.Preceding

/-!
# Where statements start

At the start of every statement that is directly in a block or in a file completion sees that a
statement can start there, and so it does while the first word of the statement is being typed. The
target of such a caret is what stands in front of the statement.
-/

namespace QueryLang

/-- A position is where a token starts or, if the token is a word, touches it. -/
def TreeToken.IsTypedAt (token : TreeToken) (position : Nat) : Prop :=
  position = token.span.start ∨ token.kind.isWord = true ∧ token.span.IsTouchedBy position

namespace SyntaxTree

variable {tree : SyntaxTree} {damaged : Prop} {position first : Nat} {token : TreeToken}

/-- Where a token is typed, the target is what stands in front of it, unless that is a word too. -/
theorem LaidOut.caretTarget?_eq (laidOut : tree.LaidOut) (wellFormed : tree.WellFormed damaged)
    (isToken : tree.tokens[first]? = some token) (isReal : token.isMissing = false)
    (isTyped : token.IsTypedAt position)
    (notWord : ∀ id ∈ tree.lastPresentBefore? first, ∀ previous, tree.tokens[id]? = some previous →
      previous.kind.isWord = false) :
    tree.caretTarget? position = tree.lastPresentBefore? first := by
  by_cases atStart : position = token.span.start
  · subst atStart
    obtain ⟨found, own, foundEq, isAt⟩ := laidOut.findToken_eq wellFormed token.span.start
    cases foundEq.symm.trans (laidOut.findToken_start wellFormed isToken isReal)
    cases isToken.symm.trans isAt.isToken
    have lastEq : tree.lastStartingBefore? token.span.start = tree.lastPresentBefore? first := by
      rw [laidOut.lastStartingBefore?_eq isAt, if_pos (Nat.le_refl _)]
      rfl
    rw [caretTarget?, lastEq]
    cases isLast : tree.lastPresentBefore? first with
    | none => rfl
    | some id =>
      obtain ⟨previous, isPrevious, _⟩ :=
        isPresent_iff.mp (find?_reverse_range_eq_some.mp isLast).1
      rw [Option.bind_some, touchesWord_eq isPrevious, notWord id isLast previous isPrevious]
      rfl
  · obtain ⟨isWord, touches⟩ := isTyped.resolve_left atStart
    have lastEq := laidOut.lastStartingBefore?_eq_some isToken isReal
      (Nat.lt_of_le_of_ne touches.1 (Ne.symm atStart)) touches.2
    rw [caretTarget?, lastEq, Option.bind_some, touchesWord_eq isToken, isWord,
      decide_eq_true touches]
    rfl

theorem lastPresentBefore?_succ {id : Nat} (isPresent : tree.isPresent id = true) :
    tree.lastPresentBefore? (id + 1) = some id := by
  rw [lastPresentBefore?, List.range_succ, List.reverse_append, List.reverse_singleton,
    List.singleton_append, List.find?_cons_of_pos isPresent]

section

variable {global : Bool} {id : Nat} {outer : NodeId} {kind outerKind : Kind}

/-- A statement can start behind the brace that opens a block. -/
theorem isStatementBoundary_brace (isToken : tree.tokens[id]? = some token)
    (isBrace : token.kind = .openBraceToken) (inBlock : tree.kind token.parent = .ok .block) :
    tree.isStatementBoundary global (some id) = .ok (holdsStatements global .block) := by
  have tokenEq : tree.token id = .ok token := by rw [SyntaxTree.token, isToken]
  rw [isStatementBoundary, tokenEq, Checked.ok_bind, inBlock, Checked.ok_bind, isBrace]
  rfl

/-- A statement can start behind another one, if that is in a block or in a file. -/
theorem isStatementBoundary_end (isToken : tree.tokens[id]? = some token)
    (isEnd : token.kind = .semicolonToken ∨ token.kind = .closeBraceToken ∧ kind = .block)
    (kindEq : tree.kind token.parent = .ok kind) (isStatement : kind.isStatement = true)
    (isParent : tree.parent token.parent = .ok (some outer))
    (outerKindEq : tree.kind outer = .ok outerKind) :
    tree.isStatementBoundary global (some id) = .ok (holdsStatements global outerKind) := by
  have tokenEq : tree.token id = .ok token := by rw [SyntaxTree.token, isToken]
  rw [isStatementBoundary, tokenEq, Checked.ok_bind, kindEq, Checked.ok_bind]
  rcases isEnd with isSemicolon | ⟨isBrace, rfl⟩
  · simp [isSemicolon, isStatement, isParent, outerKindEq, pure, Except.pure]
  · simp [isBrace, isStatement, isParent, outerKindEq, pure, Except.pure]

end

/-- Behind what a statement can start behind, completion sees that one can. -/
theorem StartsBehind.boundary {outer : NodeId} {outerKind : Kind}
    (behind : tree.StartsBehind outer outerKind first)
    (outerKindEq : tree.kind outer = .ok outerKind)
    (present : ∀ id < tree.tokens.size, tree.isPresent id = true) :
    (∀ id ∈ tree.lastPresentBefore? first, ∀ previous, tree.tokens[id]? = some previous →
      previous.kind.isWord = false) ∧
    ∀ global, tree.isStatementBoundary global (tree.lastPresentBefore? first) =
      .ok (holdsStatements global outerKind) := by
  have last {id : Nat} {token : TreeToken} (isToken : tree.tokens[id]? = some token)
      (notWord : token.kind.isWord = false) :
      tree.lastPresentBefore? (id + 1) = some id ∧
        ∀ own ∈ some id, ∀ previous, tree.tokens[own]? = some previous →
          previous.kind.isWord = false := by
    refine ⟨lastPresentBefore?_succ (present id (Array.getElem?_eq_some_iff.mp isToken).1), ?_⟩
    rintro _ ⟨⟩ previous isPrevious
    cases isToken.symm.trans isPrevious
    exact notWord
  cases behind with
  | nothing => exact ⟨by rintro _ ⟨⟩, fun global => rfl⟩
  | brace isToken isBrace parentEq =>
    obtain ⟨lastEq, notWord⟩ := last isToken (by rw [isBrace]; rfl)
    rw [lastEq]
    subst parentEq
    exact ⟨notWord, fun global => isStatementBoundary_brace isToken isBrace outerKindEq⟩
  | @statement id own kind _ isToken isEnd kindEq isStatement isParent =>
    have isSymbol : own.kind.isWord = false := by
      rcases isEnd with isSemicolon | ⟨isBrace, _⟩
      · exact isSemicolon ▸ rfl
      · exact isBrace ▸ rfl
    obtain ⟨lastEq, notWord⟩ := last isToken isSymbol
    rw [lastEq]
    exact ⟨notWord, fun global =>
      isStatementBoundary_end isToken isEnd kindEq isStatement isParent outerKindEq⟩

/-- Where nothing is damaged, a caret at the start of a statement has the context of one. -/
theorem Shows.caretContext_at {file : ParseTree} {outer : NodeId} {outerKind : Kind}
    (shows : tree.Shows damaged file) (whole : ¬damaged)
    (behind : tree.StartsBehind outer outerKind first)
    (outerKindEq : tree.kind outer = .ok outerKind) (isToken : tree.tokens[first]? = some token)
    (isTyped : token.IsTypedAt position) :
    ∃ context, tree.caretContext position = .ok context ∧
      context.isStatement = holdsStatements false outerKind ∧
      context.isGlobalStatement = holdsStatements true outerKind := by
  have present : ∀ id < tree.tokens.size, tree.isPresent id = true := by
    intro id inRange
    have isOwn := Array.getElem?_eq_getElem inRange
    exact isPresent_iff.mpr ⟨_, isOwn, shows.token_isReal whole isOwn⟩
  obtain ⟨notWord, boundary⟩ := behind.boundary outerKindEq present
  have targetEq := shows.laidOut.caretTarget?_eq shows.wellFormed isToken
    (shows.token_isReal whole isToken) isTyped notWord
  obtain ⟨context, isContext, _, _, _, isStatementEq, isGlobalEq⟩ :=
    shows.wellFormed.caretContext_eq shows.laidOut position
  rw [targetEq, boundary, Except.ok.injEq] at isStatementEq isGlobalEq
  exact ⟨context, isContext, isStatementEq.symm, isGlobalEq.symm⟩

/-- Where a statement can start, all keywords are offered. -/
theorem recommendKeywords_statement {context : CaretContext}
    (isContext : tree.caretContext position = .ok context)
    (isStatement : context.isStatement = true) :
    tree.recommendKeywords position =
      .ok [.ofKeyword "do", .ofKeyword "return", .ofKeyword "yield"] := by
  have offersDo : context.offersDo tree = .ok true := by
    rw [CaretContext.offersDo, isStatement]
    rfl
  have offersReturn : context.offersReturn tree = .ok true := by
    rw [CaretContext.offersReturn, isStatement]
    rfl
  have offersYield : context.offersYield tree = .ok true := by
    rw [CaretContext.offersYield, isStatement]
    rfl
  rw [recommendKeywords, isContext, Checked.ok_bind, offersDo, Checked.ok_bind, offersReturn,
    Checked.ok_bind, offersYield]
  rfl

end SyntaxTree

/-- Where a text is parsed without any report, everything directly in a block or in the file is a
statement. A caret at its start, or at its first token if that is a word, is recognised as one where
a statement can start, and just those of the file as ones where a statement of the file can. All
three keywords are offered there. -/
theorem parseText_startsStatements {file : FileId} {fileName : String} {source : SourceText}
    {features : Features} {parsed : ParsedFile}
    (isParsed : parseText file fileName source features = .ok parsed)
    (clean : parsed.diagnostics = []) {id outer : NodeId} {outerKind : Kind}
    (isParent : parsed.tree.parent id = .ok (some outer))
    (outerKindEq : parsed.tree.kind outer = .ok outerKind)
    (holds : outerKind = .block ∨ outerKind = .compilationUnit) :
    ∃ kind span first token, parsed.tree.kind id = .ok kind ∧ kind.isStatement = true ∧
      parsed.tree.span id = .ok span ∧ parsed.tree.firstToken? id = .ok (some first) ∧
      parsed.tree.token first = .ok token ∧ span.start = token.span.start ∧
      ∀ position,
        (position = span.start ∨ token.kind.isWord = true ∧ token.span.IsTouchedBy position) →
        ∃ context, parsed.tree.caretContext position = .ok context ∧
          context.isStatement = true ∧
          context.isGlobalStatement = decide (outerKind = .compilationUnit) ∧
          parsed.tree.recommendKeywords position =
            .ok [.ofKeyword "do", .ofKeyword "return", .ofKeyword "yield"] := by
  obtain ⟨damaged, shape, shows, whole, braced⟩ := parseText_clean isParsed clean
  obtain ⟨node, found, isStatement, behind⟩ :=
    shows.startsBehind braced whole isParent outerKindEq holds
  obtain ⟨span, token, spanEq, isToken, startEq⟩ := shows.span_starts whole found
  refine ⟨node.kind, span, node.firstToken, token, SyntaxTree.kind_eq_ok found, isStatement, spanEq,
    shows.firstToken?_eq whole found, by rw [SyntaxTree.token, isToken], startEq, ?_⟩
  intro position isTyped
  obtain ⟨context, isContext, isStatementEq, isGlobalEq⟩ :=
    shows.caretContext_at whole behind outerKindEq isToken (startEq ▸ isTyped)
  have canStart : context.isStatement = true := by
    rw [isStatementEq]
    rcases holds with rfl | rfl
    · rfl
    · rfl
  refine ⟨context, isContext, canStart, ?_,
    SyntaxTree.recommendKeywords_statement isContext canStart⟩
  rw [isGlobalEq]
  rcases holds with rfl | rfl
  · rfl
  · rfl

/-- A statement behind a block, inside of the block of a loop, while its first word is typed. -/
theorem parseText_startsStatements_nested :
    let text := "var x = 1; do \x7b return; \x7b x; \x7d yield break; \x7d while (x);"
    let source : SourceText := ⟨text.toList, by decide +kernel⟩
    ∃ parsed, parseText 0 "main" source .all = .ok parsed ∧ parsed.diagnostics = [] ∧
      parsed.tree.parent 9 = .ok (some 4) ∧ parsed.tree.kind 4 = .ok .block ∧
      parsed.tree.kind 9 = .ok .yieldBreakStatement ∧
      ∃ context, parsed.tree.caretContext 34 = .ok context ∧ context.isStatement = true ∧
        context.isGlobalStatement = false ∧ parsed.tree.recommendKeywords 34 =
          .ok [.ofKeyword "do", .ofKeyword "return", .ofKeyword "yield"] := by
  intro text source
  have isParsable : (parseText 0 "main" source .all).isOk := by decide +kernel
  have facts : ∀ parsed ∈ (parseText 0 "main" source .all).toOption,
      parsed.diagnostics = [] ∧ (parsed.tree.parent 9).toOption = some (some 4) ∧
        (parsed.tree.kind 4).toOption = some .block ∧
        (parsed.tree.kind 9).toOption = some .yieldBreakStatement ∧
        ∀ first ∈ (parsed.tree.firstToken? 9).toOption, ∀ id ∈ first,
          ∀ token ∈ (parsed.tree.token id).toOption,
            token.kind.isWord = true ∧ token.span.IsTouchedBy 34 := by
    decide +kernel
  obtain ⟨parsed, isParsed⟩ := Checked.exists_ok_of_isOk isParsable
  obtain ⟨clean, isParent, isBlock, isBreak, touched⟩ := facts parsed (by rw [isParsed]; rfl)
  have isParent := Checked.eq_ok_of_toOption isParent
  have isBlock := Checked.eq_ok_of_toOption isBlock
  obtain ⟨_, _, first, token, _, _, _, isFirst, isToken, _, starts⟩ :=
    parseText_startsStatements isParsed clean isParent isBlock (.inl rfl)
  have isTyped := touched (some first) (by rw [isFirst]; rfl) first rfl token (by rw [isToken]; rfl)
  obtain ⟨context, isContext, isStatement, isGlobal, recommended⟩ := starts 34 (.inr isTyped)
  exact ⟨parsed, isParsed, clean, isParent, isBlock, Checked.eq_ok_of_toOption isBreak, context,
    isContext, isStatement, isGlobal, recommended⟩

end QueryLang
