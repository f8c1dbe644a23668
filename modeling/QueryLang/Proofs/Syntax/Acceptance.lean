import QueryLang.Proofs.Syntax.Derivation
import QueryLang.Proofs.Syntax.GreedyParsing
import QueryLang.Proofs.Syntax.Parsing

/-!
# The parser accepts exactly the grammar

A tree that was parsed without a report derives its tokens, and statements that can be derived are
parsed without a report: they are read greedily, and the parser reads greedily as well. Nesting
that is too deep for the parser is the one thing that the grammar does not know of.
-/

namespace QueryLang

namespace Greedy

variable {kinds : List Kind}

/-- A statement starts with a token that ends neither a block nor a file. -/
theorem Statement.starts (reading : Statement kinds) :
    ∃ kind rest, kinds = kind :: rest ∧ kind ≠ .closeBraceToken ∧ kind ≠ .endOfFileToken := by
  cases reading with
  | declaration => exact ⟨_, _, rfl, by decide, by decide⟩
  | returnNothing => exact ⟨_, _, rfl, by decide, by decide⟩
  | returnValue => exact ⟨_, _, rfl, by decide, by decide⟩
  | yieldReturn => exact ⟨_, _, rfl, by decide, by decide⟩
  | yieldBreak => exact ⟨_, _, rfl, by decide, by decide⟩
  | doStatement => exact ⟨_, _, rfl, by decide, by decide⟩
  | block block =>
      cases block with
      | braces => exact ⟨_, _, rfl, by decide, by decide⟩
  | expression expression =>
      rcases expression.starts with ⟨kind, rest, rfl, isStarter⟩
      have all : ∀ kind ∈ starters, kind ≠ .closeBraceToken ∧ kind ≠ .endOfFileToken := by decide
      exact ⟨kind, _, rfl, all kind isStarter⟩

theorem ends_semicolon (rest : List Kind) : Ends (.semicolonToken :: rest) :=
  ends_cons rest (by decide)

end Greedy

namespace Parser

open Greedy

variable {kinds after : List Kind}

/-- The parser gets over every block. -/
def ReadsBlocks (parser : Parser ParseTree) : Prop :=
  ∀ kinds after : List Kind, Block kinds → parser.Gets (kinds ++ after) after

/-- The parser gets over every statement. -/
def ReadsStatements (parser : Parser ParseTree) : Prop :=
  ∀ kinds after : List Kind, Statement kinds → parser.Gets (kinds ++ after) after

theorem yieldBreak_gets {inner : Parser ParseTree} :
    (yieldStatement inner).Gets (.yieldKeyword :: .breakKeyword :: .semicolonToken :: after)
      after := by
  refine follows_get fun state clean => ?_
  have isBreak : state.following = .breakKeyword := clean.following_eq
  rw [if_pos isBreak]
  refine Gets.bind (bump_gets _ _) fun yieldKeyword => ?_
  refine Gets.bind (bump_gets _ _) fun breakKeyword => ?_
  refine Gets.bind (expect_gets _ _) fun semicolon => ?_
  exact follows_pure rfl

section Statements

variable {inner : Parser ParseTree} [Grows inner] (reads : inner.ReadsExpressions)

include reads

theorem localDeclaration_gets {value : List Kind} {inside : Nat}
    (expression : Expression 0 value inside) :
    (localDeclaration inner).Gets
      (.varKeyword :: .identifierToken :: .equalsToken :: (value ++ .semicolonToken :: after))
      after := by
  refine Gets.bind (bump_gets _ _) fun keyword => ?_
  refine Gets.bind (expect_gets _ _) fun identifier => ?_
  refine Gets.bind (expect_gets _ _) fun equals => ?_
  refine Gets.bind (reads.gets expression (ends_semicolon _)) fun initializer => ?_
  refine Gets.bind (expect_gets _ _) fun semicolon => ?_
  exact follows_pure rfl

theorem returnStatement_gets {value : List Kind}
    (isValue : value = [] ∨ ∃ inside, Expression 0 value inside) :
    (returnStatement inner).Gets (.returnKeyword :: (value ++ .semicolonToken :: after))
      after := by
  refine Gets.bind (bump_gets _ _) fun keyword => ?_
  refine follows_current ?_
  dsimp only
  rcases isValue with rfl | ⟨inside, expression⟩
  · rw [List.nil_append, List.headD_cons, if_pos rfl, pure_bind]
    refine Gets.bind (expect_gets _ _) fun semicolon => ?_
    exact follows_pure rfl
  · have notSemicolon : (value ++ .semicolonToken :: after).headD .endOfFileToken ≠
        .semicolonToken := by
      rcases expression.starts with ⟨kind, rest, rfl, isStarter⟩
      rintro rfl
      revert isStarter
      decide
    rw [if_neg notSemicolon]
    refine Gets.bind (reads.gets expression (ends_semicolon _)) fun value => ?_
    rw [pure_bind]
    refine Gets.bind (expect_gets _ _) fun semicolon => ?_
    exact follows_pure rfl

theorem yieldReturn_gets {value : List Kind} {inside : Nat}
    (expression : Expression 0 value inside) :
    (yieldStatement inner).Gets
      (.yieldKeyword :: .returnKeyword :: (value ++ .semicolonToken :: after)) after := by
  refine follows_get fun state clean => ?_
  have notBreak : state.following ≠ .breakKeyword := by
    rw [clean.following_eq, List.headD_cons]
    decide
  rw [if_neg notBreak]
  refine Gets.bind (bump_gets _ _) fun yieldKeyword => ?_
  refine Gets.bind (expect_gets _ _) fun returnKeyword => ?_
  refine Gets.bind (reads.gets expression (ends_semicolon _)) fun value => ?_
  refine Gets.bind (expect_gets _ _) fun semicolon => ?_
  exact follows_pure rfl

theorem doStatement_gets {block : Parser ParseTree} [Grows block] (readsBlock : block.ReadsBlocks)
    {body condition : List Kind} {inside : Nat} (isBlock : Block body)
    (expression : Expression 0 condition inside) :
    (doStatement block inner).Gets
      (.doKeyword :: (body ++ .whileKeyword :: .openParenToken ::
        (condition ++ .closeParenToken :: .semicolonToken :: after))) after := by
  have ends : Ends (.closeParenToken :: .semicolonToken :: after) := ends_cons _ (by decide)
  refine Gets.bind (checkFeature_gets _ _) fun _ => ?_
  refine Gets.bind (bump_gets _ _) fun doKeyword => ?_
  refine Gets.bind (readsBlock _ _ isBlock) fun body => ?_
  refine Gets.bind (expect_gets _ _) fun whileKeyword => ?_
  refine Gets.bind (expect_gets _ _) fun openParen => ?_
  refine Gets.bind (reads.gets expression ends) fun condition => ?_
  refine Gets.bind (expect_gets _ _) fun closeParen => ?_
  refine Gets.bind (expect_gets _ _) fun semicolon => ?_
  exact follows_pure rfl

omit [Grows inner] in
theorem expressionStatement_gets {value : List Kind} {inside : Nat}
    (expression : Expression 0 value inside) :
    (expressionStatement inner).Gets (value ++ .semicolonToken :: after) after := by
  refine Gets.bind (reads.gets expression (ends_semicolon _)) fun value => ?_
  refine Gets.bind (expect_gets _ _) fun semicolon => ?_
  exact follows_pure rfl

/-- The first token of a statement tells which statement it is. -/
theorem readsStatements_of_readsBlocks {block : Parser ParseTree} [Grows block]
    (readsBlock : block.ReadsBlocks) : (statementOf block inner).ReadsStatements := by
  intro kinds after reading
  refine follows_current ?_
  cases reading with
  | declaration expression =>
      simp only [List.cons_append, List.append_assoc, List.nil_append, List.headD_cons]
      exact localDeclaration_gets reads expression
  | returnNothing => exact returnStatement_gets reads (.inl rfl)
  | returnValue expression =>
      simp only [List.cons_append, List.append_assoc, List.nil_append, List.headD_cons]
      exact returnStatement_gets reads (.inr ⟨_, expression⟩)
  | yieldReturn expression =>
      simp only [List.cons_append, List.append_assoc, List.nil_append, List.headD_cons]
      exact yieldReturn_gets reads expression
  | yieldBreak => exact yieldBreak_gets
  | doStatement isBlock expression =>
      simp only [List.cons_append, List.append_assoc, List.nil_append, List.headD_cons]
      exact doStatement_gets reads readsBlock isBlock expression
  | block isBlock =>
      have gets := readsBlock _ after isBlock
      cases isBlock
      exact gets
  | @expression _ value expression =>
      rw [List.append_assoc]
      have gets : (expressionStatement inner).Gets (value ++ .semicolonToken :: after) after :=
        expressionStatement_gets reads expression
      rcases expression.starts with ⟨kind, rest, rfl, isStarter⟩
      simp only [starters, atoms, List.mem_cons, List.not_mem_nil, or_false] at isStarter
      rcases isStarter with rfl | rfl | rfl | rfl | rfl | rfl | rfl <;> exact gets

end Statements

/-! ### Lists of statements -/

section Lists

variable {statement : Parser ParseTree} (reads : statement.ReadsStatements)

include reads

/-- After a statement there is nothing to recover from. -/
theorem recoveringStatement_follows {first : List Kind} (reading : Statement first)
    (after : List Kind) :
    (recoveringStatement statement).Follows (first ++ after) fun new left =>
      new ≠ [] ∧ left.length < (first ++ after).length ∧ left = after := by
  rcases reading.starts with ⟨kind, rest, rfl, _⟩
  have shorter : after.length < (kind :: rest ++ after).length := by
    simp only [List.length_append, List.length_cons]
    omega
  refine follows_get fun state clean => ?_
  refine Gets.bind (reads _ _ reading) fun parsed => ?_
  refine follows_get fun final cleanFinal => ?_
  have consumed : final.rest.length ≠ state.rest.length := by
    rw [clean.length_eq, cleanFinal.length_eq]
    exact Nat.ne_of_lt shorter
  rw [if_neg consumed]
  exact follows_pure ⟨List.cons_ne_nil _ _, shorter, rfl⟩

theorem blockStatement_follows (readings : Statements kinds) :
    (blockStatement statement).Follows (kinds ++ .closeBraceToken :: after) fun new left =>
      new = [] ∧ left = .closeBraceToken :: after ∨
        new ≠ [] ∧ left.length < (kinds ++ .closeBraceToken :: after).length ∧
          ∃ others, left = others ++ .closeBraceToken :: after ∧ Statements others := by
  refine follows_current ?_
  cases readings with
  | none => exact follows_pure (.inl ⟨rfl, rfl⟩)
  | @more first others reading readings =>
      rw [List.append_assoc]
      have follows := recoveringStatement_follows reads reading
        (others ++ .closeBraceToken :: after)
      rcases reading.starts with ⟨kind, rest, rfl, notClose, notEnd⟩
      rw [List.cons_append, List.headD_cons]
      split
      · exact absurd rfl notClose
      · exact absurd rfl notEnd
      · refine follows.mono ?_
        rintro new left _ ⟨notEmpty, progress, rfl⟩
        exact .inr ⟨notEmpty, progress, others, rfl, readings⟩

theorem fileStatement_follows (readings : Statements kinds) :
    (fileStatement statement).Follows kinds fun new left =>
      new = [] ∧ left = [] ∨
        new ≠ [] ∧ left.length < kinds.length ∧ Statements left := by
  refine follows_current ?_
  cases readings with
  | none => exact follows_pure (.inl ⟨rfl, rfl⟩)
  | @more first others reading readings =>
      have follows := recoveringStatement_follows reads reading others
      rcases reading.starts with ⟨kind, rest, rfl, _, notEnd⟩
      rw [List.cons_append, List.headD_cons]
      split
      · exact absurd rfl notEnd
      · refine follows.mono ?_
        rintro new left _ ⟨notEmpty, progress, rfl⟩
        exact .inr ⟨notEmpty, progress, readings⟩

theorem blockStatements_gets [Grows statement] (readings : Statements kinds) :
    (many (blockStatement statement)).Gets (kinds ++ .closeBraceToken :: after)
      (.closeBraceToken :: after) := by
  refine many_follows
    (fun left => ∃ others, left = others ++ .closeBraceToken :: after ∧ Statements others)
    ?_ ?_ ⟨kinds, rfl, readings⟩
  · rintro _ ⟨others, rfl, readings⟩
    exact blockStatement_follows reads readings
  · rintro ⟨others, noKinds, _⟩
    simp at noKinds

theorem fileStatements_gets [Grows statement] (readings : Statements kinds) :
    (many (fileStatement statement)).Gets kinds [] := by
  refine many_follows Statements ?_ ?_ readings
  · intro kinds readings
    exact fileStatement_follows reads readings
  · intro _
    rfl

end Lists

/-! ### Blocks and files -/

theorem blockOf_gets {content : Parser (List ParseTree)} [Grows content]
    (gets : content.Gets (kinds ++ .closeBraceToken :: after) (.closeBraceToken :: after)) :
    (blockOf content).Gets (.openBraceToken :: (kinds ++ .closeBraceToken :: after)) after := by
  refine follows_current ?_
  rw [List.headD_cons, if_pos rfl]
  refine Gets.bind (bump_gets _ _) fun openBrace => ?_
  refine Gets.bind gets fun statements => ?_
  refine Gets.bind (expect_gets _ _) fun closeBrace => ?_
  exact follows_pure rfl

/-- However many levels may be opened, parsing gets over a block. -/
theorem readsBlocks (levels : Nat) : (block levels).ReadsBlocks := by
  induction levels with
  | zero =>
      rintro _ after (@⟨content, readings⟩)
      rw [List.cons_append, List.append_assoc]
      refine blockOf_gets ?_
      have tooDeep : reportTooDeep.Follows (content ++ .closeBraceToken :: after)
          fun _ _ => False := reportTooDeep_follows _
      exact Follows.bind tooDeep fun _ _ impossible => impossible.elim
  | succ levels ih =>
      rintro _ after ⟨readings⟩
      rw [List.cons_append, List.append_assoc]
      refine blockOf_gets ?_
      have statements := readsStatements_of_readsBlocks (readsExpressions levels) ih
      exact blockStatements_gets statements readings

theorem readsStatements (levels : Nat) : (statement levels).ReadsStatements :=
  readsStatements_of_readsBlocks (readsExpressions levels) (readsBlocks levels)

/-- The end-of-file token can be taken again and again. -/
theorem bump_gets_nil : bump.Gets [] [] := by
  intro state clean
  have rest := clean.rest_kinds
  rw [List.map_eq_nil_iff] at rest
  rw [bump, leads_bind, leads_get, rest]
  exact .inr ⟨[], clean, List.suffix_rfl, rfl⟩

theorem compilationUnit_gets (readings : Statements kinds) : compilationUnit.Gets kinds [] := by
  have statements := readsStatements nestingLimit
  refine Gets.bind (fileStatements_gets statements readings) fun statements => ?_
  refine Gets.bind bump_gets_nil fun endOfFile => ?_
  exact follows_pure rfl

end Parser

theorem Diagnostics.sorted_eq_nil_iff {diagnostics : Diagnostics} :
    diagnostics.sorted = [] ↔ diagnostics = [] := by
  rw [← List.length_eq_zero_iff, ← List.length_eq_zero_iff, sorted, List.length_mergeSort]

section Accepts

variable {file : FileId} {source : SourceText} {scanned : ScannedText}

/-- Tokens that were parsed without a report can be derived. -/
theorem derives_of_parseTokens {features : Features} {offset : Nat} {chars : List Char}
    (covers : scanned.Covers offset chars)
    (unreported : (parseTokens file features scanned).diagnostics = []) :
    Nonterminal.unit.Derives (scanned.tokens.map Token.kind) := by
  have faithful := parseTokens_faithful file features covers
  have undamaged : (parseTokens file features scanned).diagnostics.hasErrors = true → False := by
    rw [unreported]
    exact Bool.false_ne_true
  have derives := (faithful.formed.mono undamaged).derives
  rw [faithful.tokens, List.map_append, Role.phrase, Phrase.spells_pair_iff] at derives
  rcases derives with ⟨kinds, last, split, statements, isLast⟩
  rw [Phrase.spells_token_iff] at isLast
  subst isLast
  have same : scanned.tokens.map Token.kind = kinds := List.append_inj_left' split rfl
  rw [same]
  exact Phrase.spells_of_iff.mp statements

/-- Statements that can be derived are parsed without a report, unless they nest too deep. -/
theorem unreported_of_derives (endOfFile_kind : scanned.endOfFile.kind = .endOfFileToken)
    (unreported : scanned.diagnostics = [])
    (derives : Nonterminal.unit.Derives (scanned.tokens.map Token.kind))
    (shallow : ∀ diagnostic ∈ (parseTokens file .all scanned).diagnostics,
      diagnostic.code ≠ DiagnosticMessage.tooDeeplyNested.code) :
    (parseTokens file .all scanned).diagnostics = [] := by
  have clean : (ParseState.start file .all scanned).Clean (scanned.tokens.map Token.kind) :=
    ⟨rfl, endOfFile_kind, rfl, unreported, rfl⟩
  have statements : Greedy.Statements (scanned.tokens.map Token.kind) :=
    Greedy.reads_of_derives derives
  rcases Parser.compilationUnit_gets statements _ clean with
    ⟨diagnostic, member, isTooDeep⟩ | ⟨left, cleanAfter, _⟩
  · exact absurd isTooDeep (shallow diagnostic member)
  · exact cleanAfter.unreported

/-- Of the texts in which scanning finds nothing to report, parsing accepts exactly those that can
be derived, as far as they do not nest too deep. -/
theorem parseText_accepts (scans : scanText file source = .ok scanned)
    (unreported : scanned.diagnostics = []) (fileName : String) :
    ∃ parsed, parseText file fileName source .all = .ok parsed ∧
      (parsed.diagnostics = [] → Nonterminal.unit.Derives (scanned.tokens.map Token.kind)) ∧
      (Nonterminal.unit.Derives (scanned.tokens.map Token.kind) →
        (∀ diagnostic ∈ parsed.diagnostics,
          diagnostic.code ≠ DiagnosticMessage.tooDeeplyNested.code) →
        parsed.diagnostics = []) := by
  have covers := scanText_covers scans
  refine ⟨_, parseText_eq_ok scans, ?_, ?_⟩
  · intro nothing
    exact derives_of_parseTokens covers (Diagnostics.sorted_eq_nil_iff.mp nothing)
  · intro derives shallow
    refine Diagnostics.sorted_eq_nil_iff.mpr ?_
    refine unreported_of_derives covers.tiled.endOfFile_kind unreported derives ?_
    intro diagnostic member
    exact shallow diagnostic (List.mem_mergeSort.mpr member)

/-- Two nested queries with a conclusion each are accepted, and can be derived. -/
theorem parseText_accepts_conclusions :
    let text := "from x in s select from y in t select y yield into m do m yield into n do n;"
    let source : SourceText := ⟨text.toList, by decide +kernel⟩
    ∃ scanned, scanText 0 source = .ok scanned ∧ scanned.diagnostics = [] ∧
      Nonterminal.unit.Derives (scanned.tokens.map Token.kind) ∧
      ∃ parsed, parseText 0 "main" source .all = .ok parsed ∧ parsed.diagnostics = [] := by
  intro text source
  have isScanned : (scanText 0 source).isOk := by decide +kernel
  rcases Checked.exists_ok_of_isOk isScanned with ⟨scanned, scans⟩
  have unreported : scanned.diagnostics = [] := by
    have computed : (scanText 0 source).map ScannedText.diagnostics = .ok [] := by decide +kernel
    rw [scans] at computed
    exact Except.ok.inj computed
  rcases parseText_accepts scans unreported "main" with ⟨parsed, parses, derives, _⟩
  have accepted : parsed.diagnostics = [] := by
    have computed :
        (parseText 0 "main" source .all).map ParsedFile.diagnostics = .ok [] := by
      decide +kernel
    rw [parses] at computed
    exact Except.ok.inj computed
  exact ⟨scanned, scans, unreported, derives accepted, parsed, parses, accepted⟩

end Accepts

end QueryLang
