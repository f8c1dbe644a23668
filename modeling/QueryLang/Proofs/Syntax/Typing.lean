import QueryLang.Diagnostic.Catalog
import QueryLang.Proofs.Syntax.Holding
import QueryLang.Proofs.Syntax.ParserAgreement
import QueryLang.Proofs.Syntax.ParserShape

/-!
# Typing a keyword

A text is cut off after one of its tokens, the target, and a keyword is typed there. The whole text
and the cut one are parsed in step up to the target. What the whole one makes of the target then
tells whether the keyword is taken without a complaint: `ParseTree.Accepts` says so of a shape.

The relation `Met` carries this through a run of two parsers. `Coupled` parsers keep it, and so do
sequences and repetitions of them.
-/

namespace QueryLang

/-- A keyword that is typed behind a text, of which the last token ends at `stop`. It takes the
place of the tokens `instead`. -/
structure TypedKeyword where
  stop : Nat
  instead : List Token
  token : Token
  kind : token.kind = .doKeyword ∨ token.kind = .returnKeyword ∨ token.kind = .yieldKeyword
  apart : stop < token.span.start
  visible : 0 < token.span.length

/-- The diagnostic says that the keyword at a span starts no expression, or that something else is
expected right after the text that ends at `stop`. -/
def Diagnostic.Rejects (diagnostic : Diagnostic) (stop : Nat) (span : Span) : Prop :=
  diagnostic.code = DiagnosticMessage.invalidTerm.code ∧
      diagnostic.location.map Location.span = some span ∨
    (diagnostic.code = DiagnosticMessage.expected.code ∨
        diagnostic.code = DiagnosticMessage.identifierExpected.code) ∧
      diagnostic.location.map Location.span = some (.empty stop)

instance (diagnostic : Diagnostic) (stop : Nat) (span : Span) :
    Decidable (diagnostic.Rejects stop span) :=
  inferInstanceAs (Decidable (_ ∨ _))

/-! ### Shapes that accept a keyword -/

namespace ParseTree

/-- The target is the last token of a piece of source. No token is missing behind it. -/
inductive EndsWith (target : Token) : ParseTree → Prop
  | token : EndsWith target (.token target)
  | node {piece kind children last} (isNode : piece.IsNode kind (children ++ [last]))
      (ends : EndsWith target last) : EndsWith target piece

/-- The piece is a clause that a query body can end with. -/
def IsFinalClause (piece : ParseTree) : Prop :=
  ∃ kind children, piece.IsNode kind children ∧ (kind = .selectClause ∨ kind = .groupClause)

/-- A keyword of some kind can be typed behind the target, as far as a piece of source tells. A
statement can follow a whole statement. A conclusion can follow a whole last clause of a query, its
body the name of its variable. And `return` can follow the `yield` of a statement. -/
inductive Accepts (target : Token) (keyword : Kind) : ParseTree → Prop
  | inside {piece kind children child} (isNode : piece.IsNode kind children)
      (isChild : child ∈ children) (accepts : Accepts target keyword child) :
      Accepts target keyword piece
  | statement {piece kind before child more last}
      (isNode : piece.IsNode kind (before ++ child :: (more ++ [last])))
      (holds : kind = .block ∨ kind = .compilationUnit) (ends : EndsWith target child) :
      Accepts target keyword piece
  | conclusion {piece clauses last conclusion}
      (isNode : piece.IsNode .queryBody (clauses ++ last :: conclusion))
      (isYield : keyword = .yieldKeyword) (isFinal : last.IsFinalClause)
      (ends : EndsWith target last) : Accepts target keyword piece
  | body {piece first second more}
      (isNode : piece.IsNode .queryConclusion (first :: second :: .token target :: more))
      (isDo : keyword = .doKeyword) : Accepts target keyword piece
  | value {piece kind more} (isNode : piece.IsNode kind (.token target :: more))
      (isReturn : keyword = .returnKeyword)
      (isYield : kind = .yieldReturnStatement ∨ kind = .yieldBreakStatement) :
      Accepts target keyword piece

variable {target : Token} {keyword kind other : Kind} {piece first last : ParseTree}
  {children pieces : List ParseTree}

theorem not_isNode_token {leaf : Token} : ¬(ParseTree.token leaf).IsNode kind children := by
  rintro (isNode | ⟨_, _, isNode, _⟩)
  · cases isNode
  · cases isNode

theorem isNode_node_iff :
    (ParseTree.node kind children).IsNode other pieces ↔ other = kind ∧ pieces = children := by
  simp [IsNode, eq_comm]

theorem isNode_wrapped_iff : (ParseTree.wrapped kind first children).IsNode other pieces ↔
    other = kind ∧ pieces = first :: children := by
  constructor
  · rintro (isNode | ⟨_, _, same, isAll⟩)
    · cases isNode
    · cases same
      exact ⟨rfl, isAll⟩
  · rintro ⟨rfl, rfl⟩
    exact .inr ⟨_, _, rfl, rfl⟩

/-- A node has one kind and its children in one order. -/
theorem IsNode.unique (isNode : piece.IsNode kind children) (again : piece.IsNode other pieces) :
    other = kind ∧ pieces = children := by
  rcases isNode with rfl | ⟨first, rest, rfl, rfl⟩
  · exact isNode_node_iff.mp again
  · exact isNode_wrapped_iff.mp again

theorem mem_tokensOfAll : target ∈ tokensOfAll pieces ↔ ∃ piece ∈ pieces, target ∈ piece.tokens := by
  induction pieces with
  | nil => simp [tokensOfAll]
  | cons piece rest ih => simp [tokensOfAll, ih]

theorem tokensOfAll_singleton (piece : ParseTree) : tokensOfAll [piece] = piece.tokens :=
  List.append_nil _

theorem IsNode.tokens_eq (isNode : piece.IsNode kind children) :
    piece.tokens = tokensOfAll children := by
  rcases isNode with rfl | ⟨first, rest, rfl, rfl⟩
  · rfl
  · rfl

/-- The tokens of a child are tokens of the node. -/
theorem IsNode.mem_tokens (isNode : piece.IsNode kind children) (isChild : last ∈ children)
    (isToken : target ∈ last.tokens) : target ∈ piece.tokens := by
  rw [isNode.tokens_eq]
  exact mem_tokensOfAll.mpr ⟨last, isChild, isToken⟩

theorem not_isFinalClause (isOther : kind ≠ .selectClause ∧ kind ≠ .groupClause)
    (children : List ParseTree) : ¬(ParseTree.node kind children).IsFinalClause := by
  rintro ⟨_, _, isNode, isFinal⟩
  rw [(isNode_node_iff.mp isNode).1] at isFinal
  exact isFinal.elim isOther.1 isOther.2

theorem EndsWith.mem_tokens (ends : piece.EndsWith target) : target ∈ piece.tokens := by
  induction ends with
  | token => exact List.mem_singleton_self target
  | node isNode _ ih => exact isNode.mem_tokens (by simp) ih

theorem Accepts.mem_tokens (accepts : piece.Accepts target keyword) : target ∈ piece.tokens := by
  induction accepts with
  | inside isNode isChild _ ih => exact isNode.mem_tokens isChild ih
  | statement isNode _ ends | conclusion isNode _ _ ends =>
    exact isNode.mem_tokens (by simp) ends.mem_tokens
  | body isNode | value isNode =>
    have isToken : target ∈ (ParseTree.token target).tokens := List.mem_singleton_self target
    exact isNode.mem_tokens (by simp) isToken

/-- A node ends as the last of its children does. -/
theorem EndsWith.of_isNode (ends : piece.EndsWith target)
    (isNode : piece.IsNode kind (children ++ [last])) : last.EndsWith target := by
  cases ends with
  | token => exact absurd isNode not_isNode_token
  | node again ends =>
    obtain ⟨_, same⟩ := List.append_inj' (isNode.unique again).2 rfl
    cases same
    exact ends

theorem EndsWith.of_node (ends : (ParseTree.node kind (children ++ [last])).EndsWith target) :
    last.EndsWith target :=
  ends.of_isNode (.inl rfl)

theorem EndsWith.of_wrapped
    (ends : (ParseTree.wrapped kind first (children ++ [last])).EndsWith target) :
    last.EndsWith target :=
  ends.of_isNode (.inr ⟨first, children ++ [last], rfl, List.cons_append⟩)

theorem endsWith_token_iff {leaf : Token} : (ParseTree.token leaf).EndsWith target ↔ leaf = target := by
  constructor
  · rintro (_ | ⟨isNode, _⟩)
    · rfl
    · exact absurd isNode not_isNode_token
  · rintro rfl
    exact .token

theorem not_accepts_token {leaf : Token} : ¬(ParseTree.token leaf).Accepts target keyword := by
  rintro (isNode | isNode | isNode | isNode | isNode)
  all_goals exact not_isNode_token isNode

/-- The nodes between whose children a keyword can be typed. -/
def acceptingKinds : List Kind :=
  [.block, .compilationUnit, .queryBody, .queryConclusion, .yieldReturnStatement,
    .yieldBreakStatement]

/-- Most nodes accept only what a child of theirs does. -/
theorem Accepts.of_isNode (accepts : piece.Accepts target keyword)
    (isNode : piece.IsNode kind children) (isPlain : kind ∉ acceptingKinds) :
    ∃ child ∈ children, child.Accepts target keyword := by
  cases accepts with
  | inside again isChild accepts =>
    obtain ⟨rfl, rfl⟩ := isNode.unique again
    exact ⟨_, isChild, accepts⟩
  | statement again holds =>
    obtain ⟨rfl, rfl⟩ := isNode.unique again
    rcases holds with rfl | rfl <;> simp [acceptingKinds] at isPlain
  | conclusion again | body again =>
    obtain ⟨rfl, rfl⟩ := isNode.unique again
    simp [acceptingKinds] at isPlain
  | value again _ isYield =>
    obtain ⟨rfl, rfl⟩ := isNode.unique again
    rcases isYield with rfl | rfl <;> simp [acceptingKinds] at isPlain

theorem Accepts.of_node (accepts : (ParseTree.node kind children).Accepts target keyword)
    (isPlain : kind ∉ acceptingKinds) : ∃ child ∈ children, child.Accepts target keyword :=
  accepts.of_isNode (.inl rfl) isPlain

theorem Accepts.of_wrapped
    (accepts : (ParseTree.wrapped kind first children).Accepts target keyword)
    (isPlain : kind ∉ acceptingKinds) :
    ∃ child ∈ first :: children, child.Accepts target keyword :=
  accepts.of_isNode (.inr ⟨first, children, rfl, rfl⟩) isPlain

end ParseTree

/-! ### States of parsing -/

namespace ParseState

/-- Nothing that was reported rejects the keyword. -/
def Unrejected (typed : TypedKeyword) (state : ParseState) : Prop :=
  ∀ diagnostic ∈ state.diagnostics, ¬diagnostic.Rejects typed.stop typed.token.span

/-- The target was consumed. -/
structure Behind (target : Token) (state : ParseState) : Prop where
  notLeft : target ∉ state.rest
  notEnd : state.endOfFile ≠ target

/-- The keyword was taken without a complaint, and none can come any more: nothing that is left is
where one would be reported. -/
structure Harmless (typed : TypedKeyword) (state : ParseState) : Prop where
  unrejected : state.Unrejected typed
  elsewhere : ∀ token ∈ state.endOfFile :: state.rest,
    token.span ≠ typed.token.span ∧ token.span ≠ .empty typed.stop
  ends : ∀ token ∈ state.rest, token.stop ≠ typed.stop
  lastEnd : state.lastEnd ≠ typed.stop

/-- The keyword is all that is left. -/
structure Ready (typed : TypedKeyword) (state : ParseState) : Prop where
  rest : state.rest = [typed.token]
  unrejected : state.Unrejected typed
  endOfFile : state.endOfFile.span ≠ typed.token.span ∧ state.endOfFile.span ≠ .empty typed.stop

/-- The same tokens are left up to the target, behind which `twin` has the keyword only. -/
structure Ahead (typed : TypedKeyword) (target : Token) (before : List Token)
    (state twin : ParseState) : Prop where
  left : state.rest = before ++ target :: typed.instead
  right : twin.rest = before ++ [target, typed.token]
  notBefore : target ∉ before
  notInstead : target ∉ typed.instead
  notEnd : state.endOfFile ≠ target
  starts : ∀ token ∈ before ++ [target], token.span.start < typed.stop
  stops : ∀ token ∈ before, token.stop < typed.stop
  lastEnd : twin.lastEnd < typed.stop
  unrejected : twin.Unrejected typed
  endOfFile : twin.endOfFile.span ≠ typed.token.span ∧ twin.endOfFile.span ≠ .empty typed.stop

variable {typed : TypedKeyword} {target : Token} {before : List Token} {state twin : ParseState}

theorem currentToken_mem (state : ParseState) :
    state.currentToken ∈ state.endOfFile :: state.rest := by
  rw [currentToken]
  cases state.rest <;> simp

theorem Unrejected.report (unrejected : state.Unrejected typed) {span : Span}
    (elsewhere : span ≠ typed.token.span ∧ span ≠ .empty typed.stop) (message : DiagnosticMessage)
    (arguments : List String) : (state.report span message arguments).Unrejected typed := by
  refine List.forall_mem_append.mpr ⟨unrejected, List.forall_mem_singleton.mpr ?_⟩
  rintro (⟨_, isThere⟩ | ⟨_, isThere⟩)
  · exact elsewhere.1 (Option.some.inj isThere)
  · exact elsewhere.2 (Option.some.inj isThere)

theorem Harmless.report (harmless : state.Harmless typed) {span : Span}
    (elsewhere : span ≠ typed.token.span ∧ span ≠ .empty typed.stop) (message : DiagnosticMessage)
    (arguments : List String) : (state.report span message arguments).Harmless typed :=
  ⟨harmless.unrejected.report elsewhere message arguments, harmless.elsewhere, harmless.ends,
    harmless.lastEnd⟩

/-- What stands in front of the end of the text is at another place than the keyword. -/
theorem elsewhere_of_start_lt {span : Span} (starts : span.start < typed.stop) :
    span ≠ typed.token.span ∧ span ≠ .empty typed.stop := by
  constructor
  · rintro rfl
    have := typed.apart
    omega
  · rintro rfl
    exact Nat.lt_irrefl _ starts

theorem empty_elsewhere {position : Nat} (other : position ≠ typed.stop) :
    Span.empty position ≠ typed.token.span ∧ Span.empty position ≠ .empty typed.stop := by
  constructor
  · intro same
    have visible := typed.visible
    rw [← same] at visible
    exact Nat.lt_irrefl _ visible
  · intro same
    exact other (congrArg Span.start same)

/-- Once the keyword is consumed, nothing can be reported about it. -/
theorem Unrejected.advance (unrejected : state.Unrejected typed)
    (endOfFile : state.endOfFile.span ≠ typed.token.span ∧
      state.endOfFile.span ≠ .empty typed.stop) (front : List Token) :
    (state.advance (front ++ [typed.token]) []).Harmless typed where
  unrejected := unrejected
  elsewhere := List.forall_mem_singleton.mpr endOfFile
  ends := List.forall_mem_nil _
  lastEnd := by
    have apart := typed.apart
    rw [ParseState.advance, List.getLast?_concat]
    show typed.token.span.start + typed.token.span.length ≠ typed.stop
    omega

theorem Ready.advance (ready : state.Ready typed) :
    (state.advance [typed.token] []).Harmless typed :=
  ready.unrejected.advance ready.endOfFile []

end ParseState

namespace Parser

variable {α β γ δ : Type} {typed : TypedKeyword} {target : Token}

/-! ### What every parser keeps -/

theorem forall_left_of_forall₂ {good : ParseTree → Prop} {pieces others : List ParseTree}
    (related : List.Forall₂ (fun piece _ => good piece) pieces others) :
    ∀ piece ∈ pieces, good piece := by
  induction related with
  | nil => simp
  | cons first _ ih => exact List.forall_mem_cons.mpr ⟨first, ih⟩

section Diagonal

variable {invariant : ParseState → Prop} {values : α → α → Prop} {parser : Parser α}

/-- A parser that keeps an invariant agrees with itself. -/
theorem Agree.ofLeads (leads : ∀ state, invariant state →
      parser.Leads state fun value after => values value value ∧ invariant after) :
    Agree (fun state twin => state = twin ∧ invariant state) values parser parser := by
  rintro state _ ⟨rfl, holds⟩
  exact ⟨(leads state holds).1, rfl, (leads state holds).2⟩

theorem Agree.leads (agree : Agree (fun state twin => state = twin ∧ invariant state) values
      parser parser) {state : ParseState} (holds : invariant state) :
    parser.Leads state fun value after => values value value ∧ invariant after := by
  obtain ⟨related, _, kept⟩ := agree state state ⟨rfl, holds⟩
  exact ⟨related, kept⟩

end Diagonal

/-- What no step of parsing breaks holds after every parser. -/
theorem KeptByParsing.ofInvariant {invariant : ParseState → Prop} {good : Token → Prop}
    (tokens : ∀ state, invariant state → ∀ token ∈ state.endOfFile :: state.rest, good token)
    (advance : ∀ state consumed rest, invariant state → state.rest = consumed ++ rest →
      invariant (state.advance consumed rest))
    (reportHere : ∀ state message arguments, invariant state →
      invariant (state.report state.currentToken.span message arguments))
    (reportAfterLast : ∀ state message arguments, invariant state →
      invariant (state.report (.empty state.lastEnd) message arguments))
    (mark : ∀ state, invariant state → invariant { state with reportedTooDeep := true }) :
    KeptByParsing (fun state twin => state = twin ∧ invariant state)
      fun piece _ => ∀ token ∈ piece.tokens, good token where
  current := by
    rintro state _ ⟨rfl, _⟩
    rfl
  following := by
    rintro state _ ⟨rfl, _⟩
    rfl
  text := by
    rintro state _ ⟨rfl, _⟩
    rfl
  length := by
    rintro state _ ⟨rfl, _⟩
    rfl
  missing kind := List.forall_mem_nil _
  node := by
    intro kind children others related token isToken
    obtain ⟨child, isChild, inChild⟩ := ParseTree.mem_tokensOfAll.mp isToken
    exact forall_left_of_forall₂ related child isChild token inChild
  wrapped := by
    intro kind first otherFirst rest others firstGood related token isToken
    rcases List.mem_append.mp isToken with inFirst | inRest
    · exact firstGood token inFirst
    · obtain ⟨child, isChild, inChild⟩ := ParseTree.mem_tokensOfAll.mp inRest
      exact forall_left_of_forall₂ related child isChild token inChild
  bump := by
    refine .ofLeads fun state holds => ?_
    rw [Parser.bump, leads_bind, leads_get]
    cases left : state.rest with
    | nil =>
      have isGood := tokens state holds _ (List.mem_cons_self ..)
      exact ⟨List.forall_mem_singleton.mpr isGood, holds⟩
    | cons token rest =>
      have isGood := tokens state holds token (by simp [left])
      exact ⟨List.forall_mem_singleton.mpr isGood, advance state [token] rest holds left⟩
  reportHere message arguments :=
    .ofLeads fun state holds => ⟨rfl, reportHere state message arguments holds⟩
  reportAfterLast message arguments :=
    .ofLeads fun state holds => ⟨rfl, reportAfterLast state message arguments holds⟩
  reportTooDeep := by
    refine .ofLeads fun state holds => ?_
    rw [Parser.reportTooDeep, leads_bind, leads_get]
    cases state.reportedTooDeep with
    | true => exact ⟨rfl, holds⟩
    | false => exact ⟨rfl, reportHere _ _ _ (mark state holds)⟩
  checkFeature feature := by
    refine .ofLeads fun state holds => ?_
    rw [Parser.checkFeature, leads_bind, leads_get]
    cases state.features.enables feature with
    | true => exact ⟨rfl, holds⟩
    | false => exact ⟨rfl, reportHere state _ _ holds⟩
  looseTokens := by
    refine .ofLeads fun state holds => ?_
    rw [Parser.looseTokens, leads_bind, leads_get]
    have split := splitAtClosingBrace_append 0 state.rest
    refine ⟨List.forall₂_same.mpr fun piece isPiece token isToken => ?_,
      advance state _ _ holds split.symm⟩
    obtain ⟨loose, isLoose, rfl⟩ := List.mem_map.mp isPiece
    rw [List.mem_singleton.mp isToken]
    refine tokens state holds loose (List.mem_cons_of_mem _ ?_)
    rw [← split]
    exact List.mem_append_left _ isLoose

theorem kept_behind (target : Token) :
    KeptByParsing (fun state twin => state = twin ∧ state.Behind target)
      fun piece _ => ∀ token ∈ piece.tokens, token ≠ target := by
  refine .ofInvariant ?_ ?_ ?_ ?_ ?_
  · intro state behind token isToken same
    rw [same] at isToken
    rcases List.mem_cons.mp isToken with isEnd | isLeft
    · exact behind.notEnd isEnd.symm
    · exact behind.notLeft isLeft
  · intro state consumed rest behind split
    refine ⟨fun isLeft => behind.notLeft ?_, behind.notEnd⟩
    rw [split]
    exact List.mem_append_right _ isLeft
  · exact fun state message arguments behind => ⟨behind.notLeft, behind.notEnd⟩
  · exact fun state message arguments behind => ⟨behind.notLeft, behind.notEnd⟩
  · exact fun state behind => ⟨behind.notLeft, behind.notEnd⟩

theorem kept_harmless (typed : TypedKeyword) :
    KeptByParsing (fun state twin => state = twin ∧ state.Harmless typed)
      fun piece _ => ∀ token ∈ piece.tokens, True := by
  refine .ofInvariant ?_ ?_ ?_ ?_ ?_
  · exact fun state harmless token isToken => trivial
  · intro state consumed rest harmless split
    refine ⟨harmless.unrejected, fun token isToken => ?_, fun token isToken => ?_, ?_⟩
    · refine harmless.elsewhere token ?_
      rcases List.mem_cons.mp isToken with isEnd | isLeft
      · exact List.mem_cons.mpr (.inl isEnd)
      · exact List.mem_cons_of_mem _ (split ▸ List.mem_append_right _ isLeft)
    · exact harmless.ends token (split ▸ List.mem_append_right _ isToken)
    · unfold ParseState.advance
      dsimp only
      split
      · next token isLast =>
        have isConsumed := List.mem_of_getLast? isLast
        exact harmless.ends token (split ▸ List.mem_append_left _ isConsumed)
      · exact harmless.lastEnd
  · exact fun state message arguments harmless =>
      harmless.report (harmless.elsewhere _ state.currentToken_mem) message arguments
  · exact fun state message arguments harmless =>
      harmless.report (ParseState.empty_elsewhere harmless.lastEnd) message arguments
  · exact fun state harmless =>
      ⟨harmless.unrejected, harmless.elsewhere, harmless.ends, harmless.lastEnd⟩

/-! ### Two runs -/

/-- Running two parsers gives values and leads to states of which `post` holds. -/
def LeadBoth (parser : Parser α) (other : Parser β) (state twin : ParseState)
    (post : α → β → ParseState → ParseState → Prop) : Prop :=
  parser.Leads state fun value after =>
    other.Leads twin fun otherValue otherAfter => post value otherValue after otherAfter

namespace LeadBoth

variable {parser : Parser α} {other : Parser β} {state twin : ParseState}
  {middle post weaker : α → β → ParseState → ParseState → Prop}

theorem bind {results : γ → δ → ParseState → ParseState → Prop} {next : α → Parser γ}
    {nextOther : β → Parser δ} (lead : LeadBoth parser other state twin middle)
    (rest : ∀ value otherValue after otherAfter, middle value otherValue after otherAfter →
      LeadBoth (next value) (nextOther otherValue) after otherAfter results) :
    LeadBoth (parser >>= next) (other >>= nextOther) state twin results :=
  rest _ _ _ _ lead

theorem mono (lead : LeadBoth parser other state twin post)
    (weaken : ∀ value otherValue after otherAfter, post value otherValue after otherAfter →
      weaker value otherValue after otherAfter) :
    LeadBoth parser other state twin weaker :=
  weaken _ _ _ _ lead

end LeadBoth

/-- How far two runs of parsing have got over pieces of source, from where the tokens `before` stood
in front of the target. The target may still be ahead. If it was consumed and the pieces end with
it, the keyword is next; if they accept the keyword, that was taken without a complaint. -/
inductive Met (typed : TypedKeyword) (target : Token) (before : List Token) (ends accepts : Prop)
    (pieces others : List ParseTree) (state twin : ParseState) : Prop
  | ahead {left} (split : before = ParseTree.tokensOfAll pieces ++ left) (same : pieces = others)
      (notEnds : ¬ends) (notAccepts : ¬accepts) (ahead : state.Ahead typed target left twin)
  | past (behind : state.Behind target) (ended : ends → twin.Ready typed ∨ twin.Harmless typed)
      (accepted : accepts → twin.Harmless typed)

/-- One of the pieces accepts the keyword. -/
def AnyAccepts (typed : TypedKeyword) (target : Token) (pieces : List ParseTree) : Prop :=
  ∃ piece ∈ pieces, piece.Accepts target typed.token.kind

/-- Run where the target is ahead, the parser meets it or leaves it ahead. Run elsewhere, it does
what every parser does. -/
structure Couples (typed : TypedKeyword) (target : Token) (parser : Parser α)
    (piecesOf : α → List ParseTree) (ends accepts : α → Prop) : Prop where
  free : ∀ {value}, (∀ piece ∈ piecesOf value, target ∉ piece.tokens) →
    ¬ends value ∧ ¬accepts value
  agrees : ∀ {states trees}, KeptByParsing states trees →
    Agree states (fun value other => List.Forall₂ trees (piecesOf value) (piecesOf other))
      parser parser
  ahead : ∀ {before state twin}, state.Ahead typed target before twin →
    LeadBoth parser parser state twin fun value other =>
      Met typed target before (ends value) (accepts value) (piecesOf value) (piecesOf other)

/-- A parser of one piece meets the target. -/
abbrev Coupled (typed : TypedKeyword) (target : Token) (parser : Parser ParseTree) : Prop :=
  Couples typed target parser (fun piece => [piece]) (·.EndsWith target)
    (·.Accepts target typed.token.kind)

/-- A parser of several pieces meets the target. -/
abbrev CoupledAll (typed : TypedKeyword) (target : Token) (parser : Parser (List ParseTree)) :
    Prop :=
  Couples typed target parser id (fun _ => False) (AnyAccepts typed target)

namespace Couples

variable {state : ParseState} {parser : Parser α} {piecesOf : α → List ParseTree}
  {ends accepts : α → Prop}

theorem behind (couples : Couples typed target parser piecesOf ends accepts)
    (behind : state.Behind target) : parser.Leads state fun value after =>
      (∀ piece ∈ piecesOf value, target ∉ piece.tokens) ∧ after.Behind target := by
  refine (couples.agrees (kept_behind target)).leads behind |>.mono fun value after kept => ?_
  obtain ⟨related, behindAfter⟩ := kept
  refine ⟨fun piece isPiece isTarget => ?_, behindAfter⟩
  exact forall_left_of_forall₂ related piece isPiece target isTarget rfl

theorem harmless (couples : Couples typed target parser piecesOf ends accepts)
    (harmless : state.Harmless typed) :
    parser.Leads state fun _ after => after.Harmless typed :=
  ((couples.agrees (kept_harmless typed)).leads harmless).mono fun _ _ kept => kept.2

end Couples

theorem Agree.mono {states : ParseState → ParseState → Prop} {values weaker : α → β → Prop}
    {parser : Parser α} {other : Parser β} (agree : Agree states values parser other)
    (weaken : ∀ value otherValue, values value otherValue → weaker value otherValue) :
    Agree states weaker parser other := by
  intro state twin together
  obtain ⟨related, togetherAfter⟩ := agree state twin together
  exact ⟨weaken _ _ related, togetherAfter⟩

namespace Coupled

variable {parser : Parser ParseTree}

theorem of (agrees : ∀ {states trees}, KeptByParsing states trees →
      Agree states trees parser parser)
    (ahead : ∀ {before state twin}, state.Ahead typed target before twin →
      LeadBoth parser parser state twin fun piece other =>
        Met typed target before (piece.EndsWith target) (piece.Accepts target typed.token.kind)
          [piece] [other]) :
    Coupled typed target parser where
  free free :=
    have absent := free _ (List.mem_singleton_self _)
    ⟨fun ends => absent ends.mem_tokens, fun accepts => absent accepts.mem_tokens⟩
  agrees kept := (agrees kept).mono fun _ _ related => .cons related .nil
  ahead := ahead

theorem agree (coupled : Coupled typed target parser) {states trees}
    (kept : KeptByParsing states trees) : Agree states trees parser parser :=
  (coupled.agrees kept).mono fun _ _ related => (List.forall₂_cons.mp related).1

end Coupled

/-- The parser takes the keyword. -/
def TakesKeyword (typed : TypedKeyword) (parser : Parser α) : Prop :=
  ∀ state : ParseState, state.Ready typed → parser.Leads state fun _ after => after.Harmless typed

/-- The parser takes the keyword, or leaves it where it is. -/
def LeavesKeyword (typed : TypedKeyword) (parser : Parser α) : Prop :=
  ∀ state : ParseState, state.Ready typed →
    parser.Leads state fun _ after => after.Ready typed ∨ after.Harmless typed

section Coupling

variable {before : List Token} {ends accepts : Prop} {pieces others : List ParseTree}
  {state twin : ParseState} {parser : Parser α} {piecesOf : α → List ParseTree}
  {endsWith acceptsIn : α → Prop}

namespace Met

theorem start (ahead : state.Ahead typed target before twin) :
    Met typed target before False (AnyAccepts typed target []) [] [] state twin :=
  .ahead rfl rfl id (by simp [AnyAccepts]) ahead

/-- The pieces may be put together in another way. -/
theorem recast {moreEnds moreAccepts : Prop} {whole otherWhole : List ParseTree}
    (met : Met typed target before ends accepts pieces others state twin)
    (sameTokens : ParseTree.tokensOfAll whole = ParseTree.tokensOfAll pieces)
    (same : pieces = others → whole = otherWhole) (endsOf : moreEnds → ends)
    (acceptsOf : moreAccepts → accepts) :
    Met typed target before moreEnds moreAccepts whole otherWhole state twin := by
  cases met with
  | ahead split samePieces notEnds notAccepts ahead =>
    exact .ahead (sameTokens ▸ split) (same samePieces) (notEnds ∘ endsOf)
      (notAccepts ∘ acceptsOf) ahead
  | past behind ended accepted => exact .past behind (ended ∘ endsOf) (accepted ∘ acceptsOf)

/-- A further parser is run. Where that takes the keyword, it is enough that the pieces so far end
with the target; where it leaves the keyword, they still do as far as the second run is concerned. -/
theorem through {passes stays : Prop}
    (met : Met typed target before ends accepts pieces others state twin)
    (couples : Couples typed target parser piecesOf endsWith acceptsIn)
    (passing : passes → TakesKeyword typed parser)
    (staying : stays → LeavesKeyword typed parser) :
    LeadBoth parser parser state twin fun value other =>
      Met typed target before (endsWith value ∨ stays ∧ ends)
        (accepts ∨ passes ∧ ends ∨ acceptsIn value)
        (pieces ++ piecesOf value) (others ++ piecesOf other) := by
  cases met with
  | ahead split same notEnds notAccepts ahead =>
    -- The target is still ahead, so it is the further parser that may meet it.
    refine (couples.ahead ahead).mono fun value other after otherAfter metNext => ?_
    cases metNext with
    | ahead splitNext sameNext notEndsNext notAcceptsNext aheadNext =>
      refine .ahead ?_ (by rw [same, sameNext]) ?_ ?_ aheadNext
      · rw [split, splitNext, ParseTree.tokensOfAll_append, List.append_assoc]
      · rintro (endsNext | ⟨_, ends⟩)
        · exact notEndsNext endsNext
        · exact notEnds ends
      · rintro (accepts | ⟨_, ends⟩ | acceptsNext)
        · exact notAccepts accepts
        · exact notEnds ends
        · exact notAcceptsNext acceptsNext
    | past behind ended accepted =>
      refine .past behind ?_ ?_
      · rintro (endsNext | ⟨_, ends⟩)
        · exact ended endsNext
        · exact absurd ends notEnds
      · rintro (accepts | ⟨_, ends⟩ | acceptsNext)
        · exact absurd accepts notAccepts
        · exact absurd ends notEnds
        · exact accepted acceptsNext
  | past behind ended accepted =>
    -- The first run is behind the target, so only the second can still meet the keyword.
    obtain ⟨free, behindAfter⟩ := couples.behind behind
    obtain ⟨notEnds, notAccepts⟩ := couples.free free
    refine .past behindAfter ?_ ?_
    · rintro (endsNext | ⟨stays, ends⟩)
      · exact absurd endsNext notEnds
      · rcases ended ends with ready | harmless
        · exact staying stays _ ready
        · exact .inr (couples.harmless harmless)
    · rintro (accepts | ⟨passes, ends⟩ | acceptsNext)
      · exact couples.harmless (accepted accepts)
      · rcases ended ends with ready | harmless
        · exact passing passes _ ready
        · exact couples.harmless harmless
      · exact absurd acceptsNext notAccepts

/-- A further parser is run. -/
theorem next (met : Met typed target before ends accepts pieces others state twin)
    (couples : Couples typed target parser piecesOf endsWith acceptsIn) :
    LeadBoth parser parser state twin fun value other =>
      Met typed target before (endsWith value) (accepts ∨ acceptsIn value)
        (pieces ++ piecesOf value) (others ++ piecesOf other) := by
  refine (met.through couples False.elim False.elim).mono
    fun value other after otherAfter metNext => ?_
  exact metNext.recast rfl id .inl (Or.imp_right .inr)

/-- A parser of one more piece is run. -/
theorem piece {parser : Parser ParseTree}
    (met : Met typed target before ends (AnyAccepts typed target pieces) pieces others state twin)
    (coupled : Coupled typed target parser) :
    LeadBoth parser parser state twin fun piece other =>
      Met typed target before (piece.EndsWith target) (AnyAccepts typed target (pieces ++ [piece]))
        (pieces ++ [piece]) (others ++ [other]) := by
  refine (met.next coupled).mono fun piece other after otherAfter metNext => ?_
  refine metNext.recast rfl id id ?_
  rintro ⟨child, isChild, accepts⟩
  rcases List.mem_append.mp isChild with isEarlier | isLast
  · exact .inl ⟨child, isEarlier, accepts⟩
  · exact .inr (List.mem_singleton.mp isLast ▸ accepts)

/-- A parser of more pieces is run. -/
theorem more {parser : Parser (List ParseTree)}
    (met : Met typed target before ends (AnyAccepts typed target pieces) pieces others state twin)
    (coupled : CoupledAll typed target parser) :
    LeadBoth parser parser state twin fun new newOthers =>
      Met typed target before False (AnyAccepts typed target (pieces ++ new))
        (pieces ++ new) (others ++ newOthers) := by
  refine (met.next coupled).mono fun new newOthers after otherAfter metNext => ?_
  refine metNext.recast rfl id id ?_
  rintro ⟨child, isChild, accepts⟩
  rcases List.mem_append.mp isChild with isEarlier | isNew
  · exact .inl ⟨child, isEarlier, accepts⟩
  · exact .inr ⟨child, isNew, accepts⟩

/-- A node is put around the pieces. -/
theorem around {kind : Kind} (met : Met typed target before ends accepts pieces others state twin)
    (endsOf : (ParseTree.node kind pieces).EndsWith target → ends)
    (acceptsOf : (ParseTree.node kind pieces).Accepts target typed.token.kind → accepts) :
    Met typed target before ((ParseTree.node kind pieces).EndsWith target)
      ((ParseTree.node kind pieces).Accepts target typed.token.kind)
      [.node kind pieces] [.node kind others] state twin :=
  met.recast (ParseTree.tokensOfAll_singleton _) (fun same => by rw [same]) endsOf acceptsOf

/-- A node is put around the pieces in which no keyword can be typed between them. -/
theorem node {last : ParseTree} {kind : Kind}
    (met : Met typed target before (last.EndsWith target)
      (AnyAccepts typed target (pieces ++ [last])) (pieces ++ [last]) others state twin)
    (isPlain : kind ∉ ParseTree.acceptingKinds) :
    Met typed target before ((ParseTree.node kind (pieces ++ [last])).EndsWith target)
      ((ParseTree.node kind (pieces ++ [last])).Accepts target typed.token.kind)
      [.node kind (pieces ++ [last])] [.node kind others] state twin :=
  met.around .of_node (·.of_node isPlain)

end Met

end Coupling

end Parser

end QueryLang
