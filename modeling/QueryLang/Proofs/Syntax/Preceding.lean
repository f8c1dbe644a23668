import QueryLang.Proofs.Diagnostic.Sorting
import QueryLang.Proofs.Syntax.Children

/-!
# What stands in front of a statement

Where nothing is damaged, the statements of a block or of a file stand one right after the other. So
a statement starts behind the opening brace of its block or behind the last token of the statement
before it, and only the first statement of a file has no token in front of it.
-/

namespace QueryLang

namespace Production

variable {damaged : Prop} {role : Role} {kind : Kind} {roles : List Role}

theorem roles_of_block (production : Production damaged role kind roles)
    (isBlock : kind = .block) :
    ∃ content : List Role, (∀ own ∈ content, own.IsContent damaged) ∧
      roles = .leaf .openBraceToken :: (content ++ [.leaf .closeBraceToken]) := by
  induction production with
  | ofName _ ih | ofPrimary _ ih | ofOperand _ ih | ofFromClause _ ih | ofBlock _ ih =>
    exact ih isBlock
  | literal isLiteral =>
    rw [isBlock] at isLiteral
    cases isLiteral
  | block allowed => exact ⟨_, allowed, rfl⟩
  | _ => cases isBlock

theorem roles_of_compilationUnit (production : Production damaged role kind roles)
    (isFile : kind = .compilationUnit) :
    ∃ content : List Role, (∀ own ∈ content, own.IsContent damaged) ∧
      roles = content ++ [.leaf .endOfFileToken] := by
  induction production with
  | ofName _ ih | ofPrimary _ ih | ofOperand _ ih | ofFromClause _ ih | ofBlock _ ih =>
    exact ih isFile
  | literal isLiteral =>
    rw [isFile] at isLiteral
    cases isLiteral
  | file allowed => exact ⟨_, allowed, rfl⟩
  | _ => cases isFile

/-- A file is no part of anything. -/
theorem file_notMem (production : Production damaged role kind roles) : .file ∉ roles := by
  induction production with
  | ofName _ ih | ofPrimary _ ih | ofOperand _ ih | ofFromClause _ ih | ofBlock _ ih => exact ih
  | someArguments count => simp [Role.furtherArgument]
  | block allowed | file allowed =>
    intro isMember
    simp only [List.mem_cons, List.mem_append, List.not_mem_nil, or_false, reduceCtorEq,
      false_or] at isMember
    rcases allowed _ isMember with isStatement | ⟨_, _, isLeaf⟩
    · cases isStatement
    · cases isLeaf
  | _ => simp

end Production

/-- Where nothing is damaged, what stands between the ends of a block or of a file are statements. -/
theorem exists_statements {damaged : Prop} {content : List Slot} (whole : ¬damaged)
    (allowed : ∀ own ∈ content.map Slot.role, own.IsContent damaged) :
    ∃ statements : List NodeId, content = statements.map (Slot.mk .statement) := by
  induction content with
  | nil => exact ⟨[], rfl⟩
  | cons slot rest ih =>
    rw [List.map_cons, List.forall_mem_cons] at allowed
    obtain ⟨statements, rfl⟩ := ih allowed.2
    obtain ⟨role, id⟩ := slot
    cases allowed.1.resolve_right fun isLoose => whole isLoose.1
    exact ⟨id :: statements, rfl⟩

namespace SyntaxTree

variable {tree : SyntaxTree} {damaged : Prop} {file : ParseTree} {id start stop : Nat} {kind : Kind}

/-! ### Children in order -/

namespace InOrder

theorem append_iff {left right : List Element} : tree.InOrder start (left ++ right) stop ↔
    ∃ middle, tree.InOrder start left middle ∧ tree.InOrder middle right stop := by
  constructor
  · intro inOrder
    induction left generalizing start with
    | nil => exact ⟨start, .nil, inOrder⟩
    | cons element rest ih =>
      cases inOrder with
      | token tail =>
        obtain ⟨middle, inLeft, inRight⟩ := ih tail
        exact ⟨middle, .token inLeft, inRight⟩
      | node found tail =>
        obtain ⟨middle, inLeft, inRight⟩ := ih tail
        exact ⟨middle, .node found inLeft, inRight⟩
  · rintro ⟨middle, inLeft, inRight⟩
    induction inLeft with
    | nil => exact inRight
    | token _ ih => exact .token (ih inRight)
    | node found _ ih => exact .node found (ih inRight)

theorem nil_iff : tree.InOrder start [] stop ↔ start = stop := by
  constructor
  · intro inOrder
    cases inOrder
    rfl
  · rintro rfl
    exact .nil

theorem token_iff {rest : List Element} : tree.InOrder start (.token id :: rest) stop ↔
    start = id ∧ tree.InOrder (id + 1) rest stop := by
  constructor
  · intro inOrder
    cases inOrder with
    | token tail => exact ⟨rfl, tail⟩
  · rintro ⟨rfl, tail⟩
    exact .token tail

theorem exists_node {rest : List Element} (inOrder : tree.InOrder start (.node id :: rest) stop) :
    ∃ node, tree.nodes[id]? = some node ∧ start = node.firstToken ∧
      tree.InOrder node.endToken rest stop := by
  cases inOrder with
  | node found tail => exact ⟨_, found, rfl, tail⟩

end InOrder

namespace HasChildren

variable {slots before after front : List Slot} {slot : Slot} {last : Kind} {closing : TokenId}

theorem parentOf?_slot (wellFormed : tree.WellFormed damaged)
    (children : tree.HasChildren id kind slots) (isSlot : slot ∈ slots) :
    tree.parentOf? slot.element = some id := by
  obtain ⟨node, found, _, elements, _⟩ := children
  refine wellFormed.child_parent found _ ?_
  rw [elements]
  exact List.mem_map_of_mem isSlot

/-- A child in the role of a token. -/
theorem exists_token (wellFormed : tree.WellFormed damaged)
    (children : tree.HasChildren id kind slots) {leaf : Kind} {own : TokenId}
    (isSlot : ⟨.leaf leaf, own⟩ ∈ slots) :
    ∃ token, tree.tokens[own]? = some token ∧ token.kind = leaf ∧ token.parent = id := by
  obtain ⟨token, isToken, isLeaf⟩ := children.fills _ isSlot
  have parentEq : tree.parentOf? (.token own) = some id :=
    children.parentOf?_slot wellFormed isSlot
  exact ⟨token, isToken, isLeaf, by simpa [parentOf?, isToken] using parentEq⟩

/-- A child that is a node starts where the children in front of it stop. -/
theorem inOrder_before (children : tree.HasChildren id kind (before ++ slot :: after))
    (isNode : slot.role.isNode = true) :
    ∃ node own, tree.nodes[id]? = some node ∧ tree.nodes[slot.id]? = some own ∧
      tree.InOrder node.firstToken (before.map Slot.element) own.firstToken := by
  obtain ⟨node, found, _, elements, _, inOrder⟩ := children
  rw [elements, List.map_append, List.map_cons] at inOrder
  obtain ⟨middle, inBefore, inAfter⟩ := InOrder.append_iff.mp inOrder
  rw [Slot.element, if_pos isNode] at inAfter
  obtain ⟨own, isOwn, rfl, _⟩ := inAfter.exists_node
  exact ⟨node, own, found, isOwn, inBefore⟩

/-- If the last child is a token, the node stops behind it. -/
theorem endToken_eq (children : tree.HasChildren id kind (front ++ [⟨.leaf last, closing⟩])) :
    ∃ node, tree.nodes[id]? = some node ∧ node.endToken = closing + 1 := by
  obtain ⟨node, found, _, elements, _, inOrder⟩ := children
  rw [elements, List.map_append, List.map_singleton] at inOrder
  obtain ⟨middle, _, inLast⟩ := InOrder.append_iff.mp inOrder
  obtain ⟨_, inNone⟩ := InOrder.token_iff.mp inLast
  exact ⟨node, found, (InOrder.nil_iff.mp inNone).symm⟩

end HasChildren

/-! ### Statements -/

/-- What is in front of a token with which a statement starts that is directly in a block or in a
file: the brace that opens the block, the end of another statement of the same block or file, or
nothing at all. -/
inductive StartsBehind (tree : SyntaxTree) (outer : NodeId) : (outerKind : Kind) → TokenId → Prop
  | nothing : StartsBehind tree outer .compilationUnit 0
  | brace {id token} (isToken : tree.tokens[id]? = some token)
      (isBrace : token.kind = .openBraceToken) (parent_eq : token.parent = outer) :
      StartsBehind tree outer .block (id + 1)
  | statement {id token kind outerKind} (isToken : tree.tokens[id]? = some token)
      (isEnd : token.kind = .semicolonToken ∨ token.kind = .closeBraceToken ∧ kind = .block)
      (kindEq : tree.kind token.parent = .ok kind) (isStatement : kind.isStatement = true)
      (isParent : tree.parent token.parent = .ok (some outer)) :
      StartsBehind tree outer outerKind (id + 1)

namespace Shows

variable (shows : tree.Shows damaged file)

include shows

/-- Where nothing is damaged, every token stands in the source. -/
theorem token_isReal (whole : ¬damaged) {token : TreeToken} (isToken : tree.tokens[id]? = some token) :
    token.isMissing = false := by
  obtain ⟨_, _, _, _, _, _, part, _, childAt⟩ :=
    shows.exists_childAt (shows.token_isChildOf isToken)
  obtain ⟨place, isOwn, held⟩ := childAt.holdsPart
  cases part with
  | token leaf =>
    cases isOwn
    have found := held.holds.token
    rw [isToken] at found
    exact congrArg TreeToken.isMissing (Option.some.inj found)
  | missing kind =>
    cases held.formed with
    | missing _ isDamaged => exact absurd isDamaged whole
  | node | wrapped => cases isOwn

/-- Where nothing is damaged, a node starts with its first token in the source. -/
theorem firstToken?_eq (whole : ¬damaged) {node : TreeNode} (found : tree.nodes[id]? = some node) :
    tree.firstToken? id = .ok (some node.firstToken) := by
  obtain ⟨place, parent, role, piece, isOwn, held⟩ :=
    shows.exists_part (Array.getElem?_eq_some_iff.mp found).1
  obtain ⟨kind, children, isPiece⟩ := isNode_of_element isOwn
  obtain ⟨own, ownEq, isNode, _⟩ := held.holds.node isPiece
  cases isOwn.symm.trans ownEq
  cases found.symm.trans isNode
  have within : place.token + (place.token + piece.leafCount - place.token) ≤ tree.tokens.size :=
    shows.wellFormed.node_tokens found
  obtain ⟨count, leaves⟩ :=
    Nat.exists_eq_succ_of_ne_zero (Nat.ne_of_gt held.formed.leafCount_pos)
  have inRange : place.token < tree.tokens.size := by omega
  have isToken := Array.getElem?_eq_getElem inRange
  rw [firstToken?, SyntaxTree.node, found]
  simp [leaves, firstRealToken?, isToken, shows.token_isReal whole isToken]

/-- The span of a node starts where that token does. -/
theorem span_starts (whole : ¬damaged) {node : TreeNode} (found : tree.nodes[id]? = some node) :
    ∃ span token, tree.span id = .ok span ∧ tree.tokens[node.firstToken]? = some token ∧
      span.start = token.span.start := by
  obtain ⟨span, first, last, spanEq, firstEq, _, runs⟩ :=
    shows.ordered.span_runs id (Array.getElem?_eq_some_iff.mp found).1
  cases firstEq.symm.trans (shows.firstToken?_eq whole found)
  cases last with
  | none => exact runs.elim
  | some last =>
    obtain ⟨token, _, isToken, _, startEq, _⟩ := runs
    exact ⟨span, token, spanEq, isToken, startEq⟩

/-- Only the root is a file, and it has the first token. -/
theorem file_starts (kindEq : tree.kind id = .ok .compilationUnit) :
    ∃ node, tree.nodes[id]? = some node ∧ node.firstToken = 0 := by
  obtain ⟨node, isNode, _, isFile⟩ := node_eq_ok kindEq
  have inRange := (Array.getElem?_eq_some_iff.mp isNode).1
  by_cases isRoot : id = SyntaxTree.root
  · obtain ⟨kind, children, isPiece⟩ := isNode_of_element shows.root
    obtain ⟨own, ownEq, found, _⟩ := shows.whole.holds.node isPiece
    cases shows.root.symm.trans ownEq
    exact ⟨_, isRoot ▸ found, rfl⟩
  · obtain ⟨parent, isChild⟩ := shows.node_isChildOf inRange isRoot
    obtain ⟨whole, outerKind, lefts, role, rights, before, part, after, childAt⟩ :=
      shows.exists_childAt isChild
    obtain ⟨outerRole, outerProduction⟩ := childAt.production
    obtain ⟨place, isOwn, held⟩ := childAt.holdsPart
    obtain ⟨kind, children, isPiece⟩ := isNode_of_element isOwn
    obtain ⟨own, ownEq, found, _⟩ := held.holds.node isPiece
    cases isOwn.symm.trans ownEq
    cases isNode.symm.trans found
    obtain ⟨roles, production, _⟩ := held.formed.production isPiece
    have allows := production.allows
    rw [show kind = .compilationUnit from isFile] at allows
    have notFile : role ≠ .file := by
      rintro rfl
      exact outerProduction.file_notMem (by simp)
    cases role with
    | file => exact absurd rfl notFile
    | _ => cases allows

variable (braced : file.Braced)

include braced

/-- A statement ends with a semicolon, or it is a block and ends with a brace. -/
theorem statement_ends (kindEq : tree.kind id = .ok kind) (isStatement : kind.isStatement = true) :
    ∃ node closing token, tree.nodes[id]? = some node ∧ node.endToken = closing + 1 ∧
      tree.tokens[closing]? = some token ∧ token.parent = id ∧
      (token.kind = .semicolonToken ∨ token.kind = .closeBraceToken ∧ kind = .block) := by
  obtain ⟨role, slots, production, children, _⟩ := shows.exists_children braced kindEq
  have ends : ∃ front last, slots.map Slot.role = front ++ [.leaf last] ∧
      (last = .semicolonToken ∨ last = .closeBraceToken ∧ kind = .block) := by
    by_cases isBlock : kind = .block
    · obtain ⟨content, _, same⟩ := production.roles_of_block isBlock
      exact ⟨_ :: content, .closeBraceToken, same, .inr ⟨rfl, isBlock⟩⟩
    · obtain ⟨front, same, _⟩ := production.semicolon_last isStatement isBlock
      exact ⟨front, .semicolonToken, same, .inl rfl⟩
  obtain ⟨_, last, same, isLast⟩ := ends
  obtain ⟨front, ending, rfl, _, sameEnding⟩ := List.map_eq_append_iff.mp same
  obtain ⟨⟨_, closing⟩, more, rfl, rfl, noMore⟩ := List.map_eq_cons_iff.mp sameEnding
  cases List.map_eq_nil_iff.mp noMore
  obtain ⟨node, found, stops⟩ := children.endToken_eq
  obtain ⟨token, isToken, rfl, parentEq⟩ :=
    children.exists_token shows.wellFormed (List.mem_concat_self ..)
  exact ⟨node, closing, token, found, stops, isToken, parentEq, isLast⟩

/-- Behind a statement another one can start. -/
theorem endToken_startsBehind {outer : NodeId} {outerKind : Kind}
    (kindEq : tree.kind id = .ok kind) (isStatement : kind.isStatement = true)
    (isParent : tree.parent id = .ok (some outer)) :
    ∃ node, tree.nodes[id]? = some node ∧ tree.StartsBehind outer outerKind node.endToken := by
  obtain ⟨node, closing, token, found, stops, isToken, rfl, isEnd⟩ :=
    shows.statement_ends braced kindEq isStatement
  exact ⟨node, found, stops ▸ .statement isToken isEnd kindEq isStatement isParent⟩

/-- Where nothing is damaged, a block or a file consists of statements, apart from the tokens at its
ends. -/
theorem statement_children (whole : ¬damaged) (kindEq : tree.kind id = .ok kind)
    (holds : kind = .block ∨ kind = .compilationUnit) :
    ∃ (opening : List Slot) (statements : List NodeId) (last : Kind) (closing : TokenId),
      tree.HasChildren id kind
        (opening ++ (statements.map (Slot.mk .statement) ++ [⟨.leaf last, closing⟩])) ∧
      (opening = [] ∧ kind = .compilationUnit ∨
        ∃ brace, opening = [⟨.leaf .openBraceToken, brace⟩] ∧ kind = .block) := by
  obtain ⟨role, slots, production, children, _⟩ := shows.exists_children braced kindEq
  rcases holds with rfl | rfl
  · obtain ⟨content, allowed, same⟩ := production.roles_of_block rfl
    obtain ⟨⟨_, brace⟩, inner, rfl, rfl, sameInner⟩ := List.map_eq_cons_iff.mp same
    obtain ⟨between, ending, rfl, rfl, sameEnding⟩ := List.map_eq_append_iff.mp sameInner
    obtain ⟨⟨_, closing⟩, more, rfl, rfl, noMore⟩ := List.map_eq_cons_iff.mp sameEnding
    cases List.map_eq_nil_iff.mp noMore
    obtain ⟨statements, rfl⟩ := exists_statements whole allowed
    exact ⟨[⟨_, brace⟩], statements, _, closing, children, .inr ⟨brace, rfl, rfl⟩⟩
  · obtain ⟨content, allowed, same⟩ := production.roles_of_compilationUnit rfl
    obtain ⟨between, ending, rfl, rfl, sameEnding⟩ := List.map_eq_append_iff.mp same
    obtain ⟨⟨_, closing⟩, more, rfl, rfl, noMore⟩ := List.map_eq_cons_iff.mp sameEnding
    cases List.map_eq_nil_iff.mp noMore
    obtain ⟨statements, rfl⟩ := exists_statements whole allowed
    exact ⟨[], statements, _, closing, children, .inl ⟨rfl, rfl⟩⟩

/-- What is directly in a block or in a file is a statement, where nothing is damaged, and starts
behind what a statement can start behind. -/
theorem startsBehind (whole : ¬damaged) {outer : NodeId} {outerKind : Kind}
    (isParent : tree.parent id = .ok (some outer)) (outerKindEq : tree.kind outer = .ok outerKind)
    (holds : outerKind = .block ∨ outerKind = .compilationUnit) :
    ∃ node, tree.nodes[id]? = some node ∧ node.kind.isStatement = true ∧
      tree.StartsBehind outer outerKind node.firstToken := by
  obtain ⟨opening, statements, last, closing, children, isOpening⟩ :=
    shows.statement_children braced whole outerKindEq holds
  have isStatement : id ∈ statements := by
    obtain ⟨_, found, isChild⟩ := (shows.ordered.parent_iff _ _).mp (parent_eq_some_iff.mp isParent)
    obtain ⟨_, isOuter, _, elements, _⟩ := children
    cases isOuter.symm.trans found
    rw [elements] at isChild
    rcases isOpening with ⟨rfl, _⟩ | ⟨brace, rfl, _⟩
    · simpa [Slot.element, Role.isNode, Role.leafKind?] using isChild
    · simpa [Slot.element, Role.isNode, Role.leafKind?] using isChild
  obtain ⟨before, after, rfl⟩ := List.append_of_mem isStatement
  rw [List.map_append, List.map_cons, List.append_assoc, ← List.append_assoc, List.cons_append]
    at children
  obtain ⟨outerNode, node, isOuter, found, inOrder⟩ := children.inOrder_before rfl
  obtain ⟨kind, kindEq, allows⟩ := children.fills ⟨.statement, id⟩ (by simp)
  cases (kind_eq_ok found).symm.trans kindEq
  refine ⟨node, found, allows, ?_⟩
  rcases List.eq_nil_or_concat before with rfl | ⟨earlier, previous, rfl⟩
  · rcases isOpening with ⟨rfl, rfl⟩ | ⟨brace, rfl, rfl⟩
    · obtain ⟨_, isFile, starts⟩ := shows.file_starts outerKindEq
      cases isOuter.symm.trans isFile
      rw [← InOrder.nil_iff.mp inOrder, starts]
      exact .nothing
    · obtain ⟨token, isToken, isBrace, parentEq⟩ :=
        children.exists_token shows.wellFormed (List.mem_cons_self ..)
      obtain ⟨_, inNone⟩ := InOrder.token_iff.mp inOrder
      rw [← InOrder.nil_iff.mp inNone]
      exact .brace isToken isBrace parentEq
  · -- In front of it is another statement.
    rw [List.concat_eq_append] at children inOrder
    have isPrevious : ⟨.statement, previous⟩ ∈
        opening ++ (earlier ++ [previous]).map (Slot.mk .statement) ++ ⟨.statement, id⟩ ::
          (after.map (Slot.mk .statement) ++ [⟨.leaf last, closing⟩]) := by
      simp
    obtain ⟨previousKind, isKind, previousAllows⟩ := children.fills _ isPrevious
    have previousParent := children.parentOf?_slot shows.wellFormed isPrevious
    obtain ⟨previousNode, isNode, behind⟩ := shows.endToken_startsBehind braced isKind
      previousAllows (parent_eq_some_iff.mpr previousParent)
    rw [List.map_append, List.map_append, List.map_append, ← List.append_assoc] at inOrder
    obtain ⟨_, _, inPrevious⟩ := InOrder.append_iff.mp inOrder
    obtain ⟨_, isNodeToo, _, inNone⟩ := inPrevious.exists_node
    cases isNode.symm.trans isNodeToo
    rw [← InOrder.nil_iff.mp inNone]
    exact behind

end Shows

end SyntaxTree

/-- Where nothing is reported about a text, nothing in its tree is damaged, and its blocks are
braced. -/
theorem parseText_clean {number : FileId} {fileName : String} {source : SourceText}
    {features : Features} {parsed : ParsedFile}
    (isParsed : parseText number fileName source features = .ok parsed)
    (clean : parsed.diagnostics = []) :
    ∃ damaged shape, parsed.tree.Shows damaged shape ∧ ¬damaged ∧ shape.Braced := by
  obtain ⟨scanned, scans, rfl⟩ := exists_scanned_of_parseText isParsed
  have noReports : (parseTokens number features scanned).diagnostics = [] := by
    refine List.eq_nil_iff_forall_not_mem.mpr fun diagnostic isReported => ?_
    have inNone := Diagnostics.mem_sorted.mpr isReported
    rw [show Diagnostics.sorted _ = [] from clean] at inNone
    cases inNone
  have braced := parseTokens_braced number features (scanText_covers scans)
    (by rw [noReports]; exact List.forall_mem_nil _)
  exact ⟨_, _, SyntaxTree.shows_of_scanText scans, by rw [noReports]; decide, braced⟩

end QueryLang
