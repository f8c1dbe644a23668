import QueryLang.Proofs.Diagnostic.Sorting
import QueryLang.Proofs.Syntax.Parts

/-!
# Binary expressions of a tree

In a parsed tree an operator stands in a binary expression, unless recovery skipped it, and the
operators of binary expressions respect the precedences. So what the tree says of a chain of
operands with operators between them is the one grouping that the precedences dictate, however long
the chain is.
-/

namespace QueryLang

namespace ParseTree

variable {kind : Kind} {children : List ParseTree} {part whole : ParseTree}

theorem Grouped.of_isNode (grouped : whole.Grouped) (isNode : whole.IsNode kind children) :
    GroupedAll children := by
  rcases isNode with rfl | ⟨first, rest, rfl, rfl⟩
  · cases grouped with
    | node _ grouped => exact grouped
  · cases grouped with
    | wrapped _ grouped => exact grouped
    | binary _ _ _ grouped => exact grouped

theorem Grouped.of_part (grouped : whole.Grouped) (isPart : part.PartOf whole) : part.Grouped := by
  induction isPart with
  | refl => exact grouped
  | inside isNode isChild _ ih => exact ih (groupedAll_iff.mp (grouped.of_isNode isNode) _ isChild)

end ParseTree

namespace SyntaxTree

/-- The node is a binary expression: two operands with an operator between them. -/
def IsOperation (tree : SyntaxTree) (id : NodeId) (left : Element) (operator : Kind)
    (right : Element) : Prop :=
  ∃ node token own, tree.nodes[id]? = some node ∧ node.kind = .binaryExpression ∧
    node.children.toList = [left, .token token, right] ∧
    tree.tokens[token]? = some own ∧ own.kind = operator

/-- What a tree says of operands that operators put together, from some child on. -/
inductive Reads (tree : SyntaxTree) : Element → Grouping Element → Prop
  | operand {element : Element}
      (isOperand : ∀ id, element = .node id → tree.kind id ≠ .ok .binaryExpression) :
      Reads tree element (.operand element)
  | operation {id : NodeId} {left right : Element} {operator : Kind}
      {leftGrouping rightGrouping : Grouping Element}
      (isOperation : tree.IsOperation id left operator right)
      (readsLeft : Reads tree left leftGrouping) (readsRight : Reads tree right rightGrouping) :
      Reads tree (.node id) (.operation leftGrouping operator rightGrouping)

variable {tree : SyntaxTree} {damaged : Prop} {file piece : ParseTree} {place : Place}
  {parent : Option NodeId} {id : NodeId} {left right : Element} {operator : Kind}

theorem IsOperation.unique {other another : Element} {inner : Kind}
    (isOperation : tree.IsOperation id left operator right)
    (again : tree.IsOperation id other inner another) :
    left = other ∧ operator = inner ∧ right = another := by
  rcases isOperation with ⟨node, token, own, found, _, children, isToken, rfl⟩
  rcases again with ⟨_, otherToken, _, foundAgain, _, childrenAgain, isTokenAgain, rfl⟩
  cases found.symm.trans foundAgain
  simp only [children, List.cons.injEq, Element.token.injEq, and_true] at childrenAgain
  rcases childrenAgain with ⟨rfl, rfl, rfl⟩
  cases isToken.symm.trans isTokenAgain
  exact ⟨rfl, rfl, rfl⟩

theorem IsOperation.inRange (isOperation : tree.IsOperation id left operator right) :
    id < tree.nodes.size := by
  rcases isOperation with ⟨node, _, _, found, _⟩
  exact (Array.getElem?_eq_some_iff.mp found).1

theorem IsOperation.kind_eq (isOperation : tree.IsOperation id left operator right) :
    tree.kind id = .ok .binaryExpression := by
  rcases isOperation with ⟨node, _, _, found, isBinary, _⟩
  rw [kind_eq_ok found, isBinary]

/-- A token stands in the role of its kind. -/
theorem Holds.role_of_token {role : Role} {id : Nat} {token : TreeToken}
    (holds : tree.Holds place parent piece) (formed : Formed damaged role piece)
    (isOwn : piece.element place = .token id) (isToken : tree.tokens[id]? = some token) :
    role = .leaf token.kind := by
  cases formed with
  | token leaf =>
      cases isOwn
      cases holds.token.symm.trans isToken
      rfl
  | missing kind =>
      cases isOwn
      cases holds.missing.symm.trans isToken
      rfl
  | node => cases isOwn
  | wrapped => cases isOwn

/-- What the operands of a binary expression were made from, and how tightly that binds. -/
structure Operands (tree : SyntaxTree) (id : NodeId) (left : Element) (operator : Kind)
    (right : Element) (first last : ParseTree) : Prop where
  binds : ∃ precedence, operator.binaryPrecedence? = some precedence
  leftStands : tree.StandsFor id left first
  leftGrouped : first.Grouped
  leftBinds : ∀ inner ∈ first.operator?, operator.tightness ≤ inner.tightness
  rightStands : tree.StandsFor id right last
  rightGrouped : last.Grouped
  rightBinds : ∀ inner ∈ last.operator?, operator.tightness < inner.tightness

/-- A binary expression of the source is one of the tree. -/
theorem Holds.operation {first last : ParseTree} {token : Token}
    (holds : tree.Holds place parent (.wrapped .binaryExpression first [.token token, last]))
    (isOwn : (ParseTree.wrapped .binaryExpression first [.token token, last]).element place =
      .node id) :
    ∃ left right, tree.IsOperation id left token.kind right ∧ tree.StandsFor id left first ∧
      tree.StandsFor id right last := by
  rcases holds.node (.inr ⟨first, _, rfl, rfl⟩) with ⟨own, isOwnAgain, found, standFor⟩
  cases isOwn.symm.trans isOwnAgain
  generalize ParseTree.childElements place _ = elements at found standFor
  rcases standFor with _ | ⟨leftStands, others⟩
  rcases others with _ | ⟨tokenStands, others⟩
  rcases others with _ | ⟨rightStands, others⟩
  cases others
  rcases tokenStands with ⟨tokenPlace, rfl, tokenHolds⟩
  exact ⟨_, _, ⟨_, _, _, found, rfl, rfl, tokenHolds.token, rfl⟩, leftStands, rightStands⟩

/-- A node of the tree that is a binary expression is one of the source. -/
theorem Holds.binary (holds : tree.Holds place parent piece) (grouped : piece.Grouped)
    (isOwn : piece.element place = .node id) (isBinary : tree.kind id = .ok .binaryExpression) :
    ∃ left right first token last,
      piece = .wrapped .binaryExpression first [.token token, last] ∧
      tree.IsOperation id left token.kind right ∧
      tree.Operands id left token.kind right first last := by
  have same {kind : Kind} {children : List ParseTree} (isNode : piece.IsNode kind children) :
      kind = .binaryExpression := by
    rcases holds.node isNode with ⟨_, isOwnAgain, found, _⟩
    cases isOwn.symm.trans isOwnAgain
    rw [kind_eq_ok found] at isBinary
    exact Except.ok.inj isBinary
  cases grouped with
  | token leaf => cases isOwn
  | missing kind => cases isOwn
  | node notBinary => exact absurd (same (.inl rfl)) notBinary
  | wrapped notBinary => exact absurd (same (.inr ⟨_, _, rfl, rfl⟩)) notBinary
  | @binary first token last precedence binds leftBinds rightBinds grouped =>
      rcases holds.operation isOwn with ⟨left, right, isOperation, leftStands, rightStands⟩
      have all := ParseTree.groupedAll_iff.mp grouped
      exact ⟨left, right, first, token, last, rfl, isOperation, ⟨precedence, binds⟩, leftStands,
        all first (by simp), leftBinds, rightStands, all last (by simp), rightBinds⟩

theorem Holds.of_isOperation (holds : tree.Holds place parent piece) (grouped : piece.Grouped)
    (isOwn : piece.element place = .node id)
    (isOperation : tree.IsOperation id left operator right) :
    piece.operator? = some operator ∧
      ∃ first last, tree.Operands id left operator right first last := by
  rcases holds.binary grouped isOwn isOperation.kind_eq with
    ⟨_, _, first, token, last, rfl, again, operands⟩
  rcases isOperation.unique again with ⟨rfl, rfl, rfl⟩
  exact ⟨rfl, first, last, operands⟩

theorem StandsFor.operator?_eq {child : NodeId} (stands : tree.StandsFor id (.node child) piece)
    (grouped : piece.Grouped) (isOperation : tree.IsOperation child left operator right) :
    piece.operator? = some operator := by
  rcases stands with ⟨place, isOwn, holds⟩
  exact (holds.of_isOperation grouped isOwn.symm isOperation).1

/-- Every grouped piece of source can be read off the tree that holds it. -/
theorem Holds.exists_reading {place : Place} {parent : Option NodeId} {piece : ParseTree}
    (holds : tree.Holds place parent piece) (grouped : piece.Grouped) :
    ∃ grouping, tree.Reads (piece.element place) grouping := by
  by_cases isOperand : ∀ id, piece.element place = .node id → tree.kind id ≠ .ok .binaryExpression
  · exact ⟨_, .operand isOperand⟩
  · -- The tree holds the pieces of both operands, and these are smaller.
    push Not at isOperand
    rcases isOperand with ⟨id, isOwn, isBinary⟩
    rcases holds.binary grouped isOwn isBinary with
      ⟨left, right, first, token, last, rfl, isOperation, operands⟩
    rcases operands.leftStands with ⟨leftPlace, rfl, leftHolds⟩
    rcases operands.rightStands with ⟨rightPlace, rfl, rightHolds⟩
    rcases leftHolds.exists_reading operands.leftGrouped with ⟨leftGrouping, readsLeft⟩
    rcases rightHolds.exists_reading operands.rightGrouped with ⟨rightGrouping, readsRight⟩
    rw [isOwn]
    exact ⟨_, .operation isOperation readsLeft readsRight⟩
termination_by piece

/-- Binary expressions next to each other respect the precedences of their operators. -/
structure BindsTightly (tree : SyntaxTree) : Prop where
  /-- An operator on the left binds at least as tightly. -/
  left : ∀ {id left operator right child innerLeft inner innerRight},
    tree.IsOperation id left operator right → left = .node child →
    tree.IsOperation child innerLeft inner innerRight → operator.tightness ≤ inner.tightness
  /-- An operator on the right binds tighter. -/
  right : ∀ {id left operator right child innerLeft inner innerRight},
    tree.IsOperation id left operator right → right = .node child →
    tree.IsOperation child innerLeft inner innerRight → operator.tightness < inner.tightness

/-- Where operators respect the precedences of their neighbours, whole readings do. -/
theorem Reads.respects {element : Element} {grouping : Grouping Element}
    (reads : tree.Reads element grouping) (binds : tree.BindsTightly) : grouping.Respects := by
  induction reads with
  | operand => exact .operand _
  | operation isOperation readsLeft readsRight respectsLeft respectsRight =>
      refine .operation respectsLeft respectsRight ?_ ?_
      · intro inner isInner
        cases readsLeft with
        | operand => cases isInner
        | operation isInside =>
            cases isInner
            exact binds.left isOperation rfl isInside
      · intro inner isInner
        cases readsRight with
        | operand => cases isInner
        | operation isInside =>
            cases isInner
            exact binds.right isOperation rfl isInside

/-- Operators are grouped in binary expressions as their precedences say. -/
structure GroupsOperators (tree : SyntaxTree) (damaged : Prop) : Prop where
  /-- An operator stands in a binary expression. Only in a damaged file it can be a loose token. -/
  operator : ∀ {id : Nat} {token}, tree.tokens[id]? = some token →
    token.kind.binaryPrecedence?.isSome = true →
    (∃ left right, tree.IsOperation token.parent left token.kind right) ∨
      damaged ∧ (tree.kind token.parent = .ok .block ∨
        tree.kind token.parent = .ok .compilationUnit)
  /-- A binary expression has an operator between its operands. -/
  operation : ∀ {id}, tree.kind id = .ok .binaryExpression → ∃ left operator right precedence,
    tree.IsOperation id left operator right ∧ operator.binaryPrecedence? = some precedence
  /-- Each operator binds as its place asks for. -/
  binds : tree.BindsTightly
  /-- Operands and operators can be read off the tree at every node. -/
  reading : ∀ id < tree.nodes.size, ∃ grouping, tree.Reads (.node id) grouping
  /-- They are grouped as the precedences dictate for a chain of them. -/
  dictated : ∀ {id grouping}, tree.Reads (.node id) grouping →
    grouping = .dictated grouping.first grouping.rest
  /-- No other grouping of the same chain respects the precedences. -/
  unique : ∀ {id grouping other}, tree.Reads (.node id) grouping → other.Respects →
    other.first = grouping.first → other.rest = grouping.rest → other = grouping

section

variable (shows : tree.Shows damaged file) (grouped : file.Grouped)

include shows grouped

theorem Shows.exists_grouped {id : Nat} (inRange : id < tree.nodes.size) :
    ∃ place parent piece, piece.element place = .node id ∧ tree.Holds place parent piece ∧
      piece.Grouped := by
  rcases shows.exists_part inRange with ⟨place, parent, role, piece, isOwn, part⟩
  exact ⟨place, parent, piece, isOwn, part.holds, grouped.of_part part.isPart⟩

theorem Shows.bindsTightly : tree.BindsTightly := by
  -- The precedences are known of the pieces, and an operand has the operator of its piece.
  have around {id : NodeId} {left right : Element} {operator : Kind}
      (isOperation : tree.IsOperation id left operator right) :
      ∃ first last, tree.Operands id left operator right first last := by
    rcases shows.exists_grouped grouped isOperation.inRange with
      ⟨place, parent, piece, isOwn, holds, grouped⟩
    exact (holds.of_isOperation grouped isOwn isOperation).2
  constructor
  · rintro id _ operator right child innerLeft inner innerRight isOperation rfl isInside
    rcases around isOperation with ⟨first, last, operands⟩
    exact operands.leftBinds inner (operands.leftStands.operator?_eq operands.leftGrouped isInside)
  · rintro id left operator _ child innerLeft inner innerRight isOperation rfl isInside
    rcases around isOperation with ⟨first, last, operands⟩
    exact operands.rightBinds inner
      (operands.rightStands.operator?_eq operands.rightGrouped isInside)

/-- An operator is the one of the binary expression around it, or a loose token. -/
theorem Shows.operator_stands {id : Nat} {token : TreeToken}
    (isToken : tree.tokens[id]? = some token)
    (isOperator : token.kind.binaryPrecedence?.isSome = true) :
    (∃ left right, tree.IsOperation token.parent left token.kind right) ∨
      damaged ∧ (tree.kind token.parent = .ok .block ∨
        tree.kind token.parent = .ok .compilationUnit) := by
  rcases shows.token_isChildOf isToken with ⟨node, found, isMember⟩
  rcases shows.exists_part (Array.getElem?_eq_some_iff.mp found).1 with
    ⟨place, outer, role, piece, isOwn, held⟩
  rcases held.child isOwn ⟨node, found, isMember⟩ with
    ⟨kind, lefts, own, rights, before, part, after, childAt⟩
  rcases childAt.production with ⟨outerRole, production⟩
  rcases childAt.holdsPart with ⟨innerPlace, isInner, inner⟩
  cases inner.holds.role_of_token inner.formed isInner isToken
  rcases production.kind_of_isOperator (by simp [Role.isOperator, isOperator]) with
    rfl | ⟨isDamaged, isLoose⟩
  · left
    rcases held.holds.binary (grouped.of_part held.isPart) isOwn childAt.kind_eq with
      ⟨left, right, first, operator, last, rfl, isOperation, _⟩
    have partEq : part = .token operator := by
      rcases childAt.isNode with same | ⟨_, _, same, childrenEq⟩
      · cases same
      · cases same
        exact production.operator_of_binaryExpression childAt.lefts_length childrenEq
    rw [partEq] at childAt
    rw [Role.leaf.inj childAt.role_eq]
    exact ⟨left, right, isOperation⟩
  · right
    rcases isLoose with rfl | rfl
    · exact ⟨isDamaged, .inl childAt.kind_eq⟩
    · exact ⟨isDamaged, .inr childAt.kind_eq⟩

theorem Shows.groupsOperators : tree.GroupsOperators damaged := by
  have binds := shows.bindsTightly grouped
  refine ⟨shows.operator_stands grouped, ?_, binds, ?_, ?_, ?_⟩
  · intro id isBinary
    rcases node_eq_ok isBinary with ⟨node, found, _⟩
    rcases Array.getElem?_eq_some_iff.mp found with ⟨inRange, _⟩
    rcases shows.exists_grouped grouped inRange with ⟨place, parent, piece, isOwn, holds, grouped⟩
    rcases holds.binary grouped isOwn isBinary with
      ⟨left, right, first, token, last, rfl, isOperation, operands⟩
    rcases operands.binds with ⟨precedence, known⟩
    exact ⟨left, token.kind, right, precedence, isOperation, known⟩
  · intro id inRange
    rcases shows.exists_grouped grouped inRange with ⟨place, parent, piece, isOwn, holds, grouped⟩
    rcases holds.exists_reading grouped with ⟨grouping, reads⟩
    rw [isOwn] at reads
    exact ⟨grouping, reads⟩
  · intro id grouping reads
    exact (reads.respects binds).eq_dictated
  · intro id grouping other reads respects sameFirst sameRest
    exact respects.unique (reads.respects binds) sameFirst sameRest

end

end SyntaxTree

section Parsed

variable {file : FileId} {fileName : String} {source : SourceText} {features : Features}
  {parsed : ParsedFile}

/-- In every parsed text the operators are grouped as their precedences say. -/
theorem parseText_groupsOperators
    (isParsed : parseText file fileName source features = .ok parsed) :
    parsed.tree.GroupsOperators (Diagnostics.hasErrors parsed.diagnostics = true) := by
  rcases exists_scanned_of_parseText isParsed with ⟨scanned, scans, rfl⟩
  rw [Diagnostics.hasErrors_sorted]
  exact (SyntaxTree.shows_of_scanText scans).groupsOperators
    (parseTokens_grouped _ _ (scanText_covers scans))

/-- Operators around queries and missing operands. -/
theorem parseText_groupsOperators_mixed :
    let source : SourceText :=
      ⟨"var x = a + b * (c - d - e) < from n in m select n || f && ;".toList, by decide +kernel⟩
    ∃ parsed, parseText 0 "main" source .all = .ok parsed ∧
      parsed.tree.GroupsOperators (Diagnostics.hasErrors parsed.diagnostics = true) := by
  intro source
  have isOk : (parseText 0 "main" source .all).isOk := by decide +kernel
  rcases Checked.exists_ok_of_isOk isOk with ⟨parsed, isParsed⟩
  exact ⟨parsed, isParsed, parseText_groupsOperators isParsed⟩

end Parsed

end QueryLang
