import QueryLang.Proofs.Syntax.Grouping
import QueryLang.Proofs.Syntax.Shape

/-!
# Binary expressions in pieces of source

A piece of source is `Grouped` when the operators of the binary expressions in it respect the
precedences, wherever in the piece these stand. The productions say where an operator can stand at
all.
-/

namespace QueryLang

namespace ParseTree

/-- The operator of a piece that is a binary expression. -/
def operator? : ParseTree → Option Kind
  | .wrapped .binaryExpression _ [.token operator, _] => some operator.kind
  | _ => none

mutual

/-- Operators bind tighter to the right and at least as tightly to the left of another one. -/
inductive Grouped : ParseTree → Prop
  | token (leaf : Token) : Grouped (.token leaf)
  | missing (kind : Kind) : Grouped (.missing kind)
  | node {kind children} (notBinary : kind ≠ .binaryExpression) (grouped : GroupedAll children) :
      Grouped (.node kind children)
  | wrapped {kind first rest} (notBinary : kind ≠ .binaryExpression)
      (grouped : GroupedAll (first :: rest)) : Grouped (.wrapped kind first rest)
  | binary {left operator right precedence}
      (binds : Kind.binaryPrecedence? operator.kind = some precedence)
      (leftBinds : ∀ inner ∈ left.operator?, operator.kind.tightness ≤ inner.tightness)
      (rightBinds : ∀ inner ∈ right.operator?, operator.kind.tightness < inner.tightness)
      (grouped : GroupedAll [left, .token operator, right]) :
      Grouped (.wrapped .binaryExpression left [.token operator, right])

/-- All of several pieces are grouped. -/
inductive GroupedAll : List ParseTree → Prop
  | nil : GroupedAll []
  | cons {piece others} (head : Grouped piece) (tail : GroupedAll others) :
      GroupedAll (piece :: others)

end

variable {pieces more : List ParseTree} {piece : ParseTree}

theorem groupedAll_iff : GroupedAll pieces ↔ ∀ piece ∈ pieces, piece.Grouped := by
  induction pieces with
  | nil => simp [GroupedAll.nil]
  | cons piece others ih =>
      rw [List.forall_mem_cons, ← ih]
      constructor
      · rintro (_ | ⟨head, tail⟩)
        exact ⟨head, tail⟩
      · rintro ⟨head, tail⟩
        exact .cons head tail

theorem GroupedAll.append (left : GroupedAll pieces) (right : GroupedAll more) :
    GroupedAll (pieces ++ more) := by
  rw [groupedAll_iff] at left right ⊢
  exact List.forall_mem_append.mpr ⟨left, right⟩

theorem groupedAll_map_token (leaves : List Token) : GroupedAll (leaves.map .token) := by
  rw [groupedAll_iff, List.forall_mem_map]
  intro leaf _
  exact .token leaf

end ParseTree

/-! ### Operators in productions -/

/-- An operator of binary expressions. -/
def Role.isOperator : Role → Bool
  | .leaf kind => kind.binaryPrecedence?.isSome
  | _ => false

namespace Production

variable {damaged : Prop} {role : Role} {kind operator : Kind} {roles lefts rights : List Role}

/-- A binary expression stands in no role but that of an expression. -/
theorem ne_binaryExpression (production : Production damaged role kind roles)
    (notExpression : role ≠ .expression) : kind ≠ .binaryExpression := by
  induction production with
  | ofName _ ih | ofPrimary _ ih | ofFromClause _ ih | ofBlock _ ih => exact ih (by simp)
  | ofOperand | binary => exact absurd rfl notExpression
  | literal isLiteral =>
      rintro rfl
      cases isLiteral
  | _ => simp

/-- Operators stand in binary expressions. Elsewhere they are loose tokens. -/
theorem kind_of_isOperator (production : Production damaged role kind roles)
    (hasOperator : roles.any Role.isOperator = true) :
    kind = .binaryExpression ∨ damaged ∧ (kind = .block ∨ kind = .compilationUnit) := by
  have loose {content : List Role} (allowed : ∀ role ∈ content, role.IsContent damaged)
      (inContent : ∃ role ∈ content, role.isOperator = true) : damaged := by
    rcases inContent with ⟨role, member, isOperator⟩
    rcases allowed role member with rfl | ⟨isDamaged, _⟩
    · cases isOperator
    · exact isDamaged
  induction production with
  | ofName _ ih | ofPrimary _ ih | ofOperand _ ih | ofFromClause _ ih | ofBlock _ ih =>
    exact ih hasOperator
  | binary => exact .inl rfl
  | @block content allowed =>
    have inContent : ∃ role ∈ content, role.isOperator = true := by
      simpa [Role.isOperator, Kind.binaryPrecedence?] using hasOperator
    exact .inr ⟨loose allowed inContent, .inl rfl⟩
  | @file content allowed =>
    have inContent : ∃ role ∈ content, role.isOperator = true := by
      simpa [Role.isOperator, Kind.binaryPrecedence?] using hasOperator
    exact .inr ⟨loose allowed inContent, .inr rfl⟩
  | literal isLiteral =>
    unfold Kind.literalToken? at isLiteral
    split at isLiteral
    all_goals cases isLiteral
    all_goals cases hasOperator
  | someArguments count =>
    simp [Role.furtherArgument, Role.isOperator, Kind.binaryPrecedence?] at hasOperator
  | queryBody count | concludedBody count => simp [Role.isOperator] at hasOperator
  | _ => cases hasOperator

theorem roles_of_binaryExpression (production : Production damaged role kind roles)
    (isBinary : kind = .binaryExpression) :
    ∃ operator, roles = [.expression, .leaf operator, .expression] := by
  induction production with
  | ofName _ ih | ofPrimary _ ih | ofOperand _ ih | ofFromClause _ ih | ofBlock _ ih =>
    exact ih isBinary
  | @binary operator => exact ⟨operator, rfl⟩
  | literal isLiteral =>
    rw [isBinary] at isLiteral
    cases isLiteral
  | _ => cases isBinary

/-- The only leaf of a binary expression stands between its operands. -/
theorem operator_of_binaryExpression {before after : List ParseTree}
    {first middle last piece : ParseTree}
    (production : Production damaged role .binaryExpression (lefts ++ .leaf operator :: rights))
    (sameLength : lefts.length = before.length)
    (childrenEq : before ++ piece :: after = [first, middle, last]) : piece = middle := by
  rcases production.roles_of_binaryExpression rfl with ⟨own, rolesEq⟩
  have roleAt : [Role.expression, .leaf own, .expression][lefts.length]? =
      some (.leaf operator) := by
    rw [← rolesEq]
    simp
  have pieceAt : [first, middle, last][lefts.length]? = some piece := by
    rw [← childrenEq, sameLength]
    simp
  generalize lefts.length = index at roleAt pieceAt
  match index with
  | 0 => cases roleAt
  | 1 =>
    cases pieceAt
    rfl
  | 2 => cases roleAt
  | _ + 3 => cases roleAt

end Production

/-- No operator puts an operand together. -/
theorem Formed.operator?_eq_none {damaged : Prop} {piece : ParseTree}
    (formed : Formed damaged .operand piece) : piece.operator? = none := by
  cases formed with
  | node => rfl
  | wrapped production =>
      have notBinary := production.ne_binaryExpression (by simp)
      unfold ParseTree.operator?
      split
      · next same =>
        cases same
        exact absurd rfl notBinary
      · rfl

end QueryLang
