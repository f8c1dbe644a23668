import Mathlib.Data.List.Induction
import QueryLang.Syntax.Kind

/-!
# Grouping operands

Operands with operators between them can be grouped in many ways. `Grouping.Respects` is what the
precedences of the operators ask for: an operand on the left may have been put together with an
operator that binds as tightly, an operand on the right only with one that binds tighter. Exactly
one grouping of every chain does that, and taking in one operator after the other leads to it.
-/

namespace QueryLang

/-- How tightly a binary operator binds. What is no operator binds least. -/
def Kind.tightness (kind : Kind) : Nat := kind.binaryPrecedence?.getD 0

theorem Kind.tightness_eq {kind : Kind} {precedence : Nat}
    (binds : kind.binaryPrecedence? = some precedence) : kind.tightness = precedence := by
  rw [tightness, binds, Option.getD_some]

theorem Kind.tightness_le (kind : Kind) : kind.tightness ≤ 6 := by
  unfold tightness binaryPrecedence?
  split <;> simp

/-- Operands that operators put together. -/
inductive Grouping (α : Type)
  | operand (value : α)
  | operation (left : Grouping α) (operator : Kind) (right : Grouping α)
deriving DecidableEq

namespace Grouping

variable {α : Type}

/-- The operator that puts the whole together. -/
def operator? : Grouping α → Option Kind
  | operand _ => none
  | operation _ operator _ => some operator

/-- The operand that comes first. -/
def first : Grouping α → α
  | operand value => value
  | operation left _ _ => left.first

/-- The operators in order, each with the operand behind it. -/
def rest : Grouping α → List (Kind × α)
  | operand _ => []
  | operation left operator right => left.rest ++ (operator, right.first) :: right.rest

/-- Operators bind tighter to the right and at least as tightly to the left of another one. -/
inductive Respects : Grouping α → Prop
  | operand (value : α) : Respects (.operand value)
  | operation {left right : Grouping α} {operator : Kind} (respectsLeft : Respects left)
      (respectsRight : Respects right)
      (leftBinds : ∀ inner ∈ left.operator?, operator.tightness ≤ inner.tightness)
      (rightBinds : ∀ inner ∈ right.operator?, operator.tightness < inner.tightness) :
      Respects (.operation left operator right)

/-- Takes in an operator with the operand behind it. The operator goes down to the right past
those that bind less tightly. -/
def push (operator : Kind) (value : α) : Grouping α → Grouping α
  | operand first => operation (operand first) operator (operand value)
  | operation left inner right =>
    if operator.tightness ≤ inner.tightness then
      operation (operation left inner right) operator (operand value)
    else
      operation left inner (right.push operator value)

/-- The grouping of a chain that the precedences dictate. -/
def dictated (first : α) (rest : List (Kind × α)) : Grouping α :=
  rest.foldl (fun grouping next => grouping.push next.1 next.2) (operand first)

variable {grouping other : Grouping α} {operator : Kind} {value : α}

/-! ### Taking in operators -/

@[simp]
theorem first_push : (grouping.push operator value).first = grouping.first := by
  induction grouping with
  | operand first => rfl
  | operation left inner right ihLeft ihRight =>
      rw [push]
      split
      · rfl
      · rfl

@[simp]
theorem rest_push :
    (grouping.push operator value).rest = grouping.rest ++ [(operator, value)] := by
  induction grouping with
  | operand first => rfl
  | operation left inner right ihLeft ihRight =>
      rw [push]
      split
      · rfl
      · simp [rest, ihRight]

theorem operator?_push : ∀ inner ∈ (grouping.push operator value).operator?,
    inner = operator ∨ inner ∈ grouping.operator? := by
  cases grouping with
  | operand first => simp [push, operator?]
  | operation left inner right =>
      rw [push]
      split
      · simp [operator?]
      · simp [operator?]

theorem Respects.push (respects : grouping.Respects) (operator : Kind) (value : α) :
    (grouping.push operator value).Respects := by
  induction respects with
  | operand first =>
      exact .operation (.operand first) (.operand value) (by simp [operator?])
        (by simp [operator?])
  | @operation left right inner respectsLeft respectsRight leftBinds rightBinds _ ihRight =>
      rw [Grouping.push]
      split
      · next looser =>
        have whole := Respects.operation respectsLeft respectsRight leftBinds rightBinds
        exact .operation whole (.operand value) (by simpa [operator?] using looser)
          (by simp [operator?])
      · next tighter =>
        refine .operation respectsLeft ihRight leftBinds ?_
        intro root isRoot
        rcases operator?_push root isRoot with rfl | isOld
        · exact Nat.lt_of_not_le tighter
        · exact rightBinds root isOld

theorem dictated_concat (first : α) (rest : List (Kind × α)) (next : Kind × α) :
    dictated first (rest ++ [next]) = (dictated first rest).push next.1 next.2 := by
  simp [dictated]

/-- What the precedences dictate respects them, and is a grouping of the chain. -/
theorem dictated_spec (first : α) (rest : List (Kind × α)) :
    (dictated first rest).Respects ∧ (dictated first rest).first = first ∧
      (dictated first rest).rest = rest := by
  induction rest using List.reverseRecOn with
  | nil => exact ⟨.operand first, rfl, rfl⟩
  | append_singleton rest next ih =>
      rcases ih with ⟨respects, firstEq, restEq⟩
      rw [dictated_concat, first_push, rest_push, firstEq, restEq]
      exact ⟨respects.push next.1 next.2, rfl, rfl⟩

/-! ### There is one way -/

/-- The operator that puts the whole together binds least. -/
theorem Respects.bounds (respects : grouping.Respects) {limit : Nat}
    (bound : ∀ root ∈ grouping.operator?, limit ≤ root.tightness) :
    ∀ next ∈ grouping.rest, limit ≤ next.1.tightness := by
  induction respects generalizing limit with
  | operand value => simp [rest]
  | @operation left right operator _ _ leftBinds rightBinds ihLeft ihRight =>
      have own : limit ≤ operator.tightness := bound operator rfl
      rw [rest, List.forall_mem_append, List.forall_mem_cons]
      refine ⟨ihLeft ?_, own, ihRight ?_⟩
      · intro root isRoot
        exact Nat.le_trans own (leftBinds root isRoot)
      · intro root isRoot
        exact Nat.le_trans own (Nat.le_of_lt (rightBinds root isRoot))

/-- The last of the operators that bind least splits a chain. -/
structure Splits (before : List (Kind × α)) (next : Kind × α) (after : List (Kind × α)) : Prop where
  before : ∀ earlier ∈ before, next.1.tightness ≤ earlier.1.tightness
  after : ∀ later ∈ after, next.1.tightness < later.1.tightness

theorem Splits.unique {before others after more : List (Kind × α)} {next last : Kind × α}
    (splits : Splits before next after) (again : Splits others last more)
    (same : before ++ next :: after = others ++ last :: more) :
    before = others ∧ next = last ∧ after = more := by
  -- Where one split is further right, its operator binds both more and no more than the other.
  have noFurther {before others after more between : List (Kind × α)} {next last : Kind × α}
      (splits : Splits before next after) (again : Splits others last more)
      (further : others = before ++ between) (rest : next :: after = between ++ last :: more) :
      between = [] := by
    cases between with
    | nil => rfl
    | cons head between =>
        rw [List.cons_append, List.cons.injEq] at rest
        rcases rest with ⟨rfl, afterEq⟩
        have tighter := splits.after last (by simp [afterEq])
        have looser := again.before next (by simp [further])
        omega
  rcases List.append_eq_append_iff.mp same with ⟨between, further, rest⟩ | ⟨between, further, rest⟩
  · cases noFurther splits again further rest
    simp_all
  · cases noFurther again splits further rest
    simp_all

theorem Respects.splits {left right : Grouping α}
    (respects : (Grouping.operation left operator right).Respects) :
    Splits left.rest (operator, right.first) right.rest := by
  cases respects with
  | operation respectsLeft respectsRight leftBinds rightBinds =>
      exact ⟨respectsLeft.bounds leftBinds, respectsRight.bounds rightBinds⟩

/-- Two groupings of one chain that respect the precedences are the same. -/
theorem Respects.unique (respects : grouping.Respects) (again : other.Respects)
    (sameFirst : grouping.first = other.first) (sameRest : grouping.rest = other.rest) :
    grouping = other := by
  induction respects generalizing other with
  | operand value =>
      cases again with
      | operand another => exact congrArg Grouping.operand sameFirst
      | operation => simp [rest] at sameRest
  | @operation left right operator respectsLeft respectsRight leftBinds rightBinds ihLeft ihRight =>
      have whole := Respects.operation respectsLeft respectsRight leftBinds rightBinds
      cases other with
      | operand another => simp [rest] at sameRest
      | operation otherLeft another otherRight =>
          rcases whole.splits.unique again.splits sameRest with ⟨leftRest, sameNext, rightRest⟩
          rw [Prod.mk.injEq] at sameNext
          rcases sameNext with ⟨rfl, rightFirst⟩
          cases again with
          | operation respectsOther respectsAnother _ _ =>
              rw [ihLeft respectsOther sameFirst leftRest,
                ihRight respectsAnother rightFirst rightRest]

/-- A grouping that respects the precedences is the one that they dictate. -/
theorem Respects.eq_dictated (respects : grouping.Respects) :
    grouping = dictated grouping.first grouping.rest := by
  rcases dictated_spec grouping.first grouping.rest with ⟨dictatedRespects, firstEq, restEq⟩
  exact respects.unique dictatedRespects firstEq.symm restEq.symm

/-- Products go before sums, and sums from left to right. -/
example : dictated 'a' [(.plusToken, 'b'), (.asteriskToken, 'c'), (.minusToken, 'd')] =
    .operation (.operation (.operand 'a') .plusToken
      (.operation (.operand 'b') .asteriskToken (.operand 'c'))) .minusToken (.operand 'd') := by
  decide

end Grouping

end QueryLang
