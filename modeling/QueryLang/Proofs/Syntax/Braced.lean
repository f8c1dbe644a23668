import QueryLang.Proofs.Syntax.Shape

/-!
# Closing braces in pieces of source

A block is read by its first and its last brace. A piece of source is `Braced` when no block in it
has a closing brace before its last child.
-/

namespace QueryLang

namespace ParseTree

/-- The kind of a piece that is a token, whether the source has it or lacks it. -/
def leafKind? : ParseTree → Option Kind
  | .token leaf => some leaf.kind
  | .missing kind => some kind
  | .node _ _ | .wrapped _ _ _ => none

/-- None of the pieces is a closing brace. -/
def Unclosing (pieces : List ParseTree) : Prop :=
  ∀ piece ∈ pieces, piece.leafKind? ≠ some .closeBraceToken

theorem Unclosing.append {pieces more : List ParseTree} (left : Unclosing pieces)
    (right : Unclosing more) : Unclosing (pieces ++ more) :=
  List.forall_mem_append.mpr ⟨left, right⟩

mutual

/-- No block has a closing brace before its last child. -/
inductive Braced : ParseTree → Prop
  | token (leaf : Token) : Braced (.token leaf)
  | missing (kind : Kind) : Braced (.missing kind)
  | node {kind children} (ends : kind = .block → Unclosing children.dropLast)
      (braced : BracedAll children) : Braced (.node kind children)
  | wrapped {kind first rest} (notBlock : kind ≠ .block) (braced : BracedAll (first :: rest)) :
      Braced (.wrapped kind first rest)

/-- All of several pieces are braced. -/
inductive BracedAll : List ParseTree → Prop
  | nil : BracedAll []
  | cons {piece others} (head : Braced piece) (tail : BracedAll others) :
      BracedAll (piece :: others)

end

variable {pieces more : List ParseTree}

theorem bracedAll_iff : BracedAll pieces ↔ ∀ piece ∈ pieces, piece.Braced := by
  induction pieces with
  | nil => simp [BracedAll.nil]
  | cons piece others ih =>
      rw [List.forall_mem_cons, ← ih]
      constructor
      · rintro (_ | ⟨head, tail⟩)
        exact ⟨head, tail⟩
      · rintro ⟨head, tail⟩
        exact .cons head tail

theorem BracedAll.append (left : BracedAll pieces) (right : BracedAll more) :
    BracedAll (pieces ++ more) := by
  rw [bracedAll_iff] at left right ⊢
  exact List.forall_mem_append.mpr ⟨left, right⟩

theorem bracedAll_map_token (leaves : List Token) : BracedAll (leaves.map .token) := by
  rw [bracedAll_iff, List.forall_mem_map]
  intro leaf _
  exact .token leaf

end ParseTree

/-- What is no leaf is a node. -/
theorem Formed.leafKind?_eq_none {damaged : Prop} {role : Role} {piece : ParseTree}
    (formed : Formed damaged role piece) (notLeaf : ∀ kind, role ≠ .leaf kind) :
    piece.leafKind? = none := by
  cases formed with
  | token leaf => exact absurd rfl (notLeaf _)
  | missing kind => exact absurd rfl (notLeaf _)
  | node | wrapped => rfl

end QueryLang
