import QueryLang.Proofs.Syntax.Shape

/-!
# Expressions in pieces of source

The source can lack a name as a whole. Any other expression stands in it with one token at least,
however much is missing. A piece of source is `Sourced` when this is so for each expression in it.
-/

namespace QueryLang

/-- Whether nodes of a kind are expressions that the source has at least one token of. -/
def Kind.needsToken : Kind → Bool
  | .numericLiteralExpression | .stringLiteralExpression | .trueLiteralExpression
  | .falseLiteralExpression | .parenthesizedExpression | .memberAccessExpression
  | .invocationExpression | .binaryExpression | .queryExpression => true
  | _ => false

namespace ParseTree

/-- The source has a token of the pieces, if a node of the kind around them needs one. -/
def Stands (kind : Kind) (pieces : List ParseTree) : Prop :=
  kind.needsToken = true → tokensOfAll pieces ≠ []

theorem stands_of_bare {kind : Kind} (bare : kind.needsToken = false) (pieces : List ParseTree) :
    Stands kind pieces := by
  intro needs
  rw [bare] at needs
  cases needs

theorem stands_token (kind : Kind) (token : Token) (more : List ParseTree) :
    Stands kind (.token token :: more) := by
  intro _
  simp [tokensOfAll, tokens]

mutual

/-- Every expression in the piece that needs a token has one. -/
inductive Sourced : ParseTree → Prop
  | token (leaf : Token) : Sourced (.token leaf)
  | missing (kind : Kind) : Sourced (.missing kind)
  | node {kind children} (stands : Stands kind children) (sourced : SourcedAll children) :
      Sourced (.node kind children)
  | wrapped {kind first rest} (stands : Stands kind (first :: rest))
      (sourced : SourcedAll (first :: rest)) : Sourced (.wrapped kind first rest)

/-- All of several pieces are sourced. -/
inductive SourcedAll : List ParseTree → Prop
  | nil : SourcedAll []
  | cons {piece others} (head : Sourced piece) (tail : SourcedAll others) :
      SourcedAll (piece :: others)

end

variable {pieces more : List ParseTree}

theorem sourcedAll_iff : SourcedAll pieces ↔ ∀ piece ∈ pieces, piece.Sourced := by
  induction pieces with
  | nil => simp [SourcedAll.nil]
  | cons piece others ih =>
      rw [List.forall_mem_cons, ← ih]
      constructor
      · rintro (_ | ⟨head, tail⟩)
        exact ⟨head, tail⟩
      · rintro ⟨head, tail⟩
        exact .cons head tail

theorem SourcedAll.append (left : SourcedAll pieces) (right : SourcedAll more) :
    SourcedAll (pieces ++ more) := by
  rw [sourcedAll_iff] at left right ⊢
  exact List.forall_mem_append.mpr ⟨left, right⟩

theorem sourcedAll_map_token (leaves : List Token) : SourcedAll (leaves.map .token) := by
  rw [sourcedAll_iff, List.forall_mem_map]
  intro leaf _
  exact .token leaf

end ParseTree

end QueryLang
