import Mathlib.Data.List.Infix
import QueryLang.Proofs.Syntax.CoupledStatements
import QueryLang.Proofs.Syntax.Parts

/-!
# Nested blocks

`ParseTree.Opens` says how many blocks stand around the block that a brace opens. Blocks stand in
blocks, in `do` statements and in files, and nowhere else. A `Frame` is what stands around a block
that consists of loose tokens.

`Balanced` tokens open as many blocks as they close. Skipping to the closing brace of a block goes
on to the end of a balanced run, and stops where a brace has no partner in the run.
-/

namespace QueryLang

/-! ### Braces in lists of tokens -/

/-- How many of the tokens are of a kind. -/
def countKind (kind : Kind) (tokens : List Token) : Nat :=
  tokens.countP (·.kind == kind)

@[simp]
theorem countKind_nil (kind : Kind) : countKind kind [] = 0 :=
  rfl

theorem countKind_cons (kind : Kind) (token : Token) (rest : List Token) :
    countKind kind (token :: rest) = countKind kind rest + if token.kind = kind then 1 else 0 := by
  simp [countKind, List.countP_cons]

/-- Where `opened` blocks are open, no front part of the tokens closes more than that and what it
opens itself. -/
def StaysWithin (opened : Nat) (tokens : List Token) : Prop :=
  ∀ front, front <+: tokens →
    countKind .closeBraceToken front ≤ opened + countKind .openBraceToken front

/-- The tokens have as many closing as opening braces, and no front part of them has more. -/
structure Balanced (tokens : List Token) : Prop where
  staysWithin : StaysWithin 0 tokens
  equal : countKind .closeBraceToken tokens = countKind .openBraceToken tokens

instance (opened : Nat) (tokens : List Token) : Decidable (StaysWithin opened tokens) :=
  decidable_of_iff (∀ front ∈ tokens.inits, countKind .closeBraceToken front ≤
      opened + countKind .openBraceToken front)
    (forall_congr' fun _ => imp_congr_left (List.mem_inits _ _))

instance (tokens : List Token) : Decidable (Balanced tokens) :=
  decidable_of_iff (StaysWithin 0 tokens ∧
      countKind .closeBraceToken tokens = countKind .openBraceToken tokens)
    ⟨fun balanced => ⟨balanced.1, balanced.2⟩, fun balanced => ⟨balanced.1, balanced.2⟩⟩

variable {opened : Nat} {token : Token} {tokens back : List Token}

theorem staysWithin_nil : StaysWithin opened [] := by
  intro front isFront
  rw [List.prefix_nil.mp isFront, countKind_nil]
  exact Nat.zero_le _

theorem staysWithin_cons : StaysWithin opened (token :: tokens) ↔ ∀ front, front <+: tokens →
    countKind .closeBraceToken (token :: front) ≤
      opened + countKind .openBraceToken (token :: front) := by
  refine ⟨fun stays front isFront => stays _ (List.cons_prefix_cons.mpr ⟨rfl, isFront⟩), ?_⟩
  intro stays front isFront
  cases front with
  | nil => simp
  | cons first front =>
    obtain ⟨rfl, isRest⟩ := List.cons_prefix_cons.mp isFront
    exact stays front isRest

/-- Skipping goes on as long as the blocks that are open are not all closed, -/
theorem splitAtClosingBrace_of_staysWithin (stays : StaysWithin opened tokens) :
    ∃ left, left + countKind .closeBraceToken tokens = opened + countKind .openBraceToken tokens ∧
      ∀ back, splitAtClosingBrace opened (tokens ++ back) =
        (tokens ++ (splitAtClosingBrace left back).1, (splitAtClosingBrace left back).2) := by
  -- A brace changes the number of open blocks, and the rest stays within the new number.
  induction tokens generalizing opened with
  | nil => exact ⟨opened, rfl, fun back => rfl⟩
  | cons token rest ih =>
    rw [staysWithin_cons] at stays
    obtain ⟨isClose, rfl, _⟩ | ⟨next, goesOn, counts⟩ := splitAtClosingBrace_cons opened token
    · have first := stays [] (List.prefix_append [] _)
      simp [countKind_cons, isClose] at first
    · have staysNext : StaysWithin next rest := fun front isFront => by
        have whole := stays front isFront
        rw [countKind_cons, countKind_cons] at whole
        omega
      obtain ⟨left, countsLeft, splits⟩ := ih staysNext
      refine ⟨left, ?_, fun back => ?_⟩
      · rw [countKind_cons, countKind_cons]
        omega
      · rw [List.cons_append, goesOn, splits]
        rfl

/-- and stops before the brace that closes the last of them, or at the end of the tokens. -/
theorem splitAtClosingBrace_stops (opened : Nat) (tokens : List Token) :
    StaysWithin opened (splitAtClosingBrace opened tokens).1 ∧
      ∀ token ∈ (splitAtClosingBrace opened tokens).2.head?, token.kind = .closeBraceToken ∧
        countKind .closeBraceToken (splitAtClosingBrace opened tokens).1 =
          opened + countKind .openBraceToken (splitAtClosingBrace opened tokens).1 := by
  induction tokens generalizing opened with
  | nil => exact ⟨staysWithin_nil, by simp [splitAtClosingBrace]⟩
  | cons token rest ih =>
    obtain ⟨isClose, rfl, stops⟩ | ⟨next, goesOn, counts⟩ := splitAtClosingBrace_cons opened token
    · rw [stops]
      refine ⟨staysWithin_nil, ?_⟩
      rintro _ ⟨⟩
      exact ⟨isClose, rfl⟩
    · obtain ⟨stays, ends⟩ := ih next
      rw [goesOn]
      refine ⟨staysWithin_cons.mpr fun front isFront => ?_, fun last isLast => ?_⟩
      · have within := stays front isFront
        rw [countKind_cons, countKind_cons]
        omega
      · obtain ⟨isClose, equal⟩ := ends last isLast
        rw [countKind_cons, countKind_cons]
        exact ⟨isClose, by omega⟩

/-- Skipping stops right behind a balanced run where the block ends there. -/
theorem Balanced.split (balanced : Balanced tokens)
    (closes : ∀ token ∈ back.head?, token.kind = .closeBraceToken) :
    splitAtClosingBrace 0 (tokens ++ back) = (tokens, back) := by
  obtain ⟨left, counts, splits⟩ := splitAtClosingBrace_of_staysWithin balanced.staysWithin
  have noneLeft : left = 0 := by
    have equal := balanced.equal
    omega
  have atEnd : splitAtClosingBrace 0 back = ([], back) := by
    cases back with
    | nil => rfl
    | cons token rest =>
      have isClose : token.kind = .closeBraceToken := closes token rfl
      simp [splitAtClosingBrace, isClose]
  rw [splits, noneLeft, atEnd, List.append_nil]

/-! ### Where blocks stand -/

/-- Whether a block can stand in a role, or in a piece in that role. -/
def Role.holdsBlocks : Role → Bool
  | .block | .statement | .file => true
  | _ => false

/-- Whether a node of a kind is a block or has one as child. -/
def Kind.holdsBlocks : Kind → Bool
  | .block | .doStatement | .compilationUnit => true
  | _ => false

theorem Role.holdsBlocks_iff {role : Role} : role.holdsBlocks = true ↔
    role = .block ∨ role = .statement ∨ role = .file := by
  cases role <;> simp [holdsBlocks]

namespace Production

variable {damaged : Prop} {role own : Role} {kind : Kind} {roles : List Role}

theorem role_holdsBlocks (production : Production damaged role kind roles)
    (holds : kind.holdsBlocks = true) : role.holdsBlocks = true := by
  induction production with
  | ofName _ ih | ofPrimary _ ih | ofOperand _ ih | ofFromClause _ ih => cases ih holds
  | ofBlock | block | doStatement | file => rfl
  | literal isLiteral =>
    unfold Kind.literalToken? at isLiteral
    split at isLiteral
    all_goals first | cases holds | cases isLiteral
  | _ => cases holds

theorem kind_holdsBlocks (production : Production damaged role kind roles) (isChild : own ∈ roles)
    (holds : own.holdsBlocks = true) : kind.holdsBlocks = true := by
  induction production with
  | ofName _ ih | ofPrimary _ ih | ofOperand _ ih | ofFromClause _ ih | ofBlock _ ih =>
    exact ih isChild
  | block | doStatement | file => rfl
  | someArguments count =>
    obtain rfl | rfl | rfl := Role.holdsBlocks_iff.mp holds
    all_goals simp [Role.furtherArgument] at isChild
  | _ =>
    obtain rfl | rfl | rfl := Role.holdsBlocks_iff.mp holds
    all_goals simp at isChild

end Production

namespace ParseTree

/-- The piece stands somewhere in another one, with `count` blocks around it. -/
inductive Within (part : ParseTree) : (count : Nat) → ParseTree → Prop
  | here : Within part 0 part
  | inBlock {count whole children child} (isNode : whole.IsNode .block children)
      (isChild : child ∈ children) (within : Within part count child) :
      Within part (count + 1) whole
  | inOther {count whole kind children child} (isNode : whole.IsNode kind children)
      (notBlock : kind ≠ .block) (isChild : child ∈ children)
      (within : Within part count child) : Within part count whole

/-- The brace opens a block in a piece of source, with `count` blocks around that block. -/
def Opens (brace : Token) (count : Nat) (whole : ParseTree) : Prop :=
  ∃ (part : ParseTree) (rest : List ParseTree),
    part.IsNode .block (.token brace :: rest) ∧ part.Within count whole

/-- The brace opens a block in one of the pieces, with at least `levels` blocks around it. -/
def OpensDeep (brace : Token) (levels : Nat) (pieces : List ParseTree) : Prop :=
  ∃ piece ∈ pieces, ∃ count, levels ≤ count ∧ piece.Opens brace count

variable {brace : Token} {levels count : Nat} {part piece whole child : ParseTree} {kind : Kind}
  {children pieces more : List ParseTree}

/-- One step further down. -/
theorem Within.of_child (within : part.Within count whole) (isNode : part.IsNode kind children)
    (isChild : child ∈ children) :
    child.Within (count + if kind = .block then 1 else 0) whole := by
  induction within with
  | here =>
    split
    · next isBlock => exact .inBlock (isBlock ▸ isNode) isChild .here
    · next notBlock => exact .inOther isNode notBlock isChild .here
  | inBlock isOuter isInner _ ih =>
    rw [Nat.add_right_comm]
    exact .inBlock isOuter isInner ih
  | inOther isOuter notBlock isInner _ ih => exact .inOther isOuter notBlock isInner ih

/-- A block is a block around what its children open, and its first child may open it. -/
theorem Opens.of_block (opens : whole.Opens brace count) (isNode : whole.IsNode .block children) :
    count = 0 ∧ (∃ rest, children = .token brace :: rest) ∨
      ∃ less, count = less + 1 ∧ ∃ child ∈ children, child.Opens brace less := by
  obtain ⟨part, rest, isBlock, within⟩ := opens
  cases within with
  | here => exact .inl ⟨rfl, rest, (isNode.unique isBlock).2.symm⟩
  | inBlock isOuter isChild within =>
    obtain ⟨_, rfl⟩ := isNode.unique isOuter
    exact .inr ⟨_, rfl, _, isChild, part, rest, isBlock, within⟩
  | inOther isOuter notBlock => exact absurd (isNode.unique isOuter).1 notBlock

/-- A node that is no block opens what its children open. -/
theorem Opens.of_other (opens : whole.Opens brace count) (isNode : whole.IsNode kind children)
    (notBlock : kind ≠ .block) : ∃ child ∈ children, child.Opens brace count := by
  obtain ⟨part, rest, isBlock, within⟩ := opens
  cases within with
  | here => exact absurd (isNode.unique isBlock).1.symm notBlock
  | inBlock isOuter => exact absurd (isNode.unique isOuter).1.symm notBlock
  | inOther isOuter _ isChild within =>
    obtain ⟨_, rfl⟩ := isNode.unique isOuter
    exact ⟨_, isChild, part, rest, isBlock, within⟩

theorem Opens.isNode (opens : whole.Opens brace count) :
    ∃ kind children, whole.IsNode kind children := by
  obtain ⟨part, rest, isBlock, within⟩ := opens
  cases within with
  | here => exact ⟨_, _, isBlock⟩
  | inBlock isNode | inOther isNode => exact ⟨_, _, isNode⟩

theorem not_opens_token {leaf : Token} : ¬(ParseTree.token leaf).Opens brace count := by
  intro opens
  obtain ⟨kind, children, isNode⟩ := opens.isNode
  exact not_isNode_token isNode

theorem not_opens_missing : ¬(ParseTree.missing kind).Opens brace count := by
  intro opens
  obtain ⟨kind, children, isNode | ⟨_, _, isNode, _⟩⟩ := opens.isNode
  · cases isNode
  · cases isNode

/-- What opens a block is a token of the source. -/
theorem Opens.mem_tokens (opens : whole.Opens brace count) : brace ∈ whole.tokens := by
  obtain ⟨part, rest, isBlock, within⟩ := opens
  induction within with
  | here => exact isBlock.mem_tokens (List.mem_cons_self ..) (List.mem_singleton_self _)
  | inBlock isNode isChild _ ih | inOther isNode _ isChild _ ih =>
    exact isNode.mem_tokens isChild ih

namespace OpensDeep

theorem mem_tokens (deep : OpensDeep brace levels pieces) : brace ∈ tokensOfAll pieces := by
  obtain ⟨piece, isPiece, _, _, opens⟩ := deep
  exact mem_tokensOfAll.mpr ⟨piece, isPiece, opens.mem_tokens⟩

theorem ne_nil (deep : OpensDeep brace levels pieces) : pieces ≠ [] := by
  obtain ⟨piece, isPiece, _⟩ := deep
  exact List.ne_nil_of_mem isPiece

theorem append_iff : OpensDeep brace levels (pieces ++ more) ↔
    OpensDeep brace levels pieces ∨ OpensDeep brace levels more := by
  simp only [OpensDeep, List.mem_append, or_and_right, exists_or]

theorem singleton_iff : OpensDeep brace levels [piece] ↔
    ∃ count, levels ≤ count ∧ piece.Opens brace count := by
  simp [OpensDeep]

/-- What opens no block as deep does not with a block around it. -/
theorem of_block (deep : OpensDeep brace (levels + 1) [.node .block children]) :
    OpensDeep brace levels children := by
  obtain ⟨count, atLeast, opens⟩ := singleton_iff.mp deep
  obtain ⟨rfl, _⟩ | ⟨less, rfl, child, isChild, opensIn⟩ := opens.of_block (.inl rfl)
  · exact absurd atLeast (Nat.not_succ_le_zero _)
  · exact ⟨child, isChild, less, Nat.le_of_succ_le_succ atLeast, opensIn⟩

theorem of_other (deep : OpensDeep brace levels [.node kind children]) (notBlock : kind ≠ .block) :
    OpensDeep brace levels children := by
  obtain ⟨count, atLeast, opens⟩ := singleton_iff.mp deep
  obtain ⟨child, isChild, opensIn⟩ := opens.of_other (.inl rfl) notBlock
  exact ⟨child, isChild, count, atLeast, opensIn⟩

end OpensDeep

/-- What stands around the tokens of a block: those of its opening brace and of its content. -/
inductive Frame
  | block (closeBrace : ParseTree)
  | inside (kind : Kind) (before : List ParseTree) (frame : Frame) (after : List ParseTree)

/-- The piece of source with tokens in the block. -/
def Frame.fill (tokens : List Token) : Frame → ParseTree
  | .block closeBrace => .node .block (tokens.map .token ++ [closeBrace])
  | .inside kind before frame after => .node kind (before ++ frame.fill tokens :: after)

end ParseTree

namespace Formed

variable {damaged : Prop} {role : Role} {kind : Kind} {whole child : ParseTree}
  {children : List ParseTree}

theorem holdsBlocks_of_child (formed : Formed damaged role whole)
    (isNode : whole.IsNode kind children) (isChild : child ∈ children)
    (holds : ∀ {own : Role}, Formed damaged own child → own.holdsBlocks = true) :
    role.holdsBlocks = true ∧ kind.holdsBlocks = true := by
  obtain ⟨roles, production, formedAll⟩ := formed.production isNode
  obtain ⟨before, after, rfl⟩ := List.append_of_mem isChild
  obtain ⟨lefts, own, rights, rfl, _, _, formedChild⟩ := formedAll.split
  have kindHolds := production.kind_holdsBlocks (by simp) (holds formedChild)
  exact ⟨production.role_holdsBlocks kindHolds, kindHolds⟩

/-- Only blocks, files and some statements open blocks. -/
theorem holdsBlocks {brace : Token} {count : Nat} (formed : Formed damaged role whole)
    (opens : whole.Opens brace count) :
    role.holdsBlocks = true ∧
      ∃ kind children, whole.IsNode kind children ∧ kind.holdsBlocks = true := by
  obtain ⟨part, rest, isBlock, within⟩ := opens
  induction within generalizing role with
  | here =>
    obtain ⟨roles, production, _⟩ := formed.production isBlock
    exact ⟨production.role_holdsBlocks rfl, _, _, isBlock, rfl⟩
  | inBlock isNode isChild _ ih | inOther isNode _ isChild _ ih =>
    obtain ⟨roleHolds, kindHolds⟩ := formed.holdsBlocks_of_child isNode isChild fun formedChild =>
      (ih formedChild).1
    exact ⟨roleHolds, _, _, isNode, kindHolds⟩

end Formed

end QueryLang
