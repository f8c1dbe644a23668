import QueryLang.Syntax.Kind

/-!
# The grammar of the source language

`Nonterminal.rule` is the grammar, written over kinds of tokens. `Phrase.Spells` says which kinds
of tokens a phrase stands for, given what its nonterminals stand for, and `Nonterminal.Derives` is
the least meaning of the nonterminals that obeys the rules.

The grammar is ambiguous. It says neither how tightly operators bind nor to which of several
nested queries a conclusion belongs.
-/

namespace QueryLang

/-- What the grammar has rules for. -/
inductive Nonterminal
  | unit
  | statement
  | block
  | expression
  | query
  | fromClause
  | bodyClause
  | selectClause
  | groupClause
  | conclusion
  | binary
  | postfixed
  | primary
  | arguments

/-- The right side of a rule, or a part of one. -/
inductive Phrase
  | token (kind : Kind)
  | of (name : Nonterminal)
  | sequence (parts : List Phrase)
  | choice (options : List Phrase)
  | repeated (part : Phrase)

namespace Phrase

/-- A part that may be left out. -/
def optional (part : Phrase) : Phrase :=
  .choice [.sequence [], part]

/-- The kinds of tokens a phrase stands for, where `names` says so of the nonterminals. -/
inductive Spells (names : Nonterminal → List Kind → Prop) : Phrase → List Kind → Prop
  | token (kind : Kind) : Spells names (.token kind) [kind]
  | of {name kinds} (named : names name kinds) : Spells names (.of name) kinds
  | nothing : Spells names (.sequence []) []
  | sequence {part parts first rest} (head : Spells names part first)
      (tail : Spells names (.sequence parts) rest) :
      Spells names (.sequence (part :: parts)) (first ++ rest)
  | choice {option options kinds} (isOption : option ∈ options)
      (spelled : Spells names option kinds) : Spells names (.choice options) kinds
  | stop {part} : Spells names (.repeated part) []
  | again {part first rest} (head : Spells names part first)
      (tail : Spells names (.repeated part) rest) : Spells names (.repeated part) (first ++ rest)

end Phrase

/-- The operators between two operands. -/
def binaryOperators : List Kind :=
  [.plusToken, .minusToken, .asteriskToken, .slashToken, .equalsEqualsToken,
    .exclamationEqualsToken, .lessThanToken, .greaterThanToken, .lessThanEqualsToken,
    .greaterThanEqualsToken, .ampersandAmpersandToken, .barBarToken]

namespace Nonterminal

/-- The rules of the grammar. A query is an expression, and it may also stand as an operand. -/
def rule : Nonterminal → Phrase
  | unit => .repeated (.of statement)
  | statement => .choice [
      .sequence [.token .varKeyword, .token .identifierToken, .token .equalsToken,
        .of expression, .token .semicolonToken],
      .sequence [.token .returnKeyword, .optional (.of expression), .token .semicolonToken],
      .sequence [.token .yieldKeyword, .token .returnKeyword, .of expression,
        .token .semicolonToken],
      .sequence [.token .yieldKeyword, .token .breakKeyword, .token .semicolonToken],
      .sequence [.token .doKeyword, .of block, .token .whileKeyword, .token .openParenToken,
        .of expression, .token .closeParenToken, .token .semicolonToken],
      .of block,
      .sequence [.of expression, .token .semicolonToken]]
  | block => .sequence [.token .openBraceToken, .repeated (.of statement), .token .closeBraceToken]
  | expression => .choice [.of query, .of binary]
  | query => .sequence [.of fromClause, .repeated (.of bodyClause),
      .choice [.of selectClause, .of groupClause], .optional (.of conclusion)]
  | fromClause => .sequence [.token .fromKeyword, .token .identifierToken, .token .inKeyword,
      .of expression]
  | bodyClause => .choice [
      .of fromClause,
      .sequence [.token .whereKeyword, .of expression],
      .sequence [.token .letKeyword, .token .identifierToken, .token .equalsToken,
        .of expression]]
  | selectClause => .sequence [.token .selectKeyword, .of expression]
  | groupClause => .sequence [.token .groupKeyword, .of expression, .token .byKeyword,
      .of expression]
  | conclusion => .sequence [.token .yieldKeyword, .token .intoKeyword, .token .identifierToken,
      .token .doKeyword, .of expression]
  | binary => .sequence [.of postfixed,
      .repeated (.sequence [.choice (binaryOperators.map .token), .of postfixed])]
  | postfixed => .sequence [.of primary, .repeated (.choice [
      .sequence [.token .dotToken, .token .identifierToken],
      .sequence [.token .openParenToken, .of arguments, .token .closeParenToken]])]
  | primary => .choice [
      .token .identifierToken, .token .numericLiteralToken, .token .stringLiteralToken,
      .token .trueKeyword, .token .falseKeyword,
      .sequence [.token .openParenToken, .of expression, .token .closeParenToken],
      .of query]
  | arguments => .optional (.sequence [.of expression,
      .repeated (.sequence [.token .commaToken, .of expression])])

/-- The kinds of tokens that can be derived from a nonterminal. -/
inductive Derives : Nonterminal → List Kind → Prop
  | rule {name kinds} (spelled : name.rule.Spells Derives kinds) : Derives name kinds

end Nonterminal

namespace Phrase

variable {names : Nonterminal → List Kind → Prop} {part : Phrase} {parts others : List Phrase}
  {first rest kinds : List Kind}

@[simp]
theorem spells_token_iff {kind : Kind} : Spells names (.token kind) kinds ↔ kinds = [kind] := by
  constructor
  · rintro ⟨⟩
    rfl
  · rintro rfl
    exact .token kind

@[simp]
theorem spells_of_iff {name : Nonterminal} :
    Spells names (.of name) kinds ↔ names name kinds := by
  constructor
  · rintro ⟨⟩
    assumption
  · exact .of

@[simp]
theorem spells_nil_iff : Spells names (.sequence []) kinds ↔ kinds = [] := by
  constructor
  · rintro ⟨⟩
    rfl
  · rintro rfl
    exact .nothing

@[simp]
theorem spells_cons_iff : Spells names (.sequence (part :: parts)) kinds ↔
    ∃ first rest, kinds = first ++ rest ∧ Spells names part first ∧
      Spells names (.sequence parts) rest := by
  constructor
  · rintro (_ | _ | _ | ⟨head, tail⟩)
    exact ⟨_, _, rfl, head, tail⟩
  · rintro ⟨first, rest, rfl, head, tail⟩
    exact .sequence head tail

@[simp]
theorem spells_singleton_iff :
    Spells names (.sequence [part]) kinds ↔ Spells names part kinds := by
  simp

theorem spells_pair_iff {last : Phrase} : Spells names (.sequence [part, last]) kinds ↔
    ∃ first rest, kinds = first ++ rest ∧ Spells names part first ∧ Spells names last rest := by
  simp

@[simp]
theorem spells_choice_iff {options : List Phrase} :
    Spells names (.choice options) kinds ↔ ∃ option ∈ options, Spells names option kinds := by
  constructor
  · rintro (_ | _ | _ | _ | ⟨isOption, spelled⟩)
    exact ⟨_, isOption, spelled⟩
  · rintro ⟨option, isOption, spelled⟩
    exact .choice isOption spelled

@[simp]
theorem spells_optional_iff :
    Spells names (.optional part) kinds ↔ kinds = [] ∨ Spells names part kinds := by
  simp [optional]

namespace Spells

theorem singleton (spelled : Spells names part kinds) :
    Spells names (.sequence [part]) kinds := by
  have alone := sequence spelled .nothing
  rwa [List.append_nil] at alone

theorem pair {last : Phrase} (head : Spells names part first) (tail : Spells names last rest) :
    Spells names (.sequence [part, last]) (first ++ rest) :=
  .sequence head tail.singleton

theorem left_out : Spells names (.optional part) [] :=
  .choice (by simp) .nothing

theorem given (spelled : Spells names part kinds) : Spells names (.optional part) kinds :=
  .choice (by simp) spelled

/-- A chain may have no links. -/
theorem start {link : Phrase} (head : Spells names part kinds) :
    Spells names (.sequence [part, .repeated link]) kinds := by
  have alone := pair head (stop : Spells names (.repeated link) [])
  rwa [List.append_nil] at alone

theorem append (left : Spells names (.sequence parts) first)
    (right : Spells names (.sequence others) rest) :
    Spells names (.sequence (parts ++ others)) (first ++ rest) := by
  induction parts generalizing first with
  | nil =>
      rw [spells_nil_iff] at left
      subst left
      exact right
  | cons part parts ih =>
      rcases spells_cons_iff.mp left with ⟨start, middle, rfl, head, tail⟩
      rw [List.append_assoc]
      exact .sequence head (ih tail)

theorem split (spelled : Spells names (.sequence (parts ++ others)) kinds) :
    ∃ first rest, kinds = first ++ rest ∧ Spells names (.sequence parts) first ∧
      Spells names (.sequence others) rest := by
  induction parts generalizing kinds with
  | nil => exact ⟨[], kinds, rfl, .nothing, spelled⟩
  | cons part parts ih =>
      rcases spells_cons_iff.mp spelled with ⟨start, others, rfl, head, tail⟩
      rcases ih tail with ⟨middle, rest, rfl, left, right⟩
      exact ⟨start ++ middle, rest, by simp, .sequence head left, right⟩

/-- What holds of no repetition, and is kept by one more, holds of all repetitions. -/
theorem repeated_induction {motive : List Kind → Prop}
    (spelled : Spells names (.repeated part) kinds) (stop : motive [])
    (again : ∀ first rest, Spells names part first → motive rest → motive (first ++ rest)) :
    motive kinds := by
  generalize isRepeated : Phrase.repeated part = phrase at spelled
  induction spelled with
  | stop => exact stop
  | again head tail _ ih =>
      cases isRepeated
      exact again _ _ head (ih rfl)
  | _ => cases isRepeated

theorem repeated_append (left : Spells names (.repeated part) first)
    (right : Spells names (.repeated part) rest) :
    Spells names (.repeated part) (first ++ rest) := by
  refine repeated_induction (motive := fun start => Spells names (.repeated part) (start ++ rest))
    left right ?_
  intro start others head tail
  rw [List.append_assoc]
  exact .again head tail

theorem once (spelled : Spells names part kinds) : Spells names (.repeated part) kinds := by
  have again := Spells.again spelled .stop
  rwa [List.append_nil] at again

/-- A sequence of the same part is a repetition of it. -/
theorem repeated (same : ∀ other ∈ parts, other = part)
    (spelled : Spells names (.sequence parts) kinds) : Spells names (.repeated part) kinds := by
  induction parts generalizing kinds with
  | nil =>
      rw [spells_nil_iff] at spelled
      subst spelled
      exact .stop
  | cons other parts ih =>
      rcases spells_cons_iff.mp spelled with ⟨first, rest, rfl, head, tail⟩
      have isPart : other = part := same other (by simp)
      subst isPart
      exact .again head (ih (fun other member => same other (by simp [member])) tail)

end Spells

end Phrase

mutual

/-- The derived meaning of the nonterminals is the least one that obeys the rules. -/
theorem Nonterminal.Derives.least {meaning : Nonterminal → List Kind → Prop}
    (obeys : ∀ name kinds, name.rule.Spells meaning kinds → meaning name kinds)
    {name : Nonterminal} {kinds : List Kind} (derives : name.Derives kinds) :
    meaning name kinds :=
  match derives with
  | .rule spelled => obeys name kinds (Phrase.Spells.least obeys spelled)

theorem Phrase.Spells.least {meaning : Nonterminal → List Kind → Prop}
    (obeys : ∀ name kinds, name.rule.Spells meaning kinds → meaning name kinds)
    {phrase : Phrase} {kinds : List Kind} (spelled : phrase.Spells Nonterminal.Derives kinds) :
    phrase.Spells meaning kinds :=
  match spelled with
  | .token kind => .token kind
  | .of derives => .of (Nonterminal.Derives.least obeys derives)
  | .nothing => .nothing
  | .sequence head tail =>
      .sequence (Phrase.Spells.least obeys head) (Phrase.Spells.least obeys tail)
  | .choice isOption spelled => .choice isOption (Phrase.Spells.least obeys spelled)
  | .stop => .stop
  | .again head tail =>
      .again (Phrase.Spells.least obeys head) (Phrase.Spells.least obeys tail)

end

end QueryLang
