import QueryLang.Proofs.Syntax.Grammar
import QueryLang.Proofs.Syntax.Shape

/-!
# Trees as derivations

Every role is a phrase of the grammar, and every production of trees follows from its rules. So
the tokens of a formed piece of source can be derived, as long as the piece is not damaged: a
damaged one has tokens that the grammar does not know of.

Trees nest operators to the left or to the right, where the grammar has a chain of them.
-/

namespace QueryLang

open Phrase (Spells)
open Nonterminal (Derives)

/-- The phrase that a piece of source in a role is. -/
def Role.phrase : Role → Phrase
  | .leaf kind => .token kind
  | .name => .token .identifierToken
  | .primary => .of .primary
  | .operand => .of .postfixed
  | .expression => .of .expression
  | .arguments => .sequence [.token .openParenToken, .of .arguments, .token .closeParenToken]
  | .fromClause => .of .fromClause
  | .clause => .of .bodyClause
  | .ending => .choice [.of .selectClause, .of .groupClause]
  | .conclusion => .of .conclusion
  | .queryBody => .sequence [.repeated (.of .bodyClause),
      .choice [.of .selectClause, .of .groupClause], .optional (.of .conclusion)]
  | .block => .of .block
  | .statement => .of .statement
  | .file => .sequence [.of .unit, .token .endOfFileToken]

theorem mem_binaryOperators {kind : Kind} {precedence : Nat}
    (binds : kind.binaryPrecedence? = some precedence) : kind ∈ binaryOperators := by
  have isSome : kind.binaryPrecedence?.isSome = true := by simp [binds]
  revert isSome
  cases kind <;> decide

namespace Nonterminal.Derives

variable {kinds first rest : List Kind}

theorem postfixed_of_primary (primary : Derives .primary kinds) : Derives .postfixed kinds :=
  .rule (.start (.of primary))

theorem binary_of_postfixed (postfixed : Derives .postfixed kinds) : Derives .binary kinds :=
  .rule (.start (.of postfixed))

theorem expression_of_binary (binary : Derives .binary kinds) : Derives .expression kinds :=
  .rule (.choice (by simp) (.of binary))

/-- A query is an operand too, so every expression is a chain of operators. -/
theorem binary_of_expression (expression : Derives .expression kinds) : Derives .binary kinds := by
  rcases expression with ⟨spelled⟩
  rw [Nonterminal.rule, Phrase.spells_choice_iff] at spelled
  simp only [List.mem_cons, List.not_mem_nil, or_false] at spelled
  rcases spelled with ⟨option, rfl | rfl, spelled⟩
  · exact binary_of_postfixed (postfixed_of_primary (.rule (.choice (by simp) spelled)))
  · exact Phrase.spells_of_iff.mp spelled

/-- What follows an operand directly makes it a larger operand. -/
theorem postfixed_append (operand : Derives .postfixed first)
    (suffix : Spells Derives (.choice [.sequence [.token .dotToken, .token .identifierToken],
      .sequence [.token .openParenToken, .of .arguments, .token .closeParenToken]]) rest) :
    Derives .postfixed (first ++ rest) := by
  rcases operand with ⟨spelled⟩
  rcases Phrase.spells_pair_iff.mp spelled with ⟨primary, suffixes, rfl, head, tail⟩
  rw [List.append_assoc]
  exact .rule (.pair head (tail.repeated_append (.once suffix)))

/-- An operator joins two chains of operands to one. -/
theorem binary_append {operator : Kind} (left : Derives .binary first)
    (isOperator : operator ∈ binaryOperators) (right : Derives .binary rest) :
    Derives .binary (first ++ operator :: rest) := by
  rcases left with ⟨leftSpelled⟩
  rcases right with ⟨rightSpelled⟩
  rcases Phrase.spells_pair_iff.mp leftSpelled with ⟨operand, links, rfl, head, tail⟩
  rcases Phrase.spells_pair_iff.mp rightSpelled with ⟨next, more, rfl, nextHead, nextTail⟩
  have joins : Spells Derives (.choice (binaryOperators.map .token)) [operator] :=
    .choice (List.mem_map_of_mem isOperator) (.token operator)
  have chain := tail.repeated_append (.again (.pair joins nextHead) nextTail)
  simp only [List.append_assoc, List.cons_append] at chain ⊢
  exact .rule (.pair head chain)

end Nonterminal.Derives

/-- Arguments after the first are a repetition. -/
theorem spells_furtherArguments {count : Nat} {kinds : List Kind}
    (spelled : Spells Derives
      (.sequence (((List.replicate count Role.furtherArgument).flatten).map Role.phrase)) kinds) :
    Spells Derives (.repeated (.sequence [.token .commaToken, .of .expression])) kinds := by
  induction count generalizing kinds with
  | zero =>
      rw [List.replicate_zero, List.flatten_nil, List.map_nil, Phrase.spells_nil_iff] at spelled
      subst spelled
      exact .stop
  | succ count ih =>
      rw [List.replicate_succ, List.flatten_cons, List.map_append] at spelled
      rcases spelled.split with ⟨argument, others, rfl, head, tail⟩
      exact .again head (ih tail)

/-- Clauses in the middle of a query are a repetition. -/
theorem spells_clauses {count : Nat} {kinds : List Kind}
    (spelled : Spells Derives (.sequence ((List.replicate count Role.clause).map Role.phrase))
      kinds) : Spells Derives (.repeated (.of .bodyClause)) kinds := by
  refine spelled.repeated ?_
  rw [List.map_replicate]
  intro phrase member
  exact List.eq_of_mem_replicate member

/-- What stands between braces is a repetition of statements, unless tokens were skipped. -/
theorem spells_content {content : List Role} {kinds : List Kind}
    (allowed : ∀ role ∈ content, role.IsContent False)
    (spelled : Spells Derives (.sequence (content.map Role.phrase)) kinds) :
    Spells Derives (.repeated (.of .statement)) kinds := by
  refine spelled.repeated ?_
  intro phrase member
  rcases List.mem_map.mp member with ⟨role, isContent, rfl⟩
  rcases allowed role isContent with rfl | ⟨impossible, _⟩
  · rfl
  · exact impossible.elim

/-- Each production of undamaged trees follows from the rules of the grammar. -/
theorem Production.derives {role : Role} {kind : Kind} {roles : List Role}
    (production : Production False role kind roles) {kinds : List Kind}
    (spelled : Spells Derives (.sequence (roles.map Role.phrase)) kinds) :
    Spells Derives role.phrase kinds := by
  induction production with
  | name => exact Phrase.spells_singleton_iff.mp spelled
  | ofName _ ih => exact .of (.rule (.choice (by simp [Role.phrase]) (ih spelled)))
  | @literal kind token isLiteral =>
      refine .of (.rule (.choice ?_ (Phrase.spells_singleton_iff.mp spelled)))
      cases kind <;> cases isLiteral <;> simp [Role.phrase]
  | parenthesized => exact .of (.rule (.choice (by simp [Role.phrase]) spelled))
  | query =>
      rcases Phrase.spells_pair_iff.mp spelled with ⟨first, body, rfl, head, tail⟩
      have query : Derives .query (first ++ body) := .rule (.sequence head tail)
      exact .of (.rule (.choice (by simp) (.of query)))
  | ofPrimary _ ih =>
      exact .of (Phrase.spells_of_iff.mp (ih spelled)).postfixed_of_primary
  | memberAccess =>
      rcases Phrase.spells_cons_iff.mp spelled with ⟨operand, member, rfl, head, tail⟩
      exact .of ((Phrase.spells_of_iff.mp head).postfixed_append
        (.choice (by simp [Role.phrase]) tail))
  | invocation =>
      rcases Phrase.spells_pair_iff.mp spelled with ⟨operand, arguments, rfl, head, tail⟩
      exact .of ((Phrase.spells_of_iff.mp head).postfixed_append
        (.choice (by simp [Role.phrase]) tail))
  | noArguments =>
      have none : Spells Derives (.of .arguments) [] := .of (.rule .left_out)
      rcases Phrase.spells_pair_iff.mp spelled with ⟨openParen, closeParen, rfl, head, tail⟩
      exact .sequence head (.pair none tail)
  | someArguments count =>
      rcases Phrase.spells_cons_iff.mp spelled with ⟨openParen, others, rfl, head, tail⟩
      rcases Phrase.spells_cons_iff.mp tail with ⟨first, others, rfl, argument, tail⟩
      rw [List.map_append] at tail
      rcases tail.split with ⟨more, closeParen, rfl, further, close⟩
      have all : Spells Derives (.of .arguments) (first ++ more) :=
        .of (.rule (.given (.pair argument (spells_furtherArguments further))))
      rw [← List.append_assoc first]
      exact .sequence head (.sequence all close)
  | ofOperand _ ih =>
      exact .of (Phrase.spells_of_iff.mp (ih spelled)).binary_of_postfixed.expression_of_binary
  | binary binds =>
      rcases Phrase.spells_cons_iff.mp spelled with ⟨left, others, rfl, head, tail⟩
      rcases Phrase.spells_pair_iff.mp tail with ⟨operator, right, rfl, joins, last⟩
      rw [Role.phrase, Phrase.spells_token_iff] at joins
      subst joins
      have leftChain := (Phrase.spells_of_iff.mp head).binary_of_expression
      have rightChain := (Phrase.spells_of_iff.mp last).binary_of_expression
      exact .of (leftChain.binary_append (mem_binaryOperators binds)
        rightChain).expression_of_binary
  | fromClause | conclusion => exact .of (.rule spelled)
  | ofFromClause _ ih | ofBlock _ ih =>
      exact .of (.rule (.choice (by simp [Role.phrase]) (ih spelled)))
  | whereClause | letClause | localDeclaration | yieldReturn | yieldBreak | doStatement
  | expressionStatement =>
      exact .of (.rule (.choice (by simp [Role.phrase]) spelled))
  | selectClause =>
      have derives : Derives .selectClause kinds := .rule spelled
      exact .choice (by simp) (.of derives)
  | groupClause =>
      have derives : Derives .groupClause kinds := .rule spelled
      exact .choice (by simp) (.of derives)
  | queryBody count =>
      rw [List.map_append] at spelled
      rcases spelled.split with ⟨clauses, ending, rfl, before, last⟩
      have unconcluded : Spells Derives (.sequence [Role.ending.phrase,
          .optional (.of .conclusion)]) (ending ++ []) :=
        .pair (Phrase.spells_singleton_iff.mp last) .left_out
      rw [List.append_nil] at unconcluded
      exact .sequence (spells_clauses before) unconcluded
  | concludedBody count =>
      rw [List.map_append] at spelled
      rcases spelled.split with ⟨clauses, others, rfl, before, last⟩
      rcases Phrase.spells_pair_iff.mp last with ⟨ending, conclusion, rfl, ends, concludes⟩
      exact .sequence (spells_clauses before) (.pair ends concludes.given)
  | block allowed =>
      rcases Phrase.spells_cons_iff.mp spelled with ⟨openBrace, others, rfl, opens, tail⟩
      rw [List.map_append] at tail
      rcases tail.split with ⟨content, closeBrace, rfl, statements, closes⟩
      exact .of (.rule (.sequence opens (.sequence (spells_content allowed statements) closes)))
  | returnNothing =>
      rcases Phrase.spells_pair_iff.mp spelled with ⟨keyword, semicolon, rfl, head, tail⟩
      have value : Spells Derives (.optional (.of .expression)) [] := .left_out
      exact .of (.rule (.choice (by simp [Role.phrase]) (.sequence head (.pair value tail))))
  | returnValue =>
      rcases Phrase.spells_cons_iff.mp spelled with ⟨keyword, others, rfl, head, tail⟩
      rcases Phrase.spells_pair_iff.mp tail with ⟨value, semicolon, rfl, expression, last⟩
      exact .of (.rule (.choice (by simp [Role.phrase])
        (.sequence head (.pair expression.given last))))
  | file allowed =>
      rw [List.map_append] at spelled
      rcases spelled.split with ⟨content, endOfFile, rfl, statements, atEnd⟩
      exact .sequence (.of (.rule (spells_content allowed statements))) atEnd

mutual

/-- The tokens of an undamaged piece of source can be derived. -/
theorem Formed.derives {role : Role} {tree : ParseTree} (formed : Formed False role tree) :
    Spells Derives role.phrase (tree.tokens.map Token.kind) :=
  match formed with
  | .token token => .token token.kind
  | .missing _ isDamaged => isDamaged.elim
  | .node production formed => production.derives (FormedAll.derives formed)
  | .wrapped production formed => production.derives (FormedAll.derives formed)

theorem FormedAll.derives {roles : List Role} {trees : List ParseTree}
    (formed : FormedAll False roles trees) :
    Spells Derives (.sequence (roles.map Role.phrase))
      ((ParseTree.tokensOfAll trees).map Token.kind) :=
  match formed with
  | .nil => .nothing
  | .cons head tail => by
      rw [ParseTree.tokensOfAll, List.map_append]
      exact .sequence (Formed.derives head) (FormedAll.derives tail)

end

end QueryLang
