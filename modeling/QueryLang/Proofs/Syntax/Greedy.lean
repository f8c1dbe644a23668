import QueryLang.Proofs.Syntax.Grammar

/-!
# Reading the grammar greedily

Where queries nest, a conclusion may belong to any of those that it follows. A greedy reader gives
it to the innermost one, so all it has to know is how many queries may still take a conclusion.
The readings here carry that number: `Expression opened kinds final` reads an expression inside
`opened` such queries and leaves `final` of them. Each reading follows from its first kinds.

Whatever the grammar derives can be read so. The reason is that a reading may be put inside more
queries, and that it may be continued by whatever follows with the number it leaves.
-/

namespace QueryLang

namespace Greedy

/-- The kinds of tokens that are operands on their own. -/
def atoms : List Kind :=
  [.identifierToken, .numericLiteralToken, .stringLiteralToken, .trueKeyword, .falseKeyword]

mutual

/-- An expression, together with what greedily belongs to it. -/
inductive Expression : (opened : Nat) → List Kind → (final : Nat) → Prop
  | atom {opened final kind rest} (isAtom : kind ∈ atoms) (tail : Tail opened rest final) :
      Expression opened (kind :: rest) final
  | parenthesized {opened final inside content rest} (expression : Expression 0 content inside)
      (tail : Tail opened rest final) :
      Expression opened (.openParenToken :: (content ++ .closeParenToken :: rest)) final
  | query {opened final inside source rest} (expression : Expression 0 source inside)
      (body : Body opened rest final) :
      Expression opened (.fromKeyword :: .identifierToken :: .inKeyword :: (source ++ rest)) final

/-- What follows an operand. -/
inductive Tail : (opened : Nat) → List Kind → (final : Nat) → Prop
  | nil {opened} : Tail opened [] opened
  | member {opened final rest} (tail : Tail opened rest final) :
      Tail opened (.dotToken :: .identifierToken :: rest) final
  | call {opened final content rest} (given : Arguments content) (tail : Tail opened rest final) :
      Tail opened (.openParenToken :: (content ++ .closeParenToken :: rest)) final
  | operator {opened final operator rest} (isOperator : operator ∈ binaryOperators)
      (operand : Expression opened rest final) : Tail opened (operator :: rest) final
  | conclusion {opened final rest} (body : Expression opened rest final) :
      Tail (opened + 1)
        (.yieldKeyword :: .intoKeyword :: .identifierToken :: .doKeyword :: rest) final

/-- The clauses of a query after the first. The query may take a conclusion after them. -/
inductive Body : (opened : Nat) → List Kind → (final : Nat) → Prop
  | fromClause {opened final inside source rest} (expression : Expression 0 source inside)
      (body : Body opened rest final) :
      Body opened (.fromKeyword :: .identifierToken :: .inKeyword :: (source ++ rest)) final
  | whereClause {opened final inside condition rest} (expression : Expression 0 condition inside)
      (body : Body opened rest final) :
      Body opened (.whereKeyword :: (condition ++ rest)) final
  | letClause {opened final inside value rest} (expression : Expression 0 value inside)
      (body : Body opened rest final) :
      Body opened (.letKeyword :: .identifierToken :: .equalsToken :: (value ++ rest)) final
  | selectClause {opened final rest} (value : Expression (opened + 1) rest final) :
      Body opened (.selectKeyword :: rest) final
  | groupClause {opened final inside element rest} (expression : Expression 0 element inside)
      (key : Expression (opened + 1) rest final) :
      Body opened (.groupKeyword :: (element ++ .byKeyword :: rest)) final

/-- What stands between the parentheses of a call. -/
inductive Arguments : List Kind → Prop
  | none : Arguments []
  | some {inside first rest} (expression : Expression 0 first inside)
      (others : FurtherArguments rest) : Arguments (first ++ rest)

/-- Arguments after the first, with the commas before them. -/
inductive FurtherArguments : List Kind → Prop
  | none : FurtherArguments []
  | more {inside argument rest} (expression : Expression 0 argument inside)
      (others : FurtherArguments rest) : FurtherArguments (.commaToken :: (argument ++ rest))

end

mutual

/-- A statement. -/
inductive Statement : List Kind → Prop
  | declaration {inside value} (expression : Expression 0 value inside) :
      Statement
        (.varKeyword :: .identifierToken :: .equalsToken :: (value ++ [.semicolonToken]))
  | returnNothing : Statement [.returnKeyword, .semicolonToken]
  | returnValue {inside value} (expression : Expression 0 value inside) :
      Statement (.returnKeyword :: (value ++ [.semicolonToken]))
  | yieldReturn {inside value} (expression : Expression 0 value inside) :
      Statement (.yieldKeyword :: .returnKeyword :: (value ++ [.semicolonToken]))
  | yieldBreak : Statement [.yieldKeyword, .breakKeyword, .semicolonToken]
  | doStatement {inside body condition} (block : Block body)
      (expression : Expression 0 condition inside) :
      Statement (.doKeyword :: (body ++ .whileKeyword :: .openParenToken ::
        (condition ++ [.closeParenToken, .semicolonToken])))
  | block {body} (block : Block body) : Statement body
  | expression {inside value} (expression : Expression 0 value inside) :
      Statement (value ++ [.semicolonToken])

/-- A block. -/
inductive Block : List Kind → Prop
  | braces {content} (statements : Statements content) :
      Block (.openBraceToken :: (content ++ [.closeBraceToken]))

/-- Statements, one after the other. -/
inductive Statements : List Kind → Prop
  | none : Statements []
  | more {first rest} (statement : Statement first) (others : Statements rest) :
      Statements (first ++ rest)

end

mutual

/-- A reading may be put inside more queries, which it leaves untouched. -/
theorem Expression.shift {opened final : Nat} {kinds : List Kind} (more : Nat)
    (reading : Expression opened kinds final) :
    Expression (opened + more) kinds (final + more) :=
  match reading with
  | .atom isAtom tail => .atom isAtom (Tail.shift more tail)
  | .parenthesized expression tail => .parenthesized expression (Tail.shift more tail)
  | .query expression body => .query expression (Body.shift more body)

theorem Tail.shift {opened final : Nat} {kinds : List Kind} (more : Nat)
    (reading : Tail opened kinds final) : Tail (opened + more) kinds (final + more) :=
  match reading with
  | .nil => .nil
  | .member tail => .member (Tail.shift more tail)
  | .call given tail => .call given (Tail.shift more tail)
  | .operator isOperator operand => .operator isOperator (Expression.shift more operand)
  | .conclusion body => by
      rw [Nat.add_right_comm]
      exact .conclusion (Expression.shift more body)

theorem Body.shift {opened final : Nat} {kinds : List Kind} (more : Nat)
    (reading : Body opened kinds final) : Body (opened + more) kinds (final + more) :=
  match reading with
  | .fromClause expression body => .fromClause expression (Body.shift more body)
  | .whereClause expression body => .whereClause expression (Body.shift more body)
  | .letClause expression body => .letClause expression (Body.shift more body)
  | .selectClause value => by
      have shifted := Expression.shift more value
      rw [Nat.add_right_comm] at shifted
      exact .selectClause shifted
  | .groupClause expression key => by
      have shifted := Expression.shift more key
      rw [Nat.add_right_comm] at shifted
      exact .groupClause expression shifted

end

mutual

/-- A reading may be continued by what follows an operand. -/
theorem Expression.append {opened middle final : Nat} {kinds rest : List Kind}
    (reading : Expression opened kinds middle) (continued : Tail middle rest final) :
    Expression opened (kinds ++ rest) final :=
  match reading with
  | .atom isAtom tail => .atom isAtom (Tail.append tail continued)
  | .parenthesized expression tail => by
      rw [List.cons_append, List.append_assoc]
      exact .parenthesized expression (Tail.append tail continued)
  | .query expression body => by
      simp only [List.cons_append, List.append_assoc]
      exact .query expression (Body.append body continued)

theorem Tail.append {opened middle final : Nat} {kinds rest : List Kind}
    (reading : Tail opened kinds middle) (continued : Tail middle rest final) :
    Tail opened (kinds ++ rest) final :=
  match reading with
  | .nil => continued
  | .member tail => .member (Tail.append tail continued)
  | .call given tail => by
      rw [List.cons_append, List.append_assoc]
      exact .call given (Tail.append tail continued)
  | .operator isOperator operand => .operator isOperator (Expression.append operand continued)
  | .conclusion body => .conclusion (Expression.append body continued)

theorem Body.append {opened middle final : Nat} {kinds rest : List Kind}
    (reading : Body opened kinds middle) (continued : Tail middle rest final) :
    Body opened (kinds ++ rest) final :=
  match reading with
  | .fromClause expression body => by
      simp only [List.cons_append, List.append_assoc]
      exact .fromClause expression (Body.append body continued)
  | .whereClause expression body => by
      rw [List.cons_append, List.append_assoc]
      exact .whereClause expression (Body.append body continued)
  | .letClause expression body => by
      simp only [List.cons_append, List.append_assoc]
      exact .letClause expression (Body.append body continued)
  | .selectClause value => .selectClause (Expression.append value continued)
  | .groupClause expression key => by
      rw [List.cons_append, List.append_assoc]
      exact .groupClause expression (Expression.append key continued)

end

/-- A reading outside of queries may be put inside some. -/
theorem Expression.inside {final : Nat} {kinds : List Kind} (opened : Nat)
    (reading : Expression 0 kinds final) : Expression opened kinds (final + opened) := by
  simpa using reading.shift opened

/-- What a greedy reader takes the kinds derived from a nonterminal for. -/
def Reads : Nonterminal → List Kind → Prop
  | .unit, kinds => Statements kinds
  | .statement, kinds => Statement kinds
  | .block, kinds => Block kinds
  | .expression, kinds | .query, kinds | .binary, kinds | .postfixed, kinds | .primary, kinds =>
    ∃ final, Expression 0 kinds final
  | .fromClause, kinds =>
    ∃ source inside, kinds = .fromKeyword :: .identifierToken :: .inKeyword :: source ∧
      Expression 0 source inside
  | .bodyClause, kinds =>
    ∀ opened rest final, Body opened rest final → Body opened (kinds ++ rest) final
  | .selectClause, kinds | .groupClause, kinds => ∃ final, Body 0 kinds (final + 1)
  | .conclusion, kinds => ∀ opened, ∃ final, Tail (opened + 1) kinds final
  | .arguments, kinds => Arguments kinds

variable {kinds : List Kind}

theorem reads_statements (spelled : Phrase.Spells Reads (.repeated (.of .statement)) kinds) :
    Statements kinds := by
  refine spelled.repeated_induction .none ?_
  intro first rest head others
  exact .more (Phrase.spells_of_iff.mp head) others

theorem reads_clauses {opened final : Nat} {rest : List Kind}
    (spelled : Phrase.Spells Reads (.repeated (.of .bodyClause)) kinds)
    (body : Body opened rest final) : Body opened (kinds ++ rest) final := by
  refine Phrase.Spells.repeated_induction
    (motive := fun clauses => Body opened (clauses ++ rest) final) spelled body ?_
  intro first others head continued
  rw [List.append_assoc]
  exact Phrase.spells_of_iff.mp head _ _ _ continued

theorem reads_furtherArguments (spelled : Phrase.Spells Reads
    (.repeated (.sequence [.token .commaToken, .of .expression])) kinds) :
    FurtherArguments kinds := by
  refine spelled.repeated_induction .none ?_
  intro first rest head others
  simp only [Phrase.spells_pair_iff, Phrase.spells_token_iff, Phrase.spells_of_iff] at head
  rcases head with ⟨_, argument, rfl, rfl, inside, expression⟩
  simp only [List.cons_append, List.nil_append]
  exact .more expression others

/-- Member names and calls leave the number of queries as it is. -/
theorem reads_suffixes (opened : Nat) (spelled : Phrase.Spells Reads (.repeated (.choice
      [.sequence [.token .dotToken, .token .identifierToken],
      .sequence [.token .openParenToken, .of .arguments, .token .closeParenToken]])) kinds) :
    Tail opened kinds opened := by
  refine Phrase.Spells.repeated_induction (motive := fun suffixes => Tail opened suffixes opened)
    spelled .nil ?_
  intro first rest head tail
  simp only [Phrase.spells_choice_iff, List.mem_cons, List.not_mem_nil, or_false] at head
  rcases head with ⟨option, rfl | rfl, suffix⟩
  · simp only [Phrase.spells_pair_iff, Phrase.spells_token_iff] at suffix
    rcases suffix with ⟨_, _, rfl, rfl, rfl⟩
    exact .member tail
  · simp only [Phrase.spells_cons_iff, Phrase.spells_nil_iff, Phrase.spells_token_iff,
      Phrase.spells_of_iff] at suffix
    rcases suffix with ⟨_, _, rfl, rfl, content, _, rfl, given, _, _, rfl, rfl, rfl⟩
    simp only [List.append_nil, List.append_assoc, List.cons_append, List.nil_append]
    exact .call given tail

/-- A chain of operators may be read inside any number of queries. Each operand may leave more of
them than it was put in. -/
theorem reads_links (spelled : Phrase.Spells Reads (.repeated
      (.sequence [.choice (binaryOperators.map .token), .of .postfixed])) kinds) :
    ∀ opened, ∃ final, Tail opened kinds final := by
  refine Phrase.Spells.repeated_induction
    (motive := fun links => ∀ opened, ∃ final, Tail opened links final)
    spelled (fun opened => ⟨opened, .nil⟩) ?_
  intro first rest head tail opened
  rcases Phrase.spells_pair_iff.mp head with ⟨_, operand, rfl, joins, isOperand⟩
  rcases Phrase.spells_choice_iff.mp joins with ⟨option, isOption, joins⟩
  rcases List.mem_map.mp isOption with ⟨operator, isOperator, rfl⟩
  rw [Phrase.spells_token_iff] at joins
  subst joins
  rcases Phrase.spells_of_iff.mp isOperand with ⟨inside, expression⟩
  rcases tail (inside + opened) with ⟨final, continued⟩
  exact ⟨final, .operator isOperator ((expression.inside opened).append continued)⟩

theorem reads_statement (spelled : Nonterminal.statement.rule.Spells Reads kinds) :
    Statement kinds := by
  rw [Nonterminal.rule, Phrase.spells_choice_iff] at spelled
  simp only [List.mem_cons, List.not_mem_nil, or_false] at spelled
  rcases spelled with ⟨option, isOption, spelled⟩
  rcases isOption with rfl | rfl | rfl | rfl | rfl | rfl | rfl
  all_goals
    simp only [Phrase.spells_cons_iff, Phrase.spells_nil_iff, Phrase.spells_token_iff,
      Phrase.spells_of_iff, Phrase.spells_optional_iff] at spelled
  · rcases spelled with ⟨_, _, rfl, rfl, _, _, rfl, rfl, _, _, rfl, rfl, value, _, rfl,
      ⟨inside, expression⟩, _, _, rfl, rfl, rfl⟩
    exact .declaration expression
  · rcases spelled with ⟨_, _, rfl, rfl, value, _, rfl, rfl | ⟨inside, expression⟩, _, _, rfl, rfl,
      rfl⟩
    · exact .returnNothing
    · exact .returnValue expression
  · rcases spelled with ⟨_, _, rfl, rfl, _, _, rfl, rfl, value, _, rfl, ⟨inside, expression⟩,
      _, _, rfl, rfl, rfl⟩
    exact .yieldReturn expression
  · rcases spelled with ⟨_, _, rfl, rfl, _, _, rfl, rfl, _, _, rfl, rfl, rfl⟩
    exact .yieldBreak
  · rcases spelled with ⟨_, _, rfl, rfl, body, _, rfl, block, _, _, rfl, rfl, _, _, rfl, rfl,
      condition, _, rfl, ⟨inside, expression⟩, _, _, rfl, rfl, _, _, rfl, rfl, rfl⟩
    exact .doStatement block expression
  · exact .block spelled
  · rcases spelled with ⟨value, _, rfl, ⟨inside, expression⟩, _, _, rfl, rfl, rfl⟩
    exact .expression expression

theorem reads_bodyClause (spelled : Nonterminal.bodyClause.rule.Spells Reads kinds)
    {opened final : Nat} {rest : List Kind} (body : Body opened rest final) :
    Body opened (kinds ++ rest) final := by
  rw [Nonterminal.rule, Phrase.spells_choice_iff] at spelled
  simp only [List.mem_cons, List.not_mem_nil, or_false] at spelled
  rcases spelled with ⟨option, rfl | rfl | rfl, spelled⟩
  · rcases Phrase.spells_of_iff.mp spelled with ⟨source, inside, rfl, expression⟩
    exact .fromClause expression body
  · simp only [Phrase.spells_pair_iff, Phrase.spells_token_iff, Phrase.spells_of_iff] at spelled
    rcases spelled with ⟨_, condition, rfl, rfl, inside, expression⟩
    exact .whereClause expression body
  · simp only [Phrase.spells_cons_iff, Phrase.spells_nil_iff, Phrase.spells_token_iff,
      Phrase.spells_of_iff] at spelled
    rcases spelled with ⟨_, _, rfl, rfl, _, _, rfl, rfl, _, _, rfl, rfl, value, _, rfl,
      ⟨inside, expression⟩, rfl⟩
    rw [List.append_nil]
    exact .letClause expression body

/-- The query may take a conclusion, whether there is one or not. -/
theorem reads_query (spelled : Nonterminal.query.rule.Spells Reads kinds) :
    ∃ final, Expression 0 kinds final := by
  simp only [Nonterminal.rule, Phrase.spells_cons_iff, Phrase.spells_nil_iff,
    Phrase.spells_of_iff, Phrase.spells_optional_iff] at spelled
  rcases spelled with ⟨_, _, rfl, ⟨source, inside, rfl, expression⟩, clauses, _, rfl, isClauses,
    ending, _, rfl, isEnding, conclusion, _, rfl, isConclusion, rfl⟩
  have body : ∃ final, Body 0 ending (final + 1) := by
    simp only [Phrase.spells_choice_iff, List.mem_cons, List.not_mem_nil, or_false] at isEnding
    rcases isEnding with ⟨option, rfl | rfl, isEnding⟩
    · exact Phrase.spells_of_iff.mp isEnding
    · exact Phrase.spells_of_iff.mp isEnding
  rcases body with ⟨middle, body⟩
  have concluded : ∃ final, Tail (middle + 1) conclusion final := by
    rcases isConclusion with rfl | isConclusion
    · exact ⟨middle + 1, .nil⟩
    · exact isConclusion middle
  rcases concluded with ⟨final, concluded⟩
  refine ⟨final, ?_⟩
  simp only [List.append_nil, List.cons_append]
  exact .query expression (reads_clauses isClauses (body.append concluded))

theorem reads_primary (spelled : Nonterminal.primary.rule.Spells Reads kinds) :
    ∃ final, Expression 0 kinds final := by
  have atom {kind : Kind} (isAtom : kind ∈ atoms)
      (token : Phrase.Spells Reads (.token kind) kinds) : ∃ final, Expression 0 kinds final := by
    rw [Phrase.spells_token_iff] at token
    subst token
    exact ⟨0, .atom isAtom .nil⟩
  rw [Nonterminal.rule, Phrase.spells_choice_iff] at spelled
  simp only [List.mem_cons, List.not_mem_nil, or_false] at spelled
  rcases spelled with ⟨option, rfl | rfl | rfl | rfl | rfl | rfl | rfl, spelled⟩
  · exact atom (by decide) spelled
  · exact atom (by decide) spelled
  · exact atom (by decide) spelled
  · exact atom (by decide) spelled
  · exact atom (by decide) spelled
  · simp only [Phrase.spells_cons_iff, Phrase.spells_nil_iff, Phrase.spells_token_iff,
      Phrase.spells_of_iff] at spelled
    rcases spelled with ⟨_, _, rfl, rfl, content, _, rfl, ⟨inside, expression⟩, _, _, rfl, rfl,
      rfl⟩
    exact ⟨0, .parenthesized expression .nil⟩
  · exact Phrase.spells_of_iff.mp spelled

/-- The greedy readings obey the rules of the grammar. -/
theorem reads_rule (name : Nonterminal) (kinds : List Kind)
    (spelled : name.rule.Spells Reads kinds) : Reads name kinds := by
  cases name with
  | unit => exact reads_statements spelled
  | statement => exact reads_statement spelled
  | block =>
      simp only [Nonterminal.rule, Phrase.spells_cons_iff, Phrase.spells_nil_iff,
        Phrase.spells_token_iff] at spelled
      rcases spelled with ⟨_, _, rfl, rfl, content, _, rfl, statements, _, _, rfl, rfl, rfl⟩
      exact .braces (reads_statements statements)
  | expression =>
      simp only [Nonterminal.rule, Phrase.spells_choice_iff, List.mem_cons, List.not_mem_nil,
        or_false] at spelled
      rcases spelled with ⟨option, rfl | rfl, spelled⟩
      · have query : Reads .query kinds := Phrase.spells_of_iff.mp spelled
        exact query
      · have binary : Reads .binary kinds := Phrase.spells_of_iff.mp spelled
        exact binary
  | query => exact reads_query spelled
  | fromClause =>
      simp only [Nonterminal.rule, Phrase.spells_cons_iff, Phrase.spells_nil_iff,
        Phrase.spells_token_iff, Phrase.spells_of_iff] at spelled
      rcases spelled with ⟨_, _, rfl, rfl, _, _, rfl, rfl, _, _, rfl, rfl, source, _, rfl,
        ⟨inside, expression⟩, rfl⟩
      exact ⟨source, inside, by simp, expression⟩
  | bodyClause =>
      intro opened rest final body
      exact reads_bodyClause spelled body
  | selectClause =>
      rcases Phrase.spells_pair_iff.mp spelled with ⟨_, value, rfl, keyword, expression⟩
      rw [Phrase.spells_token_iff] at keyword
      subst keyword
      rcases Phrase.spells_of_iff.mp expression with ⟨final, expression⟩
      exact ⟨final, .selectClause (expression.inside 1)⟩
  | groupClause =>
      simp only [Nonterminal.rule, Phrase.spells_cons_iff, Phrase.spells_nil_iff,
        Phrase.spells_token_iff, Phrase.spells_of_iff] at spelled
      rcases spelled with ⟨_, _, rfl, rfl, element, _, rfl, ⟨inside, expression⟩, _, _, rfl, rfl,
        key, _, rfl, ⟨final, value⟩, rfl⟩
      rw [List.append_nil]
      exact ⟨final, .groupClause expression (value.inside 1)⟩
  | conclusion =>
      intro opened
      simp only [Nonterminal.rule, Phrase.spells_cons_iff, Phrase.spells_nil_iff,
        Phrase.spells_token_iff, Phrase.spells_of_iff] at spelled
      rcases spelled with ⟨_, _, rfl, rfl, _, _, rfl, rfl, _, _, rfl, rfl, _, _, rfl, rfl,
        body, _, rfl, ⟨final, expression⟩, rfl⟩
      rw [List.append_nil]
      exact ⟨final + opened, .conclusion (expression.inside opened)⟩
  | binary =>
      rcases Phrase.spells_pair_iff.mp spelled with ⟨first, links, rfl, operand, chain⟩
      rcases Phrase.spells_of_iff.mp operand with ⟨middle, expression⟩
      rcases reads_links chain middle with ⟨final, tail⟩
      exact ⟨final, expression.append tail⟩
  | postfixed =>
      rcases Phrase.spells_pair_iff.mp spelled with ⟨first, suffixes, rfl, operand, chain⟩
      rcases Phrase.spells_of_iff.mp operand with ⟨final, expression⟩
      exact ⟨final, expression.append (reads_suffixes final chain)⟩
  | primary => exact reads_primary spelled
  | arguments =>
      rcases Phrase.spells_optional_iff.mp spelled with rfl | given
      · exact .none
      · rcases Phrase.spells_pair_iff.mp given with ⟨first, others, rfl, argument, further⟩
        rcases Phrase.spells_of_iff.mp argument with ⟨inside, expression⟩
        exact .some expression (reads_furtherArguments further)

/-- Whatever the grammar derives can be read greedily. -/
theorem reads_of_derives {name : Nonterminal} (derives : name.Derives kinds) : Reads name kinds :=
  derives.least reads_rule

end Greedy

end QueryLang
