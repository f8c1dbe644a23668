import QueryLang.Proofs.Syntax.Greedy
import QueryLang.Proofs.Syntax.ParserFollowing

/-!
# The parser of expressions reads greedily

Run at something that can be read as an expression, the parser of expressions takes all of it but
a conclusion that belongs to a query around it. Each parser on the way leaves a part of the
reading: what may follow an operand, then an operator that binds too loosely, and in the end at
most a conclusion.
-/

namespace QueryLang

namespace Greedy

/-- The kinds of tokens that come after an expression and belong to what is around it. -/
def followers : List Kind :=
  [.semicolonToken, .commaToken, .closeParenToken, .byKeyword, .fromKeyword, .whereKeyword,
    .letKeyword, .selectKeyword, .groupKeyword]

/-- What comes next ends an expression. -/
def Ends (after : List Kind) : Prop :=
  ∃ kind rest, after = kind :: rest ∧ kind ∈ followers

theorem ends_cons {kind : Kind} (rest : List Kind) (isFollower : kind ∈ followers) :
    Ends (kind :: rest) :=
  ⟨kind, rest, rfl, isFollower⟩

/-- What is left before `after` may follow an operand inside `opened` queries. -/
def Continues (opened : Nat) (after left : List Kind) : Prop :=
  ∃ tail final, left = tail ++ after ∧ Tail opened tail final

/-- What is left before `after` is at most the conclusion of one of `opened` queries. -/
inductive Concludes : (opened : Nat) → (after left : List Kind) → Prop
  | nothing {opened after} : Concludes opened after after
  | conclusion {opened body final after} (expression : Expression opened body final) :
      Concludes (opened + 1) after
        (.yieldKeyword :: .intoKeyword :: .identifierToken :: .doKeyword :: (body ++ after))

/-- What is left before `after` starts with an operator of which `binds` holds, or it is at most a
conclusion. -/
def Links (binds : Nat → Prop) (opened : Nat) (after left : List Kind) : Prop :=
  Concludes opened after left ∨
    ∃ operator precedence operand final, operator.binaryPrecedence? = some precedence ∧
      binds precedence ∧ Expression opened operand final ∧ left = operator :: (operand ++ after)

variable {opened final : Nat} {kinds after left : List Kind}

theorem Concludes.continues (concludes : Concludes opened after left) :
    Continues opened after left := by
  cases concludes with
  | nothing => exact ⟨[], opened, rfl, .nil⟩
  | @conclusion opened body final _ expression =>
      exact ⟨_, final, rfl, .conclusion expression⟩

/-- Outside of queries nothing is left. -/
theorem Concludes.eq_after (concludes : Concludes 0 after left) : left = after := by
  cases concludes
  rfl

theorem Concludes.ne_nil (concludes : Concludes opened after left) (ends : Ends after) :
    left ≠ [] := by
  cases concludes with
  | nothing =>
      rcases ends with ⟨kind, rest, rfl, _⟩
      exact List.cons_ne_nil _ _
  | conclusion => exact List.cons_ne_nil _ _

theorem Links.mono {binds weaker : Nat → Prop} (links : Links binds opened after left)
    (weaken : ∀ precedence, binds precedence → weaker precedence) :
    Links weaker opened after left := by
  rcases links with concludes | ⟨operator, precedence, operand, final, binds, holds, reading, eq⟩
  · exact .inl concludes
  · exact .inr ⟨operator, precedence, operand, final, binds, weaken precedence holds, reading, eq⟩

theorem Links.ne_nil {binds : Nat → Prop} (links : Links binds opened after left)
    (ends : Ends after) : left ≠ [] := by
  rcases links with concludes | ⟨operator, _, operand, _, _, _, _, rfl⟩
  · exact concludes.ne_nil ends
  · exact List.cons_ne_nil _ _

/-- The clauses of a query end the expression before them. -/
theorem Body.ends (body : Body opened kinds final) : Ends (kinds ++ after) := by
  cases body with
  | fromClause => exact ends_cons _ (by decide)
  | whereClause => exact ends_cons _ (by decide)
  | letClause => exact ends_cons _ (by decide)
  | selectClause => exact ends_cons _ (by decide)
  | groupClause => exact ends_cons _ (by decide)

/-- A comma or the closing parenthesis ends an argument. -/
theorem FurtherArguments.ends (others : FurtherArguments kinds) :
    Ends (kinds ++ .closeParenToken :: after) := by
  cases others with
  | none => exact ends_cons _ (by decide)
  | more => exact ends_cons _ (by decide)

/-- The clause that ends a query, where the query may take a conclusion. -/
inductive LastClause : (opened : Nat) → List Kind → Prop
  | selectClause {opened final value} (expression : Expression (opened + 1) value final) :
      LastClause opened (.selectKeyword :: value)
  | groupClause {opened inside final element key} (expression : Expression 0 element inside)
      (value : Expression (opened + 1) key final) :
      LastClause opened (.groupKeyword :: (element ++ .byKeyword :: key))

/-- The kinds of tokens that expressions start with. -/
def starters : List Kind := .openParenToken :: .fromKeyword :: atoms

theorem Expression.starts (reading : Expression opened kinds final) :
    ∃ kind rest, kinds = kind :: rest ∧ kind ∈ starters := by
  cases reading with
  | atom isAtom => exact ⟨_, _, rfl, by simp [starters, isAtom]⟩
  | parenthesized => exact ⟨_, _, rfl, by decide⟩
  | query => exact ⟨_, _, rfl, by decide⟩

/-- There are six precedences. -/
theorem precedence_bounds {operator : Kind} {precedence : Nat}
    (binds : operator.binaryPrecedence? = some precedence) :
    0 < precedence ∧ precedence ≤ Parser.precedenceCount := by
  have bounds : ∀ precedence ∈ operator.binaryPrecedence?,
      0 < precedence ∧ precedence ≤ Parser.precedenceCount := by
    cases operator <;> decide
  exact bounds precedence binds

theorem exists_precedence {operator : Kind} (isOperator : operator ∈ binaryOperators) :
    ∃ precedence, operator.binaryPrecedence? = some precedence := by
  have all : ∀ operator ∈ binaryOperators, operator.binaryPrecedence?.isSome := by decide
  exact Option.isSome_iff_exists.mp (all operator isOperator)

/-- Where at most a conclusion is left, no operator comes next. -/
theorem Concludes.no_operator (concludes : Concludes opened after left) (ends : Ends after) :
    (left.headD .endOfFileToken).binaryPrecedence? = none := by
  cases concludes with
  | nothing =>
      have all : ∀ kind ∈ followers, kind.binaryPrecedence? = none := by decide
      rcases ends with ⟨kind, rest, rfl, isFollower⟩
      exact all kind isFollower
  | conclusion => rfl

end Greedy

namespace Parser

open Greedy

/-- The parser reads expressions greedily, whatever ends them. -/
def ReadsExpressions (parser : Parser ParseTree) : Prop :=
  ∀ {opened final : Nat} {kinds after : List Kind}, Expression opened kinds final → Ends after →
    parser.Follows (kinds ++ after) fun _ left => Concludes opened after left

theorem ReadsExpressions.gets {parser : Parser ParseTree} (reads : parser.ReadsExpressions)
    {final : Nat} {kinds after : List Kind} (reading : Expression 0 kinds final)
    (ends : Ends after) : parser.Gets (kinds ++ after) after :=
  (reads reading ends).mono fun _ _ _ concludes => concludes.eq_after

theorem identifierName_gets (rest : List Kind) :
    identifierName.Gets (.identifierToken :: rest) rest :=
  Gets.bind (expect_gets _ _) fun _ => follows_pure rfl

section Layers

variable {inner : Parser ParseTree} [Grows inner] (reads : inner.ReadsExpressions)
  {opened final : Nat} {kinds after : List Kind}

include reads

/-! ### Queries -/

theorem fromClause_gets {source rest : List Kind} {inside : Nat}
    (expression : Expression 0 source inside) (ends : Ends rest) :
    (fromClause inner).Gets
      (.fromKeyword :: .identifierToken :: .inKeyword :: (source ++ rest)) rest := by
  refine Gets.bind (bump_gets _ _) fun keyword => ?_
  refine Gets.bind (expect_gets _ _) fun identifier => ?_
  refine Gets.bind (expect_gets _ _) fun inKeyword => ?_
  refine Gets.bind (reads.gets expression ends) fun source => ?_
  exact follows_pure rfl

theorem whereClause_gets {condition rest : List Kind} {inside : Nat}
    (expression : Expression 0 condition inside) (ends : Ends rest) :
    (whereClause inner).Gets (.whereKeyword :: (condition ++ rest)) rest := by
  refine Gets.bind (bump_gets _ _) fun keyword => ?_
  refine Gets.bind (reads.gets expression ends) fun condition => ?_
  exact follows_pure rfl

theorem letClause_gets {value rest : List Kind} {inside : Nat}
    (expression : Expression 0 value inside) (ends : Ends rest) :
    (letClause inner).Gets
      (.letKeyword :: .identifierToken :: .equalsToken :: (value ++ rest)) rest := by
  refine Gets.bind (bump_gets _ _) fun keyword => ?_
  refine Gets.bind (expect_gets _ _) fun identifier => ?_
  refine Gets.bind (expect_gets _ _) fun equals => ?_
  refine Gets.bind (reads.gets expression ends) fun value => ?_
  exact follows_pure rfl

/-- Clauses are taken one by one until the last is left. -/
theorem bodyClause_follows (body : Body opened kinds final) :
    (bodyClause inner).Follows (kinds ++ after) fun new left =>
      new = [] ∧ (∃ last, left = last ++ after ∧ LastClause opened last) ∨
        new ≠ [] ∧ left.length < (kinds ++ after).length ∧
          ∃ rest final, left = rest ++ after ∧ Body opened rest final := by
  refine follows_current ?_
  cases body with
  | @fromClause _ _ _ source rest expression body =>
      simp only [List.cons_append, List.append_assoc, List.headD_cons]
      refine Gets.bind (fromClause_gets reads expression body.ends) fun clause => ?_
      refine follows_pure (.inr ⟨List.cons_ne_nil _ _, ?_, rest, final, rfl, body⟩)
      simp only [List.length_cons, List.length_append]
      omega
  | @whereClause _ _ _ condition rest expression body =>
      simp only [List.cons_append, List.append_assoc, List.headD_cons]
      refine Gets.bind (whereClause_gets reads expression body.ends) fun clause => ?_
      refine follows_pure (.inr ⟨List.cons_ne_nil _ _, ?_, rest, final, rfl, body⟩)
      simp only [List.length_cons, List.length_append]
      omega
  | @letClause _ _ _ value rest expression body =>
      simp only [List.cons_append, List.append_assoc, List.headD_cons]
      refine Gets.bind (letClause_gets reads expression body.ends) fun clause => ?_
      refine follows_pure (.inr ⟨List.cons_ne_nil _ _, ?_, rest, final, rfl, body⟩)
      simp only [List.length_cons, List.length_append]
      omega
  | selectClause value => exact follows_pure (.inl ⟨rfl, _, rfl, .selectClause value⟩)
  | groupClause expression key =>
      exact follows_pure (.inl ⟨rfl, _, rfl, .groupClause expression key⟩)

theorem finalClause_follows (last : LastClause opened kinds) (ends : Ends after) :
    (finalClause inner).Follows (kinds ++ after) fun _ left =>
      Concludes (opened + 1) after left := by
  refine follows_current ?_
  cases last with
  | selectClause expression =>
      refine Gets.bind (bump_gets _ _) fun keyword => ?_
      refine Follows.bind (reads expression ends) fun value left concludes => ?_
      exact follows_pure concludes
  | @groupClause _ _ element key expression value =>
      simp only [List.cons_append, List.append_assoc, List.headD_cons]
      have elementEnds : Ends (.byKeyword :: (key ++ after)) := ends_cons _ (by decide)
      refine Gets.bind (bump_gets _ _) fun keyword => ?_
      refine Gets.bind (reads.gets expression elementEnds) fun element => ?_
      refine Gets.bind (expect_gets _ _) fun byKeyword => ?_
      refine Follows.bind (reads value ends) fun key left concludes => ?_
      exact follows_pure concludes

theorem queryConclusion_follows {body : List Kind} (expression : Expression opened body final)
    (ends : Ends after) :
    (queryConclusion inner).Follows
      (.yieldKeyword :: .intoKeyword :: .identifierToken :: .doKeyword :: (body ++ after))
      fun _ left => Concludes opened after left := by
  refine Gets.bind (checkFeature_gets _ _) fun _ => ?_
  refine Gets.bind (bump_gets _ _) fun yieldKeyword => ?_
  refine Gets.bind (expect_gets _ _) fun intoKeyword => ?_
  refine Gets.bind (expect_gets _ _) fun identifier => ?_
  refine Gets.bind (expect_gets _ _) fun doKeyword => ?_
  refine Follows.bind (reads expression ends) fun body left concludes => ?_
  exact follows_pure concludes

/-- Of the queries that may take a conclusion the innermost takes it. -/
theorem optionalConclusion_follows {left : List Kind}
    (concludes : Concludes (opened + 1) after left) (ends : Ends after) :
    (optionalConclusion inner).Follows left fun _ left => Concludes opened after left := by
  refine follows_current ?_
  cases concludes with
  | nothing =>
      rcases ends with ⟨kind, rest, rfl, isFollower⟩
      have notYield : kind ≠ .yieldKeyword := by
        rintro rfl
        revert isFollower
        decide
      rw [List.headD_cons, if_neg notYield]
      exact follows_pure .nothing
  | conclusion expression =>
      rw [List.headD_cons, if_pos rfl]
      refine Follows.bind (queryConclusion_follows reads expression ends) ?_
      exact fun conclusion left concludes => follows_pure concludes

theorem queryBody_follows (body : Body opened kinds final) (ends : Ends after) :
    (queryBody inner).Follows (kinds ++ after) fun _ left => Concludes opened after left := by
  have clauses : (many (bodyClause inner)).Follows (kinds ++ after) fun _ left =>
      ∃ last, left = last ++ after ∧ LastClause opened last := by
    refine many_follows
      (fun left => ∃ rest final, left = rest ++ after ∧ Body opened rest final) ?_ ?_
      ⟨kinds, final, rfl, body⟩
    · rintro _ ⟨rest, final, rfl, body⟩
      exact bodyClause_follows reads body
    · rintro ⟨rest, final, noKinds, _⟩
      rcases ends with ⟨kind, others, rfl, _⟩
      simp at noKinds
  refine Follows.bind clauses ?_
  rintro clauses _ ⟨last, rfl, isLast⟩
  refine Follows.bind (finalClause_follows reads isLast ends) fun ending left concludes => ?_
  refine Follows.bind (optionalConclusion_follows reads concludes ends) ?_
  exact fun conclusion left concludes => follows_pure concludes

theorem queryExpression_follows {source rest : List Kind} {inside : Nat}
    (expression : Expression 0 source inside) (body : Body opened rest final)
    (ends : Ends after) :
    (queryExpression inner).Follows
      (.fromKeyword :: .identifierToken :: .inKeyword :: (source ++ (rest ++ after)))
      fun _ left => Concludes opened after left := by
  refine Gets.bind (fromClause_gets reads expression body.ends) fun first => ?_
  refine Follows.bind (queryBody_follows reads body ends) ?_
  exact fun body left concludes => follows_pure concludes

/-! ### Operands -/

theorem parenthesized_gets {content rest : List Kind} {inside : Nat}
    (expression : Expression 0 content inside) :
    (parenthesized inner).Gets (.openParenToken :: (content ++ .closeParenToken :: rest))
      rest := by
  have ends : Ends (.closeParenToken :: rest) := ends_cons _ (by decide)
  refine Gets.bind (bump_gets _ _) fun openParen => ?_
  refine Gets.bind (reads.gets expression ends) fun content => ?_
  refine Gets.bind (expect_gets _ _) fun closeParen => ?_
  exact follows_pure rfl

theorem primary_follows (reading : Expression opened kinds final) (ends : Ends after) :
    (primary inner).Follows (kinds ++ after) fun _ left => Continues opened after left := by
  refine follows_current ?_
  cases reading with
  | @atom _ _ kind rest isAtom tail =>
      have continues : Continues opened after (rest ++ after) := ⟨rest, final, rfl, tail⟩
      have single (literalKind : Kind) :
          (literal literalKind).Follows (kind :: (rest ++ after)) fun _ left =>
            Continues opened after left :=
        Gets.bind (bump_gets _ _) fun token => follows_pure continues
      simp only [atoms, List.mem_cons, List.not_mem_nil, or_false] at isAtom
      rcases isAtom with rfl | rfl | rfl | rfl | rfl
      · exact Gets.bind (expect_gets _ _) fun identifier => follows_pure continues
      · exact single .numericLiteralExpression
      · exact single .stringLiteralExpression
      · exact single .trueLiteralExpression
      · exact single .falseLiteralExpression
  | @parenthesized _ _ _ content rest expression tail =>
      simp only [List.cons_append, List.append_assoc, List.headD_cons]
      refine (parenthesized_gets reads expression).mono ?_
      rintro _ _ _ rfl
      exact ⟨rest, final, rfl, tail⟩
  | query expression body =>
      simp only [List.cons_append, List.append_assoc, List.headD_cons]
      refine (queryExpression_follows reads expression body ends).mono ?_
      exact fun _ _ _ concludes => concludes.continues

theorem furtherArguments_gets {rest : List Kind} (others : FurtherArguments kinds) :
    (many (nextArgument inner)).Gets (kinds ++ .closeParenToken :: rest)
      (.closeParenToken :: rest) := by
  refine many_follows
    (fun left => ∃ kinds, left = kinds ++ .closeParenToken :: rest ∧ FurtherArguments kinds)
    ?_ ?_ ⟨kinds, rfl, others⟩
  · rintro _ ⟨kinds, rfl, others⟩
    refine follows_current ?_
    cases others with
    | none => exact follows_pure (.inl ⟨rfl, rfl⟩)
    | @more _ argument others expression further =>
        simp only [List.cons_append, List.append_assoc, List.headD_cons, if_true]
        refine Gets.bind (bump_gets _ _) fun comma => ?_
        refine Gets.bind (reads.gets expression further.ends) fun argument => ?_
        refine follows_pure (.inr ⟨List.cons_ne_nil _ _, ?_, others, rfl, further⟩)
        simp only [List.length_cons, List.length_append]
        omega
  · rintro ⟨kinds, noKinds, _⟩
    simp at noKinds

theorem argumentList_gets {rest : List Kind} (given : Arguments kinds) :
    (argumentList inner).Gets (.openParenToken :: (kinds ++ .closeParenToken :: rest)) rest := by
  refine Gets.bind (bump_gets _ _) fun openParen => ?_
  refine follows_current ?_
  dsimp only
  cases given with
  | none =>
      rw [List.nil_append, List.headD_cons, if_pos rfl, pure_bind]
      exact Gets.bind (expect_gets _ _) fun closeParen => follows_pure rfl
  | @some _ first others expression further =>
      have notClose : (first ++ others ++ .closeParenToken :: rest).headD .endOfFileToken ≠
          .closeParenToken := by
        rcases expression.starts with ⟨kind, more, rfl, isStarter⟩
        rintro isClose
        rw [List.cons_append, List.cons_append, List.headD_cons] at isClose
        subst isClose
        revert isStarter
        decide
      rw [if_neg notClose, List.append_assoc]
      refine Gets.bind (reads.gets expression further.ends) fun argument => ?_
      refine Gets.bind (furtherArguments_gets reads further) fun arguments => ?_
      rw [pure_bind]
      exact Gets.bind (expect_gets _ _) fun closeParen => follows_pure rfl

/-- What follows an operand is taken up to an operator or a conclusion. -/
theorem suffix_follows (operand : ParseTree) {left : List Kind}
    (continues : Continues opened after left) (ends : Ends after) :
    (suffix inner operand).Follows left fun grown remaining =>
      grown = none ∧ Links (fun _ => True) opened after remaining ∨
        grown ≠ none ∧ remaining.length < left.length ∧ Continues opened after remaining := by
  rcases continues with ⟨tail, final, rfl, tail⟩
  refine follows_current ?_
  cases tail with
  | nil =>
      have links : Links (fun _ => True) opened after after := .inl .nothing
      rcases ends with ⟨kind, rest, rfl, isFollower⟩
      simp only [followers, List.mem_cons, List.not_mem_nil, or_false] at isFollower
      rw [List.nil_append, List.headD_cons]
      rcases isFollower with rfl | rfl | rfl | rfl | rfl | rfl | rfl | rfl | rfl <;>
        exact follows_pure (.inl ⟨rfl, links⟩)
  | @member _ _ rest tail =>
      simp only [List.cons_append, List.headD_cons]
      refine Gets.bind (bump_gets _ _) fun dot => ?_
      refine Gets.bind (identifierName_gets _) fun name => ?_
      refine follows_pure (.inr ⟨Option.some_ne_none _, ?_, rest, final, rfl, tail⟩)
      simp only [List.length_cons]
      omega
  | @call _ _ content rest given tail =>
      simp only [List.cons_append, List.append_assoc, List.headD_cons]
      refine Gets.bind (argumentList_gets reads given) fun arguments => ?_
      refine follows_pure (.inr ⟨Option.some_ne_none _, ?_, rest, final, rfl, tail⟩)
      simp only [List.length_cons, List.length_append]
      omega
  | @operator _ _ operator rest isOperator operand =>
      rcases exists_precedence isOperator with ⟨precedence, binds⟩
      have links : Links (fun _ => True) opened after (operator :: (rest ++ after)) :=
        .inr ⟨operator, precedence, rest, final, binds, trivial, operand, rfl⟩
      rw [List.cons_append, List.headD_cons]
      simp only [binaryOperators, List.mem_cons, List.not_mem_nil, or_false] at isOperator
      rcases isOperator with
        rfl | rfl | rfl | rfl | rfl | rfl | rfl | rfl | rfl | rfl | rfl | rfl <;>
        exact follows_pure (.inl ⟨rfl, links⟩)
  | conclusion body => exact follows_pure (.inl ⟨rfl, .inl (.conclusion body)⟩)

theorem postfixed_follows (reading : Expression opened kinds final) (ends : Ends after) :
    (postfixed inner).Follows (kinds ++ after) fun _ left =>
      Links (fun _ => True) opened after left := by
  refine Follows.bind (primary_follows reads reading ends) fun operand left continues => ?_
  refine grow_follows (Continues opened after) ?_ ?_ continues
  · exact fun operand left continues => suffix_follows reads operand continues ends
  · rintro ⟨tail, final, noKinds, _⟩
    rcases ends with ⟨kind, rest, rfl, _⟩
    simp at noKinds

end Layers

/-! ### Operators -/

/-- An operand is read up to an operator. -/
def ReadsOperands (parser : Parser ParseTree) : Prop :=
  ∀ {opened final : Nat} {kinds after : List Kind}, Expression opened kinds final → Ends after →
    parser.Follows (kinds ++ after) fun _ left => Links (fun _ => True) opened after left

/-- The parser reads operands and the operators between them that bind tighter than `minimum`. -/
def ReadsTighter (parser : Parser ParseTree) (minimum : Nat) : Prop :=
  ∀ {opened final : Nat} {kinds after : List Kind}, Expression opened kinds final → Ends after →
    parser.Follows (kinds ++ after) fun _ left => Links (· ≤ minimum) opened after left

/-- An operator is taken if it binds tighter than the minimum. -/
theorem operation_follows {right : Nat → Parser ParseTree} [∀ precedence, Grows (right precedence)]
    {minimum : Nat} (reads : ∀ precedence, minimum < precedence →
      (right precedence).ReadsTighter precedence) (piece : ParseTree) {opened : Nat}
    {after left : List Kind} (links : Links (fun _ => True) opened after left)
    (ends : Ends after) :
    (operation right minimum piece).Follows left fun grown remaining =>
      grown = none ∧ Links (· ≤ minimum) opened after remaining ∨
        grown ≠ none ∧ remaining.length < left.length ∧
          Links (fun _ => True) opened after remaining := by
  refine follows_current ?_
  rcases links with concludes | ⟨operator, precedence, operand, final, binds, _, reading, rfl⟩
  · rw [concludes.no_operator ends]
    exact follows_pure (.inl ⟨rfl, .inl concludes⟩)
  · rw [List.headD_cons, binds]
    dsimp only
    split
    · next loose =>
      exact follows_pure (.inl ⟨rfl, .inr ⟨operator, precedence, operand, final, binds, loose,
        reading, rfl⟩⟩)
    · next tight =>
      refine Gets.bind (bump_gets _ _) fun token => ?_
      have rightReads : (right precedence).Follows (operand ++ after) fun _ left =>
          left <:+ operand ++ after ∧ Links (· ≤ precedence) opened after left :=
        (reads precedence (Nat.lt_of_not_le tight) reading ends).mono
          fun _ _ isRest links => ⟨isRest, links⟩
      refine Follows.bind rightReads ?_
      rintro value left ⟨isRest, links⟩
      refine follows_pure (.inr ⟨Option.some_ne_none _, ?_, links.mono fun _ _ => trivial⟩)
      exact Nat.lt_succ_of_le isRest.length_le

/-- The precedences that are left are enough for all operators that are to be taken. -/
theorem readsTighter_binary {operand : Parser ParseTree} [Grows operand]
    (reads : operand.ReadsOperands) {precedences minimum : Nat}
    (enough : precedenceCount ≤ precedences + minimum) :
    (binary operand precedences minimum).ReadsTighter minimum := by
  induction precedences generalizing minimum with
  | zero =>
      intro opened final kinds after reading ends
      refine (reads reading ends).mono ?_
      rintro _ left _ (concludes | ⟨operator, precedence, operand, final, binds, _, reading, eq⟩)
      · exact .inl concludes
      · have bound := (precedence_bounds binds).2
        exact .inr ⟨operator, precedence, operand, final, binds, by omega, reading, eq⟩
  | succ precedences ih =>
      intro opened final kinds after reading ends
      refine Follows.bind (reads reading ends) fun first left links => ?_
      refine grow_follows (Links (fun _ => True) opened after) ?_ ?_ links
      · intro piece left links
        exact operation_follows (fun precedence tight => ih (by omega)) piece links ends
      · intro links
        exact absurd rfl (links.ne_nil ends)

/-- However many levels may be opened, parsing reads expressions greedily. -/
theorem readsExpressions (levels : Nat) : (expression levels).ReadsExpressions := by
  induction levels with
  | zero =>
      intro opened final kinds after reading ends
      have tooDeep : reportTooDeep.Follows (kinds ++ after) fun _ _ => False :=
        reportTooDeep_follows _
      exact Follows.bind tooDeep fun _ _ impossible => impossible.elim
  | succ levels ih =>
      intro opened final kinds after reading ends
      have operands : (postfixed (expression levels)).ReadsOperands :=
        fun reading ends => postfixed_follows ih reading ends
      refine (readsTighter_binary operands (Nat.le_refl _) reading ends).mono ?_
      rintro _ left _ (concludes | ⟨operator, precedence, _, _, binds, loose, _⟩)
      · exact concludes
      · have positive := (precedence_bounds binds).1
        omega

end Parser

end QueryLang
