import QueryLang.Syntax.ParseTree

/-!
# The shape of parsed source

A `Role` is what a piece of source is to the node around it, and a `Production` says which roles
the children of a node have. A piece is `Formed` when every node in it follows a production. The
productions are the grammar of trees, recovery included: a token that the source lacks, or one
that was skipped, has a place in a tree only when the source is `damaged`.
-/

namespace QueryLang

/-- What a piece of source is to the node around it. -/
inductive Role
  | leaf (kind : Kind)
  | name
  | primary
  /-- A primary expression with member accesses and calls. -/
  | operand
  | expression
  | arguments
  | fromClause
  | clause
  | ending
  | conclusion
  | queryBody
  | block
  | statement
  | file
deriving DecidableEq

/-- The kind of token that a literal consists of. -/
def Kind.literalToken? : Kind → Option Kind
  | .numericLiteralExpression => some .numericLiteralToken
  | .stringLiteralExpression => some .stringLiteralToken
  | .trueLiteralExpression => some .trueKeyword
  | .falseLiteralExpression => some .falseKeyword
  | _ => none

/-- Whether a role can stand between the braces of a block: statements can, and skipped tokens of
damaged source. -/
def Role.IsContent (damaged : Prop) (role : Role) : Prop :=
  role = .statement ∨ damaged ∧ ∃ kind, role = .leaf kind

/-- A further argument of a call, after its comma. -/
def Role.furtherArgument : List Role := [.leaf .commaToken, .expression]

/-- The kind of a node of some role, and the roles of its children. -/
inductive Production (damaged : Prop) : Role → Kind → List Role → Prop
  | name : Production damaged .name .identifierName [.leaf .identifierToken]
  | ofName {kind roles} :
      Production damaged .name kind roles → Production damaged .primary kind roles
  | literal {kind token} (isLiteral : kind.literalToken? = some token) :
      Production damaged .primary kind [.leaf token]
  | parenthesized :
      Production damaged .primary .parenthesizedExpression
        [.leaf .openParenToken, .expression, .leaf .closeParenToken]
  | query : Production damaged .primary .queryExpression [.fromClause, .queryBody]
  | ofPrimary {kind roles} :
      Production damaged .primary kind roles → Production damaged .operand kind roles
  | memberAccess :
      Production damaged .operand .memberAccessExpression [.operand, .leaf .dotToken, .name]
  | invocation :
      Production damaged .operand .invocationExpression [.operand, .arguments]
  | noArguments :
      Production damaged .arguments .argumentList [.leaf .openParenToken, .leaf .closeParenToken]
  | someArguments (count : Nat) :
      Production damaged .arguments .argumentList
        (.leaf .openParenToken :: .expression ::
          ((List.replicate count Role.furtherArgument).flatten ++ [.leaf .closeParenToken]))
  | ofOperand {kind roles} :
      Production damaged .operand kind roles → Production damaged .expression kind roles
  | binary {operator precedence} (binds : Kind.binaryPrecedence? operator = some precedence) :
      Production damaged .expression .binaryExpression [.expression, .leaf operator, .expression]
  | fromClause :
      Production damaged .fromClause .fromClause
        [.leaf .fromKeyword, .leaf .identifierToken, .leaf .inKeyword, .expression]
  | ofFromClause {kind roles} :
      Production damaged .fromClause kind roles → Production damaged .clause kind roles
  | whereClause :
      Production damaged .clause .whereClause [.leaf .whereKeyword, .expression]
  | letClause :
      Production damaged .clause .letClause
        [.leaf .letKeyword, .leaf .identifierToken, .leaf .equalsToken, .expression]
  | selectClause :
      Production damaged .ending .selectClause [.leaf .selectKeyword, .expression]
  | groupClause :
      Production damaged .ending .groupClause
        [.leaf .groupKeyword, .expression, .leaf .byKeyword, .expression]
  | conclusion :
      Production damaged .conclusion .queryConclusion
        [.leaf .yieldKeyword, .leaf .intoKeyword, .leaf .identifierToken, .leaf .doKeyword,
          .expression]
  | queryBody (count : Nat) :
      Production damaged .queryBody .queryBody (List.replicate count .clause ++ [.ending])
  | concludedBody (count : Nat) :
      Production damaged .queryBody .queryBody
        (List.replicate count .clause ++ [.ending, .conclusion])
  | block {content : List Role} (allowed : ∀ role ∈ content, role.IsContent damaged) :
      Production damaged .block .block
        (.leaf .openBraceToken :: (content ++ [.leaf .closeBraceToken]))
  | ofBlock {kind roles} :
      Production damaged .block kind roles → Production damaged .statement kind roles
  | localDeclaration :
      Production damaged .statement .localDeclarationStatement
        [.leaf .varKeyword, .leaf .identifierToken, .leaf .equalsToken, .expression,
          .leaf .semicolonToken]
  | returnNothing :
      Production damaged .statement .returnStatement
        [.leaf .returnKeyword, .leaf .semicolonToken]
  | returnValue :
      Production damaged .statement .returnStatement
        [.leaf .returnKeyword, .expression, .leaf .semicolonToken]
  | yieldReturn :
      Production damaged .statement .yieldReturnStatement
        [.leaf .yieldKeyword, .leaf .returnKeyword, .expression, .leaf .semicolonToken]
  | yieldBreak :
      Production damaged .statement .yieldBreakStatement
        [.leaf .yieldKeyword, .leaf .breakKeyword, .leaf .semicolonToken]
  | doStatement :
      Production damaged .statement .doStatement
        [.leaf .doKeyword, .block, .leaf .whileKeyword, .leaf .openParenToken, .expression,
          .leaf .closeParenToken, .leaf .semicolonToken]
  | expressionStatement :
      Production damaged .statement .expressionStatement [.expression, .leaf .semicolonToken]
  | file {content : List Role} (allowed : ∀ role ∈ content, role.IsContent damaged) :
      Production damaged .file .compilationUnit (content ++ [.leaf .endOfFileToken])

mutual

/-- A piece of source in a role, in which every node follows a production. -/
inductive Formed (damaged : Prop) : Role → ParseTree → Prop
  | token (token : Token) : Formed damaged (.leaf token.kind) (.token token)
  | missing (kind : Kind) (isDamaged : damaged) : Formed damaged (.leaf kind) (.missing kind)
  | node {role kind roles children} (production : Production damaged role kind roles)
      (formed : FormedAll damaged roles children) : Formed damaged role (.node kind children)
  | wrapped {role kind roles first rest} (production : Production damaged role kind roles)
      (formed : FormedAll damaged roles (first :: rest)) :
      Formed damaged role (.wrapped kind first rest)

/-- Pieces of source in their roles, one after the other. -/
inductive FormedAll (damaged : Prop) : List Role → List ParseTree → Prop
  | nil : FormedAll damaged [] []
  | cons {role roles tree trees} (head : Formed damaged role tree)
      (tail : FormedAll damaged roles trees) : FormedAll damaged (role :: roles) (tree :: trees)

end

namespace Role

theorem IsContent.mono {damaged damagedMore : Prop} {role : Role}
    (content : role.IsContent damaged) (more : damaged → damagedMore) :
    role.IsContent damagedMore :=
  content.imp_right (And.imp_left more)

end Role

namespace Production

/-- What follows a production still does when more of the source is damaged. -/
theorem mono {damaged damagedMore : Prop} {role : Role} {kind : Kind} {roles : List Role}
    (production : Production damaged role kind roles) (more : damaged → damagedMore) :
    Production damagedMore role kind roles := by
  induction production with
  | name => exact .name
  | ofName _ ih => exact .ofName ih
  | literal isLiteral => exact .literal isLiteral
  | parenthesized => exact .parenthesized
  | query => exact .query
  | ofPrimary _ ih => exact .ofPrimary ih
  | memberAccess => exact .memberAccess
  | invocation => exact .invocation
  | noArguments => exact .noArguments
  | someArguments count => exact .someArguments count
  | ofOperand _ ih => exact .ofOperand ih
  | binary binds => exact .binary binds
  | fromClause => exact .fromClause
  | ofFromClause _ ih => exact .ofFromClause ih
  | whereClause => exact .whereClause
  | letClause => exact .letClause
  | selectClause => exact .selectClause
  | groupClause => exact .groupClause
  | conclusion => exact .conclusion
  | queryBody count => exact .queryBody count
  | concludedBody count => exact .concludedBody count
  | block allowed => exact .block fun role member => (allowed role member).mono more
  | ofBlock _ ih => exact .ofBlock ih
  | localDeclaration => exact .localDeclaration
  | returnNothing => exact .returnNothing
  | returnValue => exact .returnValue
  | yieldReturn => exact .yieldReturn
  | yieldBreak => exact .yieldBreak
  | doStatement => exact .doStatement
  | expressionStatement => exact .expressionStatement
  | file allowed => exact .file fun role member => (allowed role member).mono more

/-- Every node has a child. -/
theorem roles_ne_nil {damaged : Prop} {role : Role} {kind : Kind} {roles : List Role}
    (production : Production damaged role kind roles) : roles ≠ [] := by
  induction production with
  | ofName _ ih | ofPrimary _ ih | ofOperand _ ih | ofFromClause _ ih | ofBlock _ ih => exact ih
  | _ => simp

theorem roles_of_identifierName {damaged : Prop} {role : Role} {kind : Kind} {roles : List Role}
    (production : Production damaged role kind roles) (isName : kind = .identifierName) :
    roles = [.leaf .identifierToken] := by
  induction production with
  | ofName _ ih | ofPrimary _ ih | ofOperand _ ih | ofFromClause _ ih | ofBlock _ ih =>
      exact ih isName
  | literal isLiteral =>
      rw [isName] at isLiteral
      cases isLiteral
  | name => rfl
  | _ => cases isName

theorem roles_of_selectClause {damaged : Prop} {role : Role} {kind : Kind} {roles : List Role}
    (production : Production damaged role kind roles) (isSelect : kind = .selectClause) :
    roles = [.leaf .selectKeyword, .expression] := by
  induction production with
  | ofName _ ih | ofPrimary _ ih | ofOperand _ ih | ofFromClause _ ih | ofBlock _ ih =>
      exact ih isSelect
  | literal isLiteral =>
      rw [isSelect] at isLiteral
      cases isLiteral
  | selectClause => rfl
  | _ => cases isSelect

theorem roles_of_groupClause {damaged : Prop} {role : Role} {kind : Kind} {roles : List Role}
    (production : Production damaged role kind roles) (isGroup : kind = .groupClause) :
    roles = [.leaf .groupKeyword, .expression, .leaf .byKeyword, .expression] := by
  induction production with
  | ofName _ ih | ofPrimary _ ih | ofOperand _ ih | ofFromClause _ ih | ofBlock _ ih =>
      exact ih isGroup
  | literal isLiteral =>
      rw [isGroup] at isLiteral
      cases isLiteral
  | groupClause => rfl
  | _ => cases isGroup

theorem roles_of_queryConclusion {damaged : Prop} {role : Role} {kind : Kind} {roles : List Role}
    (production : Production damaged role kind roles) (isConclusion : kind = .queryConclusion) :
    roles = [.leaf .yieldKeyword, .leaf .intoKeyword, .leaf .identifierToken, .leaf .doKeyword,
      .expression] := by
  induction production with
  | ofName _ ih | ofPrimary _ ih | ofOperand _ ih | ofFromClause _ ih | ofBlock _ ih =>
      exact ih isConclusion
  | literal isLiteral =>
      rw [isConclusion] at isLiteral
      cases isLiteral
  | conclusion => rfl
  | _ => cases isConclusion

end Production

mutual

theorem Formed.mono {damaged damagedMore : Prop} (more : damaged → damagedMore) {role : Role}
    {tree : ParseTree} (formed : Formed damaged role tree) : Formed damagedMore role tree :=
  match formed with
  | .token token => .token token
  | .missing kind isDamaged => .missing kind (more isDamaged)
  | .node production formed => .node (production.mono more) (FormedAll.mono more formed)
  | .wrapped production formed => .wrapped (production.mono more) (FormedAll.mono more formed)

theorem FormedAll.mono {damaged damagedMore : Prop} (more : damaged → damagedMore)
    {roles : List Role} {trees : List ParseTree} (formed : FormedAll damaged roles trees) :
    FormedAll damagedMore roles trees :=
  match formed with
  | .nil => .nil
  | .cons head tail => .cons (Formed.mono more head) (FormedAll.mono more tail)

end

/-- A piece whose node could stand in another role can stand there. -/
theorem Formed.recast {damaged : Prop} {role other : Role} {tree : ParseTree}
    (formed : Formed damaged role tree) (notLeaf : ∀ kind, role ≠ .leaf kind)
    (includes : ∀ {kind roles}, Production damaged role kind roles →
      Production damaged other kind roles) : Formed damaged other tree := by
  cases formed with
  | token token => exact absurd rfl (notLeaf token.kind)
  | missing kind isDamaged => exact absurd rfl (notLeaf kind)
  | node production formed => exact .node (includes production) formed
  | wrapped production formed => exact .wrapped (includes production) formed

namespace FormedAll

variable {damaged : Prop}

theorem append {roles others : List Role} {trees more : List ParseTree}
    (formed : FormedAll damaged roles trees) (rest : FormedAll damaged others more) :
    FormedAll damaged (roles ++ others) (trees ++ more) := by
  induction trees generalizing roles with
  | nil =>
      cases formed
      exact rest
  | cons tree trees ih =>
      cases formed with
      | cons head tail => exact .cons head (ih tail)

theorem singleton {role : Role} {tree : ParseTree} (formed : Formed damaged role tree) :
    FormedAll damaged [role] [tree] :=
  .cons formed .nil

end FormedAll

namespace ParseTree

mutual

/-- The tokens of the source in a piece of it, in order. -/
def tokens : ParseTree → List Token
  | .token leaf => [leaf]
  | .missing _ => []
  | .node _ children => tokensOfAll children
  | .wrapped _ first rest => tokens first ++ tokensOfAll rest

/-- The tokens of the source in several pieces of it. -/
def tokensOfAll : List ParseTree → List Token
  | [] => []
  | tree :: rest => tokens tree ++ tokensOfAll rest

end

@[simp]
theorem tokensOfAll_append (left right : List ParseTree) :
    tokensOfAll (left ++ right) = tokensOfAll left ++ tokensOfAll right := by
  induction left with
  | nil => simp [tokensOfAll]
  | cons tree rest ih => simp [tokensOfAll, ih]

theorem tokensOfAll_map_token (leaves : List Token) : tokensOfAll (leaves.map .token) = leaves := by
  induction leaves with
  | nil => rfl
  | cons leaf others ih => simp [tokensOfAll, tokens, ih]

end ParseTree

/-- Without tokens there is no piece of source but a damaged one. -/
theorem Formed.damaged_of_tokens_eq_nil {damaged : Prop} {role : Role} {tree : ParseTree}
    (formed : Formed damaged role tree) (noTokens : tree.tokens = []) : damaged :=
  match formed with
  | .token _ => by simp [ParseTree.tokens] at noTokens
  | .missing _ isDamaged => isDamaged
  | .node production formed => by
      cases formed with
      | nil => exact absurd rfl production.roles_ne_nil
      | cons head tail =>
          rw [ParseTree.tokens, ParseTree.tokensOfAll, List.append_eq_nil_iff] at noTokens
          exact head.damaged_of_tokens_eq_nil noTokens.1
  | .wrapped _ (.cons head _) => by
      rw [ParseTree.tokens, List.append_eq_nil_iff] at noTokens
      exact head.damaged_of_tokens_eq_nil noTokens.1

end QueryLang
