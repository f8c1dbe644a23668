import QueryLang.Syntax.Parser.Basic

/-!
# Parsing expressions

Each parser here takes the parser of the expressions one nesting level further down, so the
grammar is spelled out without a cycle; `Parser.expression` ties the levels together. Its
argument is how many levels may still be opened. Beyond the last one an expression is replaced by
a missing name.

Binary operators are folded into their left operand while they bind tighter than the operator to
the left of it.
-/

namespace QueryLang

/-- How deep expressions and blocks may nest. -/
def nestingLimit : Nat := 200

namespace Parser

/-- A name. -/
def identifierName : Parser ParseTree := do
  return .node .identifierName [← expect .identifierToken]

/-- The name that stands for an expression the source lacks. It reports nothing. -/
def missingName : ParseTree :=
  .node .identifierName [.missing .identifierToken]

/-- A literal of a kind. -/
def literal (kind : Kind) : Parser ParseTree := do
  return .node kind [← bump]

section Layers

variable (inner : Parser ParseTree)

/-- `from identifier in expression`. -/
def fromClause : Parser ParseTree := do
  let keyword ← bump
  let identifier ← expect .identifierToken
  let inKeyword ← expect .inKeyword
  let source ← inner
  return .node .fromClause [keyword, identifier, inKeyword, source]

/-- `where expression`. -/
def whereClause : Parser ParseTree := do
  let keyword ← bump
  let condition ← inner
  return .node .whereClause [keyword, condition]

/-- `let identifier = expression`. -/
def letClause : Parser ParseTree := do
  let keyword ← bump
  let identifier ← expect .identifierToken
  let equals ← expect .equalsToken
  let value ← inner
  return .node .letClause [keyword, identifier, equals, value]

/-- The next clause of a query body, if there is one. -/
def bodyClause : Parser (List ParseTree) := do
  match ← current with
  | .fromKeyword => return [← fromClause inner]
  | .whereKeyword => return [← whereClause inner]
  | .letKeyword => return [← letClause inner]
  | _ => return []

/-- `select expression`. -/
def selectClause : Parser ParseTree := do
  let keyword ← bump
  let value ← inner
  return .node .selectClause [keyword, value]

/-- `group expression by expression`. -/
def groupClause : Parser ParseTree := do
  let keyword ← bump
  let element ← inner
  let byKeyword ← expect .byKeyword
  let key ← inner
  return .node .groupClause [keyword, element, byKeyword, key]

/-- The clause that a query body must end with. A missing one is reported, and a `select` clause
made of missing tokens stands for it. -/
def finalClause : Parser ParseTree := do
  match ← current with
  | .selectKeyword => selectClause inner
  | .groupKeyword => groupClause inner
  | _ =>
    reportAfterLast .queryBodyEnd []
    return .node .selectClause [.missing .selectKeyword, missingName]

/-- `yield into identifier do expression`. -/
def queryConclusion : Parser ParseTree := do
  checkFeature .onlyQueryConclusions
  let yieldKeyword ← bump
  let intoKeyword ← expect .intoKeyword
  let identifier ← expect .identifierToken
  let doKeyword ← expect .doKeyword
  let body ← inner
  return .node .queryConclusion [yieldKeyword, intoKeyword, identifier, doKeyword, body]

/-- The conclusion of a query, if there is one. -/
def optionalConclusion : Parser (List ParseTree) := do
  if (← current) = .yieldKeyword then
    return [← queryConclusion inner]
  else
    return []

/-- The clauses of a query after the first. -/
def queryBody : Parser ParseTree := do
  let clauses ← many (bodyClause inner)
  let last ← finalClause inner
  let conclusion ← optionalConclusion inner
  return .node .queryBody (clauses ++ last :: conclusion)

/-- A query. -/
def queryExpression : Parser ParseTree := do
  let first ← fromClause inner
  let body ← queryBody inner
  return .node .queryExpression [first, body]

/-- `(expression)`. -/
def parenthesized : Parser ParseTree := do
  let openParen ← bump
  let expression ← inner
  let closeParen ← expect .closeParenToken
  return .node .parenthesizedExpression [openParen, expression, closeParen]

/-- Reports a token that starts no expression, unless scanning has already reported it. -/
def absentExpression : Parser ParseTree := do
  let token := (← get).currentToken
  match token.kind with
  | .unknown => pure ()
  | .endOfFileToken => reportHere .invalidTerm [Kind.endOfFileToken.displayText]
  | _ => reportHere .invalidTerm [token.text]
  return missingName

/-- A name, literal, query or expression in parentheses. -/
def primary : Parser ParseTree := do
  match ← current with
  | .identifierToken => identifierName
  | .fromKeyword => queryExpression inner
  | .openParenToken => parenthesized inner
  | .numericLiteralToken => literal .numericLiteralExpression
  | .stringLiteralToken => literal .stringLiteralExpression
  | .trueKeyword => literal .trueLiteralExpression
  | .falseKeyword => literal .falseLiteralExpression
  | _ => absentExpression

/-- A further argument after a comma, if there is one. -/
def nextArgument : Parser (List ParseTree) := do
  if (← current) = .commaToken then
    let comma ← bump
    return [comma, ← inner]
  else
    return []

/-- The arguments of a call, with their parentheses. -/
def argumentList : Parser ParseTree := do
  let openParen ← bump
  let arguments ←
    if (← current) = .closeParenToken then
      pure []
    else do
      let first ← inner
      pure (first :: (← many (nextArgument inner)))
  let closeParen ← expect .closeParenToken
  return .node .argumentList (openParen :: arguments ++ [closeParen])

/-- What follows an operand directly: a member name or arguments. -/
def suffix (operand : ParseTree) : Parser (Option ParseTree) := do
  match ← current with
  | .dotToken =>
    let dot ← bump
    return some (.wrapped .memberAccessExpression operand [dot, ← identifierName])
  | .openParenToken =>
    return some (.wrapped .invocationExpression operand [← argumentList inner])
  | _ => return none

/-- A primary expression with the member accesses and calls that follow it. -/
def postfixed : Parser ParseTree := do
  grow (suffix inner) (← primary inner)

end Layers

/-- Folds an operator that binds tighter than `minimum`, and its right operand, into the left
operand. -/
def operation (right : Nat → Parser ParseTree) (minimum : Nat) (left : ParseTree) :
    Parser (Option ParseTree) := do
  match (← current).binaryPrecedence? with
  | some precedence =>
    if precedence ≤ minimum then
      return none
    else
      let operator ← bump
      return some (.wrapped .binaryExpression left [operator, ← right precedence])
  | none => return none

/-- An expression whose operators all bind tighter than `minimum`. A right operand has fewer
precedences to choose from; `precedences` of them are left. -/
def binary (operand : Parser ParseTree) : (precedences minimum : Nat) → Parser ParseTree
  | 0, _ => operand
  | precedences + 1, minimum => do
    grow (operation (binary operand precedences) minimum) (← operand)

/-- How many precedences binary operators have. -/
def precedenceCount : Nat := 6

/-- An expression. -/
def expression : (levels : Nat) → Parser ParseTree
  | 0 => do
    reportTooDeep
    return missingName
  | levels + 1 => binary (postfixed (expression levels)) precedenceCount 0

end Parser

end QueryLang
