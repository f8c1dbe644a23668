/-!
# Syntax kinds

Every token and node of a syntax tree carries a `Kind`. Token kinds come first, then node kinds;
`Kind.number` is the position in that order. A keyword or punctuation kind is one with a fixed
spelling, and the spelling decides the class: `isKeyword` and `isPunctuation` ask for a text.
-/

namespace QueryLang

/-- The kind of a token or node. -/
inductive Kind
  -- Tokens
  | unknown
  | endOfFileToken
  | identifierToken
  | numericLiteralToken
  | stringLiteralToken
  -- Punctuation
  | openBraceToken
  | closeBraceToken
  | openParenToken
  | closeParenToken
  | dotToken
  | commaToken
  | semicolonToken
  | equalsToken
  | equalsEqualsToken
  | exclamationEqualsToken
  | lessThanToken
  | lessThanEqualsToken
  | greaterThanToken
  | greaterThanEqualsToken
  | plusToken
  | minusToken
  | asteriskToken
  | slashToken
  | ampersandAmpersandToken
  | barBarToken
  -- Keywords
  | varKeyword
  | returnKeyword
  | yieldKeyword
  | breakKeyword
  | doKeyword
  | whileKeyword
  | trueKeyword
  | falseKeyword
  | fromKeyword
  | inKeyword
  | whereKeyword
  | letKeyword
  | selectKeyword
  | groupKeyword
  | byKeyword
  | intoKeyword
  -- Nodes
  | compilationUnit
  | block
  | localDeclarationStatement
  | returnStatement
  | yieldReturnStatement
  | yieldBreakStatement
  | doStatement
  | expressionStatement
  | identifierName
  | numericLiteralExpression
  | stringLiteralExpression
  | trueLiteralExpression
  | falseLiteralExpression
  | parenthesizedExpression
  | memberAccessExpression
  | invocationExpression
  | argumentList
  | binaryExpression
  | queryExpression
  | queryBody
  | fromClause
  | whereClause
  | letClause
  | selectClause
  | groupClause
  | queryConclusion
deriving DecidableEq, Inhabited

namespace Kind

/-- All kinds, in order. -/
def all : List Kind :=
  [unknown, endOfFileToken, identifierToken, numericLiteralToken, stringLiteralToken,
   openBraceToken, closeBraceToken, openParenToken, closeParenToken, dotToken, commaToken,
   semicolonToken, equalsToken, equalsEqualsToken, exclamationEqualsToken, lessThanToken,
   lessThanEqualsToken, greaterThanToken, greaterThanEqualsToken, plusToken, minusToken,
   asteriskToken, slashToken, ampersandAmpersandToken, barBarToken,
   varKeyword, returnKeyword, yieldKeyword, breakKeyword, doKeyword, whileKeyword, trueKeyword,
   falseKeyword, fromKeyword, inKeyword, whereKeyword, letKeyword, selectKeyword, groupKeyword,
   byKeyword, intoKeyword,
   compilationUnit, block, localDeclarationStatement, returnStatement, yieldReturnStatement,
   yieldBreakStatement, doStatement, expressionStatement, identifierName,
   numericLiteralExpression, stringLiteralExpression, trueLiteralExpression,
   falseLiteralExpression, parenthesizedExpression, memberAccessExpression,
   invocationExpression, argumentList, binaryExpression, queryExpression, queryBody, fromClause,
   whereClause, letClause, selectClause, groupClause, queryConclusion]

theorem mem_all (kind : Kind) : kind ∈ all := by
  cases kind <;> decide

/-- The name of a kind as messages and dumps write it. -/
def name : Kind → String
  | unknown => "Unknown"
  | endOfFileToken => "EndOfFileToken"
  | identifierToken => "IdentifierToken"
  | numericLiteralToken => "NumericLiteralToken"
  | stringLiteralToken => "StringLiteralToken"
  | openBraceToken => "OpenBraceToken"
  | closeBraceToken => "CloseBraceToken"
  | openParenToken => "OpenParenToken"
  | closeParenToken => "CloseParenToken"
  | dotToken => "DotToken"
  | commaToken => "CommaToken"
  | semicolonToken => "SemicolonToken"
  | equalsToken => "EqualsToken"
  | equalsEqualsToken => "EqualsEqualsToken"
  | exclamationEqualsToken => "ExclamationEqualsToken"
  | lessThanToken => "LessThanToken"
  | lessThanEqualsToken => "LessThanEqualsToken"
  | greaterThanToken => "GreaterThanToken"
  | greaterThanEqualsToken => "GreaterThanEqualsToken"
  | plusToken => "PlusToken"
  | minusToken => "MinusToken"
  | asteriskToken => "AsteriskToken"
  | slashToken => "SlashToken"
  | ampersandAmpersandToken => "AmpersandAmpersandToken"
  | barBarToken => "BarBarToken"
  | varKeyword => "VarKeyword"
  | returnKeyword => "ReturnKeyword"
  | yieldKeyword => "YieldKeyword"
  | breakKeyword => "BreakKeyword"
  | doKeyword => "DoKeyword"
  | whileKeyword => "WhileKeyword"
  | trueKeyword => "TrueKeyword"
  | falseKeyword => "FalseKeyword"
  | fromKeyword => "FromKeyword"
  | inKeyword => "InKeyword"
  | whereKeyword => "WhereKeyword"
  | letKeyword => "LetKeyword"
  | selectKeyword => "SelectKeyword"
  | groupKeyword => "GroupKeyword"
  | byKeyword => "ByKeyword"
  | intoKeyword => "IntoKeyword"
  | compilationUnit => "CompilationUnit"
  | block => "Block"
  | localDeclarationStatement => "LocalDeclarationStatement"
  | returnStatement => "ReturnStatement"
  | yieldReturnStatement => "YieldReturnStatement"
  | yieldBreakStatement => "YieldBreakStatement"
  | doStatement => "DoStatement"
  | expressionStatement => "ExpressionStatement"
  | identifierName => "IdentifierName"
  | numericLiteralExpression => "NumericLiteralExpression"
  | stringLiteralExpression => "StringLiteralExpression"
  | trueLiteralExpression => "TrueLiteralExpression"
  | falseLiteralExpression => "FalseLiteralExpression"
  | parenthesizedExpression => "ParenthesizedExpression"
  | memberAccessExpression => "MemberAccessExpression"
  | invocationExpression => "InvocationExpression"
  | argumentList => "ArgumentList"
  | binaryExpression => "BinaryExpression"
  | queryExpression => "QueryExpression"
  | queryBody => "QueryBody"
  | fromClause => "FromClause"
  | whereClause => "WhereClause"
  | letClause => "LetClause"
  | selectClause => "SelectClause"
  | groupClause => "GroupClause"
  | queryConclusion => "QueryConclusion"

/-- The kind with a given name. -/
def ofName? (text : String) : Option Kind :=
  all.find? (·.name == text)

/-- The position of a kind in the order of kinds, `unknown` being 0. -/
def number (kind : Kind) : Nat :=
  all.idxOf kind

/-- The spelling of a keyword. -/
def keywordText? : Kind → Option String
  | varKeyword => some "var"
  | returnKeyword => some "return"
  | yieldKeyword => some "yield"
  | breakKeyword => some "break"
  | doKeyword => some "do"
  | whileKeyword => some "while"
  | trueKeyword => some "true"
  | falseKeyword => some "false"
  | fromKeyword => some "from"
  | inKeyword => some "in"
  | whereKeyword => some "where"
  | letKeyword => some "let"
  | selectKeyword => some "select"
  | groupKeyword => some "group"
  | byKeyword => some "by"
  | intoKeyword => some "into"
  | _ => none

/-- The spelling of a punctuation token. -/
def punctuationText? : Kind → Option String
  | openBraceToken => some "\x7b"
  | closeBraceToken => some "\x7d"
  | openParenToken => some "("
  | closeParenToken => some ")"
  | dotToken => some "."
  | commaToken => some ","
  | semicolonToken => some ";"
  | equalsToken => some "="
  | equalsEqualsToken => some "=="
  | exclamationEqualsToken => some "!="
  | lessThanToken => some "<"
  | lessThanEqualsToken => some "<="
  | greaterThanToken => some ">"
  | greaterThanEqualsToken => some ">="
  | plusToken => some "+"
  | minusToken => some "-"
  | asteriskToken => some "*"
  | slashToken => some "/"
  | ampersandAmpersandToken => some "&&"
  | barBarToken => some "||"
  | _ => none

/-- Whether a kind is a keyword: one of the reserved words. -/
def isKeyword (kind : Kind) : Bool :=
  kind.keywordText?.isSome

/-- Whether a kind is an operator, bracket or separator. -/
def isPunctuation (kind : Kind) : Bool :=
  kind.punctuationText?.isSome

/-- Whether a kind belongs to tokens. Token kinds come before `compilationUnit`. -/
def isToken (kind : Kind) : Bool :=
  kind.number < compilationUnit.number

/-- Whether a kind belongs to nodes. -/
def isNode (kind : Kind) : Bool :=
  !kind.isToken

/-- Identifiers and keywords: the tokens a caret can stand inside while they are typed. -/
def isWord (kind : Kind) : Bool :=
  kind == identifierToken || kind.isKeyword

/-- Whether a node kind is a statement. -/
def isStatement : Kind → Bool
  | block | localDeclarationStatement | returnStatement | yieldReturnStatement
  | yieldBreakStatement | doStatement | expressionStatement => true
  | _ => false

/-- Whether a node kind is a clause of a query. -/
def isQueryClause : Kind → Bool
  | fromClause | whereClause | letClause | selectClause | groupClause | queryConclusion => true
  | _ => false

/-- How tightly a binary operator binds, from 1 for `||` to 6 for `*` and `/`. -/
def binaryPrecedence? : Kind → Option Nat
  | barBarToken => some 1
  | ampersandAmpersandToken => some 2
  | equalsEqualsToken | exclamationEqualsToken => some 3
  | lessThanToken | lessThanEqualsToken | greaterThanToken | greaterThanEqualsToken => some 4
  | plusToken | minusToken => some 5
  | asteriskToken | slashToken => some 6
  | _ => none

/-- The keyword with a given spelling. -/
def ofKeyword? (text : String) : Option Kind :=
  all.find? (·.keywordText? == some text)

/-- How a token kind is named in "expected" messages: its spelling, or a word for its class. -/
def displayText (kind : Kind) : String :=
  match kind.punctuationText?, kind.keywordText? with
  | some text, _ => text
  | none, some text => text
  | none, none =>
    match kind with
    | identifierToken => "identifier"
    | endOfFileToken => "end of file"
    | _ => "token"

end Kind

end QueryLang
