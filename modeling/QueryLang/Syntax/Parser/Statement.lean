import QueryLang.Syntax.Parser.Expression

/-!
# Parsing statements and files

Statements nest through blocks, and blocks count as nesting levels together with expressions. The
content of a block beyond the last level is kept as loose tokens, up to the brace that closes the
block.

`parseText` parses a file: it scans the text, parses the tokens and builds the tree. The
diagnostics of both steps are given in the order of their places.
-/

namespace QueryLang

/-- Splits tokens before the brace that closes the block they are in, where `opened` further
blocks are open. -/
def splitAtClosingBrace : (opened : Nat) → List Token → List Token × List Token
  | _, [] => ([], [])
  | opened, token :: rest =>
    match token.kind, opened with
    | .closeBraceToken, 0 => ([], token :: rest)
    | .closeBraceToken, opened + 1 =>
      let (before, after) := splitAtClosingBrace opened rest
      (token :: before, after)
    | .openBraceToken, opened =>
      let (before, after) := splitAtClosingBrace (opened + 1) rest
      (token :: before, after)
    | _, opened =>
      let (before, after) := splitAtClosingBrace opened rest
      (token :: before, after)

namespace Parser

/-- The rest of a block as loose tokens, up to the brace that closes it. -/
def looseTokens : Parser (List ParseTree) := do
  let state ← get
  let (loose, rest) := splitAtClosingBrace 0 state.rest
  set (state.advance loose rest)
  return loose.map .token

/-- A statement, and after one that consumed nothing the token it stands at: so the statements of
a list always get further. -/
def recoveringStatement (statement : Parser ParseTree) : Parser (List ParseTree) := do
  let before := (← get).rest.length
  let parsed ← statement
  if (← get).rest.length = before then
    return [parsed, ← bump]
  else
    return [parsed]

/-- The next statement of a block, if there is one. -/
def blockStatement (statement : Parser ParseTree) : Parser (List ParseTree) := do
  match ← current with
  | .closeBraceToken | .endOfFileToken => return []
  | _ => recoveringStatement statement

/-- The next statement of a file, if there is one. -/
def fileStatement (statement : Parser ParseTree) : Parser (List ParseTree) := do
  match ← current with
  | .endOfFileToken => return []
  | _ => recoveringStatement statement

/-- A block. `content` parses what stands between the braces. -/
def blockOf (content : Parser (List ParseTree)) : Parser ParseTree := do
  if (← current) = .openBraceToken then
    let openBrace ← bump
    let statements ← content
    let closeBrace ← expect .closeBraceToken
    return .node .block (openBrace :: statements ++ [closeBrace])
  else
    let openBrace ← expect .openBraceToken
    return .node .block [openBrace, .missing .closeBraceToken]

/-- `var identifier = expression;`. -/
def localDeclaration (inner : Parser ParseTree) : Parser ParseTree := do
  let keyword ← bump
  let identifier ← expect .identifierToken
  let equals ← expect .equalsToken
  let initializer ← inner
  let semicolon ← expect .semicolonToken
  return .node .localDeclarationStatement [keyword, identifier, equals, initializer, semicolon]

/-- `return expression?;`. -/
def returnStatement (inner : Parser ParseTree) : Parser ParseTree := do
  let keyword ← bump
  let value ← if (← current) = .semicolonToken then pure [] else do pure [← inner]
  let semicolon ← expect .semicolonToken
  return .node .returnStatement (keyword :: value ++ [semicolon])

/-- `yield return expression;` or `yield break;`. -/
def yieldStatement (inner : Parser ParseTree) : Parser ParseTree := do
  if (← get).following = .breakKeyword then
    let yieldKeyword ← bump
    let breakKeyword ← bump
    let semicolon ← expect .semicolonToken
    return .node .yieldBreakStatement [yieldKeyword, breakKeyword, semicolon]
  else
    let yieldKeyword ← bump
    let returnKeyword ← expect .returnKeyword
    let value ← inner
    let semicolon ← expect .semicolonToken
    return .node .yieldReturnStatement [yieldKeyword, returnKeyword, value, semicolon]

/-- `do block while (expression);`. -/
def doStatement (block inner : Parser ParseTree) : Parser ParseTree := do
  checkFeature .onlyDoStatements
  let doKeyword ← bump
  let body ← block
  let whileKeyword ← expect .whileKeyword
  let openParen ← expect .openParenToken
  let condition ← inner
  let closeParen ← expect .closeParenToken
  let semicolon ← expect .semicolonToken
  return .node .doStatement
    [doKeyword, body, whileKeyword, openParen, condition, closeParen, semicolon]

/-- `expression;`. -/
def expressionStatement (inner : Parser ParseTree) : Parser ParseTree := do
  let value ← inner
  let semicolon ← expect .semicolonToken
  return .node .expressionStatement [value, semicolon]

/-- A statement, from the parsers of a block and of an expression. -/
def statementOf (block inner : Parser ParseTree) : Parser ParseTree := do
  match ← current with
  | .openBraceToken => block
  | .varKeyword => localDeclaration inner
  | .returnKeyword => returnStatement inner
  | .yieldKeyword => yieldStatement inner
  | .doKeyword => doStatement block inner
  | _ => expressionStatement inner

/-- A block, where `levels` more levels of nesting may be opened. -/
def block : (levels : Nat) → Parser ParseTree
  | 0 => blockOf do
    reportTooDeep
    looseTokens
  | levels + 1 => blockOf (many (blockStatement (statementOf (block levels) (expression levels))))

/-- A statement, where `levels` more levels of nesting may be opened. -/
def statement (levels : Nat) : Parser ParseTree :=
  statementOf (block levels) (expression levels)

/-- A file: its statements, and the token that ends it. -/
def compilationUnit : Parser ParseTree := do
  let statements ← many (fileStatement (statement nestingLimit))
  let endOfFile ← bump
  return .node .compilationUnit (statements ++ [endOfFile])

end Parser

/-- What parsing a text gives before it is numbered: the shape of the file, and the reports. -/
structure ParsedShape where
  shape : ParseTree
  diagnostics : Diagnostics

/-- Parses the tokens of a file. -/
def parseTokens (file : FileId) (features : Features) (scanned : ScannedText) : ParsedShape :=
  let start : ParseState :=
    { file, features
      rest := scanned.tokens
      endOfFile := scanned.endOfFile
      lastEnd := 0
      diagnostics := scanned.diagnostics
      reportedTooDeep := false }
  let (shape, finished) := Parser.compilationUnit.run start
  ⟨shape, finished.diagnostics⟩

/-- A parsed file: its tree, and the reports in the order of their places. -/
structure ParsedFile where
  tree : SyntaxTree
  diagnostics : Diagnostics
deriving Inhabited

/-- Parses a text. -/
def parseText (file : FileId) (fileName : String) (source : SourceText) (features : Features) :
    Checked ParsedFile := do
  let parsed := parseTokens file features (← scanText file source)
  let builder ← parsed.shape.build .empty
  let tree ← builder.finish file fileName source.chars features
  return ⟨tree, Diagnostics.sorted parsed.diagnostics⟩

end QueryLang
