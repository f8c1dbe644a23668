import QueryLang.Syntax.Kind
import QueryLang.Text.CodePoint
import QueryLang.Text.Identifier

/-!
# Lexemes

The lexical grammar on lists of characters. `splitTrivia` takes off the white space and comments
at the front of a text, and `splitLexeme` the characters of the token that follows. What is taken
off and what is left always make up the text; a lexeme takes off at least one character.
-/

namespace QueryLang

/-- Splits off white space and comments. A comment starts with two slashes and goes on to the
end of the line, which it does not include. -/
def splitTrivia (inComment : Bool) : List Char → List Char × List Char
  | [] => ([], [])
  | char :: rest =>
    if inComment && char != '\n' then
      let (trivia, after) := splitTrivia true rest
      (char :: trivia, after)
    else if isWhiteSpace char then
      let (trivia, after) := splitTrivia false rest
      (char :: trivia, after)
    else if char == '/' && rest.head? == some '/' then
      let (trivia, after) := splitTrivia true rest
      (char :: trivia, after)
    else
      ([], char :: rest)

/-- How a string literal ends. -/
inductive StringEnd
  /-- With a quote. -/
  | closed
  /-- Before a line feed or at the end of the text. -/
  | unterminated
  /-- In a backslash that has no character to escape. -/
  | danglingEscape
deriving DecidableEq

/-- Splits off the rest of a string literal whose opening quote is already taken. A backslash
takes the character after it along, whatever it is. -/
def splitString : List Char → StringEnd × List Char × List Char
  | [] => (.unterminated, [], [])
  | ['\\'] => (.danglingEscape, ['\\'], [])
  | '\\' :: escaped :: rest =>
    let (ending, chars, after) := splitString rest
    (ending, '\\' :: escaped :: chars, after)
  | char :: rest =>
    if char == '"' then
      (.closed, ['"'], rest)
    else if char == '\n' then
      (.unterminated, [], char :: rest)
    else
      let (ending, chars, after) := splitString rest
      (ending, char :: chars, after)

/-- Splits off a number: digits, and after a point more digits if there are any. -/
def splitNumber (text : List Char) : List Char × List Char :=
  let whole := text.takeWhile isAsciiDigit
  match text.dropWhile isAsciiDigit with
  | '.' :: rest =>
    let fraction := rest.takeWhile isAsciiDigit
    if fraction.isEmpty then (whole, '.' :: rest)
    else (whole ++ '.' :: fraction, rest.dropWhile isAsciiDigit)
  | rest => (whole, rest)

/-- What is wrong with a lexeme. -/
inductive LexicalProblem
  | unexpectedCharacter (char : Char)
  | newlineInConstant
  | danglingEscape
deriving DecidableEq

/-- The characters of one token, and the text after it. -/
structure Lexeme where
  kind : Kind
  chars : List Char
  rest : List Char
  problem : Option LexicalProblem

/-- The tokens of one character. -/
def singleCharacterKind? : Char → Option Kind
  | '(' => some .openParenToken
  | ')' => some .closeParenToken
  | '{' => some .openBraceToken
  | '}' => some .closeBraceToken
  | ';' => some .semicolonToken
  | ',' => some .commaToken
  | '.' => some .dotToken
  | '+' => some .plusToken
  | '-' => some .minusToken
  | '*' => some .asteriskToken
  | '/' => some .slashToken
  | '=' => some .equalsToken
  | '<' => some .lessThanToken
  | '>' => some .greaterThanToken
  | _ => none

/-- The tokens of two characters. -/
def doubleCharacterKind? : Char → Char → Option Kind
  | '=', '=' => some .equalsEqualsToken
  | '!', '=' => some .exclamationEqualsToken
  | '<', '=' => some .lessThanEqualsToken
  | '>', '=' => some .greaterThanEqualsToken
  | '&', '&' => some .ampersandAmpersandToken
  | '|', '|' => some .barBarToken
  | _, _ => none

/-- The token of two characters that a text starts with. -/
def leadingDoubleKind? (char : Char) : List Char → Option Kind
  | [] => none
  | next :: _ => doubleCharacterKind? char next

/-- The lexeme that starts with `char`, where no trivia is in front. -/
def splitLexeme (char : Char) (rest : List Char) : Lexeme :=
  match leadingDoubleKind? char rest with
  | some kind => ⟨kind, char :: rest.take 1, rest.drop 1, none⟩
  | none =>
    match singleCharacterKind? char with
    | some kind => ⟨kind, [char], rest, none⟩
    | none =>
      if char == '"' then
        match splitString rest with
        | (.closed, chars, after) => ⟨.stringLiteralToken, char :: chars, after, none⟩
        | (.unterminated, chars, after) =>
          ⟨.stringLiteralToken, char :: chars, after, some .newlineInConstant⟩
        | (.danglingEscape, chars, after) =>
          ⟨.stringLiteralToken, char :: chars, after, some .danglingEscape⟩
      else if isAsciiDigit char then
        let (chars, after) := splitNumber (char :: rest)
        ⟨.numericLiteralToken, chars, after, none⟩
      else if isIdentifierStart char then
        let chars := char :: rest.takeWhile isIdentifierPart
        ⟨(Kind.ofKeyword? (String.ofList chars)).getD .identifierToken, chars,
          rest.dropWhile isIdentifierPart, none⟩
      else
        ⟨.unknown, [char], rest, some (.unexpectedCharacter char)⟩

end QueryLang
