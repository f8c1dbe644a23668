import QueryLang.Diagnostic.Catalog
import QueryLang.Syntax.Token
import QueryLang.Syntax.Token.Lexeme

/-!
# Scanning

A `Scanner` stands at an offset of a file, with the characters that are left. `Scanner.scan`
passes over trivia and takes the next token; at the end of the text it answers end-of-file tokens
forever. `scanText` scans a whole text, up to one end-of-file token.

Scanning reports characters that start no token and strings without a closing quote. It fails
only on a string whose last character is a backslash at the very end of the text: the escape
reaches past the end.
-/

namespace QueryLang

/-- Where scanning stands. -/
structure Scanner where
  file : FileId
  rest : List Char
  offset : Nat

/-- What one step of scanning gives. -/
structure ScanStep where
  token : Token
  diagnostics : Diagnostics
  after : Scanner

/-- The report on a lexical problem at a place. -/
def LexicalProblem.report (problem : LexicalProblem) (location : Location) :
    Checked Diagnostic :=
  match problem with
  | .unexpectedCharacter char =>
    .ok (.located location .unexpectedCharacter [String.ofList [char]])
  | .newlineInConstant => .ok (.located location .newlineInConstant [])
  | .danglingEscape => .error .outOfRange

namespace Scanner

/-- A scanner at the start of a text. -/
def start (file : FileId) (source : SourceText) : Scanner :=
  ⟨file, source.chars, 0⟩

/-- The scanner after the trivia it stands at. -/
def skipTrivia (scanner : Scanner) : Scanner :=
  let (trivia, rest) := splitTrivia false scanner.rest
  { scanner with rest, offset := scanner.offset + byteLength trivia }

/-- The end-of-file token where the scanner stands. -/
def endOfFile (scanner : Scanner) : Token :=
  ⟨.endOfFileToken, .empty scanner.offset, ""⟩

/-- Takes the lexeme at which the scanner stands. -/
def take (scanner : Scanner) (lexeme : Lexeme) : Checked ScanStep := do
  let span : Span := ⟨scanner.offset, byteLength lexeme.chars⟩
  let diagnostics ← match lexeme.problem with
    | some problem => (problem.report ⟨scanner.file, span⟩).map ([·])
    | none => .ok []
  return {
    token := ⟨lexeme.kind, span, String.ofList lexeme.chars⟩
    diagnostics
    after := ⟨scanner.file, lexeme.rest, scanner.offset + span.length⟩ }

/-- Scans the next token. -/
def scan (scanner : Scanner) : Checked ScanStep :=
  let scanner := scanner.skipTrivia
  match scanner.rest with
  | [] => .ok ⟨scanner.endOfFile, [], scanner⟩
  | char :: rest => scanner.take (splitLexeme char rest)

/-- Scans a number of tokens, with what scanning them reports. Past the end of the text each is
the end-of-file token. -/
def scanTimes (scanner : Scanner) : (count : Nat) → Checked (List Token × Diagnostics)
  | 0 => .ok ([], [])
  | count + 1 => do
    let step ← scanner.scan
    let (tokens, diagnostics) ← step.after.scanTimes count
    return (step.token :: tokens, step.diagnostics ++ diagnostics)

end Scanner

/-- A text in tokens. -/
structure ScannedText where
  /-- The tokens before the end of the file. -/
  tokens : List Token
  /-- The token that ends the file: it has no width. -/
  endOfFile : Token
  /-- What scanning reports, in the order of the tokens. -/
  diagnostics : Diagnostics
deriving Inhabited

namespace ScannedText

/-- All tokens, the end-of-file token last. -/
def allTokens (scanned : ScannedText) : List Token :=
  scanned.tokens ++ [scanned.endOfFile]

end ScannedText

namespace Scanner

/-- Scans up to the end of the text. Every token before the end takes a character, so there are
at most as many as characters are left. -/
def scanRest (scanner : Scanner) : Nat → Checked ScannedText
  | 0 => .ok ⟨[], scanner.skipTrivia.endOfFile, []⟩
  | limit + 1 => do
    let step ← scanner.scan
    if step.token.kind = .endOfFileToken then
      return ⟨[], step.token, step.diagnostics⟩
    else
      let scanned ← step.after.scanRest limit
      return { scanned with
        tokens := step.token :: scanned.tokens
        diagnostics := step.diagnostics ++ scanned.diagnostics }

end Scanner

/-- Scans a whole text. -/
def scanText (file : FileId) (source : SourceText) : Checked ScannedText :=
  (Scanner.start file source).scanRest source.chars.length

end QueryLang
