import QueryLang.Diagnostic.Catalog
import QueryLang.Syntax.Features
import QueryLang.Syntax.ParseTree
import QueryLang.Syntax.Token.Scanner

/-!
# Parsers

A `Parser` consumes tokens from the front of a file and never fails. Where the source lacks a
token, `expect` puts a missing one in its place and reports it. The end-of-file token is never
consumed; a parser that stands at it can be run on and on.
-/

namespace QueryLang

/-- Where parsing stands in a file. -/
structure ParseState where
  file : FileId
  features : Features
  /-- The tokens that are left, without the end-of-file token. -/
  rest : List Token
  endOfFile : Token
  /-- The end of the last token that was consumed, or zero. -/
  lastEnd : Nat
  diagnostics : Diagnostics
  /-- Whether too deep nesting was reported already. It is reported once. -/
  reportedTooDeep : Bool

/-- A step of parsing. -/
abbrev Parser (α : Type) := StateM ParseState α

namespace ParseState

/-- The token at which parsing stands. -/
def currentToken (state : ParseState) : Token :=
  state.rest.headD state.endOfFile

/-- The kind of the token at which parsing stands. -/
def current (state : ParseState) : Kind :=
  state.currentToken.kind

/-- The kind of the token after the one at which parsing stands. -/
def following (state : ParseState) : Kind :=
  ((state.rest.drop 1).headD state.endOfFile).kind

/-- The state after consuming tokens, with `rest` left. -/
def advance (state : ParseState) (consumed rest : List Token) : ParseState :=
  { state with
    rest
    lastEnd := match consumed.getLast? with
      | some token => token.span.start + token.span.length
      | none => state.lastEnd }

/-- Adds a report. -/
def report (state : ParseState) (span : Span) (message : DiagnosticMessage)
    (arguments : List String) : ParseState :=
  { state with
    diagnostics := state.diagnostics ++ [.located ⟨state.file, span⟩ message arguments] }

end ParseState

namespace Parser

/-- The kind of the token at which parsing stands. -/
def current : Parser Kind := do
  return (← get).current

/-- Consumes the current token. -/
def bump : Parser ParseTree := do
  let state ← get
  match state.rest with
  | token :: rest =>
    set (state.advance [token] rest)
    return .token token
  | [] => return .token state.endOfFile

/-- Reports something at the current token. -/
def reportHere (message : DiagnosticMessage) (arguments : List String) : Parser Unit :=
  modify fun state => state.report state.currentToken.span message arguments

/-- Reports something right after the last token. -/
def reportAfterLast (message : DiagnosticMessage) (arguments : List String) : Parser Unit :=
  modify fun state => state.report (.empty state.lastEnd) message arguments

/-- Consumes a token of a kind. Where there is none, a missing token takes its place and the
lack is reported. -/
def expect (kind : Kind) : Parser ParseTree := do
  if (← current) = kind then
    bump
  else
    if kind = .identifierToken then
      reportAfterLast .identifierExpected []
    else
      reportAfterLast .expected [kind.displayText]
    return .missing kind

/-- Reports too deep nesting, the first time. -/
def reportTooDeep : Parser Unit := do
  unless (← get).reportedTooDeep do
    modify ({ · with reportedTooDeep := true })
    reportHere .tooDeeplyNested []

/-- Reports a construct of a language feature that is off. -/
def checkFeature (feature : Features) : Parser Unit := do
  unless (← get).features.enables feature do
    reportHere .featureDisabled [feature.displayName]

/-- Runs a step that gives the next pieces of source until it gives none, at most `limit`
times. -/
def manyWithin (step : Parser (List ParseTree)) : (limit : Nat) → Parser (List ParseTree)
  | 0 => return []
  | limit + 1 => do
    match ← step with
    | [] => return []
    | pieces => return pieces ++ (← manyWithin step limit)

/-- Runs a step until it gives nothing. The step consumes a token whenever it gives something, so
the tokens that are left bound how often it runs. -/
def many (step : Parser (List ParseTree)) : Parser (List ParseTree) := do
  manyWithin step (← get).rest.length

/-- Grows a piece of source until the step grows it no more, at most `limit` times. -/
def growWithin (step : ParseTree → Parser (Option ParseTree)) :
    (limit : Nat) → ParseTree → Parser ParseTree
  | 0, piece => return piece
  | limit + 1, piece => do
    match ← step piece with
    | some larger => growWithin step limit larger
    | none => return piece

/-- Grows a piece of source until the step grows it no more. The step consumes a token whenever
it grows the piece. -/
def grow (step : ParseTree → Parser (Option ParseTree)) (piece : ParseTree) :
    Parser ParseTree := do
  growWithin step (← get).rest.length piece

end Parser

end QueryLang
