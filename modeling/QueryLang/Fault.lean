import QueryLang.Syntax.Kind
import QueryLang.Symbol.Kind

/-!
# Faults

Problems in the user's program are diagnostics and never stop anything. A `Fault` is the other
kind of failure: an operation that was asked for something it cannot do, such as a position past
the end of a text, a tree part that is not there, or a request that was cancelled meanwhile.
`Checked` is the result type of every operation that can fail this way.
-/

namespace QueryLang

/-- The part that a node of its kind should have and has not. -/
inductive MissingPart
  | token (kind : Kind)
  | childNode (index : Nat)
  | anyToken
  | operator
deriving DecidableEq

namespace MissingPart

/-- The missing part in words. -/
def describe : MissingPart → String
  | token kind => s!"no {kind.name} token"
  | childNode index => s!"no child node #{index}"
  | anyToken => "no token"
  | operator => "no operator"

end MissingPart

/-- Why an operation gave no result. -/
inductive Fault
  /-- The request was cancelled before its result was ready. -/
  | cancelled
  /-- A position or length left the 32 bits that positions have. -/
  | positionOverflow
  /-- An index, or a cut inside a character, that the data does not have. -/
  | outOfRange
  /-- Span bounds whose end lies before their start. -/
  | reversedSpan
  /-- The tree builder was given a child while no node was open. -/
  | noOpenNode
  /-- The tree builder was asked to close a node while none was open. -/
  | nothingToFinish
  /-- A tree was finished while nodes were still open. -/
  | openNodesLeft
  /-- A tree was finished without any node. -/
  | noRoot
  /-- A node lacks a part that its kind calls for. -/
  | malformed (kind : Kind) (part : MissingPart)
  /-- A node was taken for an expression and is none. -/
  | notAnExpression (kind : Kind)
  /-- A node was taken for a statement and is none. -/
  | notAStatement (kind : Kind)
  /-- A node was taken for a clause of a query body and is none. -/
  | notAQueryBodyClause (kind : Kind)
  /-- A symbol of this kind cannot be a member of a type. -/
  | notAMemberKind (kind : SymbolKind)
  /-- A location that should be an identifier's holds another token. -/
  | declarationNotAnIdentifier
  /-- A conclusion variable's location lies in no query conclusion. -/
  | declarationNotAConclusion
  /-- A range-variable scope was given another kind of symbol. -/
  | notARangeVariable
  /-- A conclusion scope was given a variable of another kind. -/
  | scopeNeedsConclusionVariable
  /-- A conclusion scope was given no lambda. -/
  | scopeNeedsLambda
  /-- A conclusion body was given a variable of another kind. -/
  | conclusionNeedsItsVariable
  /-- A conclusion scope was handed a result that already holds something. -/
  | lookupNotCleared
  /-- The lambda of a conclusion has not exactly one parameter of the variable's name. -/
  | conclusionParameterCount (name : String) (found : Nat)
  /-- A conclusion was asked for a parameter other than its only one. -/
  | noSuchParameter (index : Nat)
deriving DecidableEq

namespace Fault

/-- What a fault says, for those that say something. -/
def message? : Fault → Option String
  | cancelled => some "operation was cancelled"
  | noOpenNode => some "syntax tree builder has no open node"
  | nothingToFinish => some "finish_node called without a matching start_node"
  | openNodesLeft => some "syntax tree builder finished with open nodes"
  | noRoot => some "syntax tree builder produced no root"
  | malformed kind part => some s!"malformed {kind.name}: {part.describe}"
  | notAnExpression kind => some s!"{kind.name} is not an expression"
  | notAStatement kind => some s!"{kind.name} is not a statement"
  | notAQueryBodyClause kind => some s!"{kind.name} is not a query body clause"
  | notAMemberKind kind => some s!"{kind.name} is not a member kind"
  | scopeNeedsConclusionVariable =>
    some "query conclusion scope needs a query conclusion variable"
  | scopeNeedsLambda => some "query conclusion scope needs a lambda"
  | conclusionNeedsItsVariable =>
    some "a query conclusion declares a query conclusion variable"
  | lookupNotCleared => some "lookup result must be cleared before each binder"
  | conclusionParameterCount name found =>
    some s!"query conclusion variable '{name}' must map to exactly one parameter, found {found}"
  | noSuchParameter index =>
    some s!"parameter index {index} is out of range: a query conclusion has exactly one parameter"
  | positionOverflow | outOfRange | reversedSpan | declarationNotAnIdentifier
  | declarationNotAConclusion | notARangeVariable => none

end Fault

/-- The result of an operation that a fault can stop. -/
abbrev Checked (α : Type) := Except Fault α

end QueryLang
