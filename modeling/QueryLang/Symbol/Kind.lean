/-!
# Symbol kinds

The closed set of things a name can stand for, with the attributes that vary by kind: the word
messages use, whether declarations of the kind are told apart by identity, and whether
accessibility and modifiers mean anything for it.
-/

namespace QueryLang

/-- What kind of entity a symbol is. -/
inductive SymbolKind
  | «namespace»
  | namedType
  | method
  | field
  | property
  | parameter
  | lambda
  | localVariable
  | label
  | rangeVariable
  | queryConclusionVariable
deriving DecidableEq, Inhabited

namespace SymbolKind

/-- All symbol kinds. -/
def all : List SymbolKind :=
  [«namespace», namedType, method, field, property, parameter, lambda, localVariable, label,
   rangeVariable, queryConclusionVariable]

/-- The name of a kind as dumps write it. -/
def name : SymbolKind → String
  | «namespace» => "Namespace"
  | namedType => "NamedType"
  | method => "Method"
  | field => "Field"
  | property => "Property"
  | parameter => "Parameter"
  | lambda => "Lambda"
  | localVariable => "Local"
  | label => "Label"
  | rangeVariable => "RangeVariable"
  | queryConclusionVariable => "QueryConclusionVariable"

/-- The word for a kind in messages to the user. -/
def displayName : SymbolKind → String
  | «namespace» => "namespace"
  | namedType => "type"
  | method => "method"
  | field => "field"
  | property => "property"
  | parameter => "parameter"
  | lambda => "lambda"
  | localVariable => "local variable"
  | label => "label"
  | rangeVariable => "range variable"
  | queryConclusionVariable => "query variable"

/-- Kinds whose declarations are told apart by identity: two of them are never the same symbol,
whatever they are called. -/
def usesIdentity : SymbolKind → Bool
  | label | localVariable | rangeVariable | queryConclusionVariable => true
  | _ => false

/-- Kinds for which accessibility and modifiers mean something. -/
def hasModifiers : SymbolKind → Bool
  | namedType | method | field | property => true
  | _ => false

/-- Kinds that can be called. -/
def isInvocable : SymbolKind → Bool
  | method | lambda => true
  | _ => false

/-- Kinds that name a type or a container of types, and so are no values. -/
def isTypeLike : SymbolKind → Bool
  | «namespace» | namedType => true
  | _ => false

end SymbolKind

end QueryLang
