import QueryLang.Symbol.Kind
import QueryLang.Text.Span
import QueryLang.Type.Table

/-!
# Symbols

A symbol is a named entity of the program: a declaration, together with the declarations around
it, innermost first. Every declaration has a number of its own, so that two declarations that
are alike in everything else can be told apart.
-/

namespace QueryLang

/-- Who may use a member. Only members and types have an answer. -/
inductive Accessibility
  | notApplicable
  | «private»
  | internal
  | «public»
deriving DecidableEq, Inhabited

namespace Accessibility

/-- All answers. -/
def all : List Accessibility := [notApplicable, «private», internal, «public»]

/-- The name of an answer as dumps write it. -/
def name : Accessibility → String
  | notApplicable => "NotApplicable"
  | «private» => "Private"
  | internal => "Internal"
  | «public» => "Public"

/-- The answer with a name. -/
def ofName? (text : String) : Option Accessibility := all.find? (·.name == text)

end Accessibility

/-- How a parameter is passed. -/
inductive RefKind
  | none
  | ref
  | out
  | «in»
deriving DecidableEq, Inhabited

namespace RefKind

/-- All ways to pass a parameter. -/
def all : List RefKind := [none, ref, out, «in»]

/-- The name of a way to pass a parameter as dumps write it. -/
def name : RefKind → String
  | none => "None"
  | ref => "Ref"
  | out => "Out"
  | «in» => "In"

/-- The way with a name. -/
def ofName? (text : String) : Option RefKind := all.find? (·.name == text)

end RefKind

/-- A modifier of a member or type. -/
inductive Modifier
  | static
  | abstract
  | virtual
  | override
  | sealed
  | external
deriving DecidableEq, Inhabited

namespace Modifier

/-- All modifiers, in the order in which they are listed. -/
def all : List Modifier := [static, abstract, virtual, override, sealed, external]

/-- The word for a modifier. -/
def name : Modifier → String
  | static => "static"
  | abstract => "abstract"
  | virtual => "virtual"
  | override => "override"
  | sealed => "sealed"
  | external => "extern"

end Modifier

/-- A parameter as its lambda declares it. -/
structure LambdaParameter where
  id : Nat
  name : String
  location : Location
  type : TypeId
  refKind : RefKind
deriving DecidableEq, Inhabited

/-- What a symbol has beyond its name, by kind. The type of a conclusion variable is not here: it
is known where the variable is introduced. -/
inductive SymbolData
  | «namespace»
  | namedType (type : TypeId)
  | method (returnType : TypeId) (parameterTypes : List TypeId)
  | field (type : TypeId)
  | property (type : TypeId)
  | parameter (type : TypeId) (ordinal : Nat) (refKind : RefKind)
  | lambda (parameters : List LambdaParameter)
  | localVariable (type : TypeId)
  | label
  | rangeVariable (type : TypeId)
  | queryConclusionVariable
deriving DecidableEq, Inhabited

namespace SymbolData

/-- The kind of symbol that the data belong to. -/
def kind : SymbolData → SymbolKind
  | «namespace» => .namespace
  | namedType _ => .namedType
  | method _ _ => .method
  | field _ => .field
  | property _ => .property
  | parameter _ _ _ => .parameter
  | lambda _ => .lambda
  | localVariable _ => .localVariable
  | label => .label
  | rangeVariable _ => .rangeVariable
  | queryConclusionVariable => .queryConclusionVariable

/-- The declared type, or the type that a method returns. -/
def type? : SymbolData → Option TypeId
  | namedType type | field type | property type | parameter type _ _ | localVariable type
  | rangeVariable type | method type _ => some type
  | «namespace» | lambda _ | label | queryConclusionVariable => none

end SymbolData

/-- A declared entity on its own. -/
structure Declaration where
  id : Nat
  name : String
  locations : List Location
  accessibility : Accessibility
  modifiers : List Modifier
  data : SymbolData
deriving DecidableEq, Inhabited

namespace Declaration

/-- The kind of a declaration. -/
def kind (declaration : Declaration) : SymbolKind := declaration.data.kind

/-- How a declaration is called in texts. Lambdas have a name that no identifier can be, and are
called by their kind. -/
def text (declaration : Declaration) : String :=
  match declaration.kind with
  | .lambda => "lambda"
  | _ => declaration.name

/-- Where the entity is first declared. -/
def firstLocation? (declaration : Declaration) : Option Location :=
  declaration.locations.head?

end Declaration

/-- A declaration with the declarations around it, innermost first. -/
structure Symbol where
  declaration : Declaration
  containers : List Declaration
deriving DecidableEq, Inhabited

namespace Symbol

/-- A declaration inside a symbol. -/
def inside (container : Option Symbol) (declaration : Declaration) : Symbol where
  declaration := declaration
  containers :=
    match container with
    | some container => container.declaration :: container.containers
    | none => []

/-- A symbol without modifiers. -/
def plain (id : Nat) (name : String) (container : Option Symbol) (locations : List Location)
    (data : SymbolData) : Symbol :=
  inside container
    { id, name, locations, accessibility := .notApplicable, modifiers := [], data }

/-- A namespace. -/
def ofNamespace (id : Nat) (name : String) : Symbol :=
  plain id name none [] .namespace

/-- A type with a name. -/
def ofType (id : Nat) (name : String) (container : Option Symbol) (type : TypeId) : Symbol :=
  inside container
    { id, name, locations := [], accessibility := .public, modifiers := []
      data := .namedType type }

/-- A member of a type. Only kinds that have modifiers can be members. -/
def ofMember (id : Nat) (name : String) (container : Symbol) (accessibility : Accessibility)
    (modifiers : List Modifier) (data : SymbolData) : Checked Symbol :=
  if data.kind.hasModifiers then
    .ok (inside (some container) { id, name, locations := [], accessibility, modifiers, data })
  else
    .error (.notAMemberKind data.kind)

/-- A symbol that is declared at a place in the source. -/
def located (id : Nat) (name : String) (container : Symbol) (location : Location)
    (data : SymbolData) : Symbol :=
  plain id name (some container) [location] data

/-- A lambda, with its parameters. -/
def ofLambda (id : Nat) (container : Symbol) (location : Location)
    (parameters : List LambdaParameter) : Symbol :=
  located id "<lambda>" container location (.lambda parameters)

/-- The number of the symbol's declaration. -/
def id (symbol : Symbol) : Nat := symbol.declaration.id

/-- The kind of a symbol. -/
def kind (symbol : Symbol) : SymbolKind := symbol.declaration.kind

/-- The name by which a symbol is looked up. -/
def name (symbol : Symbol) : String := symbol.declaration.name

/-- How a symbol is called in texts. -/
def text (symbol : Symbol) : String := symbol.declaration.text

/-- What a symbol has by its kind. -/
def data (symbol : Symbol) : SymbolData := symbol.declaration.data

/-- The places where a symbol is declared. -/
def locations (symbol : Symbol) : List Location := symbol.declaration.locations

/-- Where a symbol is first declared. -/
def firstLocation? (symbol : Symbol) : Option Location := symbol.declaration.firstLocation?

/-- The declared type of a symbol, if it has one. -/
def type? (symbol : Symbol) : Option TypeId := symbol.data.type?

/-- The symbol around a symbol. -/
def container? (symbol : Symbol) : Option Symbol :=
  match symbol.containers with
  | [] => none
  | declaration :: containers => some ⟨declaration, containers⟩

/-- The parameters of a lambda. -/
def parameters (symbol : Symbol) : List Symbol :=
  match symbol.data with
  | .lambda parameters =>
    parameters.mapIdx fun ordinal parameter =>
      located parameter.id parameter.name symbol parameter.location
        (.parameter parameter.type ordinal parameter.refKind)
  | _ => []

/-- Which parameter of its lambda or method a symbol is, counted from zero. -/
def ordinal? (symbol : Symbol) : Option Nat :=
  match symbol.data with
  | .parameter _ ordinal _ => some ordinal
  | _ => none

/-- How a parameter is passed. -/
def refKind? (symbol : Symbol) : Option RefKind :=
  match symbol.data with
  | .parameter _ _ refKind => some refKind
  | _ => none

/-- Whether a symbol can be called. -/
def isInvocable (symbol : Symbol) : Bool := symbol.kind.isInvocable

/-- Who may use a symbol. -/
def accessibility (symbol : Symbol) : Accessibility :=
  if symbol.kind.hasModifiers then symbol.declaration.accessibility else .notApplicable

/-- Whether a symbol has a modifier. -/
def hasModifier (symbol : Symbol) (modifier : Modifier) : Bool :=
  symbol.kind.hasModifiers && symbol.declaration.modifiers.contains modifier

/-- The modifiers of a symbol, in their fixed order. -/
def modifiers (symbol : Symbol) : List Modifier :=
  Modifier.all.filter symbol.hasModifier

/-- The symbol as it is seen once some declarations are gone. A symbol does not keep its
containers: the chain ends before the first that is not held otherwise. -/
def heldBy (symbol : Symbol) (isHeld : Nat → Bool) : Symbol :=
  { symbol with containers := symbol.containers.takeWhile fun container => isHeld container.id }

end Symbol

end QueryLang
