import QueryLang.Binding.Statement
import QueryLang.Bound.Walk
import QueryLang.Symbol.Declaring
import QueryLang.Text.Quoted

/-!
# Semantic models

A semantic model answers questions about one file: what was reported, which symbol stands at a
position, and where else it stands. The file is bound at the first question, and a cancelled
question leaves the model as it was.

Declarations are found by where their identifiers start, and references by their nodes.
-/

namespace QueryLang

/-- A bound file with what binding reported. -/
structure BoundUnit where
  block : BoundBlock
  diagnostics : Diagnostics
deriving Inhabited

/-- The lambda of a conclusion in a bound file. -/
structure BoundConclusionLambda where
  node : NodeId
  parameter : Symbol
  type : TypeId
  lambda : BoundLambda
deriving Inhabited

namespace BoundPart

/-- The symbols that a part declares by itself. -/
def declared : BoundPart → List Symbol
  | statement (.localDeclaration _ (some symbol) _) => [symbol]
  | expression (.query _ clauses conclusion _) =>
    clauses.filterMap BoundClause.symbol? ++ conclusion.symbol?.toList
  | _ => []

/-- The symbol that a part refers to, with the node of the reference. -/
def reference? : BoundPart → Option (NodeId × Symbol)
  | expression expr => expr.symbol?.map (expr.node, ·)
  | _ => none

/-- The variable of a conclusion that a part declares or refers to, with its type. -/
def conclusionType? : BoundPart → Option (Symbol × TypeId)
  | expression (.conclusionVariable symbol reference) => some (symbol, reference.type)
  | expression (.query _ _ (.present _ symbol type _ _ _ _) _) => some (symbol, type)
  | _ => none

/-- The lambda of the conclusion that a part has. -/
def lambda? : BoundPart → Option BoundConclusionLambda
  | expression (.query _ _ (.present node symbol type lambda bodyNode value diagnostics) _) =>
    some ⟨node, symbol, type, ⟨lambda, .returning bodyNode value, diagnostics⟩⟩
  | _ => none

end BoundPart

namespace BoundUnit

/-- The parts of the bound tree. -/
def parts (unit : BoundUnit) : List BoundPart := unit.block.walk

/-- The locals, range variables and conclusion variables that the file declares. -/
def declarations (unit : BoundUnit) : List Symbol := unit.parts.flatMap BoundPart.declared

/-- The references to symbols, with their nodes. -/
def references (unit : BoundUnit) : List (NodeId × Symbol) :=
  unit.parts.filterMap BoundPart.reference?

/-- The symbol whose identifier starts at a position. -/
def declarationAt? (unit : BoundUnit) (start : Nat) : Option Symbol :=
  unit.declarations.find? fun symbol => symbol.firstLocation?.any (·.start == start)

/-- The symbol that the node refers to. -/
def referenceAt? (unit : BoundUnit) (node : NodeId) : Option Symbol :=
  unit.references.lookup node

/-- The lambda of the conclusion at a node. -/
def lambdaAt? (unit : BoundUnit) (node : NodeId) : Option BoundConclusionLambda :=
  (unit.parts.filterMap BoundPart.lambda?).find? (·.node == node)

/-- How many conclusions the file has. -/
def lambdaCount (unit : BoundUnit) : Nat :=
  (unit.parts.filterMap BoundPart.lambda?).length

/-- The type of a symbol: its own, or the one that the file gives it. -/
def symbolType? (unit : BoundUnit) (symbol : Symbol) : Option TypeId :=
  match symbol.type? with
  | some type => some type
  | none =>
    ((unit.parts.filterMap BoundPart.conclusionType?).find? (·.1.sameSymbol symbol)).map Prod.snd

end BoundUnit

/-- What is known about one file: its tree, where its names are looked up, and its bound form
once that is there. -/
structure SemanticModel where
  tree : SyntaxTree
  parseDiagnostics : Diagnostics
  binder : Binder
  bound : Option BoundUnit
deriving Inhabited

namespace SemanticModel

/-- Binds the file unless that was done, and gives the model afterwards. -/
def bind (model : SemanticModel) (isCancelled : Bool) : Binding (BoundUnit × SemanticModel) := do
  match model.bound with
  | some unit => return (unit, model)
  | none =>
    let before := (← get).diagnostics
    let (block, diagnostics) ←
      Binding.collecting (bindFile { model.binder with isCancelled } model.tree)
    modify fun state => { state with diagnostics := before }
    let unit : BoundUnit := ⟨block, diagnostics⟩
    return (unit, { model with bound := some unit })

/-- All reports about the file, by place. -/
def diagnostics (model : SemanticModel) (unit : BoundUnit) : Diagnostics :=
  Diagnostics.sorted (model.parseDiagnostics ++ unit.diagnostics)

/-- Whether a token is an identifier that stands in the source and touches a position. -/
def isIdentifierAt (model : SemanticModel) (position : Nat) (id : TokenId) : Checked Bool := do
  let token ← model.tree.token id
  if token.kind = .identifierToken && !token.isMissing then
    token.span.touches position
  else
    return false

/-- The identifier that touches a position. Of two, the one after the position comes first. -/
def identifierAt? (model : SemanticModel) (position : Nat) : Checked (Option TokenId) := do
  let token ← model.tree.findToken position
  let left ← model.tree.tokenLeftOf? position
  if ← model.isIdentifierAt position token then
    return some token
  else
    match left with
    | some left => if ← model.isIdentifierAt position left then return some left else return none
    | none => return none

/-- The symbol that the identifier at a position declares, or refers to. -/
def symbolAt? (model : SemanticModel) (unit : BoundUnit) (position : Nat) :
    Checked (Option Symbol) := do
  match ← model.identifierAt? position with
  | none => return none
  | some id =>
    let token ← model.tree.token id
    return (unit.declarationAt? token.span.start).or (unit.referenceAt? token.parent)

/-- Every span of the file that declares a symbol or refers to it, in the order of the source. -/
def referenceSpans (model : SemanticModel) (unit : BoundUnit) (symbol : Symbol) :
    Checked (List Span) := do
  let references := unit.references.filter fun (_, referenced) => referenced.sameSymbol symbol
  let referenceSpans ← references.mapM fun (node, _) => model.tree.span node
  let declarations := unit.declarations.filter (·.sameSymbol symbol)
  let locations := (declarations.filterMap Symbol.firstLocation?).filter
    (·.file == model.tree.file)
  let spans := (referenceSpans ++ locations.map Location.span).mergeSort
    fun left right => left.start ≤ right.start
  return spans.eraseReps

/-- A one-line description of the model. -/
def describe (model : SemanticModel) : String :=
  let lambdas := match model.bound with
    | some unit => unit.lambdaCount
    | none => 0
  let state := s!"bound: {model.bound.isSome}, lambdas: {lambdas}"
  s!"SemanticModel \x7b file: {quoted model.tree.fileName}, {state} \x7d"

end SemanticModel

end QueryLang
