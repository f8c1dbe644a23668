import QueryLang.Binding.Statement

/-!
# Deferred bodies

The body of a conclusion can be kept unbound until it is asked for. What kind of lambda it is, is
known before: one parameter with a name, a place and a type. The body is bound by the first
request that is not cancelled, and every later request gets the same result.
-/

namespace QueryLang

/-- The body of a conclusion, and the result of binding it if that was done. -/
structure DeferredBody where
  site : Site
  identifier : Identifier
  root : RootExpr
  declared : ConclusionVariable
  type : TypeId
  ambient : Binder
  bound : Option BoundLambda

namespace DeferredBody

/-- The body of the conclusion at a node, for a variable of a type. -/
def ofNode (tree : SyntaxTree) (node : NodeId) (symbol : Symbol) (type : TypeId)
    (ambient : Binder) : Checked DeferredBody := do
  if kind : symbol.kind = .queryConclusionVariable then
    let view ← QueryConclusionView.read tree node
    return {
      site := ← Site.ofNode tree node
      identifier := ← Identifier.ofToken tree view.identifier
      root := ← RootExpr.ofNode tree view.expression
      declared := ⟨symbol, kind⟩
      type, ambient, bound := none }
  else
    .error .conclusionNeedsItsVariable

/-- The node of the conclusion. -/
def node (body : DeferredBody) : NodeId := body.site.node

/-- How many parameters the lambda has. -/
def parameterCount (_ : DeferredBody) : Nat := 1

/-- What the only parameter has, which is the one with index zero. -/
def ofParameter (index : Nat) (value : α) : Checked α :=
  if index = 0 then .ok value else .error (.noSuchParameter index)

/-- The name of a parameter. It is empty when the source lacks it. -/
def parameterName (body : DeferredBody) (index : Nat) : Checked String :=
  ofParameter index (body.identifier.name.getD "")

/-- Where a parameter is declared. -/
def parameterLocation (body : DeferredBody) (index : Nat) : Checked Location :=
  ofParameter index body.identifier.location

/-- The type of a parameter. -/
def parameterType (body : DeferredBody) (index : Nat) : Checked TypeId :=
  ofParameter index body.type

/-- How a parameter is passed. -/
def parameterRefKind (_ : DeferredBody) (index : Nat) : Checked RefKind :=
  ofParameter index .none

/-- Whether the source gives the types of the parameters. -/
def hasExplicitTypes (_ : DeferredBody) : Bool := false

/-- Whether the lambda is asynchronous. -/
def isAsync (_ : DeferredBody) : Bool := false

/-- Whether the types of the parameters are known before the body is bound. -/
def hasKnownSignature (_ : DeferredBody) : Bool := true

/-- The language feature that the construct belongs to. -/
def feature (_ : DeferredBody) : Features := .onlyQueryConclusions

/-- A one-line description of the body. -/
def describe (body : DeferredBody) : String :=
  s!"UnboundLambda \x7b node: NodeId({body.node}), bound: {body.bound.isSome} \x7d"

/-- Binds the body as it is, for a request with a token. -/
def bindBody (body : DeferredBody) (isCancelled : Bool) : Binding BoundLambda := do
  let ambient : Binder := { body.ambient with isCancelled }
  let scope ← declareConclusionScope ambient body.site body.identifier body.declared body.type
  let (value, diagnostics) ← Binding.collecting (bindRoot (ambient.pushConclusion scope) body.root)
  return ⟨scope.lambda, .returning body.root.site.node value, diagnostics⟩

/-- Binds the body unless that was done, and gives the body afterwards. What binding reports is
reported only by the request that binds. The token is looked at before and after. -/
def bindInto (body : DeferredBody) (isCancelled : Bool) :
    Binding (BoundLambda × DeferredBody) := do
  match body.bound with
  | some bound => return (bound, body)
  | none =>
    checkCancelled isCancelled
    let bound ← body.bindBody isCancelled
    checkCancelled isCancelled
    return (bound, { body with bound := some bound })

/-- Like `bindInto`, but reports nothing. -/
def bind (body : DeferredBody) (isCancelled : Bool) : Binding (BoundLambda × DeferredBody) := do
  let before := (← get).diagnostics
  let result ← body.bindInto isCancelled
  modify fun state => { state with diagnostics := before }
  return result

end DeferredBody

end QueryLang
