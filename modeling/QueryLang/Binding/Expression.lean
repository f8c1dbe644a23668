import QueryLang.Binding.Basic

/-!
# Binding expressions

Names are looked up from where they stand, operands before operators. An operand of the error
type makes the whole expression bad or of the error type, without another report.

In a query each `from` and `let` clause makes its variable visible to the clauses after it. The
conclusion is bound outside the query: of the query it sees only its own variable.
-/

namespace QueryLang

/-- Binds a reference to a symbol that is a good answer to a lookup. -/
def bindReference (binder : Binder) (site : Site) (name : String) (location : Location)
    (symbol : Symbol) : Binding BoundExpr := do
  let type := symbol.type?.getD .error
  match symbol.kind with
  | .localVariable => return .localVariable site.node symbol type
  | .field | .property => return .field site.node symbol type
  | .rangeVariable => return .rangeVariable site.node symbol type
  | .parameter => return .parameter ⟨site.node, symbol, type, false⟩
  | .queryConclusionVariable =>
    match ← conclusionReference? site.node symbol binder.scopes with
    | some bound => return bound
    | none =>
      Binding.report site.location .conclusionOutOfScope [symbol.text]
      return .bad site.node []
  | kind =>
    Binding.report location .usedLike [name, kind.displayName, "variable"]
    return .bad site.node []

/-- Binds a name that is used as a value. -/
def bindName (binder : Binder) (site : Site) (identifier : Identifier) : Binding BoundExpr := do
  match identifier.name with
  | none => return .bad site.node []
  | some name =>
    let result ← binder.lookup name 0 .unrestricted
    match result.answer? with
    | some symbol => bindReference binder site name identifier.location symbol
    | none =>
      result.reportFailure name identifier.location
      return .bad site.node []

/-- What the access to a member of a type gives, if it can be said. A member of the wrong sort is
reported as `misuse` says. -/
def findMember (type : TypeId) (identifier : Identifier) (wantsMethod : Bool)
    (misuse : String → Binding Unit) : Binding (Option (String × TypeId)) := do
  match identifier.name with
  | none => return none
  | some name =>
    if type.isError then
      return none
    else
      match ← Binding.member? type name with
      | some member =>
        if member.isMethod = wantsMethod then
          return some (name, member.type)
        else
          misuse name
          return none
      | none =>
        Binding.report identifier.location .noSuchMember [← Binding.displayType type, name]
        return none

/-- Binds the access to a field of a bound receiver. -/
def bindMemberAccess (site : Site) (receiver : BoundExpr) (member : Identifier) :
    Binding BoundExpr := do
  let misuse name := Binding.report member.location .usedLike [name, "method", "property"]
  match ← findMember receiver.type member false misuse with
  | some (name, type) => return .memberAccess site.node receiver name type
  | none => return .bad site.node [receiver]

/-- Binds the call of a method of a bound receiver. -/
def bindMemberCall (site : Site) (receiver : BoundExpr) (member : Identifier)
    (arguments : List BoundExpr) : Binding BoundExpr := do
  let misuse name := Binding.report member.location .notInvocable [name]
  match ← findMember receiver.type member true misuse with
  | some (name, type) => return .memberCall site.node receiver name arguments type
  | none => return .bad site.node (receiver :: arguments)

/-- Binds the call of something by its name. -/
def bindNamedCall (binder : Binder) (site : Site) (callee : Identifier)
    (arguments : List BoundExpr) : Binding BoundExpr := do
  match callee.name with
  | none => return .bad site.node arguments
  | some name =>
    let result ← binder.lookup name 0 .invocable
    match result.answer? with
    | some method =>
      return .namedCall site.node method.text arguments (method.type?.getD .error)
    | none =>
      result.reportFailure name callee.location
      return .bad site.node arguments

/-- Binds an operator between bound operands. -/
def bindOperator (site : Site) (operator : Operator) (left right : BoundExpr) :
    Binding BoundExpr := do
  let bound type : BoundExpr := .binary site.node operator.kind left right type
  if left.type.isError || right.type.isError then
    return bound .error
  else
    match operatorType? operator.kind left.type right.type with
    | some type => return bound type
    | none =>
      let leftText ← Binding.displayType left.type
      let rightText ← Binding.displayType right.type
      Binding.report operator.location .badOperands
        [operator.kind.displayText, leftText, rightText]
      return bound .error

/-- What a `from` clause over a bound source ranges over. -/
def bindElementType (source : BoundExpr) (location : Location) : Binding TypeId := do
  if source.type.isError then
    return .error
  else
    match ← (← get).types.element? source.type with
    | some element => return element
    | none =>
      Binding.report location .notQueryable [← Binding.displayType source.type]
      return .error

/-- A variable of a `from` or `let` clause. -/
abbrev RangeVariable := { symbol : Symbol // symbol.kind = .rangeVariable }

/-- Declares the variable of a `from` or `let` clause. It may not have the name of a local or of
another such variable. -/
def declareRangeVariable (binder : Binder) (identifier : Identifier) (type : TypeId) :
    Binding (Option RangeVariable) := do
  match identifier.name with
  | none => return none
  | some name =>
    let existing ← binder.lookup name 0 .unrestricted
    let conflicts symbol := symbol.kind == .localVariable || symbol.kind == .rangeVariable
    if existing.isViable && existing.symbols.any conflicts then
      Binding.report identifier.location .rangeVariableConflict [name]
    let id ← Binding.freshId
    return some
      ⟨.located id name binder.container identifier.location (.rangeVariable type), rfl⟩

/-- The binder after a clause that may declare a variable. -/
def Binder.pushRangeVariable (binder : Binder) : Option RangeVariable → Binder
  | some ⟨symbol, kind⟩ => binder.push (.rangeVariable symbol kind)
  | none => binder

/-- A variable of a conclusion. -/
abbrev ConclusionVariable := { symbol : Symbol // symbol.kind = .queryConclusionVariable }

/-- Declares the variable of a conclusion. -/
def declareConclusionVariable (binder : Binder) (name : String) (location : Location) :
    Binding ConclusionVariable := do
  let id ← Binding.freshId
  return ⟨.located id name binder.container location .queryConclusionVariable, rfl⟩

/-- The scope of a conclusion's body: a new lambda has one parameter, which is called like the
conclusion's identifier. -/
def declareConclusionScope (binder : Binder) (site : Site) (identifier : Identifier)
    (variableSymbol : ConclusionVariable) (type : TypeId) : Binding ConclusionScope := do
  let lambdaId ← Binding.freshId
  let parameterId ← Binding.freshId
  let parameter : LambdaParameter :=
    { id := parameterId, name := identifier.name.getD "", location := identifier.location
      type, refKind := .none }
  let lambda := Symbol.ofLambda lambdaId binder.container site.location [parameter]
  return { symbol := variableSymbol.val, type, lambda, symbol_kind := variableSymbol.property
           lambda_kind := rfl }

mutual

/-- Binds an expression. -/
def bindExpr (binder : Binder) : Expr → Binding BoundExpr
  | .name site identifier => bindName binder site identifier
  | .literal site value => return .literal site.node value
  | .parenthesized _ inner => bindExpr binder inner
  | .memberAccess site receiver member => do
    bindMemberAccess site (← bindExpr binder receiver) member
  | .memberCall site receiver member arguments => do
    let receiver ← bindExpr binder receiver
    bindMemberCall site receiver member (← bindExprs binder arguments)
  | .namedCall site callee arguments => do
    bindNamedCall binder site callee (← bindExprs binder arguments)
  | .valueCall site callee calleeText arguments => do
    let bound ← bindExpr binder callee
    let arguments ← bindExprs binder arguments
    Binding.report callee.site.location .notInvocable [calleeText]
    return .bad site.node (bound :: arguments)
  | .binary site operator left right => do
    let left ← bindExpr binder left
    bindOperator site operator left (← bindExpr binder right)
  | .query site clauses ending conclusion => do
    if binder.isCancelled then
      return .bad site.node []
    else
      let (inner, bound) ← bindClauses binder clauses
      let (type, last) ← bindEnding inner ending
      let (conclusion, type) ← bindConclusion binder type conclusion
      return .query site.node (bound ++ last) conclusion type

/-- Binds expressions one after the other. -/
def bindExprs (binder : Binder) : List Expr → Binding (List BoundExpr)
  | [] => return []
  | expr :: rest => do
    let bound ← bindExpr binder expr
    return bound :: (← bindExprs binder rest)

/-- Binds a clause, and gives the binder for the clauses after it. -/
def bindClause (binder : Binder) : Clause → Binding (Binder × BoundClause)
  | .fromClause site identifier source => do
    let bound ← bindExpr binder source
    let element ← bindElementType bound source.innerSite.location
    let declared ← declareRangeVariable binder identifier element
    return (binder.pushRangeVariable declared,
      .fromClause site.node (declared.map Subtype.val) bound)
  | .whereClause site condition => do
    return (binder, .whereClause site.node (← bindExpr binder condition))
  | .letClause site identifier value => do
    let bound ← bindExpr binder value
    let declared ← declareRangeVariable binder identifier bound.type
    return (binder.pushRangeVariable declared,
      .letClause site.node (declared.map Subtype.val) bound)

/-- Binds clauses one after the other, and gives the binder inside all of them. -/
def bindClauses (binder : Binder) : List Clause → Binding (Binder × List BoundClause)
  | [] => return (binder, [])
  | clause :: rest => do
    let (next, bound) ← bindClause binder clause
    let (inner, others) ← bindClauses next rest
    return (inner, bound :: others)

/-- Binds the last clause of a query, and gives the type of the query up to there. -/
def bindEnding (binder : Binder) : QueryEnding → Binding (TypeId × List BoundClause)
  | .absent => return (.error, [])
  | .selectClause site selected => do
    let bound ← bindExpr binder selected
    let type ← Binding.sequenceType bound.type
    return (type, [.selectClause site.node bound])
  | .groupClause site element key => do
    let element ← bindExpr binder element
    let key ← bindExpr binder key
    let grouping ← Binding.groupingType key.type element.type
    let type ← Binding.sequenceType grouping
    return (type, [.groupClause site.node element key])

/-- Binds the conclusion of a query whose clauses give a type. The type of the whole query is
then that of the conclusion's body. A conclusion without a name is left out. -/
def bindConclusion (binder : Binder) (type : TypeId) :
    Conclusion → Binding (BoundConclusion × TypeId)
  | .absent => return (.absent, type)
  | .present site identifier body => do
    match identifier.name with
    | none => return (.absent, type)
    | some name =>
      let declared ← declareConclusionVariable binder name identifier.location
      let scope ← declareConclusionScope binder site identifier declared type
      let (value, diagnostics) ←
        Binding.collecting (bindRoot (binder.pushConclusion scope) body)
      return (.present site.node declared type scope.lambda body.site.node value diagnostics,
        value.type)

/-- Binds the expression of a statement or of a conclusion. -/
def bindRoot (binder : Binder) : RootExpr → Binding BoundExpr
  | .tooDeep site reported => do
    Binding.report reported .tooDeeplyNested []
    return .bad site.node []
  | .expression expr => bindExpr binder expr

end

end QueryLang
