import QueryLang.Binding.Expression
import QueryLang.Cancellation
import QueryLang.Program.Reading

/-!
# Binding statements

A `var` statement makes its local visible to the statements after it in the same list, and two
locals of one list may not share a name. The statement after the first `return` or `yield break`
of a list is reported as unreachable.
-/

namespace QueryLang

/-- Whether control comes past the statements of a list so far, and whether that was said. -/
inductive Reachability
  | reachable
  | unreachable
  | reported
deriving DecidableEq

/-- What binding a list of statements knows from the statements so far. -/
structure StatementScope where
  binder : Binder
  /-- The names of the list's locals. -/
  declared : List String
  reachability : Reachability

namespace StatementScope

/-- The scope at the start of a list. -/
def start (binder : Binder) : StatementScope := ⟨binder, [], .reachable⟩

/-- The scope after a statement. -/
def after (scope : StatementScope) (statement : BoundStatement) : StatementScope :=
  if scope.reachability = .reachable && statement.isTerminal then
    { scope with reachability := .unreachable }
  else
    scope

/-- Reports a statement that control does not reach, if it is the first of its list. -/
def enter (scope : StatementScope) (location : Location) : Binding StatementScope := do
  if scope.reachability = .unreachable then
    Binding.report location .unreachableCode []
    return { scope with reachability := .reported }
  else
    return scope

/-- Declares a local with its initial value, for the statements after it. -/
def declareLocal (scope : StatementScope) (identifier : Identifier) (type : TypeId) :
    Binding (StatementScope × Option Symbol) := do
  match identifier.name with
  | none => return (scope, none)
  | some name =>
    if scope.declared.contains name then
      Binding.report identifier.location .duplicateLocal [name]
    let id ← Binding.freshId
    let symbol :=
      Symbol.located id name scope.binder.container identifier.location (.localVariable type)
    let binder := scope.binder.push (.locals [symbol])
    return ({ scope with binder, declared := name :: scope.declared }, some symbol)

end StatementScope

mutual

/-- Binds a statement, and gives the scope for the statements after it. -/
def bindStatement (scope : StatementScope) :
    Statement → Binding (StatementScope × BoundStatement)
  | .localDeclaration site identifier initializer => do
    let value ← bindRoot scope.binder initializer
    let (scope, symbol) ← scope.declareLocal identifier value.type
    return (scope, .localDeclaration site.node symbol value)
  | .expression site value => do
    return (scope, .expression site.node (← bindRoot scope.binder value))
  | .returnValue site none => return (scope, .returnValue site.node none false)
  | .returnValue site (some value) => do
    return (scope, .returnValue site.node (some (← bindRoot scope.binder value)) false)
  | .yieldReturn site none => return (scope, .yieldReturn site.node (.bad site.node []))
  | .yieldReturn site (some value) => do
    return (scope, .yieldReturn site.node (← bindRoot scope.binder value))
  | .yieldBreak site => return (scope, .yieldBreak site.node)
  | .doWhile site bodySite body condition => do
    let body ← bindStatements (.start scope.binder) body
    let condition ← bindRoot scope.binder condition
    return (scope, .doWhile site.node bodySite.node body condition)
  | .block site statements => do
    return (scope, .block site.node (← bindStatements (.start scope.binder) statements))

/-- Binds statements one after the other. -/
def bindStatements (scope : StatementScope) : List Statement → Binding (List BoundStatement)
  | [] => return []
  | statement :: rest => do
    let scope ← scope.enter statement.site.location
    let (scope, bound) ← bindStatement scope statement
    return bound :: (← bindStatements (scope.after bound) rest)

end

/-- Binds a list of statements on its own. -/
def bindBlock (binder : Binder) (block : StatementList) : Binding BoundBlock := do
  return ⟨block.site.node, ← bindStatements (.start binder) block.statements⟩

/-- Binds a whole file. -/
def bindFile (binder : Binder) (tree : SyntaxTree) : Binding BoundBlock := do
  checkCancelled binder.isCancelled
  bindBlock binder (← StatementList.ofTree tree)

/-- Binds an expression as the body of a lambda, which returns it. -/
def bindAsBody (binder : Binder) (root : RootExpr) : Binding BoundBlock := do
  return .returning root.site.node (← bindRoot binder root)

/-- Binds a reference to the variable of a conclusion at a node. -/
def bindConclusionVariable (binder : Binder) (tree : SyntaxTree) (node : NodeId)
    (symbol : Symbol) : Binding BoundExpr := do
  match ← conclusionReference? node symbol binder.scopes with
  | some bound => return bound
  | none =>
    let site ← Site.ofNode tree node
    Binding.report site.location .conclusionOutOfScope [symbol.text]
    return .bad node []

end QueryLang
