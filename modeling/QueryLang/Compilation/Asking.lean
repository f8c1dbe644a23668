import QueryLang.Compilation.Basic

/-!
# Questions

What is asked about a file comes with a token. The first question whose token is not cancelled binds
the file, and every question is answered from the bound file. Once that is there, tokens no longer
count.
-/

namespace QueryLang

/-- What can be asked about a file. -/
inductive Question
  /-- The bound file itself. -/
  | boundUnit
  /-- All reports about the file. -/
  | diagnostics
  /-- The lambda of the conclusion at a node. -/
  | conclusionLambda (node : NodeId)
  /-- The symbol whose identifier touches a position. -/
  | symbolAt (position : Nat)
  /-- The type that a symbol has in the file. -/
  | symbolType (symbol : Symbol)
  /-- Where in the file a symbol stands. -/
  | referenceSpans (symbol : Symbol)

/-- The answer to a question. -/
inductive Answer
  | boundUnit (unit : BoundUnit)
  | diagnostics (reports : Diagnostics)
  | conclusionLambda (found : Option BoundConclusionLambda)
  | symbolAt (found : Option Symbol)
  | symbolType (found : Option TypeId)
  | referenceSpans (spans : List Span)
deriving Inhabited

/-- Answers a question from the bound file. -/
def SemanticModel.answer (model : SemanticModel) (unit : BoundUnit) : Question → Checked Answer
  | .boundUnit => return .boundUnit unit
  | .diagnostics => return .diagnostics (model.diagnostics unit)
  | .conclusionLambda node => return .conclusionLambda (unit.lambdaAt? node)
  | .symbolAt position => return .symbolAt (← model.symbolAt? unit position)
  | .symbolType symbol => return .symbolType (unit.symbolType? symbol)
  | .referenceSpans symbol => return .referenceSpans (← model.referenceSpans unit symbol)

/-- Asks a model of a file of the compilation. Besides the answer, this gives the model and the
compilation afterwards. -/
def Compilation.ask (compilation : Compilation) (model : SemanticModel) (question : Question)
    (isCancelled : Bool) : Checked Answer × SemanticModel × Compilation :=
  match compilation.run (model.bind isCancelled) with
  | (.ok ((unit, bound), _), after) => (bound.answer unit question, bound, after)
  | (.error fault, after) => (.error fault, model, after)

end QueryLang
