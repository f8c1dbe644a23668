import QueryLang.Compilation.Model
import QueryLang.Proofs.Symbol.Matching

/-!
# Bound trees that match

Bound trees are alike when they differ in the numbers of symbols and in the indices of types only.
What a tree declares and refers to is then alike as well, part by part in the order of a walk.
-/

namespace QueryLang

variable {types weaker : TypeId → TypeId → Prop} {ids weakerIds : Nat → Nat → Prop}

/-- References to parameters that are alike. -/
structure ParameterReference.Alike (types : TypeId → TypeId → Prop) (ids : Nat → Nat → Prop)
    (reference other : ParameterReference) : Prop where
  node : reference.node = other.node
  parameter : reference.parameter.Alike types ids other.parameter
  type : types reference.type other.type
  isGenerated : reference.isGenerated = other.isGenerated

mutual

/-- Bound expressions that differ in numbers and in the indices of types only. -/
inductive BoundExpr.Alike (types : TypeId → TypeId → Prop) (ids : Nat → Nat → Prop) :
    BoundExpr → BoundExpr → Prop
  | literal (node : NodeId) {value : Constant} (fixed : types value.type value.type) :
      BoundExpr.Alike types ids (.literal node value) (.literal node value)
  | localVariable (node : NodeId) {symbol other : Symbol} {type otherType : TypeId}
      (symbols : symbol.Alike types ids other) (type_alike : types type otherType) :
      BoundExpr.Alike types ids (.localVariable node symbol type)
        (.localVariable node other otherType)
  | field (node : NodeId) {symbol other : Symbol} {type otherType : TypeId}
      (symbols : symbol.Alike types ids other) (type_alike : types type otherType) :
      BoundExpr.Alike types ids (.field node symbol type) (.field node other otherType)
  | rangeVariable (node : NodeId) {symbol other : Symbol} {type otherType : TypeId}
      (symbols : symbol.Alike types ids other) (type_alike : types type otherType) :
      BoundExpr.Alike types ids (.rangeVariable node symbol type)
        (.rangeVariable node other otherType)
  | parameter {reference other : ParameterReference} (references : reference.Alike types ids other) :
      BoundExpr.Alike types ids (.parameter reference) (.parameter other)
  | conclusionVariable {symbol other : Symbol} {reference otherReference : ParameterReference}
      (symbols : symbol.Alike types ids other)
      (references : reference.Alike types ids otherReference) :
      BoundExpr.Alike types ids (.conclusionVariable symbol reference)
        (.conclusionVariable other otherReference)
  | memberAccess (node : NodeId) (member : String) {receiver other : BoundExpr}
      {type otherType : TypeId} (receivers : BoundExpr.Alike types ids receiver other)
      (type_alike : types type otherType) :
      BoundExpr.Alike types ids (.memberAccess node receiver member type)
        (.memberAccess node other member otherType)
  | memberCall (node : NodeId) (method : String) {receiver other : BoundExpr}
      {arguments others : List BoundExpr} {type otherType : TypeId}
      (receivers : BoundExpr.Alike types ids receiver other)
      (arguments_alike : BoundExpr.AllAlike types ids arguments others)
      (type_alike : types type otherType) :
      BoundExpr.Alike types ids (.memberCall node receiver method arguments type)
        (.memberCall node other method others otherType)
  | namedCall (node : NodeId) (method : String) {arguments others : List BoundExpr}
      {type otherType : TypeId} (arguments_alike : BoundExpr.AllAlike types ids arguments others)
      (type_alike : types type otherType) :
      BoundExpr.Alike types ids (.namedCall node method arguments type)
        (.namedCall node method others otherType)
  | binary (node : NodeId) (operator : Kind) {left otherLeft right otherRight : BoundExpr}
      {type otherType : TypeId} (lefts : BoundExpr.Alike types ids left otherLeft)
      (rights : BoundExpr.Alike types ids right otherRight) (type_alike : types type otherType) :
      BoundExpr.Alike types ids (.binary node operator left right type)
        (.binary node operator otherLeft otherRight otherType)
  | query (node : NodeId) {clauses others : List BoundClause}
      {conclusion other : BoundConclusion} {type otherType : TypeId}
      (clauses_alike : BoundClause.AllAlike types ids clauses others)
      (conclusions : BoundConclusion.Alike types ids conclusion other)
      (type_alike : types type otherType) :
      BoundExpr.Alike types ids (.query node clauses conclusion type)
        (.query node others other otherType)
  | bad (node : NodeId) {children others : List BoundExpr}
      (children_alike : BoundExpr.AllAlike types ids children others)
      (fixed : types .error .error) :
      BoundExpr.Alike types ids (.bad node children) (.bad node others)

/-- Expressions that are alike one by one. -/
inductive BoundExpr.AllAlike (types : TypeId → TypeId → Prop) (ids : Nat → Nat → Prop) :
    List BoundExpr → List BoundExpr → Prop
  | nil : BoundExpr.AllAlike types ids [] []
  | cons {expr other : BoundExpr} {rest others : List BoundExpr}
      (first : BoundExpr.Alike types ids expr other)
      (rest_alike : BoundExpr.AllAlike types ids rest others) :
      BoundExpr.AllAlike types ids (expr :: rest) (other :: others)

/-- Clauses that differ in numbers and in the indices of types only. -/
inductive BoundClause.Alike (types : TypeId → TypeId → Prop) (ids : Nat → Nat → Prop) :
    BoundClause → BoundClause → Prop
  | fromClause (node : NodeId) {symbol other : Option Symbol} {source otherSource : BoundExpr}
      (symbols : Option.Rel (Symbol.Alike types ids) symbol other)
      (sources : BoundExpr.Alike types ids source otherSource) :
      BoundClause.Alike types ids (.fromClause node symbol source)
        (.fromClause node other otherSource)
  | whereClause (node : NodeId) {condition other : BoundExpr}
      (conditions : BoundExpr.Alike types ids condition other) :
      BoundClause.Alike types ids (.whereClause node condition) (.whereClause node other)
  | letClause (node : NodeId) {symbol other : Option Symbol} {value otherValue : BoundExpr}
      (symbols : Option.Rel (Symbol.Alike types ids) symbol other)
      (values : BoundExpr.Alike types ids value otherValue) :
      BoundClause.Alike types ids (.letClause node symbol value) (.letClause node other otherValue)
  | selectClause (node : NodeId) {selected other : BoundExpr}
      (selecteds : BoundExpr.Alike types ids selected other) :
      BoundClause.Alike types ids (.selectClause node selected) (.selectClause node other)
  | groupClause (node : NodeId) {element otherElement key otherKey : BoundExpr}
      (elements : BoundExpr.Alike types ids element otherElement)
      (keys : BoundExpr.Alike types ids key otherKey) :
      BoundClause.Alike types ids (.groupClause node element key)
        (.groupClause node otherElement otherKey)

/-- Clauses that are alike one by one. -/
inductive BoundClause.AllAlike (types : TypeId → TypeId → Prop) (ids : Nat → Nat → Prop) :
    List BoundClause → List BoundClause → Prop
  | nil : BoundClause.AllAlike types ids [] []
  | cons {clause other : BoundClause} {rest others : List BoundClause}
      (first : BoundClause.Alike types ids clause other)
      (rest_alike : BoundClause.AllAlike types ids rest others) :
      BoundClause.AllAlike types ids (clause :: rest) (other :: others)

/-- Conclusions that differ in numbers and in the indices of types only. -/
inductive BoundConclusion.Alike (types : TypeId → TypeId → Prop) (ids : Nat → Nat → Prop) :
    BoundConclusion → BoundConclusion → Prop
  | absent : BoundConclusion.Alike types ids .absent .absent
  | present (node bodyNode : NodeId) (diagnostics : Diagnostics)
      {symbol other lambda otherLambda : Symbol} {type otherType : TypeId}
      {value otherValue : BoundExpr}
      (symbols : symbol.Alike types ids other) (type_alike : types type otherType)
      (lambdas : lambda.Alike types ids otherLambda)
      (values : BoundExpr.Alike types ids value otherValue) :
      BoundConclusion.Alike types ids (.present node symbol type lambda bodyNode value diagnostics)
        (.present node other otherType otherLambda bodyNode otherValue diagnostics)

end

mutual

/-- Bound statements that differ in numbers and in the indices of types only. -/
inductive BoundStatement.Alike (types : TypeId → TypeId → Prop) (ids : Nat → Nat → Prop) :
    BoundStatement → BoundStatement → Prop
  | localDeclaration (node : NodeId) {symbol other : Option Symbol} {value otherValue : BoundExpr}
      (symbols : Option.Rel (Symbol.Alike types ids) symbol other)
      (values : value.Alike types ids otherValue) :
      BoundStatement.Alike types ids (.localDeclaration node symbol value)
        (.localDeclaration node other otherValue)
  | expression (node : NodeId) {value other : BoundExpr} (values : value.Alike types ids other) :
      BoundStatement.Alike types ids (.expression node value) (.expression node other)
  | returnValue (node : NodeId) (isGenerated : Bool) {value other : Option BoundExpr}
      (values : Option.Rel (BoundExpr.Alike types ids) value other) :
      BoundStatement.Alike types ids (.returnValue node value isGenerated)
        (.returnValue node other isGenerated)
  | yieldReturn (node : NodeId) {value other : BoundExpr} (values : value.Alike types ids other) :
      BoundStatement.Alike types ids (.yieldReturn node value) (.yieldReturn node other)
  | yieldBreak (node : NodeId) : BoundStatement.Alike types ids (.yieldBreak node) (.yieldBreak node)
  | doWhile (node bodyNode : NodeId) {body otherBody : List BoundStatement}
      {condition other : BoundExpr}
      (bodies : BoundStatement.AllAlike types ids body otherBody)
      (conditions : condition.Alike types ids other) :
      BoundStatement.Alike types ids (.doWhile node bodyNode body condition)
        (.doWhile node bodyNode otherBody other)
  | block (node : NodeId) {statements others : List BoundStatement}
      (statements_alike : BoundStatement.AllAlike types ids statements others) :
      BoundStatement.Alike types ids (.block node statements) (.block node others)

/-- Statements that are alike one by one. -/
inductive BoundStatement.AllAlike (types : TypeId → TypeId → Prop) (ids : Nat → Nat → Prop) :
    List BoundStatement → List BoundStatement → Prop
  | nil : BoundStatement.AllAlike types ids [] []
  | cons {statement other : BoundStatement} {rest others : List BoundStatement}
      (first : BoundStatement.Alike types ids statement other)
      (rest_alike : BoundStatement.AllAlike types ids rest others) :
      BoundStatement.AllAlike types ids (statement :: rest) (other :: others)

end

/-- Blocks whose statements are alike. -/
structure BoundBlock.Alike (types : TypeId → TypeId → Prop) (ids : Nat → Nat → Prop)
    (block other : BoundBlock) : Prop where
  node : block.node = other.node
  statements : BoundStatement.AllAlike types ids block.statements other.statements

/-- Lambdas whose bodies are alike, and about which the same was reported. -/
structure BoundLambda.Alike (types : TypeId → TypeId → Prop) (ids : Nat → Nat → Prop)
    (lambda other : BoundLambda) : Prop where
  symbol : lambda.symbol.Alike types ids other.symbol
  body : lambda.body.Alike types ids other.body
  diagnostics : lambda.diagnostics = other.diagnostics

/-- Bound files that are alike, and about which the same was reported. -/
structure BoundUnit.Alike (types : TypeId → TypeId → Prop) (ids : Nat → Nat → Prop)
    (unit other : BoundUnit) : Prop where
  block : unit.block.Alike types ids other.block
  diagnostics : unit.diagnostics = other.diagnostics

/-- Lambdas of conclusions at the same node that are alike. -/
structure BoundConclusionLambda.Alike (types : TypeId → TypeId → Prop) (ids : Nat → Nat → Prop)
    (found other : BoundConclusionLambda) : Prop where
  node : found.node = other.node
  parameter : found.parameter.Alike types ids other.parameter
  type : types found.type other.type
  lambda : found.lambda.Alike types ids other.lambda

/-- Parts that are alike. -/
inductive BoundPart.Alike (types : TypeId → TypeId → Prop) (ids : Nat → Nat → Prop) :
    BoundPart → BoundPart → Prop
  | block (node : NodeId) : Alike types ids (.block node) (.block node)
  | statement {bound other : BoundStatement} (alike : bound.Alike types ids other) :
      Alike types ids (.statement bound) (.statement other)
  | expression {bound other : BoundExpr} (alike : bound.Alike types ids other) :
      Alike types ids (.expression bound) (.expression other)

/-! ### More types and numbers that match -/

section Mono

variable (implies : ∀ type other, types type other → weaker type other)
  (impliesIds : ∀ number other, ids number other → weakerIds number other)

include implies impliesIds

theorem ParameterReference.Alike.mono {reference other : ParameterReference}
    (alike : reference.Alike types ids other) : reference.Alike weaker weakerIds other :=
  ⟨alike.node, alike.parameter.mono implies impliesIds, implies _ _ alike.type, alike.isGenerated⟩

theorem Symbol.Alike.option_mono {symbol other : Option Symbol}
    (alike : Option.Rel (Symbol.Alike types ids) symbol other) :
    Option.Rel (Symbol.Alike weaker weakerIds) symbol other := by
  cases alike with
  | none => exact .none
  | some symbols => exact .some (symbols.mono implies impliesIds)

end Mono

mutual

theorem BoundExpr.Alike.mono {bound other : BoundExpr}
    (implies : ∀ type other, types type other → weaker type other)
    (impliesIds : ∀ number other, ids number other → weakerIds number other)
    (alike : bound.Alike types ids other) : bound.Alike weaker weakerIds other := by
  match bound, other, alike with
  | _, _, .literal node fixed => exact .literal node (implies _ _ fixed)
  | _, _, .localVariable node symbols type_alike =>
      exact .localVariable node (symbols.mono implies impliesIds) (implies _ _ type_alike)
  | _, _, .field node symbols type_alike =>
      exact .field node (symbols.mono implies impliesIds) (implies _ _ type_alike)
  | _, _, .rangeVariable node symbols type_alike =>
      exact .rangeVariable node (symbols.mono implies impliesIds) (implies _ _ type_alike)
  | _, _, .parameter references => exact .parameter (references.mono implies impliesIds)
  | _, _, .conclusionVariable symbols references =>
      exact .conclusionVariable (symbols.mono implies impliesIds)
        (references.mono implies impliesIds)
  | _, _, .memberAccess node member receivers type_alike =>
      exact .memberAccess node member (receivers.mono implies impliesIds) (implies _ _ type_alike)
  | _, _, .memberCall node method receivers arguments_alike type_alike =>
      exact .memberCall node method (receivers.mono implies impliesIds)
        (arguments_alike.mono implies impliesIds) (implies _ _ type_alike)
  | _, _, .namedCall node method arguments_alike type_alike =>
      exact .namedCall node method (arguments_alike.mono implies impliesIds)
        (implies _ _ type_alike)
  | _, _, .binary node operator lefts rights type_alike =>
      exact .binary node operator (lefts.mono implies impliesIds) (rights.mono implies impliesIds)
        (implies _ _ type_alike)
  | _, _, .query node clauses_alike conclusions type_alike =>
      exact .query node (clauses_alike.mono implies impliesIds) (conclusions.mono implies impliesIds)
        (implies _ _ type_alike)
  | _, _, .bad node children_alike fixed =>
      exact .bad node (children_alike.mono implies impliesIds) (implies _ _ fixed)

theorem BoundExpr.AllAlike.mono {exprs others : List BoundExpr}
    (implies : ∀ type other, types type other → weaker type other)
    (impliesIds : ∀ number other, ids number other → weakerIds number other)
    (alike : BoundExpr.AllAlike types ids exprs others) :
    BoundExpr.AllAlike weaker weakerIds exprs others := by
  match exprs, others, alike with
  | _, _, .nil => exact .nil
  | _, _, .cons first rest_alike =>
      exact .cons (first.mono implies impliesIds) (rest_alike.mono implies impliesIds)

theorem BoundClause.Alike.mono {clause other : BoundClause}
    (implies : ∀ type other, types type other → weaker type other)
    (impliesIds : ∀ number other, ids number other → weakerIds number other)
    (alike : clause.Alike types ids other) : clause.Alike weaker weakerIds other := by
  match clause, other, alike with
  | _, _, .fromClause node symbols sources =>
      exact .fromClause node (Symbol.Alike.option_mono implies impliesIds symbols)
        (sources.mono implies impliesIds)
  | _, _, .whereClause node conditions =>
      exact .whereClause node (conditions.mono implies impliesIds)
  | _, _, .letClause node symbols values =>
      exact .letClause node (Symbol.Alike.option_mono implies impliesIds symbols)
        (values.mono implies impliesIds)
  | _, _, .selectClause node selecteds =>
      exact .selectClause node (selecteds.mono implies impliesIds)
  | _, _, .groupClause node elements keys =>
      exact .groupClause node (elements.mono implies impliesIds) (keys.mono implies impliesIds)

theorem BoundClause.AllAlike.mono {clauses others : List BoundClause}
    (implies : ∀ type other, types type other → weaker type other)
    (impliesIds : ∀ number other, ids number other → weakerIds number other)
    (alike : BoundClause.AllAlike types ids clauses others) :
    BoundClause.AllAlike weaker weakerIds clauses others := by
  match clauses, others, alike with
  | _, _, .nil => exact .nil
  | _, _, .cons first rest_alike =>
      exact .cons (first.mono implies impliesIds) (rest_alike.mono implies impliesIds)

theorem BoundConclusion.Alike.mono {conclusion other : BoundConclusion}
    (implies : ∀ type other, types type other → weaker type other)
    (impliesIds : ∀ number other, ids number other → weakerIds number other)
    (alike : conclusion.Alike types ids other) : conclusion.Alike weaker weakerIds other := by
  match conclusion, other, alike with
  | _, _, .absent => exact .absent
  | _, _, .present node bodyNode diagnostics symbols type_alike lambdas values =>
      exact .present node bodyNode diagnostics (symbols.mono implies impliesIds)
        (implies _ _ type_alike) (lambdas.mono implies impliesIds) (values.mono implies impliesIds)

end

mutual

theorem BoundStatement.Alike.mono {bound other : BoundStatement}
    (implies : ∀ type other, types type other → weaker type other)
    (impliesIds : ∀ number other, ids number other → weakerIds number other)
    (alike : bound.Alike types ids other) : bound.Alike weaker weakerIds other := by
  match bound, other, alike with
  | _, _, .localDeclaration node symbols values =>
      exact .localDeclaration node (Symbol.Alike.option_mono implies impliesIds symbols)
        (values.mono implies impliesIds)
  | _, _, .expression node values => exact .expression node (values.mono implies impliesIds)
  | _, _, .returnValue node isGenerated .none => exact .returnValue node isGenerated .none
  | _, _, .returnValue node isGenerated (.some values) =>
      exact .returnValue node isGenerated (.some (values.mono implies impliesIds))
  | _, _, .yieldReturn node values => exact .yieldReturn node (values.mono implies impliesIds)
  | _, _, .yieldBreak node => exact .yieldBreak node
  | _, _, .doWhile node bodyNode bodies conditions =>
      exact .doWhile node bodyNode (bodies.mono implies impliesIds)
        (conditions.mono implies impliesIds)
  | _, _, .block node statements_alike =>
      exact .block node (statements_alike.mono implies impliesIds)

theorem BoundStatement.AllAlike.mono {statements others : List BoundStatement}
    (implies : ∀ type other, types type other → weaker type other)
    (impliesIds : ∀ number other, ids number other → weakerIds number other)
    (alike : BoundStatement.AllAlike types ids statements others) :
    BoundStatement.AllAlike weaker weakerIds statements others := by
  match statements, others, alike with
  | _, _, .nil => exact .nil
  | _, _, .cons first rest_alike =>
      exact .cons (first.mono implies impliesIds) (rest_alike.mono implies impliesIds)

end

section Mono

variable (implies : ∀ type other, types type other → weaker type other)
  (impliesIds : ∀ number other, ids number other → weakerIds number other)

include implies impliesIds

theorem BoundBlock.Alike.mono {block other : BoundBlock} (alike : block.Alike types ids other) :
    block.Alike weaker weakerIds other :=
  ⟨alike.node, alike.statements.mono implies impliesIds⟩

theorem BoundUnit.Alike.mono {unit other : BoundUnit} (alike : unit.Alike types ids other) :
    unit.Alike weaker weakerIds other :=
  ⟨alike.block.mono implies impliesIds, alike.diagnostics⟩

end Mono

/-! ### What trees that are alike share -/

theorem BoundClause.AllAlike.append {left otherLeft right otherRight : List BoundClause}
    (lefts : BoundClause.AllAlike types ids left otherLeft)
    (rights : BoundClause.AllAlike types ids right otherRight) :
    BoundClause.AllAlike types ids (left ++ right) (otherLeft ++ otherRight) := by
  induction left generalizing otherLeft with
  | nil =>
      cases lefts
      exact rights
  | cons clause rest ih =>
      cases lefts with
      | cons first rest_alike => exact .cons first (ih rest_alike)

theorem BoundExpr.Alike.type {bound other : BoundExpr} (alike : bound.Alike types ids other) :
    types bound.type other.type := by
  cases alike with
  | literal node fixed | bad node children fixed => exact fixed
  | localVariable node symbols type_alike | field node symbols type_alike
  | rangeVariable node symbols type_alike => exact type_alike
  | parameter references | conclusionVariable symbols references => exact references.type
  | memberAccess node member receivers type_alike => exact type_alike
  | memberCall node method receivers arguments_alike type_alike => exact type_alike
  | namedCall node method arguments_alike type_alike => exact type_alike
  | binary node operator lefts rights type_alike => exact type_alike
  | query node clauses_alike conclusions type_alike => exact type_alike

theorem BoundExpr.Alike.node {bound other : BoundExpr} (alike : bound.Alike types ids other) :
    bound.node = other.node := by
  cases alike with
  | parameter references | conclusionVariable symbols references => exact references.node
  | _ => rfl

theorem BoundExpr.Alike.symbol? {bound other : BoundExpr} (alike : bound.Alike types ids other) :
    Option.Rel (Symbol.Alike types ids) bound.symbol? other.symbol? := by
  cases alike with
  | localVariable node symbols | field node symbols | rangeVariable node symbols
  | conclusionVariable symbols => exact .some symbols
  | parameter references => exact .some references.parameter
  | _ => exact .none

theorem BoundClause.Alike.symbol? {clause other : BoundClause}
    (alike : clause.Alike types ids other) :
    Option.Rel (Symbol.Alike types ids) clause.symbol? other.symbol? := by
  cases alike with
  | fromClause node symbols | letClause node symbols => exact symbols
  | _ => exact .none

theorem BoundClause.AllAlike.forall₂ {clauses others : List BoundClause}
    (alike : BoundClause.AllAlike types ids clauses others) :
    List.Forall₂ (BoundClause.Alike types ids) clauses others := by
  induction clauses generalizing others with
  | nil =>
      cases alike
      exact .nil
  | cons clause rest ih =>
      cases alike with
      | cons first rest_alike => exact .cons first (ih rest_alike)

theorem BoundStatement.Alike.isTerminal {bound other : BoundStatement}
    (alike : bound.Alike types ids other) : bound.isTerminal = other.isTerminal := by
  cases alike <;> rfl

/-! ### Walks -/

mutual

theorem BoundExpr.Alike.walk {bound other : BoundExpr} (alike : bound.Alike types ids other) :
    List.Forall₂ (BoundPart.Alike types ids) bound.walk other.walk := by
  rw [BoundExpr.walk.eq_def bound, BoundExpr.walk.eq_def other]
  refine .cons (.expression alike) ?_
  match bound, other, alike with
  | _, _, .literal _ _ | _, _, .localVariable _ _ _ | _, _, .field _ _ _
  | _, _, .rangeVariable _ _ _ | _, _, .parameter _ | _, _, .conclusionVariable _ _ =>
      exact .nil
  | _, _, .memberAccess _ _ receivers _ => exact receivers.walk
  | _, _, .memberCall _ _ receivers arguments_alike _ =>
      exact List.rel_append receivers.walk arguments_alike.walk
  | _, _, .namedCall _ _ arguments_alike _ => exact arguments_alike.walk
  | _, _, .binary _ _ lefts rights _ => exact List.rel_append lefts.walk rights.walk
  | _, _, .query _ clauses_alike conclusions _ =>
      exact List.rel_append clauses_alike.walk conclusions.walk
  | _, _, .bad _ children_alike _ => exact children_alike.walk

theorem BoundExpr.AllAlike.walk {exprs others : List BoundExpr}
    (alike : BoundExpr.AllAlike types ids exprs others) :
    List.Forall₂ (BoundPart.Alike types ids) (walkAll exprs) (walkAll others) := by
  match exprs, others, alike with
  | _, _, .nil =>
      rw [walkAll]
      exact .nil
  | _, _, .cons first rest_alike =>
      rw [walkAll, walkAll]
      exact List.rel_append first.walk rest_alike.walk

theorem BoundClause.Alike.walk {clause other : BoundClause}
    (alike : clause.Alike types ids other) :
    List.Forall₂ (BoundPart.Alike types ids) clause.walk other.walk := by
  match clause, other, alike with
  | _, _, .fromClause _ _ exprs | _, _, .whereClause _ exprs | _, _, .letClause _ _ exprs
  | _, _, .selectClause _ exprs =>
      rw [BoundClause.walk, BoundClause.walk]
      exact exprs.walk
  | _, _, .groupClause _ elements keys =>
      rw [BoundClause.walk, BoundClause.walk]
      exact List.rel_append elements.walk keys.walk

theorem BoundClause.AllAlike.walk {clauses others : List BoundClause}
    (alike : BoundClause.AllAlike types ids clauses others) :
    List.Forall₂ (BoundPart.Alike types ids) (walkClauses clauses) (walkClauses others) := by
  match clauses, others, alike with
  | _, _, .nil =>
      rw [walkClauses]
      exact .nil
  | _, _, .cons first rest_alike =>
      rw [walkClauses, walkClauses]
      exact List.rel_append first.walk rest_alike.walk

theorem BoundConclusion.Alike.walk {conclusion other : BoundConclusion}
    (alike : conclusion.Alike types ids other) :
    List.Forall₂ (BoundPart.Alike types ids) conclusion.walk other.walk := by
  match conclusion, other, alike with
  | _, _, .absent =>
      rw [BoundConclusion.walk]
      exact .nil
  | _, _, .present _ bodyNode _ _ _ _ values =>
      rw [BoundConclusion.walk, BoundConclusion.walk]
      exact .cons (.block bodyNode)
        (.cons (.statement (.returnValue bodyNode true (.some values))) values.walk)

end

mutual

theorem BoundStatement.Alike.walk {bound other : BoundStatement}
    (alike : bound.Alike types ids other) :
    List.Forall₂ (BoundPart.Alike types ids) bound.walk other.walk := by
  rw [BoundStatement.walk.eq_def bound, BoundStatement.walk.eq_def other]
  refine .cons (.statement alike) ?_
  match bound, other, alike with
  | _, _, .localDeclaration _ _ values | _, _, .expression _ values
  | _, _, .returnValue _ _ (.some values) | _, _, .yieldReturn _ values => exact values.walk
  | _, _, .returnValue _ _ .none | _, _, .yieldBreak _ => exact .nil
  | _, _, .doWhile _ bodyNode bodies conditions =>
      exact .cons (.block bodyNode) (List.rel_append bodies.walk conditions.walk)
  | _, _, .block node statements_alike => exact .cons (.block node) statements_alike.walk

theorem BoundStatement.AllAlike.walk {statements others : List BoundStatement}
    (alike : BoundStatement.AllAlike types ids statements others) :
    List.Forall₂ (BoundPart.Alike types ids) (walkStatements statements)
      (walkStatements others) := by
  match statements, others, alike with
  | _, _, .nil =>
      rw [walkStatements]
      exact .nil
  | _, _, .cons first rest_alike =>
      rw [walkStatements, walkStatements]
      exact List.rel_append first.walk rest_alike.walk

end

theorem BoundBlock.Alike.walk {block other : BoundBlock} (alike : block.Alike types ids other) :
    List.Forall₂ (BoundPart.Alike types ids) block.walk other.walk := by
  rw [BoundBlock.walk, BoundBlock.walk, alike.node]
  exact .cons (.block other.node) alike.statements.walk

/-! ### Parts -/

theorem BoundBlock.Alike.returning (node : NodeId) {value other : BoundExpr}
    (values : value.Alike types ids other) :
    (BoundBlock.returning node value).Alike types ids (.returning node other) :=
  ⟨rfl, .cons (.returnValue node true (.some values)) .nil⟩

namespace BoundPart.Alike

variable {part other : BoundPart}

theorem declared (alike : part.Alike types ids other) :
    List.Forall₂ (Symbol.Alike types ids) part.declared other.declared := by
  cases alike with
  | block node => exact .nil
  | statement alike =>
      cases alike with
      | localDeclaration node symbols values =>
          cases symbols with
          | none => exact .nil
          | some symbols => exact .cons symbols .nil
      | _ => exact .nil
  | expression alike =>
      cases alike with
      | query node clauses_alike conclusions type_alike =>
          refine List.rel_append (List.rel_filterMap ?_ clauses_alike.forall₂) ?_
          · exact fun _ _ clauses => clauses.symbol?
          · cases conclusions with
            | absent => exact .nil
            | present _ _ _ symbols => exact .cons symbols .nil
      | _ => exact .nil

theorem reference? (alike : part.Alike types ids other) :
    Option.Rel (fun own other => own.1 = other.1 ∧ own.2.Alike types ids other.2)
      part.reference? other.reference? := by
  cases alike with
  | block node => exact .none
  | statement alike => exact .none
  | @expression bound other alike =>
      have symbols := alike.symbol?
      have sameNode := alike.node
      rw [BoundPart.reference?, BoundPart.reference?]
      generalize bound.symbol? = found at symbols ⊢
      generalize other.symbol? = otherFound at symbols ⊢
      cases symbols with
      | none => exact .none
      | some symbols => exact .some ⟨sameNode, symbols⟩

theorem conclusionType? (alike : part.Alike types ids other) :
    Option.Rel (fun own other => own.1.Alike types ids other.1 ∧ types own.2 other.2)
      part.conclusionType? other.conclusionType? := by
  cases alike with
  | block node => exact .none
  | statement alike => exact .none
  | expression alike =>
      cases alike with
      | conclusionVariable symbols references => exact .some ⟨symbols, references.type⟩
      | query node clauses_alike conclusions type_alike =>
          cases conclusions with
          | absent => exact .none
          | present _ _ _ symbols type_alike => exact .some ⟨symbols, type_alike⟩
      | _ => exact .none

theorem lambda? (alike : part.Alike types ids other) :
    Option.Rel (BoundConclusionLambda.Alike types ids) part.lambda? other.lambda? := by
  cases alike with
  | block node => exact .none
  | statement alike => exact .none
  | expression alike =>
      cases alike with
      | query node clauses_alike conclusions type_alike =>
          cases conclusions with
          | absent => exact .none
          | present node bodyNode diagnostics symbols type_alike lambdas values =>
              exact .some ⟨rfl, symbols, type_alike, lambdas, .returning bodyNode values, rfl⟩
      | _ => exact .none

end BoundPart.Alike

end QueryLang
