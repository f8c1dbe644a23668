import QueryLang.Binding.Expression
import QueryLang.Proofs.Program.Covering

/-!
# Activations of binding

To bind an expression is to bind the expressions right inside of it and to put the results together.
`bindExprBy` is this one activation, whatever binds the expressions inside; binding is the case
where it is binding itself. `bindExprWithin` stops with a fault where more activations than so many
would be inside of one another.
-/

namespace QueryLang

/-! ### The expressions right inside of an expression -/

/-- The expression of a clause. -/
def Clause.operand : Clause → Expr
  | .fromClause _ _ operand | .whereClause _ operand | .letClause _ _ operand => operand

/-- The expressions of the last clause of a query. -/
def QueryEnding.operands : QueryEnding → List Expr
  | .absent => []
  | .selectClause _ selected => [selected]
  | .groupClause _ element key => [element, key]

/-- The body of a conclusion, if there is one. -/
def Conclusion.bodies : Conclusion → List RootExpr
  | .absent => []
  | .present _ _ body => [body]

/-- The expressions right inside of an expression. The body of a conclusion may be too deep. -/
def Expr.inner : Expr → List RootExpr
  | .name _ _ | .literal _ _ => []
  | .parenthesized _ operand | .memberAccess _ operand _ => [.expression operand]
  | .memberCall _ operand _ arguments | .valueCall _ operand _ arguments =>
    .expression operand :: arguments.map .expression
  | .namedCall _ _ arguments => arguments.map .expression
  | .binary _ _ left right => [.expression left, .expression right]
  | .query _ clauses ending conclusion =>
    clauses.map (.expression ·.operand) ++ (ending.operands.map .expression ++ conclusion.bodies)

/-! ### Induction -/

theorem Clause.sizeOf_operand (clause : Clause) : sizeOf clause.operand < sizeOf clause := by
  cases clause with
  | fromClause | whereClause | letClause =>
      simp only [operand, fromClause.sizeOf_spec, whereClause.sizeOf_spec, letClause.sizeOf_spec]
      omega

theorem RootExpr.sizeOf_expression (expr : Expr) :
    sizeOf (RootExpr.expression expr) = sizeOf expr + 1 := by
  rw [expression.sizeOf_spec, Nat.add_comm]

theorem RootExpr.sizeOf_map {root : RootExpr} {exprs : List Expr}
    (isRoot : root ∈ exprs.map .expression) : sizeOf root < sizeOf exprs + 1 := by
  obtain ⟨expr, isExpr, rfl⟩ := List.mem_map.mp isRoot
  have smaller := List.sizeOf_lt_of_mem isExpr
  rw [sizeOf_expression]
  omega

theorem QueryEnding.sizeOf_operands {ending : QueryEnding} {expr : Expr}
    (isOperand : expr ∈ ending.operands) : sizeOf expr < sizeOf ending := by
  cases ending with
  | absent => cases isOperand
  | selectClause site selected =>
      cases List.mem_singleton.mp isOperand
      rw [selectClause.sizeOf_spec]
      omega
  | groupClause site element key =>
      rw [groupClause.sizeOf_spec]
      rcases List.mem_pair.mp isOperand with rfl | rfl <;> omega

theorem Conclusion.sizeOf_bodies {conclusion : Conclusion} {body : RootExpr}
    (isBody : body ∈ conclusion.bodies) : sizeOf body < sizeOf conclusion := by
  cases conclusion with
  | absent => cases isBody
  | present site identifier own =>
      cases List.mem_singleton.mp isBody
      rw [present.sizeOf_spec]
      omega

/-- What is right inside of an expression is smaller. -/
theorem Expr.sizeOf_inner {expr : Expr} {root : RootExpr} (isInner : root ∈ expr.inner) :
    sizeOf root < sizeOf expr + 1 := by
  have ofExpression := RootExpr.sizeOf_expression
  cases expr with
  | name | literal => cases isInner
  | parenthesized site operand | memberAccess site operand _ =>
      cases List.mem_singleton.mp isInner
      simp only [ofExpression, parenthesized.sizeOf_spec, memberAccess.sizeOf_spec]
      omega
  | memberCall site operand _ arguments | valueCall site operand _ arguments =>
      simp only [memberCall.sizeOf_spec, valueCall.sizeOf_spec]
      rcases List.mem_cons.mp isInner with rfl | isArgument
      · rw [ofExpression]
        omega
      · have smaller := RootExpr.sizeOf_map isArgument
        omega
  | namedCall site callee arguments =>
      have smaller := RootExpr.sizeOf_map isInner
      rw [namedCall.sizeOf_spec]
      omega
  | binary site operator left right =>
      rw [binary.sizeOf_spec]
      rcases List.mem_pair.mp isInner with rfl | rfl
      · rw [ofExpression]
        omega
      · rw [ofExpression]
        omega
  | query site clauses ending conclusion =>
      simp only [inner, List.mem_append] at isInner
      rw [query.sizeOf_spec]
      rcases isInner with isOperand | isOperand | isBody
      · obtain ⟨clause, isClause, rfl⟩ := List.mem_map.mp isOperand
        have smaller := List.sizeOf_lt_of_mem isClause
        have ofClause := clause.sizeOf_operand
        rw [ofExpression]
        omega
      · obtain ⟨operand, isOwn, rfl⟩ := List.mem_map.mp isOperand
        have smaller := QueryEnding.sizeOf_operands isOwn
        rw [ofExpression]
        omega
      · have smaller := Conclusion.sizeOf_bodies isBody
        omega

/-- What holds of roots that are too deep, and passes from what is right inside of an expression to
the expression, holds of every root. -/
theorem RootExpr.inner_induction {motive : RootExpr → Prop}
    (tooDeep : ∀ site reported, motive (.tooDeep site reported))
    (expression : ∀ expr : Expr, (∀ root ∈ expr.inner, motive root) → motive (.expression expr))
    (root : RootExpr) : motive root :=
  match root with
  | .tooDeep site reported => tooDeep site reported
  | .expression expr =>
    expression expr fun inner _ => RootExpr.inner_induction tooDeep expression inner
termination_by sizeOf root
decreasing_by
  have smaller := Expr.sizeOf_inner ‹_ ∈ expr.inner›
  rw [RootExpr.sizeOf_expression]
  omega

/-! ### One activation -/

section

variable (self : Binder → Expr → Binding BoundExpr)

/-- Binds expressions one after the other, each of them in the given way. -/
def bindExprsBy (binder : Binder) : List Expr → Binding (List BoundExpr)
  | [] => return []
  | expr :: rest => do
    let bound ← self binder expr
    return bound :: (← bindExprsBy binder rest)

/-- Binds a clause, whose expression is bound in the given way. -/
def bindClauseBy (binder : Binder) : Clause → Binding (Binder × BoundClause)
  | .fromClause site identifier source => do
    let bound ← self binder source
    let element ← bindElementType bound source.innerSite.location
    let declared ← declareRangeVariable binder identifier element
    return (binder.pushRangeVariable declared,
      .fromClause site.node (declared.map Subtype.val) bound)
  | .whereClause site condition => do
    return (binder, .whereClause site.node (← self binder condition))
  | .letClause site identifier value => do
    let bound ← self binder value
    let declared ← declareRangeVariable binder identifier bound.type
    return (binder.pushRangeVariable declared,
      .letClause site.node (declared.map Subtype.val) bound)

/-- Binds clauses one after the other, whose expressions are bound in the given way. -/
def bindClausesBy (binder : Binder) : List Clause → Binding (Binder × List BoundClause)
  | [] => return (binder, [])
  | clause :: rest => do
    let (next, bound) ← bindClauseBy self binder clause
    let (inner, others) ← bindClausesBy next rest
    return (inner, bound :: others)

/-- Binds the last clause of a query, whose expressions are bound in the given way. -/
def bindEndingBy (binder : Binder) : QueryEnding → Binding (TypeId × List BoundClause)
  | .absent => return (.error, [])
  | .selectClause site selected => do
    let bound ← self binder selected
    let type ← Binding.sequenceType bound.type
    return (type, [.selectClause site.node bound])
  | .groupClause site element key => do
    let element ← self binder element
    let key ← self binder key
    let grouping ← Binding.groupingType key.type element.type
    let type ← Binding.sequenceType grouping
    return (type, [.groupClause site.node element key])

/-- Binds the expression of a statement or of a conclusion in the given way, if it is not too
deep. -/
def bindRootBy (binder : Binder) : RootExpr → Binding BoundExpr
  | .tooDeep site reported => do
    Binding.report reported .tooDeeplyNested []
    return .bad site.node []
  | .expression expr => self binder expr

/-- Binds the conclusion of a query, whose body is bound in the given way. -/
def bindConclusionBy (binder : Binder) (type : TypeId) :
    Conclusion → Binding (BoundConclusion × TypeId)
  | .absent => return (.absent, type)
  | .present site identifier body => do
    match identifier.name with
    | none => return (.absent, type)
    | some name =>
      let declared ← declareConclusionVariable binder name identifier.location
      let scope ← declareConclusionScope binder site identifier declared type
      let (value, diagnostics) ←
        Binding.collecting (bindRootBy self (binder.pushConclusion scope) body)
      return (.present site.node declared type scope.lambda body.site.node value diagnostics,
        value.type)

/-- Binds an expression. What is right inside of it is bound in the given way. -/
def bindExprBy (binder : Binder) : Expr → Binding BoundExpr
  | .name site identifier => bindName binder site identifier
  | .literal site value => return .literal site.node value
  | .parenthesized _ inner => self binder inner
  | .memberAccess site receiver member => do
    bindMemberAccess site (← self binder receiver) member
  | .memberCall site receiver member arguments => do
    let receiver ← self binder receiver
    bindMemberCall site receiver member (← bindExprsBy self binder arguments)
  | .namedCall site callee arguments => do
    bindNamedCall binder site callee (← bindExprsBy self binder arguments)
  | .valueCall site callee calleeText arguments => do
    let bound ← self binder callee
    let arguments ← bindExprsBy self binder arguments
    Binding.report callee.site.location .notInvocable [calleeText]
    return .bad site.node (bound :: arguments)
  | .binary site operator left right => do
    let left ← self binder left
    bindOperator site operator left (← self binder right)
  | .query site clauses ending conclusion => do
    if binder.isCancelled then
      return .bad site.node []
    else
      let (inner, bound) ← bindClausesBy self binder clauses
      let (type, last) ← bindEndingBy self inner ending
      let (conclusion, type) ← bindConclusionBy self binder type conclusion
      return .query site.node (bound ++ last) conclusion type

end

/-! ### Binding by itself -/

theorem bindExprs_eq (binder : Binder) (exprs : List Expr) :
    bindExprs binder exprs = bindExprsBy bindExpr binder exprs := by
  induction exprs with
  | nil => rw [bindExprs, bindExprsBy]
  | cons expr rest ih => rw [bindExprs, bindExprsBy, ih]

theorem bindClause_eq (binder : Binder) (clause : Clause) :
    bindClause binder clause = bindClauseBy bindExpr binder clause := by
  cases clause with
  | fromClause | whereClause | letClause => rw [bindClause, bindClauseBy]

theorem bindClauses_eq (binder : Binder) (clauses : List Clause) :
    bindClauses binder clauses = bindClausesBy bindExpr binder clauses := by
  induction clauses generalizing binder with
  | nil => rw [bindClauses, bindClausesBy]
  | cons clause rest ih => simp only [bindClauses, bindClausesBy, bindClause_eq, ih]

theorem bindEnding_eq (binder : Binder) (ending : QueryEnding) :
    bindEnding binder ending = bindEndingBy bindExpr binder ending := by
  cases ending with
  | absent | selectClause | groupClause => rw [bindEnding, bindEndingBy]

theorem bindRoot_eq (binder : Binder) (root : RootExpr) :
    bindRoot binder root = bindRootBy bindExpr binder root := by
  cases root with
  | tooDeep | expression => rw [bindRoot, bindRootBy]

theorem bindConclusion_eq (binder : Binder) (type : TypeId) (conclusion : Conclusion) :
    bindConclusion binder type conclusion = bindConclusionBy bindExpr binder type conclusion := by
  cases conclusion with
  | absent => rw [bindConclusion, bindConclusionBy]
  | present site identifier body =>
      cases named : identifier.name with
      | none => simp only [bindConclusion, bindConclusionBy, named]
      | some name => simp only [bindConclusion, bindConclusionBy, named, bindRoot_eq]

/-- Binding an expression is one activation, inside of which binding binds. -/
theorem bindExpr_eq (binder : Binder) (expr : Expr) :
    bindExpr binder expr = bindExprBy bindExpr binder expr := by
  cases expr with
  | name | literal | parenthesized | memberAccess | binary => rw [bindExpr, bindExprBy]
  | memberCall | namedCall | valueCall => simp only [bindExpr, bindExprBy, bindExprs_eq]
  | query =>
      simp only [bindExpr, bindExprBy, bindClauses_eq, bindEnding_eq, bindConclusion_eq]

/-! ### What an activation depends on -/

section

variable {self other : Binder → Expr → Binding BoundExpr} {binder : Binder}

/-- Two ways to bind do the same with a root. -/
def RootExpr.BoundAlike (self other : Binder → Expr → Binding BoundExpr) (root : RootExpr) : Prop :=
  ∀ binder, bindRootBy self binder root = bindRootBy other binder root

theorem bindExprsBy_congr {exprs : List Expr}
    (alike : ∀ expr ∈ exprs, (RootExpr.expression expr).BoundAlike self other) :
    bindExprsBy self binder exprs = bindExprsBy other binder exprs := by
  induction exprs with
  | nil => rfl
  | cons expr rest ih =>
      rw [List.forall_mem_cons] at alike
      have first : self binder expr = other binder expr := alike.1 binder
      rw [bindExprsBy, bindExprsBy, first, ih alike.2]

theorem bindClauseBy_congr {clause : Clause}
    (alike : (RootExpr.expression clause.operand).BoundAlike self other) :
    bindClauseBy self binder clause = bindClauseBy other binder clause := by
  have operand : self binder clause.operand = other binder clause.operand := alike binder
  cases clause with
  | fromClause | whereClause | letClause =>
      rw [Clause.operand] at operand
      rw [bindClauseBy, bindClauseBy, operand]

theorem bindClausesBy_congr {clauses : List Clause}
    (alike : ∀ clause ∈ clauses, (RootExpr.expression clause.operand).BoundAlike self other) :
    bindClausesBy self binder clauses = bindClausesBy other binder clauses := by
  induction clauses generalizing binder with
  | nil => rfl
  | cons clause rest ih =>
      rw [List.forall_mem_cons] at alike
      simp only [bindClausesBy, bindClauseBy_congr alike.1, ih alike.2]

theorem bindEndingBy_congr {ending : QueryEnding}
    (alike : ∀ expr ∈ ending.operands, (RootExpr.expression expr).BoundAlike self other) :
    bindEndingBy self binder ending = bindEndingBy other binder ending := by
  cases ending with
  | absent => rfl
  | selectClause site selected =>
      have same : self binder selected = other binder selected :=
        alike selected (List.mem_singleton_self _) binder
      rw [bindEndingBy, bindEndingBy, same]
  | groupClause site element key =>
      have sameElement : self binder element = other binder element :=
        alike element (List.mem_cons_self ..) binder
      have sameKey : self binder key = other binder key :=
        alike key (List.mem_pair.mpr (.inr rfl)) binder
      rw [bindEndingBy, bindEndingBy, sameElement, sameKey]

theorem bindConclusionBy_congr {type : TypeId} {conclusion : Conclusion}
    (alike : ∀ body ∈ conclusion.bodies, body.BoundAlike self other) :
    bindConclusionBy self binder type conclusion =
      bindConclusionBy other binder type conclusion := by
  cases conclusion with
  | absent => rfl
  | present site identifier body =>
      have same (inner : Binder) : bindRootBy self inner body = bindRootBy other inner body :=
        alike body (List.mem_singleton_self _) inner
      simp only [bindConclusionBy, same]

/-- An activation depends only on how the expressions right inside of it are bound. -/
theorem bindExprBy_congr {expr : Expr} (alike : ∀ root ∈ expr.inner, root.BoundAlike self other) :
    bindExprBy self binder expr = bindExprBy other binder expr := by
  have operand {inner : Expr} (own : (RootExpr.expression inner).BoundAlike self other) :
      self binder inner = other binder inner := own binder
  cases expr with
  | name | literal => rfl
  | parenthesized site inner => exact operand (alike _ (List.mem_singleton_self _))
  | memberAccess site receiver member =>
      rw [bindExprBy, bindExprBy, operand (alike _ (List.mem_singleton_self _))]
  | memberCall site first _ arguments | valueCall site first _ arguments =>
      rw [Expr.inner, List.forall_mem_cons, List.forall_mem_map] at alike
      rw [bindExprBy, bindExprBy, operand alike.1, bindExprsBy_congr alike.2]
  | namedCall site callee arguments =>
      rw [Expr.inner, List.forall_mem_map] at alike
      rw [bindExprBy, bindExprBy, bindExprsBy_congr alike]
  | binary site operator left right =>
      rw [Expr.inner, List.forall_mem_cons, List.forall_mem_singleton] at alike
      rw [bindExprBy, bindExprBy, operand alike.1, operand alike.2]
  | query site clauses ending conclusion =>
      simp only [Expr.inner, List.forall_mem_append, List.forall_mem_map] at alike
      obtain ⟨ofClauses, ofEnding, ofConclusion⟩ := alike
      simp only [bindExprBy, bindClausesBy_congr ofClauses, bindEndingBy_congr ofEnding,
        bindConclusionBy_congr ofConclusion]

end

/-! ### Activations inside of one another -/

/-- Binds an expression unless more activations than so many would be inside of one another. -/
def bindExprWithin : (levels : Nat) → Binder → Expr → Binding BoundExpr
  | 0, _, _ => throw .outOfRange
  | levels + 1, binder, expr => bindExprBy (bindExprWithin levels) binder expr

/-- The expression is inside of another one with no more than so many levels, itself included, and
nothing in it is too deep. -/
inductive RootExpr.Within : (levels : Nat) → RootExpr → Prop
  | expression {levels : Nat} {expr : Expr} (inner : ∀ root ∈ expr.inner, Within levels root) :
      Within (levels + 1) (.expression expr)

/-- Where the expressions in an expression have few enough levels, binding does not notice that the
activations are limited. -/
theorem RootExpr.Within.boundAlike {levels : Nat} {root : RootExpr} (within : root.Within levels) :
    root.BoundAlike (bindExprWithin levels) bindExpr := by
  induction within with
  | @expression levels expr _ ih =>
      intro binder
      rw [bindRootBy, bindRootBy, bindExprWithin, bindExpr_eq]
      exact bindExprBy_congr ih

/-- The root is another one or somewhere inside of it. -/
inductive RootExpr.PartOf (part : RootExpr) : RootExpr → Prop
  | refl : PartOf part part
  | inside {root : RootExpr} {expr : Expr} (isInner : root ∈ expr.inner)
      (isPart : PartOf part root) : PartOf part (.expression expr)

theorem RootExpr.Within.part {levels : Nat} {part whole : RootExpr} (within : whole.Within levels)
    (isPart : part.PartOf whole) : ∃ fewer, part.Within fewer := by
  induction isPart generalizing levels with
  | refl => exact ⟨levels, within⟩
  | inside isInner _ ih =>
      cases within with
      | expression inner => exact ih (inner _ isInner)

/-! ### What is inside of an expression of a tree -/

variable {tree : SyntaxTree} {damaged : Prop}

namespace SyntaxTree

variable {top middle id : NodeId} {kind : Kind} {children : List NodeId}

/-- A node is at or below a child of another one. -/
def Inside (tree : SyntaxTree) (top id : NodeId) : Prop :=
  ∃ kind children child, tree.BranchAt top kind children ∧ child ∈ children ∧ tree.Below child id

theorem BranchAt.inside (branch : tree.BranchAt top kind children) (isChild : id ∈ children) :
    tree.Inside top id :=
  ⟨kind, children, id, branch, isChild, .refl⟩

theorem Inside.below (inside : tree.Inside top id) : tree.Below top id := by
  obtain ⟨_, _, child, branch, isChild, below⟩ := inside
  exact branch.below_iff.mpr (.inr ⟨child, isChild, below⟩)

theorem Inside.trans (outer : tree.Inside top middle) (inner : tree.Inside middle id) :
    tree.Inside top id := by
  obtain ⟨kind, children, child, branch, isChild, below⟩ := outer
  exact ⟨kind, children, child, branch, isChild, below.trans inner.below⟩

/-- A node reaches down one level further than what is inside of it. -/
theorem Inside.reachesDown {levels : Nat} (inside : tree.Inside top id)
    (reaches : tree.reachesDown levels id = true) : tree.reachesDown (levels + 1) top = true := by
  obtain ⟨_, _, _, branch, isChild, below⟩ := inside
  exact branch.reachesDown isChild (below.reachesDown reaches)

end SyntaxTree

/-- The root is what the tree says inside of a node. -/
structure RootExpr.AtInside (tree : SyntaxTree) (damaged : Prop) (top : NodeId) (root : RootExpr) :
    Prop where
  isAt : root.At tree damaged
  inside : tree.Inside top root.site.node

namespace RootExpr.AtInside

variable {top middle : NodeId} {kind : Kind} {children : List NodeId} {expr : Expr}

theorem child (branch : tree.BranchAt top kind children) (isChild : expr.site.node ∈ children)
    (isAt : expr.At tree damaged) : (RootExpr.expression expr).AtInside tree damaged top :=
  ⟨isAt, branch.inside isChild⟩

theorem outer {root : RootExpr} (own : root.AtInside tree damaged middle)
    (inside : tree.Inside top middle) : root.AtInside tree damaged top :=
  ⟨own.isAt, inside.trans own.inside⟩

theorem all {exprs : List Expr} (branch : tree.BranchAt top kind children)
    (areChildren : (exprs.map fun expr => expr.site.node) ⊆ children)
    (areAt : Expr.AllAt tree damaged exprs) :
    ∀ root ∈ exprs.map RootExpr.expression, root.AtInside tree damaged top := by
  induction exprs with
  | nil => exact List.forall_mem_nil _
  | cons expr rest ih =>
      rw [List.map_cons, List.cons_subset] at areChildren
      exact List.forall_mem_cons.mpr
        ⟨.child branch areChildren.1 areAt.1, ih areChildren.2 areAt.2⟩

end RootExpr.AtInside

theorem Clause.At.operand {clause : Clause} (isAt : clause.At tree damaged) :
    (RootExpr.expression clause.operand).AtInside tree damaged clause.node := by
  cases clause with
  | fromClause | letClause => exact .child isAt.1 (List.mem_singleton_self _) isAt.2.2
  | whereClause => exact .child isAt.1 (List.mem_singleton_self _) isAt.2

theorem QueryEnding.At.operands {ending : QueryEnding} (isAt : ending.At tree damaged) :
    ∀ root ∈ ending.operands.map RootExpr.expression, ∃ node ∈ ending.nodes,
      root.AtInside tree damaged node := by
  cases ending with
  | absent => exact isAt.elim
  | selectClause site selected =>
      refine List.forall_mem_singleton.mpr ⟨site.node, List.mem_singleton_self _, ?_⟩
      exact .child isAt.1 (List.mem_singleton_self _) isAt.2
  | groupClause site element key =>
      obtain ⟨branch, elementAt, keyAt⟩ := isAt
      have areAt : Expr.AllAt tree damaged [element, key] := ⟨elementAt, keyAt, trivial⟩
      intro root isRoot
      refine ⟨site.node, List.mem_singleton_self _, ?_⟩
      exact RootExpr.AtInside.all branch (List.Subset.refl _) areAt root isRoot

theorem Conclusion.At.bodies {conclusion : Conclusion} (isAt : conclusion.At tree damaged) :
    ∀ root ∈ conclusion.bodies, ∃ node ∈ conclusion.nodes, root.AtInside tree damaged node := by
  cases conclusion with
  | absent => exact List.forall_mem_nil _
  | present site identifier body =>
      refine List.forall_mem_singleton.mpr ⟨site.node, List.mem_singleton_self _, ?_⟩
      exact ⟨isAt.2.2, isAt.1.inside (List.mem_singleton_self _)⟩

/-- What is right inside of an expression is what the tree says inside of the expression's node. -/
theorem Expr.At.inner {expr : Expr} (isAt : expr.At tree damaged) :
    ∀ root ∈ expr.inner, root.AtInside tree damaged expr.site.node := by
  match expr with
  | .name _ _ | .literal _ _ => exact List.forall_mem_nil _
  | .parenthesized site operand =>
      exact List.forall_mem_singleton.mpr (.child isAt.1 (List.mem_singleton_self _) isAt.2)
  | .memberAccess site receiver member =>
      obtain ⟨name, branch, _, receiverAt⟩ := isAt
      exact List.forall_mem_singleton.mpr (.child branch (List.mem_cons_self ..) receiverAt)
  | .memberCall site receiver member arguments =>
      obtain ⟨callee, name, list, branch, access, _, listBranch, receiverAt, argumentsAt⟩ := isAt
      have ofReceiver := RootExpr.AtInside.child access (List.mem_cons_self ..) receiverAt
      have ofArguments := RootExpr.AtInside.all listBranch (List.Subset.refl _) argumentsAt
      refine List.forall_mem_cons.mpr ⟨ofReceiver.outer (branch.inside (List.mem_cons_self ..)), ?_⟩
      intro root isArgument
      exact (ofArguments root isArgument).outer (branch.inside (List.mem_pair.mpr (.inr rfl)))
  | .namedCall site callee arguments =>
      obtain ⟨name, list, branch, _, listBranch, argumentsAt⟩ := isAt
      have ofArguments := RootExpr.AtInside.all listBranch (List.Subset.refl _) argumentsAt
      intro root isArgument
      exact (ofArguments root isArgument).outer (branch.inside (List.mem_pair.mpr (.inr rfl)))
  | .valueCall site callee text arguments =>
      obtain ⟨list, branch, _, listBranch, calleeAt, argumentsAt⟩ := isAt
      have ofArguments := RootExpr.AtInside.all listBranch (List.Subset.refl _) argumentsAt
      refine List.forall_mem_cons.mpr ⟨.child branch (List.mem_cons_self ..) calleeAt, ?_⟩
      intro root isArgument
      exact (ofArguments root isArgument).outer (branch.inside (List.mem_pair.mpr (.inr rfl)))
  | .binary site operator left right =>
      obtain ⟨branch, leftAt, rightAt⟩ := isAt
      have areAt : Expr.AllAt tree damaged [left, right] := ⟨leftAt, rightAt, trivial⟩
      exact RootExpr.AtInside.all branch (List.Subset.refl _) areAt
  | .query site clauses ending conclusion =>
      obtain ⟨first, rest, body, rfl, branch, bodyBranch, clausesAt, endingAt, conclusionAt⟩ := isAt
      have toFirst := branch.inside (List.mem_cons_self ..)
      have toBody : tree.Inside site.node body := branch.inside (List.mem_pair.mpr (.inr rfl))
      simp only [Expr.inner, List.map_cons, List.cons_append, List.forall_mem_cons,
        List.forall_mem_append, List.forall_mem_map]
      refine ⟨clausesAt.1.operand.outer toFirst, fun clause isClause => ?_, ?_, ?_⟩
      · have toClause := bodyBranch.inside
          (List.mem_append_left _ (List.mem_map_of_mem isClause))
        exact (clausesAt.2.of_mem isClause).operand.outer (toBody.trans toClause)
      · intro operand isOperand
        obtain ⟨node, isNode, own⟩ := endingAt.operands _ (List.mem_map_of_mem isOperand)
        have toEnding := bodyBranch.inside
          (List.mem_append_right _ (List.mem_append_left _ isNode))
        exact own.outer (toBody.trans toEnding)
      · intro root isBody
        obtain ⟨node, isNode, own⟩ := conclusionAt.bodies root isBody
        have toConclusion := bodyBranch.inside
          (List.mem_append_right _ (List.mem_append_right _ isNode))
        exact own.outer (toBody.trans toConclusion)

/-- An expression that does not reach down so many levels of its tree has fewer inside of it, and
nothing in it is too deep, as the limit there is no lower. -/
theorem RootExpr.At.within {levels : Nat} {root : RootExpr} (isAt : root.At tree damaged)
    (fits : levels ≤ maxExpressionDepth + 1)
    (shallow : tree.reachesDown levels root.site.node = false) : root.Within levels := by
  induction levels generalizing root with
  | zero => cases shallow
  | succ levels ih =>
      cases root with
      | tooDeep site reported =>
          have reaches := SyntaxTree.reachesDown_of_le fits isAt.1
          rw [RootExpr.site, reaches] at shallow
          cases shallow
      | expression expr =>
          refine .expression fun root isInner => ?_
          have own := Expr.At.inner isAt root isInner
          refine ih own.isAt (Nat.le_of_succ_le fits) (Bool.eq_false_iff.mpr fun reaches => ?_)
          exact Bool.eq_false_iff.mp shallow (own.inside.reachesDown reaches)

end QueryLang
