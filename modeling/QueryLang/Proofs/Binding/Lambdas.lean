import QueryLang.Proofs.Binding.Declaring
import QueryLang.Proofs.Program.Sites

/-!
# The lambdas of conclusions

Binding a conclusion makes two variables and a lambda. The lambda is placed over the whole of the
conclusion, and its one parameter where the variable of the conclusion is. This holds of every
conclusion of a bound tree, the bodies of other conclusions included.
-/

namespace QueryLang

/-- The lambda of a conclusion is where the conclusion's node is. Its one parameter is where the
conclusion's variable is. -/
structure BoundConclusionLambda.IsPlaced (tree : SyntaxTree) (conclusion : BoundConclusionLambda) :
    Prop where
  isVariable : conclusion.parameter.kind = .queryConclusionVariable
  location : ∃ span, tree.span conclusion.node = .ok span ∧
    conclusion.lambda.symbol.locations = [tree.location span]
  parameter : ∃ parameter, conclusion.lambda.symbol.parameters = [parameter] ∧
    parameter.kind = .parameter ∧ parameter.locations = conclusion.parameter.locations

/-- The lambda that a bound conclusion has. -/
def BoundConclusion.lambda? : BoundConclusion → Option BoundConclusionLambda
  | .absent => none
  | .present node symbol type lambda bodyNode value diagnostics =>
    some ⟨node, symbol, type, ⟨lambda, .returning bodyNode value, diagnostics⟩⟩

theorem BoundPart.lambda?_query (node : NodeId) (clauses : List BoundClause)
    (conclusion : BoundConclusion) (type : TypeId) :
    (BoundPart.expression (.query node clauses conclusion type)).lambda? = conclusion.lambda? := by
  cases conclusion <;> rfl

/-- An expression that declares nothing has no lambda. -/
theorem BoundPart.lambda?_eq_none {expr : BoundExpr}
    (declaresNone : (BoundPart.expression expr).sites = []) :
    (BoundPart.expression expr).lambda? = none := by
  cases expr with
  | query node clauses conclusion type =>
    cases conclusion with
    | absent => rfl
    | present => simp [BoundPart.sites, BoundConclusion.site?] at declaresNone
  | _ => rfl

/-- Where there is a lambda, the conclusion declares its variable. -/
theorem BoundPart.site_of_lambda {part : BoundPart} {conclusion : BoundConclusionLambda}
    (isLambda : conclusion ∈ part.lambda?) :
    (conclusion.node, conclusion.parameter) ∈ part.sites := by
  unfold lambda? at isLambda
  split at isLambda
  · cases isLambda
    simp [sites, BoundConclusion.site?]
  · cases isLambda

/-- The lambdas among some parts are placed as they should. -/
def LambdasPlaced (tree : SyntaxTree) (parts : List BoundPart) : Prop :=
  ∀ part ∈ parts, ∀ conclusion ∈ part.lambda?, conclusion.IsPlaced tree

section

variable {tree : SyntaxTree} {parts others : List BoundPart}

namespace LambdasPlaced

theorem nil : LambdasPlaced tree [] := List.forall_mem_nil _

theorem append (left : LambdasPlaced tree parts) (right : LambdasPlaced tree others) :
    LambdasPlaced tree (parts ++ others) :=
  List.forall_mem_append.mpr ⟨left, right⟩

/-- A part without a lambda changes nothing. -/
theorem part {own : BoundPart} (noLambda : own.lambda? = none)
    (placed : LambdasPlaced tree parts) : LambdasPlaced tree (own :: parts) :=
  List.forall_mem_cons.mpr ⟨by simp [noLambda], placed⟩

end LambdasPlaced

theorem BoundExpr.IsAround.lambdasPlaced {expr : BoundExpr} {node : NodeId}
    (isAround : expr.IsAround node parts) (inner : LambdasPlaced tree parts) :
    LambdasPlaced tree expr.walk := by
  rw [isAround.walk_eq]
  exact inner.part (BoundPart.lambda?_eq_none isAround.sites_eq)

theorem bindName_placed {binder : Binder} {site : Site} {identifier : Identifier} :
    (bindName binder site identifier).Yields fun bound => LambdasPlaced tree bound.walk := by
  have isBad : (BoundExpr.bad site.node []).IsAround site.node [] := ⟨rfl, rfl, rfl⟩
  unfold bindName
  split
  · exact .pure (isBad.lambdasPlaced .nil)
  · refine .next fun result => ?_
    split
    · exact bindReference_yields.mono fun bound isReference =>
        isReference.1.lambdasPlaced .nil
    · exact .next fun _ => .pure (isBad.lambdasPlaced .nil)

/-- The lambda of a conclusion at a site, and its one parameter. -/
theorem declareConclusionScope_lambda {binder : Binder} {site : Site} {identifier : Identifier}
    {declared : ConclusionVariable} {type : TypeId} :
    (declareConclusionScope binder site identifier declared type).Yields fun scope =>
      scope.lambda.locations = [site.location] ∧ ∃ parameter,
        scope.lambda.parameters = [parameter] ∧ parameter.kind = .parameter ∧
          parameter.locations = [identifier.location] :=
  .next fun _ => .next fun _ => .pure ⟨rfl, _, rfl, rfl, rfl⟩

theorem Site.IsIn.span_eq {site : Site} (isIn : site.IsIn tree) :
    ∃ span, tree.span site.node = .ok span ∧ site.location = tree.location span := by
  obtain ⟨span, spanEq, isSite⟩ := Checked.bind_eq_ok_iff.mp isIn
  exact ⟨span, spanEq, (congrArg Site.location (Checked.pure_eq_ok_iff.mp isSite)).symm⟩

mutual

/-- The lambdas in an expression are placed as they should. -/
theorem bindExpr_placed {binder : Binder} (expr : Expr) (sitesIn : SitesIn tree expr.sites) :
    (bindExpr binder expr).Yields fun bound => LambdasPlaced tree bound.walk := by
  match expr with
  | .name site identifier =>
      rw [bindExpr]
      exact bindName_placed
  | .literal site value =>
      rw [bindExpr]
      have isAround : (BoundExpr.literal site.node value).IsAround site.node [] := ⟨rfl, rfl, rfl⟩
      exact .pure (isAround.lambdasPlaced .nil)
  | .parenthesized site inner =>
      rw [bindExpr]
      exact bindExpr_placed inner (List.forall_mem_cons.mp sitesIn).2
  | .memberAccess site receiver member =>
      rw [bindExpr]
      refine (bindExpr_placed receiver (List.forall_mem_cons.mp sitesIn).2).bind ?_
      intro bound placed
      exact bindMemberAccess_yields.mono fun result isAround => isAround.lambdasPlaced placed
  | .memberCall site receiver member arguments =>
      obtain ⟨receiverIn, argumentsIn⟩ :=
        List.forall_mem_append.mp (List.forall_mem_cons.mp sitesIn).2
      rw [bindExpr]
      refine (bindExpr_placed receiver receiverIn).bind fun bound placed => ?_
      refine (bindExprs_placed arguments argumentsIn).bind fun others othersPlaced => ?_
      exact bindMemberCall_yields.mono fun result isAround =>
        isAround.lambdasPlaced (placed.append othersPlaced)
  | .namedCall site callee arguments =>
      rw [bindExpr]
      refine (bindExprs_placed arguments (List.forall_mem_cons.mp sitesIn).2).bind ?_
      intro bound placed
      exact bindNamedCall_yields.mono fun result isAround => isAround.lambdasPlaced placed
  | .valueCall site callee text arguments =>
      obtain ⟨calleeIn, argumentsIn⟩ :=
        List.forall_mem_append.mp (List.forall_mem_cons.mp sitesIn).2
      rw [bindExpr]
      refine (bindExpr_placed callee calleeIn).bind fun bound placed => ?_
      refine (bindExprs_placed arguments argumentsIn).bind fun others othersPlaced => ?_
      have isAround : (BoundExpr.bad site.node (bound :: others)).IsAround site.node
          (bound.walk ++ walkAll others) :=
        ⟨rfl, by rw [BoundExpr.walk, walkAll], rfl⟩
      exact .next fun _ => .pure (isAround.lambdasPlaced (placed.append othersPlaced))
  | .binary site operator left right =>
      obtain ⟨leftIn, rightIn⟩ := List.forall_mem_append.mp (List.forall_mem_cons.mp sitesIn).2
      rw [bindExpr]
      refine (bindExpr_placed left leftIn).bind fun boundLeft leftPlaced => ?_
      refine (bindExpr_placed right rightIn).bind fun boundRight rightPlaced => ?_
      exact bindOperator_yields.mono fun result isAround =>
        isAround.lambdasPlaced (leftPlaced.append rightPlaced)
  | .query site clauses ending conclusion =>
      obtain ⟨clausesIn, restIn⟩ := List.forall_mem_append.mp (List.forall_mem_cons.mp sitesIn).2
      obtain ⟨endingIn, conclusionIn⟩ := List.forall_mem_append.mp restIn
      rw [bindExpr]
      split
      · have isAround : (BoundExpr.bad site.node []).IsAround site.node [] := ⟨rfl, rfl, rfl⟩
        exact .pure (isAround.lambdasPlaced .nil)
      · refine (bindClauses_placed clauses clausesIn).bind ?_
        rintro ⟨inner, bound⟩ placed
        refine (bindEnding_placed ending endingIn).bind ?_
        rintro ⟨type, last⟩ lastPlaced
        refine (bindConclusion_placed conclusion conclusionIn).bind ?_
        rintro ⟨boundConclusion, finalType⟩ ⟨isPlaced, conclusionPlaced⟩
        refine .pure (List.forall_mem_cons.mpr ⟨?_, ?_⟩)
        · rw [BoundPart.lambda?_query]
          exact isPlaced
        · rw [walkClauses_append]
          exact (placed.append lastPlaced).append conclusionPlaced

theorem bindExprs_placed {binder : Binder} (exprs : List Expr)
    (sitesIn : SitesIn tree (Expr.allSites exprs)) :
    (bindExprs binder exprs).Yields fun bound => LambdasPlaced tree (walkAll bound) := by
  match exprs with
  | [] =>
      rw [bindExprs]
      exact .pure .nil
  | expr :: rest =>
      obtain ⟨firstIn, restIn⟩ := List.forall_mem_append.mp sitesIn
      rw [bindExprs]
      refine (bindExpr_placed expr firstIn).bind fun bound placed => ?_
      exact (bindExprs_placed rest restIn).bind fun others othersPlaced =>
        .pure (placed.append othersPlaced)

theorem bindClause_placed {binder : Binder} (clause : Clause)
    (sitesIn : SitesIn tree clause.sites) :
    (bindClause binder clause).Yields fun result => LambdasPlaced tree result.2.walk := by
  match clause with
  | .fromClause site identifier source =>
      rw [bindClause]
      refine (bindExpr_placed source (List.forall_mem_cons.mp sitesIn).2).bind ?_
      exact fun bound placed => .next fun element => .next fun declared => .pure placed
  | .whereClause site condition =>
      rw [bindClause]
      exact (bindExpr_placed condition (List.forall_mem_cons.mp sitesIn).2).bind
        fun bound placed => .pure placed
  | .letClause site identifier value =>
      rw [bindClause]
      refine (bindExpr_placed value (List.forall_mem_cons.mp sitesIn).2).bind ?_
      exact fun bound placed => .next fun declared => .pure placed

theorem bindClauses_placed {binder : Binder} (clauses : List Clause)
    (sitesIn : SitesIn tree (Clause.allSites clauses)) :
    (bindClauses binder clauses).Yields fun result =>
      LambdasPlaced tree (walkClauses result.2) := by
  match clauses with
  | [] =>
      rw [bindClauses]
      exact .pure .nil
  | clause :: rest =>
      obtain ⟨firstIn, restIn⟩ := List.forall_mem_append.mp sitesIn
      rw [bindClauses]
      refine (bindClause_placed clause firstIn).bind ?_
      rintro ⟨next, bound⟩ placed
      refine (bindClauses_placed rest restIn).bind ?_
      rintro ⟨inner, others⟩ othersPlaced
      exact .pure (placed.append othersPlaced)

theorem bindEnding_placed {binder : Binder} (ending : QueryEnding)
    (sitesIn : SitesIn tree ending.sites) :
    (bindEnding binder ending).Yields fun result =>
      LambdasPlaced tree (walkClauses result.2) := by
  match ending with
  | .absent =>
      rw [bindEnding]
      exact .pure .nil
  | .selectClause site selected =>
      rw [bindEnding]
      refine (bindExpr_placed selected (List.forall_mem_cons.mp sitesIn).2).bind ?_
      exact fun bound placed => .next fun type => .pure (placed.append .nil)
  | .groupClause site element key =>
      obtain ⟨elementIn, keyIn⟩ := List.forall_mem_append.mp (List.forall_mem_cons.mp sitesIn).2
      rw [bindEnding]
      refine (bindExpr_placed element elementIn).bind fun boundElement elementPlaced => ?_
      refine (bindExpr_placed key keyIn).bind fun boundKey keyPlaced => ?_
      exact .next fun grouping => .next fun type =>
        .pure ((elementPlaced.append keyPlaced).append .nil)

/-- The lambda of a conclusion is placed at the conclusion, and so are those in its body. -/
theorem bindConclusion_placed {binder : Binder} {type : TypeId} (conclusion : Conclusion)
    (sitesIn : SitesIn tree conclusion.sites) :
    (bindConclusion binder type conclusion).Yields fun result =>
      (∀ own ∈ result.1.lambda?, own.IsPlaced tree) ∧ LambdasPlaced tree result.1.walk := by
  match conclusion with
  | .absent =>
      rw [bindConclusion]
      exact .pure ⟨by simp [BoundConclusion.lambda?], .nil⟩
  | .present site identifier body =>
      obtain ⟨siteIn, bodyIn⟩ := List.forall_mem_cons.mp sitesIn
      rw [bindConclusion]
      split
      · exact .pure ⟨by simp [BoundConclusion.lambda?], .nil⟩
      · next name hasName =>
          refine (declareConclusionVariable_declares hasName).bind fun own isOwn => ?_
          refine declareConclusionScope_lambda.bind ?_
          rintro scope ⟨location, parameter, only, sort, sameLocation⟩
          refine (Binding.Yields.collecting (bindRoot_placed body bodyIn)).bind ?_
          rintro ⟨value, diagnostics⟩ placed
          refine .pure ⟨?_, .part rfl (.part rfl placed)⟩
          obtain ⟨span, spanEq, isSpan⟩ := siteIn.span_eq
          rintro _ ⟨⟩
          exact ⟨own.property, ⟨span, spanEq, by rw [location, isSpan]⟩,
            parameter, only, sort, by rw [sameLocation, isOwn.locations]⟩

theorem bindRoot_placed {binder : Binder} (root : RootExpr)
    (sitesIn : SitesIn tree root.sites) :
    (bindRoot binder root).Yields fun bound => LambdasPlaced tree bound.walk := by
  match root with
  | .tooDeep site reported =>
      rw [bindRoot]
      have isAround : (BoundExpr.bad site.node []).IsAround site.node [] := ⟨rfl, rfl, rfl⟩
      exact .next fun _ => .pure (isAround.lambdasPlaced .nil)
  | .expression expr =>
      rw [bindRoot]
      exact bindExpr_placed expr sitesIn

end

/-! ### Statements -/

mutual

/-- The lambdas in a statement are placed as they should. -/
theorem bindStatement_placed {scope : StatementScope} (statement : Statement)
    (sitesIn : SitesIn tree statement.sites) :
    (bindStatement scope statement).Yields fun result => LambdasPlaced tree result.2.walk := by
  match statement with
  | .localDeclaration site identifier value =>
      rw [bindStatement]
      refine (bindRoot_placed value (List.forall_mem_cons.mp sitesIn).2).bind ?_
      exact fun bound placed => .next fun declared => .pure (placed.part rfl)
  | .expression site value | .returnValue site (some value) | .yieldReturn site (some value) =>
      rw [bindStatement]
      exact (bindRoot_placed value (List.forall_mem_cons.mp sitesIn).2).bind
        fun bound placed => .pure (placed.part rfl)
  | .returnValue site none =>
      rw [bindStatement]
      exact .pure (.part rfl .nil)
  | .yieldReturn site none =>
      rw [bindStatement]
      exact .pure (.part rfl (.part rfl .nil))
  | .yieldBreak site =>
      rw [bindStatement]
      exact .pure (.part rfl .nil)
  | .doWhile site bodySite body condition =>
      obtain ⟨bodyIn, conditionIn⟩ := List.forall_mem_append.mp
        (List.forall_mem_cons.mp (List.forall_mem_cons.mp sitesIn).2).2
      rw [bindStatement]
      refine (bindStatements_placed body bodyIn).bind fun boundBody bodyPlaced => ?_
      exact (bindRoot_placed condition conditionIn).bind fun bound placed =>
        .pure (.part rfl (.part rfl (bodyPlaced.append placed)))
  | .block site statements =>
      rw [bindStatement]
      exact (bindStatements_placed statements (List.forall_mem_cons.mp sitesIn).2).bind
        fun bound placed => .pure (.part rfl (.part rfl placed))

theorem bindStatements_placed {scope : StatementScope} (statements : List Statement)
    (sitesIn : SitesIn tree (Statement.allSites statements)) :
    (bindStatements scope statements).Yields fun bound =>
      LambdasPlaced tree (walkStatements bound) := by
  match statements with
  | [] =>
      rw [bindStatements]
      exact .pure .nil
  | statement :: rest =>
      obtain ⟨firstIn, restIn⟩ := List.forall_mem_append.mp sitesIn
      rw [bindStatements]
      refine .next fun entered => (bindStatement_placed statement firstIn).bind ?_
      rintro ⟨next, bound⟩ placed
      exact (bindStatements_placed rest restIn).bind fun others othersPlaced =>
        .pure (placed.append othersPlaced)

end

/-- The lambdas in a file are placed as they should. -/
theorem bindFile_placed {binder : Binder} :
    (bindFile binder tree).Yields fun block => LambdasPlaced tree block.walk := by
  refine .next fun _ => .bind_lift fun list isRead => ?_
  refine (bindStatements_placed list.statements
    (StatementList.ofTree_sites tree list isRead)).bind fun bound placed => ?_
  exact .pure (placed.part rfl)

end

end QueryLang
