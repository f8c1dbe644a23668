import QueryLang.Proofs.Binding.StatementResolving
import QueryLang.Proofs.Program.Visiting

/-!
# What binding visits

The expressions of a bound tree come from the nodes that the program lists as visited, in the same
order. So no expression of the program is dropped and none is bound twice, whether it is bound well
or ends up in a part that is bad. Once a request is cancelled queries are left alone, so the binder
must not be cancelled.
-/

namespace QueryLang

/-- The node of a part that is an expression. -/
def BoundPart.expressionNode? : BoundPart → Option NodeId
  | .expression expr => some expr.node
  | .block _ | .statement _ => none

/-- The nodes of the expressions among some parts, in order. -/
def expressionNodes (parts : List BoundPart) : List NodeId :=
  parts.filterMap BoundPart.expressionNode?

@[simp] theorem expressionNodes_nil : expressionNodes [] = [] := rfl

@[simp] theorem expressionNodes_block (node : NodeId) (parts : List BoundPart) :
    expressionNodes (.block node :: parts) = expressionNodes parts := rfl

@[simp] theorem expressionNodes_statement (statement : BoundStatement) (parts : List BoundPart) :
    expressionNodes (.statement statement :: parts) = expressionNodes parts := rfl

@[simp] theorem expressionNodes_expression (expr : BoundExpr) (parts : List BoundPart) :
    expressionNodes (.expression expr :: parts) = expr.node :: expressionNodes parts := rfl

@[simp] theorem expressionNodes_append (left right : List BoundPart) :
    expressionNodes (left ++ right) = expressionNodes left ++ expressionNodes right :=
  List.filterMap_append

theorem BoundExpr.IsAround.visits {expr : BoundExpr} {node : NodeId} {inner : List BoundPart}
    {visited : List NodeId} (isAround : expr.IsAround node inner)
    (innerEq : expressionNodes inner = visited) :
    expressionNodes expr.walk = node :: visited := by
  rw [isAround.walk_eq, expressionNodes_expression, isAround.node_eq, innerEq]

@[simp] theorem Binder.pushRangeVariable_isCancelled (binder : Binder)
    (declared : Option RangeVariable) :
    (binder.pushRangeVariable declared).isCancelled = binder.isCancelled := by
  cases declared <;> rfl

theorem bindName_visits {binder : Binder} {site : Site} {identifier : Identifier} :
    (bindName binder site identifier).Yields fun bound =>
      expressionNodes bound.walk = [site.node] := by
  have isBad : (BoundExpr.bad site.node []).IsAround site.node [] := ⟨rfl, rfl, rfl⟩
  unfold bindName
  split
  · exact .pure (isBad.visits rfl)
  · refine .next fun result => ?_
    split
    · exact bindReference_yields.mono fun bound isReference => isReference.1.visits rfl
    · exact .next fun _ => .pure (isBad.visits rfl)

mutual

/-- Binding an expression visits the nodes that the expression lists. -/
theorem bindExpr_visits {binder : Binder} (live : binder.isCancelled = false) (expr : Expr) :
    (bindExpr binder expr).Yields fun bound => expressionNodes bound.walk = expr.visited := by
  match expr with
  | .name site identifier =>
      rw [bindExpr]
      exact bindName_visits
  | .literal site value =>
      rw [bindExpr]
      have isAround : (BoundExpr.literal site.node value).IsAround site.node [] := ⟨rfl, rfl, rfl⟩
      exact .pure (isAround.visits rfl)
  | .parenthesized site inner =>
      rw [bindExpr]
      exact bindExpr_visits live inner
  | .memberAccess site receiver member =>
      rw [bindExpr]
      refine (bindExpr_visits live receiver).bind fun bound visits => ?_
      exact bindMemberAccess_yields.mono fun result isAround => isAround.visits visits
  | .memberCall site receiver member arguments =>
      rw [bindExpr]
      refine (bindExpr_visits live receiver).bind fun bound visits => ?_
      refine (bindExprs_visit live arguments).bind fun others othersVisit => ?_
      refine bindMemberCall_yields.mono fun result isAround => isAround.visits ?_
      rw [expressionNodes_append, visits, othersVisit]
  | .namedCall site callee arguments =>
      rw [bindExpr]
      refine (bindExprs_visit live arguments).bind fun bound visits => ?_
      exact bindNamedCall_yields.mono fun result isAround => isAround.visits visits
  | .valueCall site callee text arguments =>
      rw [bindExpr]
      refine (bindExpr_visits live callee).bind fun bound visits => ?_
      refine (bindExprs_visit live arguments).bind fun others othersVisit => ?_
      refine .next fun _ => .pure ?_
      have isAround : (BoundExpr.bad site.node (bound :: others)).IsAround site.node
          (bound.walk ++ walkAll others) :=
        ⟨rfl, by rw [BoundExpr.walk, walkAll], rfl⟩
      refine isAround.visits ?_
      rw [expressionNodes_append, visits, othersVisit]
  | .binary site operator left right =>
      rw [bindExpr]
      refine (bindExpr_visits live left).bind fun boundLeft leftVisits => ?_
      refine (bindExpr_visits live right).bind fun boundRight rightVisits => ?_
      refine bindOperator_yields.mono fun result isAround => isAround.visits ?_
      rw [expressionNodes_append, leftVisits, rightVisits]
  | .query site clauses ending conclusion =>
      rw [bindExpr, live]
      refine (bindClauses_visit live clauses).bind ?_
      rintro ⟨inner, bound⟩ ⟨innerLive, visits⟩
      refine (bindEnding_visits innerLive ending).bind ?_
      rintro ⟨type, last⟩ lastVisits
      refine (bindConclusion_visits live conclusion).bind ?_
      rintro ⟨boundConclusion, finalType⟩ conclusionVisits
      refine .pure ?_
      rw [BoundExpr.walk, expressionNodes_expression, expressionNodes_append, walkClauses_append,
        expressionNodes_append, visits, lastVisits, conclusionVisits, List.append_assoc]
      rfl

theorem bindExprs_visit {binder : Binder} (live : binder.isCancelled = false)
    (exprs : List Expr) :
    (bindExprs binder exprs).Yields fun bound =>
      expressionNodes (walkAll bound) = Expr.allVisited exprs := by
  match exprs with
  | [] =>
      rw [bindExprs]
      exact .pure rfl
  | expr :: rest =>
      rw [bindExprs]
      refine (bindExpr_visits live expr).bind fun bound visits => ?_
      refine (bindExprs_visit live rest).bind fun others othersVisit => .pure ?_
      rw [walkAll, expressionNodes_append, visits, othersVisit]
      rfl

/-- Binding a clause visits the nodes that it lists, and goes on uncancelled. -/
theorem bindClause_visits {binder : Binder} (live : binder.isCancelled = false)
    (clause : Clause) :
    (bindClause binder clause).Yields fun result =>
      result.1.isCancelled = false ∧ expressionNodes result.2.walk = clause.visited := by
  match clause with
  | .fromClause site identifier source =>
      rw [bindClause]
      refine (bindExpr_visits live source).bind fun bound visits => ?_
      refine .next fun element => .next fun declared => .pure ⟨?_, visits⟩
      rw [Binder.pushRangeVariable_isCancelled, live]
  | .whereClause site condition =>
      rw [bindClause]
      exact (bindExpr_visits live condition).bind fun bound visits => .pure ⟨live, visits⟩
  | .letClause site identifier value =>
      rw [bindClause]
      refine (bindExpr_visits live value).bind fun bound visits => ?_
      refine .next fun declared => .pure ⟨?_, visits⟩
      rw [Binder.pushRangeVariable_isCancelled, live]

theorem bindClauses_visit {binder : Binder} (live : binder.isCancelled = false)
    (clauses : List Clause) :
    (bindClauses binder clauses).Yields fun result =>
      result.1.isCancelled = false ∧
        expressionNodes (walkClauses result.2) = Clause.allVisited clauses := by
  match clauses with
  | [] =>
      rw [bindClauses]
      exact .pure ⟨live, rfl⟩
  | clause :: rest =>
      rw [bindClauses]
      refine (bindClause_visits live clause).bind ?_
      rintro ⟨next, bound⟩ ⟨nextLive, visits⟩
      refine (bindClauses_visit nextLive rest).bind ?_
      rintro ⟨inner, others⟩ ⟨innerLive, othersVisit⟩
      refine .pure ⟨innerLive, ?_⟩
      rw [walkClauses, expressionNodes_append, visits, othersVisit]
      rfl

theorem bindEnding_visits {binder : Binder} (live : binder.isCancelled = false)
    (ending : QueryEnding) :
    (bindEnding binder ending).Yields fun result =>
      expressionNodes (walkClauses result.2) = ending.visited := by
  match ending with
  | .absent =>
      rw [bindEnding]
      exact .pure rfl
  | .selectClause site selected =>
      rw [bindEnding]
      refine (bindExpr_visits live selected).bind fun bound visits => ?_
      refine .next fun type => .pure ?_
      rw [walkClauses, walkClauses, List.append_nil]
      exact visits
  | .groupClause site element key =>
      rw [bindEnding]
      refine (bindExpr_visits live element).bind fun boundElement elementVisits => ?_
      refine (bindExpr_visits live key).bind fun boundKey keyVisits => ?_
      refine .next fun grouping => .next fun type => .pure ?_
      rw [walkClauses, walkClauses, List.append_nil, BoundClause.walk, expressionNodes_append,
        elementVisits, keyVisits]
      rfl

/-- Binding a conclusion visits the nodes that it lists: none without a name. -/
theorem bindConclusion_visits {binder : Binder} {type : TypeId}
    (live : binder.isCancelled = false) (conclusion : Conclusion) :
    (bindConclusion binder type conclusion).Yields fun result =>
      expressionNodes result.1.walk = conclusion.visited := by
  match conclusion with
  | .absent =>
      rw [bindConclusion]
      exact .pure rfl
  | .present site identifier body =>
      rw [bindConclusion, Conclusion.visited]
      split
      · next noName =>
          rw [if_pos noName]
          exact .pure rfl
      · next name hasName =>
          rw [if_neg (by rw [hasName]; exact Option.some_ne_none name)]
          refine .next fun own => .next fun scope => ?_
          have innerLive : (binder.pushConclusion scope).isCancelled = false := live
          refine (Binding.Yields.collecting (bindRoot_visits innerLive body)).bind ?_
          rintro ⟨value, diagnostics⟩ visits
          exact .pure visits

theorem bindRoot_visits {binder : Binder} (live : binder.isCancelled = false)
    (root : RootExpr) :
    (bindRoot binder root).Yields fun bound => expressionNodes bound.walk = root.visited := by
  match root with
  | .tooDeep site reported =>
      rw [bindRoot]
      have isAround : (BoundExpr.bad site.node []).IsAround site.node [] := ⟨rfl, rfl, rfl⟩
      exact .next fun _ => .pure (isAround.visits rfl)
  | .expression expr =>
      rw [bindRoot]
      exact bindExpr_visits live expr

end

/-! ### Statements -/

theorem StatementScope.start_live {binder : Binder} (live : binder.isCancelled = false) :
    (start binder).binder.isCancelled = false := live

theorem StatementScope.declareLocal_live {scope : StatementScope} {identifier : Identifier}
    {type : TypeId} (live : scope.binder.isCancelled = false) :
    (scope.declareLocal identifier type).Yields fun result =>
      result.1.binder.isCancelled = false := by
  refine declareLocal_yields.mono ?_
  rintro ⟨inner, found⟩ isFound
  cases found with
  | none =>
      rw [isFound.2]
      exact live
  | some own =>
      rw [isFound.2.2]
      exact live

mutual

/-- Binding a statement visits the nodes that it lists, and goes on uncancelled. -/
theorem bindStatement_visits {scope : StatementScope} (live : scope.binder.isCancelled = false)
    (statement : Statement) :
    (bindStatement scope statement).Yields fun result =>
      result.1.binder.isCancelled = false ∧
        expressionNodes result.2.walk = statement.visited := by
  match statement with
  | .localDeclaration site identifier value =>
      rw [bindStatement]
      refine (bindRoot_visits live value).bind fun bound visits => ?_
      refine (StatementScope.declareLocal_live live).bind ?_
      rintro ⟨inner, symbol⟩ innerLive
      refine .pure ⟨innerLive, ?_⟩
      rw [BoundStatement.walk]
      exact visits
  | .expression site value =>
      rw [bindStatement]
      refine (bindRoot_visits live value).bind fun bound visits => .pure ⟨live, ?_⟩
      rw [BoundStatement.walk]
      exact visits
  | .returnValue site none =>
      rw [bindStatement]
      refine .pure ⟨live, ?_⟩
      rw [BoundStatement.walk]
      rfl
  | .returnValue site (some value) =>
      rw [bindStatement]
      refine (bindRoot_visits live value).bind fun bound visits => .pure ⟨live, ?_⟩
      rw [BoundStatement.walk]
      exact visits
  | .yieldReturn site none =>
      rw [bindStatement]
      refine .pure ⟨live, ?_⟩
      rw [BoundStatement.walk, BoundExpr.walk, walkAll]
      rfl
  | .yieldReturn site (some value) =>
      rw [bindStatement]
      refine (bindRoot_visits live value).bind fun bound visits => .pure ⟨live, ?_⟩
      rw [BoundStatement.walk]
      exact visits
  | .yieldBreak site =>
      rw [bindStatement]
      refine .pure ⟨live, ?_⟩
      rw [BoundStatement.walk]
      rfl
  | .doWhile site bodySite body condition =>
      rw [bindStatement]
      refine (bindStatements_visit (StatementScope.start_live live) body).bind ?_
      intro boundBody bodyVisits
      refine (bindRoot_visits live condition).bind fun bound visits => .pure ⟨live, ?_⟩
      rw [BoundStatement.walk, expressionNodes_statement, expressionNodes_block,
        expressionNodes_append, bodyVisits, visits]
      rfl
  | .block site statements =>
      rw [bindStatement]
      refine (bindStatements_visit (StatementScope.start_live live) statements).bind ?_
      intro bound visits
      refine .pure ⟨live, ?_⟩
      rw [BoundStatement.walk]
      exact visits

theorem bindStatements_visit {scope : StatementScope} (live : scope.binder.isCancelled = false)
    (statements : List Statement) :
    (bindStatements scope statements).Yields fun bound =>
      expressionNodes (walkStatements bound) = Statement.allVisited statements := by
  match statements with
  | [] =>
      rw [bindStatements]
      exact .pure rfl
  | statement :: rest =>
      rw [bindStatements]
      refine StatementScope.enter_yields.bind fun entered sameBinder => ?_
      have enteredLive : entered.binder.isCancelled = false := sameBinder ▸ live
      refine (bindStatement_visits enteredLive statement).bind ?_
      rintro ⟨next, bound⟩ ⟨nextLive, visits⟩
      have afterLive : (next.after bound).binder.isCancelled = false := by
        rw [StatementScope.binder_after]
        exact nextLive
      refine (bindStatements_visit afterLive rest).bind fun others othersVisit => .pure ?_
      rw [walkStatements, expressionNodes_append, visits, othersVisit]
      rfl

end

/-- Binding a file comes to every expression of its tree that is to be bound, and once to each. -/
theorem bindFile_covers {tree : SyntaxTree} {damaged : Prop} {binder : Binder}
    (wellFormed : tree.WellFormed damaged) (shallow : tree.Shallow)
    (live : binder.isCancelled = false) :
    (bindFile binder tree).Yields fun block =>
      tree.Covers SyntaxTree.root (expressionNodes block.walk) := by
  rcases StatementList.ofTree_gives wellFormed with ⟨list, listEq, isRoot, isAt⟩
  have branch := isAt.branch
  rw [isRoot] at branch
  refine .next fun _ => ?_
  refine .bind_lift fun read readEq => ?_
  cases readEq.symm.trans listEq
  refine (bindStatements_visit (StatementScope.start_live live) list.statements).bind ?_
  intro bound visits
  refine .pure ?_
  rw [BoundBlock.walk, expressionNodes_block, visits]
  exact branch.coversRootStatements wellFormed shallow isAt.statements

end QueryLang
