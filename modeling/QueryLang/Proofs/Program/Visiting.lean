import QueryLang.Proofs.Program.Covering

/-!
# The expressions of a program

`visited` lists the nodes that binding takes from a part of a program. What a program has at a node
covers what is below the node: no expression is left out that should be bound, and none is listed
twice.
-/

namespace QueryLang

mutual

/-- The nodes that binding takes from an expression. -/
def Expr.visited : Expr → List NodeId
  | .name site _ | .literal site _ => [site.node]
  | .parenthesized _ inner => inner.visited
  | .memberAccess site receiver _ => site.node :: receiver.visited
  | .memberCall site callee _ arguments | .valueCall site callee _ arguments =>
    site.node :: (callee.visited ++ Expr.allVisited arguments)
  | .namedCall site _ arguments => site.node :: Expr.allVisited arguments
  | .binary site _ left right => site.node :: (left.visited ++ right.visited)
  | .query site clauses ending conclusion =>
    site.node :: (Clause.allVisited clauses ++ (ending.visited ++ conclusion.visited))

/-- The nodes that binding takes from expressions. -/
def Expr.allVisited : List Expr → List NodeId
  | [] => []
  | expr :: rest => expr.visited ++ Expr.allVisited rest

/-- The nodes that binding takes from a clause. -/
def Clause.visited : Clause → List NodeId
  | .fromClause _ _ inner | .whereClause _ inner | .letClause _ _ inner => inner.visited

/-- The nodes that binding takes from clauses. -/
def Clause.allVisited : List Clause → List NodeId
  | [] => []
  | clause :: rest => clause.visited ++ Clause.allVisited rest

/-- The nodes that binding takes from the last clause of a query. -/
def QueryEnding.visited : QueryEnding → List NodeId
  | .absent => []
  | .selectClause _ selected => selected.visited
  | .groupClause _ element key => element.visited ++ key.visited

/-- The nodes that binding takes from a conclusion. Without a name there are none. -/
def Conclusion.visited : Conclusion → List NodeId
  | .absent => []
  | .present _ identifier body => if identifier.name = none then [] else body.visited

/-- The nodes that binding takes from a root expression. -/
def RootExpr.visited : RootExpr → List NodeId
  | .tooDeep site _ => [site.node]
  | .expression expr => expr.visited

end

mutual

/-- The nodes that binding takes from a statement. -/
def Statement.visited : Statement → List NodeId
  | .localDeclaration _ _ value | .expression _ value | .returnValue _ (some value)
  | .yieldReturn _ (some value) => value.visited
  | .returnValue _ none | .yieldBreak _ => []
  | .yieldReturn site none => [site.node]
  | .doWhile _ _ body condition => Statement.allVisited body ++ condition.visited
  | .block _ statements => Statement.allVisited statements

/-- The nodes that binding takes from statements. -/
def Statement.allVisited : List Statement → List NodeId
  | [] => []
  | statement :: rest => statement.visited ++ Statement.allVisited rest

end

section Covers

open SyntaxTree

variable {tree : SyntaxTree} {damaged : Prop}

/-- An identifier that is there has a name. -/
theorem SyntaxTree.WellFormed.named (wellFormed : tree.WellFormed damaged) {node : NodeId}
    {id : TokenId} {token : TreeToken}
    (found : tree.childToken? node .identifierToken = .ok (some id))
    (isToken : tree.token id = .ok token) (present : token.isMissing = false) :
    token.value.isSome := by
  rcases Checked.bind_eq_ok_iff.mp found with ⟨tokens, tokensEq, foundEq⟩
  have isFound := Checked.pure_eq_ok_iff.mp foundEq
  have hasKind := List.find?_some isFound
  have isChild := List.mem_of_find?_eq_some isFound
  rcases Checked.bind_eq_ok_iff.mp tokensEq with ⟨own, ownEq, childrenEq⟩
  cases ownFound : tree.nodes[node]? with
  | none => simp [SyntaxTree.node, ownFound] at ownEq
  | some inner =>
      simp only [SyntaxTree.node, ownFound, Except.ok.injEq] at ownEq
      subst ownEq
      rw [← Checked.pure_eq_ok_iff.mp childrenEq] at isChild
      rcases List.mem_filterMap.mp isChild with ⟨element, isElement, isToken'⟩
      cases element with
      | node other => cases isToken'
      | token other =>
          cases isToken'
          rcases wellFormed.formed node (Array.getElem?_eq_some_iff.mp ownFound).1 with
            ⟨role, formed⟩
          rcases formed.child ownFound isElement with ⟨lower, leaf, _, formedLeaf⟩
          rcases formedAt_token_iff.mp formedLeaf with ⟨kind, same, _, leafAt⟩
          have sameToken : same = token := by
            rw [SyntaxTree.token, leafAt.found] at isToken
            exact Except.ok.inj isToken
          subst sameToken
          refine leafAt.named ?_ present
          rw [tokenHasKind, leafAt.found] at hasKind
          rw [← leafAt.kind_eq]
          simpa using hasKind

theorem SyntaxTree.DeclaresAt.lacks_iff (wellFormed : tree.WellFormed damaged) {node : NodeId}
    {identifier : Identifier} (declares : tree.DeclaresAt damaged node identifier) :
    tree.LacksIdentifier node ↔ identifier.name = none := by
  rcases declares.token with ⟨id, token, found, isToken, _, nameEq⟩
  constructor
  · rintro ⟨other, otherToken, otherFound, isOther, missing⟩
    cases found.symm.trans otherFound
    cases isToken.symm.trans isOther
    rw [nameEq, missing, if_pos rfl]
  · intro noName
    refine ⟨id, token, found, isToken, ?_⟩
    by_contra present
    rw [Bool.not_eq_true] at present
    have named := wellFormed.named found isToken present
    rw [noName, present, if_neg Bool.false_ne_true] at nameEq
    rw [← nameEq] at named
    cases named

/-- The name node of a call or of a member access is covered by nothing. -/
theorem SyntaxTree.NameAt.covers_nil {node : NodeId} {identifier : Identifier}
    (isName : tree.NameAt damaged node identifier) (passedOver : tree.PassedOver node) :
    tree.Covers node [] :=
  isName.branch.covers (fun isBound => isBound.2 passedOver) .nil

/-- Nothing is taken from a conclusion without a name. -/
theorem SyntaxTree.BranchAt.covers_nil_of_lost {conclusion : NodeId} {children : List NodeId}
    (branch : tree.BranchAt conclusion .queryConclusion children)
    (lacks : tree.LacksIdentifier conclusion) : tree.Covers conclusion [] where
  nodup := List.nodup_nil
  mem_iff := by
    intro node
    refine iff_of_false List.not_mem_nil ?_
    rintro ⟨below, isBound⟩
    rcases branch.below_iff.mp below with rfl | inBody
    · exact not_isBound branch.kind_eq rfl isBound
    · exact isBound.2 (.lostBody ⟨conclusion, children, branch, lacks, inBody⟩)

/-- Binding comes to the body of a conclusion with a name. -/
theorem SyntaxTree.WellFormed.body_reached (wellFormed : tree.WellFormed damaged)
    {conclusion body : NodeId} {children : List NodeId}
    (branch : tree.BranchAt conclusion .queryConclusion children) (isChild : body ∈ children)
    (named : ¬tree.LacksIdentifier conclusion) (reached : tree.Reached conclusion) :
    tree.Reached body where
  shallow := branch.shallow isChild reached.shallow
  notLost := by
    rintro ⟨other, others, isConclusion, lacks, top, isTop, below⟩
    rcases wellFormed.below_parent branch isChild below with rfl | around
    · rcases wellFormed.sameParent branch isChild isConclusion isTop with ⟨rfl, _⟩
      exact named lacks
    · exact reached.notLost ⟨other, others, isConclusion, lacks, top, isTop, around⟩

mutual

/-- Binding takes every expression at or below an expression that it comes to, and each once. -/
theorem Expr.covers (wellFormed : tree.WellFormed damaged) (expr : Expr)
    (isAt : expr.At tree damaged)
    (reached : tree.Reached expr.site.node) (onItsOwn : tree.OnItsOwn expr.site.node) :
    tree.Covers expr.site.node expr.visited :=
  match expr with
  | .name site identifier => by
      have isBound : tree.IsBound site.node :=
        .of_reached isAt.branch.kind_eq rfl (by decide) reached onItsOwn
      exact isAt.branch.covers_cons wellFormed isBound .nil
  | .literal site value => by
      rcases isAt with ⟨kind, isLiteral, branch⟩
      rcases Option.isSome_iff_exists.mp isLiteral with ⟨token, isToken⟩
      have notParentheses : kind ≠ .parenthesizedExpression := by
        rintro rfl
        cases isToken
      have isBound : tree.IsBound site.node :=
        .of_reached branch.kind_eq (Kind.isExpression_of_literalToken? isToken) notParentheses
          reached onItsOwn
      exact branch.covers_cons wellFormed isBound .nil
  | .parenthesized site inner => by
      rcases isAt with ⟨branch, innerAt⟩
      have row := wellFormed.row branch (by decide) (by decide) (by decide) reached
      refine branch.covers (fun isBound => isBound.2 (.parentheses branch.kind_eq)) (.single ?_)
      exact Expr.covers wellFormed inner innerAt row.head_reached row.head_onItsOwn
  | .memberAccess site receiver member => by
      rcases isAt with ⟨name, branch, isName, receiverAt⟩
      have isBound : tree.IsBound site.node :=
        .of_reached branch.kind_eq rfl (by decide) reached onItsOwn
      have ofReceiver := Expr.covers wellFormed receiver receiverAt
        (wellFormed.reached branch (List.mem_cons_self ..) (by decide) reached)
        (wellFormed.receiver_onItsOwn branch)
      have ofName : tree.Covers name [] := isName.covers_nil (.memberName ⟨_, _, branch⟩)
      have ofBoth := CoversAll.pair ofReceiver ofName (wellFormed.separate branch)
      rw [List.append_nil] at ofBoth
      exact branch.covers_cons wellFormed isBound ofBoth
  | .memberCall site receiver member arguments => by
      rcases isAt with ⟨callee, name, list, branch, calleeBranch, isName, listBranch, receiverAt,
        argumentsAt⟩
      have isBound : tree.IsBound site.node :=
        .of_reached branch.kind_eq rfl (by decide) reached onItsOwn
      have calleeReached := wellFormed.reached branch (List.mem_cons_self ..) (by decide) reached
      have listReached := wellFormed.reached branch (List.mem_pair.mpr (.inr rfl)) (by decide)
        reached
      have ofReceiver := Expr.covers wellFormed receiver receiverAt
        (wellFormed.reached calleeBranch (List.mem_cons_self ..) (by decide) calleeReached)
        (wellFormed.receiver_onItsOwn calleeBranch)
      have ofName : tree.Covers name [] := isName.covers_nil (.memberName ⟨_, _, calleeBranch⟩)
      have inCallee := CoversAll.pair ofReceiver ofName (wellFormed.separate calleeBranch)
      rw [List.append_nil] at inCallee
      have ofCallee := calleeBranch.covers (fun isBound =>
        isBound.2 (.callee ⟨.inl calleeBranch.kind_eq, _, _, branch⟩)) inCallee
      have ofList := listBranch.covers (not_isBound listBranch.kind_eq rfl)
        (Expr.coversAll wellFormed arguments argumentsAt
          (wellFormed.row listBranch (by decide) (by decide) (by decide) listReached))
      exact branch.covers_cons wellFormed isBound
        (.pair ofCallee ofList (wellFormed.separate branch))
  | .namedCall site callee arguments => by
      rcases isAt with ⟨name, list, branch, isName, listBranch, argumentsAt⟩
      have isBound : tree.IsBound site.node :=
        .of_reached branch.kind_eq rfl (by decide) reached onItsOwn
      have listReached := wellFormed.reached branch (List.mem_pair.mpr (.inr rfl)) (by decide)
        reached
      have ofName : tree.Covers name [] :=
        isName.covers_nil (.callee ⟨.inr isName.branch.kind_eq, _, _, branch⟩)
      have ofList := listBranch.covers (not_isBound listBranch.kind_eq rfl)
        (Expr.coversAll wellFormed arguments argumentsAt
          (wellFormed.row listBranch (by decide) (by decide) (by decide) listReached))
      exact branch.covers_cons wellFormed isBound
        (.pair ofName ofList (wellFormed.separate branch))
  | .valueCall site callee text arguments => by
      rcases isAt with ⟨list, branch, notNamed, listBranch, calleeAt, argumentsAt⟩
      have isBound : tree.IsBound site.node :=
        .of_reached branch.kind_eq rfl (by decide) reached onItsOwn
      have listReached := wellFormed.reached branch (List.mem_pair.mpr (.inr rfl)) (by decide)
        reached
      have ofCallee := Expr.covers wellFormed callee calleeAt
        (wellFormed.reached branch (List.mem_cons_self ..) (by decide) reached)
        (wellFormed.callee_onItsOwn branch notNamed)
      have ofList := listBranch.covers (not_isBound listBranch.kind_eq rfl)
        (Expr.coversAll wellFormed arguments argumentsAt
          (wellFormed.row listBranch (by decide) (by decide) (by decide) listReached))
      exact branch.covers_cons wellFormed isBound
        (.pair ofCallee ofList (wellFormed.separate branch))
  | .binary site operator left right => by
      rcases isAt with ⟨branch, leftAt, rightAt⟩
      have isBound : tree.IsBound site.node :=
        .of_reached branch.kind_eq rfl (by decide) reached onItsOwn
      have row := wellFormed.row branch (by decide) (by decide) (by decide) reached
      have rightRow : tree.Row [right.site.node] := row.tail
      exact branch.covers_cons wellFormed isBound (.pair
        (Expr.covers wellFormed left leftAt row.head_reached row.head_onItsOwn)
        (Expr.covers wellFormed right rightAt rightRow.head_reached rightRow.head_onItsOwn)
        row.separate)
  | .query site clauses ending conclusion => by
      rcases isAt with ⟨first, rest, body, rfl, branch, bodyBranch, clausesAt, endingAt,
        conclusionAt⟩
      have isBound : tree.IsBound site.node :=
        .of_reached branch.kind_eq rfl (by decide) reached onItsOwn
      have row := wellFormed.row branch (by decide) (by decide) (by decide) reached
      have bodyReached := wellFormed.reached branch (List.mem_pair.mpr (.inr rfl)) (by decide)
        reached
      have bodyRow := wellFormed.row bodyBranch (by decide) (by decide) (by decide) bodyReached
      have ofFirst := Clause.covers wellFormed first clausesAt.1 row.head_reached
      have ofRest := Clause.coversAll wellFormed rest clausesAt.2 bodyRow.left
      have ofEnding := QueryEnding.covers wellFormed ending endingAt bodyRow.right.left
      have ofConclusion := Conclusion.covers wellFormed conclusion conclusionAt bodyRow.right.right
      have ofBody := bodyBranch.covers (not_isBound bodyBranch.kind_eq rfl)
        (ofRest.append (ofEnding.append ofConclusion bodyRow.right.separate) bodyRow.separate)
      have ofBoth := CoversAll.pair ofFirst ofBody row.separate
      rw [← List.append_assoc] at ofBoth
      exact branch.covers_cons wellFormed isBound ofBoth

theorem Expr.coversAll (wellFormed : tree.WellFormed damaged) (exprs : List Expr)
    (areAt : Expr.AllAt tree damaged exprs)
    (row : tree.Row (exprs.map fun expr => expr.site.node)) :
    tree.CoversAll (exprs.map fun expr => expr.site.node) (Expr.allVisited exprs) :=
  match exprs with
  | [] => .nil
  | expr :: rest =>
      .cons (Expr.covers wellFormed expr areAt.1 row.head_reached row.head_onItsOwn)
        (Expr.coversAll wellFormed rest areAt.2 row.tail) row.separate

theorem Clause.covers (wellFormed : tree.WellFormed damaged) (clause : Clause)
    (isAt : clause.At tree damaged)
    (reached : tree.Reached clause.node) : tree.Covers clause.node clause.visited :=
  match clause with
  | .fromClause site identifier source => by
      rcases isAt with ⟨branch, _, sourceAt⟩
      have row := wellFormed.row branch (by decide) (by decide) (by decide) reached
      exact branch.covers (not_isBound branch.kind_eq rfl)
        (.single (Expr.covers wellFormed source sourceAt row.head_reached row.head_onItsOwn))
  | .whereClause site condition => by
      rcases isAt with ⟨branch, conditionAt⟩
      have row := wellFormed.row branch (by decide) (by decide) (by decide) reached
      exact branch.covers (not_isBound branch.kind_eq rfl)
        (.single (Expr.covers wellFormed condition conditionAt row.head_reached row.head_onItsOwn))
  | .letClause site identifier value => by
      rcases isAt with ⟨branch, _, valueAt⟩
      have row := wellFormed.row branch (by decide) (by decide) (by decide) reached
      exact branch.covers (not_isBound branch.kind_eq rfl)
        (.single (Expr.covers wellFormed value valueAt row.head_reached row.head_onItsOwn))

theorem Clause.coversAll (wellFormed : tree.WellFormed damaged) (clauses : List Clause)
    (areAt : Clause.AllAt tree damaged clauses)
    (row : tree.Row (clauses.map Clause.node)) :
    tree.CoversAll (clauses.map Clause.node) (Clause.allVisited clauses) :=
  match clauses with
  | [] => .nil
  | clause :: rest =>
      .cons (Clause.covers wellFormed clause areAt.1 row.head_reached)
        (Clause.coversAll wellFormed rest areAt.2 row.tail) row.separate

theorem QueryEnding.covers (wellFormed : tree.WellFormed damaged) (ending : QueryEnding)
    (isAt : ending.At tree damaged)
    (row : tree.Row ending.nodes) : tree.CoversAll ending.nodes ending.visited :=
  match ending with
  | .absent => isAt.elim
  | .selectClause site selected => by
      rcases isAt with ⟨branch, selectedAt⟩
      have inner := wellFormed.row branch (by decide) (by decide) (by decide) row.head_reached
      exact .single (branch.covers (not_isBound branch.kind_eq rfl)
        (.single (Expr.covers wellFormed selected selectedAt inner.head_reached
          inner.head_onItsOwn)))
  | .groupClause site element key => by
      rcases isAt with ⟨branch, elementAt, keyAt⟩
      have inner := wellFormed.row branch (by decide) (by decide) (by decide) row.head_reached
      have keyRow : tree.Row [key.site.node] := inner.tail
      exact .single (branch.covers (not_isBound branch.kind_eq rfl) (.pair
        (Expr.covers wellFormed element elementAt inner.head_reached inner.head_onItsOwn)
        (Expr.covers wellFormed key keyAt keyRow.head_reached keyRow.head_onItsOwn) inner.separate))

theorem Conclusion.covers (wellFormed : tree.WellFormed damaged) (conclusion : Conclusion)
    (isAt : conclusion.At tree damaged)
    (row : tree.Row conclusion.nodes) : tree.CoversAll conclusion.nodes conclusion.visited :=
  match conclusion with
  | .absent => .nil
  | .present site identifier body => by
      rcases isAt with ⟨branch, declares, bodyAt⟩
      refine .single ?_
      rw [Conclusion.visited]
      split
      · next noName =>
          have lacks := (declares.lacks_iff wellFormed).mpr noName
          exact branch.covers_nil_of_lost lacks
      · next hasName =>
          have lacksNot : ¬tree.LacksIdentifier site.node := fun lacks =>
            hasName ((declares.lacks_iff wellFormed).mp lacks)
          have isChild : body.site.node ∈ [body.site.node] := List.mem_singleton_self _
          exact branch.covers (not_isBound branch.kind_eq rfl) (.single
            (RootExpr.covers wellFormed body bodyAt
              (wellFormed.body_reached branch isChild lacksNot row.head_reached)
              (wellFormed.onItsOwn branch isChild (by decide) (by decide))))

theorem RootExpr.covers (wellFormed : tree.WellFormed damaged) (root : RootExpr)
    (isAt : root.At tree damaged)
    (reached : tree.Reached root.site.node) (onItsOwn : tree.OnItsOwn root.site.node) :
    tree.Covers root.site.node root.visited :=
  match root with
  | .tooDeep site reported => by
      have shallow : tree.exceedsDepth site.node maxExpressionDepth = false := reached.shallow
      exact absurd (shallow.symm.trans isAt.1) Bool.false_ne_true
  | .expression expr => Expr.covers wellFormed expr isAt reached onItsOwn

end

/-! ### Statements -/

theorem RootExpr.At.isExpression {root : RootExpr} (isAt : root.At tree damaged) :
    tree.IsExpression root.site.node := by
  cases root with
  | tooDeep site reported =>
      rcases isAt with ⟨_, kind, kindEq, isExpression, _⟩
      exact ⟨kind, kindEq, isExpression⟩
  | expression expr => exact Expr.At.isExpression isAt

/-- The expression of a statement is covered, as nothing keeps binding from it. -/
theorem SyntaxTree.BranchAt.coversRoot (wellFormed : tree.WellFormed damaged)
    (shallow : tree.Shallow) {statement : NodeId} {kind : Kind} {children : List NodeId}
    (branch : tree.BranchAt statement kind children) (isStatement : kind.isStatement = true)
    (notLost : ¬tree.InLostBody statement) {root : RootExpr} (isAt : root.At tree damaged)
    (isChild : root.site.node ∈ children) : tree.Covers root.site.node root.visited := by
  have other {forbidden : Kind} (notStatement : forbidden.isStatement = false) :
      kind ≠ forbidden := by
    rintro rfl
    exact absurd (notStatement.symm.trans isStatement) Bool.false_ne_true
  have reached : tree.Reached root.site.node :=
    { shallow := shallow _ _ _ branch isStatement _ isChild isAt.isExpression
      notLost := wellFormed.notLost branch isChild (other rfl) notLost }
  exact root.covers wellFormed isAt reached
    (wellFormed.onItsOwn branch isChild (other rfl) (other rfl))

/-- Nodes next to each other, none of which is in a body that is left out. -/
structure SyntaxTree.StatementRow (tree : SyntaxTree) (nodes : List NodeId) : Prop where
  notLost : ∀ node ∈ nodes, ¬tree.InLostBody node
  separate : tree.Separate nodes

theorem SyntaxTree.WellFormed.statementRow (wellFormed : tree.WellFormed damaged) {node : NodeId}
    {kind : Kind} {children : List NodeId} (branch : tree.BranchAt node kind children)
    (other : kind ≠ .queryConclusion) (notLost : ¬tree.InLostBody node) :
    tree.StatementRow children where
  notLost _ isChild := wellFormed.notLost branch isChild other notLost
  separate := wellFormed.separate branch

mutual

/-- Binding takes every expression below a statement, and each once. -/
theorem Statement.covers (wellFormed : tree.WellFormed damaged) (shallow : tree.Shallow)
    (statement : Statement) (isAt : statement.At tree damaged)
    (notLost : ¬tree.InLostBody statement.site.node) :
    tree.Covers statement.site.node statement.visited :=
  match statement with
  | .localDeclaration site identifier value => by
      rcases isAt with ⟨branch, _, valueAt⟩
      exact branch.covers (not_isBound branch.kind_eq rfl) (.single
        (branch.coversRoot wellFormed shallow rfl notLost valueAt (List.mem_singleton_self _)))
  | .expression site value => by
      rcases isAt with ⟨branch, valueAt⟩
      exact branch.covers (not_isBound branch.kind_eq rfl) (.single
        (branch.coversRoot wellFormed shallow rfl notLost valueAt (List.mem_singleton_self _)))
  | .returnValue site none => isAt.covers (not_isBound isAt.kind_eq rfl) .nil
  | .returnValue site (some value) => by
      rcases isAt with ⟨branch, valueAt⟩
      exact branch.covers (not_isBound branch.kind_eq rfl) (.single
        (branch.coversRoot wellFormed shallow rfl notLost valueAt (List.mem_singleton_self _)))
  | .yieldReturn site none => isAt.elim
  | .yieldReturn site (some value) => by
      rcases isAt with ⟨branch, valueAt⟩
      exact branch.covers (not_isBound branch.kind_eq rfl) (.single
        (branch.coversRoot wellFormed shallow rfl notLost valueAt (List.mem_singleton_self _)))
  | .yieldBreak site => isAt.covers (not_isBound isAt.kind_eq rfl) .nil
  | .doWhile site bodySite body condition => by
      rcases isAt with ⟨branch, bodyBranch, bodyAt, conditionAt⟩
      have row := wellFormed.statementRow branch (by decide) notLost
      have inner := wellFormed.statementRow bodyBranch (by decide)
        (row.notLost _ (List.mem_cons_self ..))
      have ofBody := bodyBranch.covers (not_isBound bodyBranch.kind_eq rfl)
        (Statement.allCovers wellFormed shallow body bodyAt inner)
      have ofCondition := branch.coversRoot wellFormed shallow rfl notLost conditionAt
        (List.mem_pair.mpr (.inr rfl))
      exact branch.covers (not_isBound branch.kind_eq rfl) (.pair ofBody ofCondition row.separate)
  | .block site statements => by
      rcases isAt with ⟨branch, statementsAt⟩
      exact branch.covers (not_isBound branch.kind_eq rfl)
        (Statement.allCovers wellFormed shallow statements statementsAt
          (wellFormed.statementRow branch (by decide) notLost))

theorem Statement.allCovers (wellFormed : tree.WellFormed damaged) (shallow : tree.Shallow)
    (statements : List Statement) (areAt : Statement.AllAt tree damaged statements)
    (row : tree.StatementRow (statements.map fun statement => statement.site.node)) :
    tree.CoversAll (statements.map fun statement => statement.site.node)
      (Statement.allVisited statements) :=
  match statements with
  | [] => .nil
  | statement :: rest => by
      rcases row with ⟨notLost, separate⟩
      rw [List.map_cons, List.forall_mem_cons] at notLost
      exact .cons (Statement.covers wellFormed shallow statement areAt.1 notLost.1)
        (Statement.allCovers wellFormed shallow rest areAt.2
          ⟨notLost.2, (List.pairwise_cons.mp separate).2⟩) separate

end

/-- The root of a tree is in no body at all. -/
theorem SyntaxTree.WellFormed.root_notLost (wellFormed : tree.WellFormed damaged) :
    ¬tree.InLostBody root := by
  rintro ⟨conclusion, children, branch, _, body, isBody, below⟩
  rcases below.eq_or_parent wellFormed with isRoot | ⟨parent, parentEq, _⟩
  · exact wellFormed.not_mem_root branch (isRoot ▸ isBody)
  · cases wellFormed.root_parent.symm.trans parentEq

/-- Binding takes every expression of a file, and each once. -/
theorem SyntaxTree.BranchAt.coversRootStatements (wellFormed : tree.WellFormed damaged)
    (shallow : tree.Shallow) {statements : List Statement}
    (branch : tree.BranchAt root .compilationUnit
      (statements.map fun statement => statement.site.node))
    (areAt : Statement.AllAt tree damaged statements) :
    tree.Covers root (Statement.allVisited statements) := by
  have row := wellFormed.statementRow branch (by decide) wellFormed.root_notLost
  exact branch.covers (not_isBound branch.kind_eq rfl)
    (Statement.allCovers wellFormed shallow statements areAt row)

/-- What covers the root has all that is bound anywhere in the tree. -/
theorem SyntaxTree.Covers.mem_root_iff (wellFormed : tree.WellFormed damaged)
    {visited : List NodeId} (covers : tree.Covers root visited) (node : NodeId) :
    node ∈ visited ↔ tree.IsBound node := by
  rw [covers.mem_iff, and_iff_right_iff_imp]
  rintro ⟨⟨kind, kindEq, _⟩, _⟩
  exact wellFormed.reachable node (lt_of_kind kindEq)

end Covers

end QueryLang
