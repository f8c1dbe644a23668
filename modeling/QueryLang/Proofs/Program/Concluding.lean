import QueryLang.Proofs.Program.Subtree

/-!
# The conclusions of a program

`Concludes` lists the nodes of the conclusions in a part of a program, as long as nothing in it is
nested too deep to be read: the conclusion of a query comes first, then those inside its clauses
and those inside the conclusion. Below the node of such a part there are no other conclusions.
-/

namespace QueryLang

mutual

/-- An expression has exactly the conclusions at these nodes. -/
def Expr.Concludes : Expr → List NodeId → Prop
  | .name _ _, nodes | .literal _ _, nodes => nodes = []
  | .parenthesized _ inner, nodes | .memberAccess _ inner _, nodes => inner.Concludes nodes
  | .memberCall _ callee _ arguments, nodes | .valueCall _ callee _ arguments, nodes =>
    ∃ first rest, nodes = first ++ rest ∧ callee.Concludes first ∧
      Expr.AllConclude arguments rest
  | .namedCall _ _ arguments, nodes => Expr.AllConclude arguments nodes
  | .binary _ _ left right, nodes =>
    ∃ first rest, nodes = first ++ rest ∧ left.Concludes first ∧ right.Concludes rest
  | .query _ clauses ending conclusion, nodes =>
    ∃ first middle last, nodes = conclusion.nodes ++ (first ++ (middle ++ last)) ∧
      Clause.AllConclude clauses first ∧ ending.Concludes middle ∧ conclusion.Concludes last

/-- Expressions have exactly the conclusions at these nodes. -/
def Expr.AllConclude : List Expr → List NodeId → Prop
  | [], nodes => nodes = []
  | expr :: others, nodes =>
    ∃ first rest, nodes = first ++ rest ∧ expr.Concludes first ∧ Expr.AllConclude others rest

/-- A clause has exactly the conclusions at these nodes. -/
def Clause.Concludes : Clause → List NodeId → Prop
  | .fromClause _ _ inner, nodes | .whereClause _ inner, nodes | .letClause _ _ inner, nodes =>
    inner.Concludes nodes

/-- Clauses have exactly the conclusions at these nodes. -/
def Clause.AllConclude : List Clause → List NodeId → Prop
  | [], nodes => nodes = []
  | clause :: others, nodes =>
    ∃ first rest, nodes = first ++ rest ∧ clause.Concludes first ∧ Clause.AllConclude others rest

/-- The last clause of a query has exactly the conclusions at these nodes. -/
def QueryEnding.Concludes : QueryEnding → List NodeId → Prop
  | .absent, nodes => nodes = []
  | .selectClause _ selected, nodes => selected.Concludes nodes
  | .groupClause _ element key, nodes =>
    ∃ first rest, nodes = first ++ rest ∧ element.Concludes first ∧ key.Concludes rest

/-- Inside a conclusion there are exactly the conclusions at these nodes. -/
def Conclusion.Concludes : Conclusion → List NodeId → Prop
  | .absent, nodes => nodes = []
  | .present _ _ body, nodes => body.Concludes nodes

/-- A root expression has exactly the conclusions at these nodes. -/
def RootExpr.Concludes : RootExpr → List NodeId → Prop
  | .tooDeep _ _, _ => False
  | .expression expr, nodes => expr.Concludes nodes

end

mutual

/-- A statement has exactly the conclusions at these nodes. -/
def Statement.Concludes : Statement → List NodeId → Prop
  | .localDeclaration _ _ value, nodes | .expression _ value, nodes
  | .returnValue _ (some value), nodes | .yieldReturn _ (some value), nodes =>
    value.Concludes nodes
  | .returnValue _ none, nodes | .yieldReturn _ none, nodes | .yieldBreak _, nodes => nodes = []
  | .doWhile _ _ body condition, nodes =>
    ∃ first rest, nodes = first ++ rest ∧ Statement.AllConclude body first ∧
      condition.Concludes rest
  | .block _ statements, nodes => Statement.AllConclude statements nodes

/-- Statements have exactly the conclusions at these nodes. -/
def Statement.AllConclude : List Statement → List NodeId → Prop
  | [], nodes => nodes = []
  | statement :: others, nodes =>
    ∃ first rest, nodes = first ++ rest ∧ statement.Concludes first ∧
      Statement.AllConclude others rest

end

/-! ### Nothing is left out -/

namespace SyntaxTree

variable {tree : SyntaxTree} {damaged : Prop}

/-- A conclusion below a node of another kind is below a child of it. -/
theorem BranchAt.below_child {node id : Nat} {kind : Kind} {children : List NodeId}
    (branch : tree.BranchAt node kind children) (below : tree.Below node id)
    (isConclusion : tree.kind id = .ok .queryConclusion) (other : kind ≠ .queryConclusion) :
    ∃ child ∈ children, tree.Below child id := by
  rcases branch.below_iff.mp below with rfl | inChild
  · exact absurd (Except.ok.inj (branch.kind_eq.symm.trans isConclusion)) other
  · exact inChild

theorem NameAt.no_conclusion {node id : Nat} {identifier : Identifier}
    (isName : tree.NameAt damaged node identifier) (below : tree.Below node id)
    (isConclusion : tree.kind id = .ok .queryConclusion) : False := by
  rcases isName.branch.below_child below isConclusion (by decide) with ⟨_, inNothing, _⟩
  cases inNothing

end SyntaxTree

section Coverage

variable {tree : SyntaxTree} {damaged : Prop} {id : Nat}

mutual

/-- Every conclusion below an expression is listed. -/
theorem Expr.mem_of_concludes (isConclusion : tree.kind id = .ok .queryConclusion)
    {nodes : List NodeId} (expr : Expr)
    (concludes : expr.Concludes nodes) (isAt : expr.At tree damaged)
    (below : tree.Below expr.site.node id) : id ∈ nodes :=
  match expr with
  | .name _ _ => (isAt.no_conclusion below isConclusion).elim
  | .literal _ _ => by
      rcases isAt with ⟨kind, isLiteral, branch⟩
      have other : kind ≠ .queryConclusion := by
        rintro rfl
        cases isLiteral
      rcases branch.below_child below isConclusion other with ⟨_, inNothing, _⟩
      cases inNothing
  | .parenthesized _ inner => by
      rcases isAt.1.below_child below isConclusion (by decide) with ⟨child, isChild, inChild⟩
      cases List.mem_singleton.mp isChild
      exact inner.mem_of_concludes isConclusion concludes isAt.2 inChild
  | .memberAccess _ receiver _ => by
      rcases isAt with ⟨name, branch, isName, receiverAt⟩
      rcases branch.below_child below isConclusion (by decide) with ⟨child, isChild, inChild⟩
      rcases List.mem_pair.mp isChild with rfl | rfl
      · exact receiver.mem_of_concludes isConclusion concludes receiverAt inChild
      · exact (isName.no_conclusion inChild isConclusion).elim
  | .memberCall _ receiver _ arguments => by
      rcases concludes with ⟨first, rest, rfl, ofReceiver, ofArguments⟩
      rcases isAt with ⟨callee, name, list, branch, calleeBranch, isName, listBranch, receiverAt,
        argumentsAt⟩
      rcases branch.below_child below isConclusion (by decide) with ⟨child, isChild, inChild⟩
      rcases List.mem_pair.mp isChild with rfl | rfl
      · rcases calleeBranch.below_child inChild isConclusion (by decide) with
          ⟨part, isPart, inPart⟩
        rcases List.mem_pair.mp isPart with rfl | rfl
        · exact List.mem_append_left _
            (receiver.mem_of_concludes isConclusion ofReceiver receiverAt inPart)
        · exact (isName.no_conclusion inPart isConclusion).elim
      · rcases listBranch.below_child inChild isConclusion (by decide) with
          ⟨part, isPart, inPart⟩
        exact List.mem_append_right _
          (Expr.mem_of_allConclude isConclusion arguments ofArguments argumentsAt isPart inPart)
  | .namedCall _ _ arguments => by
      rcases isAt with ⟨name, list, branch, isName, listBranch, argumentsAt⟩
      rcases branch.below_child below isConclusion (by decide) with ⟨child, isChild, inChild⟩
      rcases List.mem_pair.mp isChild with rfl | rfl
      · exact (isName.no_conclusion inChild isConclusion).elim
      · rcases listBranch.below_child inChild isConclusion (by decide) with
          ⟨part, isPart, inPart⟩
        exact Expr.mem_of_allConclude isConclusion arguments concludes argumentsAt isPart inPart
  | .valueCall _ callee _ arguments => by
      rcases concludes with ⟨first, rest, rfl, ofCallee, ofArguments⟩
      rcases isAt with ⟨list, branch, _, listBranch, calleeAt, argumentsAt⟩
      rcases branch.below_child below isConclusion (by decide) with ⟨child, isChild, inChild⟩
      rcases List.mem_pair.mp isChild with rfl | rfl
      · exact List.mem_append_left _
          (callee.mem_of_concludes isConclusion ofCallee calleeAt inChild)
      · rcases listBranch.below_child inChild isConclusion (by decide) with
          ⟨part, isPart, inPart⟩
        exact List.mem_append_right _
          (Expr.mem_of_allConclude isConclusion arguments ofArguments argumentsAt isPart inPart)
  | .binary _ _ left right => by
      rcases concludes with ⟨first, rest, rfl, ofLeft, ofRight⟩
      rcases isAt with ⟨branch, leftAt, rightAt⟩
      rcases branch.below_child below isConclusion (by decide) with ⟨child, isChild, inChild⟩
      rcases List.mem_pair.mp isChild with rfl | rfl
      · exact List.mem_append_left _ (left.mem_of_concludes isConclusion ofLeft leftAt inChild)
      · exact List.mem_append_right _ (right.mem_of_concludes isConclusion ofRight rightAt inChild)
  | .query _ clauses ending conclusion => by
      rcases concludes with ⟨first, middle, last, rfl, ofClauses, ofEnding, ofConclusion⟩
      rcases isAt with ⟨head, others, body, clausesEq, branch, bodyBranch, clausesAt, endingAt,
        conclusionAt⟩
      have inClauses {clause : Clause} (isClause : clause ∈ clauses)
          (inClause : tree.Below clause.node id) :
          id ∈ conclusion.nodes ++ (first ++ (middle ++ last)) :=
        List.mem_append_right _ (List.mem_append_left _
          (Clause.mem_of_allConclude isConclusion clauses ofClauses clausesAt isClause inClause))
      rcases branch.below_child below isConclusion (by decide) with ⟨child, isChild, inChild⟩
      rcases List.mem_pair.mp isChild with rfl | rfl
      · exact inClauses (clausesEq ▸ List.mem_cons_self) inChild
      · rcases bodyBranch.below_child inChild isConclusion (by decide) with
          ⟨part, isPart, inPart⟩
        rcases List.mem_append.mp isPart with isClause | isLast
        · rcases List.mem_map.mp isClause with ⟨clause, inOthers, rfl⟩
          exact inClauses (clausesEq ▸ List.mem_cons_of_mem _ inOthers) inPart
        rcases List.mem_append.mp isLast with isEnding | isOwn
        · exact List.mem_append_right _ (List.mem_append_right _ (List.mem_append_left _
            (ending.mem_of_concludes isConclusion ofEnding endingAt isEnding inPart)))
        · rcases conclusion.mem_of_concludes isConclusion ofConclusion conclusionAt isOwn
            inPart with isItself | inLast
          · exact List.mem_append_left _ isItself
          · exact List.mem_append_right _ (List.mem_append_right _
              (List.mem_append_right _ inLast))

theorem Expr.mem_of_allConclude (isConclusion : tree.kind id = .ok .queryConclusion)
    {nodes : List NodeId} {top : Nat} (exprs : List Expr)
    (concludes : Expr.AllConclude exprs nodes) (areAt : Expr.AllAt tree damaged exprs)
    (isTop : top ∈ exprs.map fun expr => expr.site.node) (below : tree.Below top id) :
    id ∈ nodes :=
  match exprs with
  | [] => by cases isTop
  | expr :: others => by
      rcases concludes with ⟨first, rest, rfl, ofExpr, ofOthers⟩
      rcases List.mem_cons.mp isTop with rfl | inOthers
      · exact List.mem_append_left _ (expr.mem_of_concludes isConclusion ofExpr areAt.1 below)
      · exact List.mem_append_right _
          (Expr.mem_of_allConclude isConclusion others ofOthers areAt.2 inOthers below)

theorem Clause.mem_of_concludes (isConclusion : tree.kind id = .ok .queryConclusion)
    {nodes : List NodeId} (clause : Clause)
    (concludes : clause.Concludes nodes) (isAt : clause.At tree damaged)
    (below : tree.Below clause.node id) : id ∈ nodes :=
  match clause with
  | .fromClause _ _ source => by
      rcases isAt.1.below_child below isConclusion (by decide) with ⟨child, isChild, inChild⟩
      cases List.mem_singleton.mp isChild
      exact source.mem_of_concludes isConclusion concludes isAt.2.2 inChild
  | .whereClause _ condition => by
      rcases isAt.1.below_child below isConclusion (by decide) with ⟨child, isChild, inChild⟩
      cases List.mem_singleton.mp isChild
      exact condition.mem_of_concludes isConclusion concludes isAt.2 inChild
  | .letClause _ _ value => by
      rcases isAt.1.below_child below isConclusion (by decide) with ⟨child, isChild, inChild⟩
      cases List.mem_singleton.mp isChild
      exact value.mem_of_concludes isConclusion concludes isAt.2.2 inChild

theorem Clause.mem_of_allConclude (isConclusion : tree.kind id = .ok .queryConclusion)
    {nodes : List NodeId} {clause : Clause} (clauses : List Clause)
    (concludes : Clause.AllConclude clauses nodes) (areAt : Clause.AllAt tree damaged clauses)
    (isClause : clause ∈ clauses) (below : tree.Below clause.node id) : id ∈ nodes :=
  match clauses with
  | [] => by cases isClause
  | own :: others => by
      rcases concludes with ⟨first, rest, rfl, ofOwn, ofOthers⟩
      rcases List.mem_cons.mp isClause with isOwn | inOthers
      · rw [isOwn] at below
        exact List.mem_append_left _ (own.mem_of_concludes isConclusion ofOwn areAt.1 below)
      · exact List.mem_append_right _
          (Clause.mem_of_allConclude isConclusion others ofOthers areAt.2 inOthers below)

theorem QueryEnding.mem_of_concludes (isConclusion : tree.kind id = .ok .queryConclusion)
    {nodes : List NodeId} {top : Nat} (ending : QueryEnding)
    (concludes : ending.Concludes nodes) (isAt : ending.At tree damaged)
    (isTop : top ∈ ending.nodes) (below : tree.Below top id) : id ∈ nodes :=
  match ending with
  | .absent => by cases isTop
  | .selectClause _ selected => by
      cases List.mem_singleton.mp isTop
      rcases isAt.1.below_child below isConclusion (by decide) with ⟨child, isChild, inChild⟩
      cases List.mem_singleton.mp isChild
      exact selected.mem_of_concludes isConclusion concludes isAt.2 inChild
  | .groupClause _ element key => by
      rcases concludes with ⟨first, rest, rfl, ofElement, ofKey⟩
      cases List.mem_singleton.mp isTop
      rcases isAt with ⟨branch, elementAt, keyAt⟩
      rcases branch.below_child below isConclusion (by decide) with ⟨child, isChild, inChild⟩
      rcases List.mem_pair.mp isChild with rfl | rfl
      · exact List.mem_append_left _
          (element.mem_of_concludes isConclusion ofElement elementAt inChild)
      · exact List.mem_append_right _ (key.mem_of_concludes isConclusion ofKey keyAt inChild)

theorem Conclusion.mem_of_concludes (isConclusion : tree.kind id = .ok .queryConclusion)
    {nodes : List NodeId} {top : Nat} (conclusion : Conclusion)
    (concludes : conclusion.Concludes nodes) (isAt : conclusion.At tree damaged)
    (isTop : top ∈ conclusion.nodes) (below : tree.Below top id) :
    id ∈ conclusion.nodes ∨ id ∈ nodes :=
  match conclusion with
  | .absent => by cases isTop
  | .present site _ body => by
      cases List.mem_singleton.mp isTop
      rcases isAt with ⟨branch, _, bodyAt⟩
      rcases branch.below_iff.mp below with rfl | ⟨child, isChild, inChild⟩
      · exact .inl (List.mem_singleton.mpr rfl)
      · cases List.mem_singleton.mp isChild
        exact .inr (body.mem_of_concludes isConclusion concludes bodyAt inChild)

theorem RootExpr.mem_of_concludes (isConclusion : tree.kind id = .ok .queryConclusion)
    {nodes : List NodeId} (root : RootExpr)
    (concludes : root.Concludes nodes) (isAt : root.At tree damaged)
    (below : tree.Below root.site.node id) : id ∈ nodes :=
  match root with
  | .tooDeep _ _ => concludes.elim
  | .expression expr => expr.mem_of_concludes isConclusion concludes isAt below

end

mutual

/-- Every conclusion below a statement is listed. -/
theorem Statement.mem_of_concludes (isConclusion : tree.kind id = .ok .queryConclusion)
    {nodes : List NodeId} (statement : Statement) (concludes : statement.Concludes nodes)
    (isAt : statement.At tree damaged) (below : tree.Below statement.site.node id) :
    id ∈ nodes :=
  match statement with
  | .localDeclaration _ _ initializer => by
      rcases isAt.1.below_child below isConclusion (by decide) with ⟨child, isChild, inChild⟩
      cases List.mem_singleton.mp isChild
      exact initializer.mem_of_concludes isConclusion concludes isAt.2.2 inChild
  | .expression _ value | .returnValue _ (some value) | .yieldReturn _ (some value) => by
      rcases isAt.1.below_child below isConclusion (by decide) with ⟨child, isChild, inChild⟩
      cases List.mem_singleton.mp isChild
      exact value.mem_of_concludes isConclusion concludes isAt.2 inChild
  | .returnValue _ none | .yieldBreak _ => by
      rcases SyntaxTree.BranchAt.below_child isAt below isConclusion (by decide) with
        ⟨_, inNothing, _⟩
      cases inNothing
  | .yieldReturn _ none => isAt.elim
  | .doWhile _ _ body condition => by
      rcases concludes with ⟨first, rest, rfl, ofBody, ofCondition⟩
      rcases isAt with ⟨branch, bodyBranch, bodyAt, conditionAt⟩
      rcases branch.below_child below isConclusion (by decide) with ⟨child, isChild, inChild⟩
      rcases List.mem_pair.mp isChild with rfl | rfl
      · rcases bodyBranch.below_child inChild isConclusion (by decide) with
          ⟨part, isPart, inPart⟩
        exact List.mem_append_left _
          (Statement.mem_of_allConclude isConclusion body ofBody bodyAt isPart inPart)
      · exact List.mem_append_right _
          (condition.mem_of_concludes isConclusion ofCondition conditionAt inChild)
  | .block _ statements => by
      rcases isAt.1.below_child below isConclusion (by decide) with ⟨part, isPart, inPart⟩
      exact Statement.mem_of_allConclude isConclusion statements concludes isAt.2 isPart inPart

theorem Statement.mem_of_allConclude (isConclusion : tree.kind id = .ok .queryConclusion)
    {nodes : List NodeId} {top : Nat} (statements : List Statement)
    (concludes : Statement.AllConclude statements nodes)
    (areAt : Statement.AllAt tree damaged statements)
    (isTop : top ∈ statements.map fun statement => statement.site.node)
    (below : tree.Below top id) : id ∈ nodes :=
  match statements with
  | [] => by cases isTop
  | statement :: others => by
      rcases concludes with ⟨first, rest, rfl, ofFirst, ofOthers⟩
      rcases List.mem_cons.mp isTop with rfl | inOthers
      · exact List.mem_append_left _
          (statement.mem_of_concludes isConclusion ofFirst areAt.1 below)
      · exact List.mem_append_right _
          (Statement.mem_of_allConclude isConclusion others ofOthers areAt.2 inOthers below)

end

end Coverage

end QueryLang
