import QueryLang.Proofs.Binding.Resolving
import QueryLang.Proofs.Binding.Statement

/-!
# How names in statements are resolved

A `var` statement opens the scope of its local for the statements after it, and for nothing else.
-/

namespace QueryLang

variable {tree : SyntaxTree} {damaged : Prop} {globals : List Symbol}

theorem StatementScope.enter_yields {scope : StatementScope} {location : Location} :
    (scope.enter location).Yields fun entered => entered.binder = scope.binder := by
  unfold enter
  split
  · exact .next fun _ => .pure rfl
  · exact .pure rfl

/-- What declaring a local opens. -/
theorem StatementScope.declareLocal_yields {scope : StatementScope} {identifier : Identifier}
    {type : TypeId} :
    (scope.declareLocal identifier type).Yields fun result =>
      match result.2 with
      | none => identifier.name = none ∧ result.1.binder = scope.binder
      | some own => identifier.name = some own.name ∧ own.kind = .localVariable ∧
        result.1.binder = scope.binder.push (.locals [own]) := by
  unfold declareLocal
  split
  · next noName => exact .pure ⟨noName, rfl⟩
  · next name hasName =>
      dsimp only
      split
      · exact .next fun _ => .next fun id => .pure ⟨hasName, rfl, rfl⟩
      · exact .next fun id => .pure ⟨hasName, rfl, rfl⟩

theorem StatementScope.scopesFor_declareLocal {declared : List (NodeId × Symbol)}
    {visible : List NodeId} {scope inner : StatementScope} {node : NodeId}
    {identifier : Identifier} {found : Option Symbol}
    (declares : tree.DeclaresAt damaged node identifier)
    (isFound : match found with
      | none => identifier.name = none ∧ inner.binder = scope.binder
      | some own => identifier.name = some own.name ∧ own.kind = .localVariable ∧
        inner.binder = scope.binder.push (.locals [own]))
    (owns : (found.map (node, ·)).toList ⊆ declared)
    (scopesFor : ScopesFor tree declared globals scope.binder.scopes visible) :
    ScopesFor tree declared globals inner.binder.scopes (node :: visible) := by
  cases found with
  | none =>
      rcases isFound with ⟨noName, sameBinder⟩
      rw [sameBinder]
      refine .nameless scopesFor fun name names => ?_
      cases noName.symm.trans (declares.names_iff.mp names)
  | some own =>
      rcases isFound with ⟨hasName, isLocal, pushed⟩
      rw [pushed]
      exact .named scopesFor (declares.names_iff.mpr hasName) (owns (by simp)) ⟨rfl, isLocal⟩

/-- A statement that declares nothing opens nothing. -/
theorem Resolves.statement {scopes : List Scope} {visible : List NodeId}
    {statement : BoundStatement} {parts : List BoundPart} {node : NodeId} {kind : Kind}
    (kindEq : tree.kind node = .ok kind) (notVariable : kind.isVariable = false)
    (declaresNone : (BoundPart.statement statement).sites = [])
    (inner : Resolves tree globals scopes visible parts) :
    ResolvesInto tree globals scopes visible [] (.statement statement :: parts) scopes
      (tree.variableNodes [node] ++ visible) := by
  rw [SyntaxTree.variableNodes_singleton kindEq, notVariable]
  exact (inner.cons declaresNone fun _ => trivial).into

mutual

/-- The names in a statement are resolved as they should, and the statement opens its scope. -/
theorem bindStatement_resolves (kinds : HostKinds globals) {scope : StatementScope}
    {visible : List NodeId} (statement : Statement) (isAt : statement.At tree damaged)
    (sees : tree.VisibleAt statement.site.node visible) :
    (bindStatement scope statement).Yields fun result =>
      ResolvesInto tree globals scope.binder.scopes visible [] result.2.walk
        result.1.binder.scopes (tree.variableNodes [statement.site.node] ++ visible) := by
  match statement with
  | .localDeclaration site identifier initializer =>
      rcases isAt with ⟨branch, declares, initializerAt⟩
      have silent : ∀ child ∈ [initializer.site.node], tree.Silent child :=
        List.forall_mem_singleton.mpr initializerAt.silent
      rw [bindStatement]
      refine (bindRoot_resolves kinds initializer initializerAt (sees.through branch (by decide)
        silent (List.mem_singleton_self _))).bind fun value resolves => ?_
      refine StatementScope.declareLocal_yields.bind ?_
      rintro ⟨inner, found⟩ isFound
      refine .pure fun declared scopesFor _ declaresAll => ?_
      rw [BoundStatement.walk, declarationSites, List.flatMap_cons, List.append_subset]
        at declaresAll
      refine ⟨?_, List.forall_mem_cons.mpr ⟨trivial, resolves declared scopesFor declaresAll.2⟩⟩
      rw [Statement.site, SyntaxTree.variableNodes_singleton branch.kind_eq]
      exact StatementScope.scopesFor_declareLocal declares isFound declaresAll.1 scopesFor
  | .expression site value =>
      rcases isAt with ⟨branch, valueAt⟩
      have silent : ∀ child ∈ [value.site.node], tree.Silent child :=
        List.forall_mem_singleton.mpr valueAt.silent
      rw [bindStatement]
      refine (bindRoot_resolves kinds value valueAt (sees.through branch (by decide)
        silent (List.mem_singleton_self _))).bind fun bound resolves => .pure ?_
      rw [BoundStatement.walk]
      exact resolves.statement branch.kind_eq rfl rfl
  | .returnValue site none =>
      rw [bindStatement]
      refine .pure ?_
      rw [BoundStatement.walk]
      exact Resolves.nil.statement isAt.kind_eq rfl rfl
  | .returnValue site (some value) =>
      rcases isAt with ⟨branch, valueAt⟩
      have silent : ∀ child ∈ [value.site.node], tree.Silent child :=
        List.forall_mem_singleton.mpr valueAt.silent
      rw [bindStatement]
      refine (bindRoot_resolves kinds value valueAt (sees.through branch (by decide)
        silent (List.mem_singleton_self _))).bind fun bound resolves => .pure ?_
      rw [BoundStatement.walk]
      exact resolves.statement branch.kind_eq rfl rfl
  | .yieldReturn site none => exact isAt.elim
  | .yieldReturn site (some value) =>
      rcases isAt with ⟨branch, valueAt⟩
      have silent : ∀ child ∈ [value.site.node], tree.Silent child :=
        List.forall_mem_singleton.mpr valueAt.silent
      rw [bindStatement]
      refine (bindRoot_resolves kinds value valueAt (sees.through branch (by decide)
        silent (List.mem_singleton_self _))).bind fun bound resolves => .pure ?_
      rw [BoundStatement.walk]
      exact resolves.statement branch.kind_eq rfl rfl
  | .yieldBreak site =>
      rw [bindStatement]
      refine .pure ?_
      rw [BoundStatement.walk]
      exact Resolves.nil.statement isAt.kind_eq rfl rfl
  | .doWhile site bodySite body condition =>
      rcases isAt with ⟨branch, bodyBranch, bodyAt, conditionAt⟩
      have silent : ∀ child ∈ [bodySite.node, condition.site.node], tree.Silent child := by
        simp [bodyBranch.silent rfl (by decide), conditionAt.silent]
      have seesBody := sees.through branch (by decide) silent (List.mem_pair.mpr (.inl rfl))
      rw [bindStatement]
      refine (bindStatements_resolve kinds body bodyAt
        (bodyAt.rowSees bodyBranch (by decide) seesBody)).bind fun boundBody resolves => ?_
      refine (bindRoot_resolves kinds condition conditionAt (sees.through branch (by decide)
        silent (List.mem_pair.mpr (.inr rfl)))).bind fun bound conditionResolves => .pure ?_
      have inner : Resolves tree globals scope.binder.scopes visible
          (.block bodySite.node :: (walkStatements boundBody ++ bound.walk)) :=
        (resolves.append conditionResolves).cons rfl fun _ => trivial
      rw [BoundStatement.walk]
      exact inner.statement branch.kind_eq rfl rfl
  | .block site statements =>
      rcases isAt with ⟨branch, statementsAt⟩
      rw [bindStatement]
      refine (bindStatements_resolve kinds statements statementsAt
        (statementsAt.rowSees branch (by decide) sees)).bind fun bound resolves => .pure ?_
      have inner : Resolves tree globals scope.binder.scopes visible
          (.block site.node :: walkStatements bound) :=
        resolves.cons rfl fun _ => trivial
      rw [BoundStatement.walk]
      exact inner.statement branch.kind_eq rfl rfl

/-- The names in statements are resolved as they should. -/
theorem bindStatements_resolve (kinds : HostKinds globals) {scope : StatementScope}
    {visible : List NodeId} (statements : List Statement)
    (areAt : Statement.AllAt tree damaged statements)
    (see : tree.RowSees (statements.map fun statement => statement.site.node) visible) :
    (bindStatements scope statements).Yields fun bound =>
      Resolves tree globals scope.binder.scopes visible (walkStatements bound) := by
  match statements with
  | [] =>
      rw [bindStatements]
      exact .pure .nil
  | statement :: rest =>
      rw [bindStatements]
      refine StatementScope.enter_yields.bind fun entered sameBinder => ?_
      refine (bindStatement_resolves kinds statement areAt.1 see.head).bind ?_
      rintro ⟨next, bound⟩ intoRest
      rw [sameBinder] at intoRest
      refine (bindStatements_resolve kinds rest areAt.2 see.tail).bind fun others resolve => ?_
      rw [StatementScope.binder_after] at resolve
      refine .pure fun declared scopesFor declares => ?_
      rw [walkStatements] at declares ⊢
      exact ((intoRest.trans resolve.into) declared scopesFor (List.nil_subset _) declares).2

end

/-- The names in a file are resolved as they should. -/
theorem bindFile_resolves (kinds : HostKinds globals) {binder : Binder}
    (wellFormed : tree.WellFormed damaged) :
    (bindFile binder tree).Yields fun block =>
      Resolves tree globals binder.scopes [] block.walk := by
  rcases StatementList.ofTree_gives wellFormed with ⟨list, listEq, isRoot, isAt⟩
  refine .next fun _ => ?_
  refine .bind_lift fun read readEq => ?_
  cases readEq.symm.trans listEq
  have branch := isAt.branch
  rw [isRoot] at branch
  refine (bindStatements_resolve kinds list.statements isAt.statements
    (isAt.statements.rowSees branch (by decide) .file)).bind fun bound resolve => .pure ?_
  exact resolve.cons rfl fun _ => trivial

end QueryLang
