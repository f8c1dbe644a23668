import QueryLang.Proofs.Binding.StatementResolving
import QueryLang.Proofs.Program.Subtree

/-!
# Where declarations and references stand

Every symbol that a bound file declares is the only one that its node declares, and its one place
is the identifier of that node. Every reference is a name with an identifier. So declarations and
references are told apart by their identifiers.
-/

namespace QueryLang

/-- The symbol is a variable that the identifier declares. -/
structure Identifier.Declares (identifier : Identifier) (symbol : Symbol) : Prop where
  present : identifier.name.isSome
  locations : symbol.locations = [identifier.location]

/-- Nodes of the kind declare variables of the kind. -/
inductive Kind.Declares : Kind → SymbolKind → Prop
  | localDeclaration : Declares .localDeclarationStatement .localVariable
  | fromClause : Declares .fromClause .rangeVariable
  | letClause : Declares .letClause .rangeVariable
  | conclusion : Declares .queryConclusion .queryConclusionVariable

namespace Kind.Declares

variable {kind : Kind} {symbolKind : SymbolKind}

theorem usesIdentity (declares : kind.Declares symbolKind) : symbolKind.usesIdentity = true := by
  cases declares <;> rfl

theorem not_name (declares : kind.Declares symbolKind) : kind ≠ .identifierName := by
  cases declares <;> decide

theorem conclusion_iff (declares : kind.Declares symbolKind) :
    kind = .queryConclusion ↔ symbolKind = .queryConclusionVariable := by
  cases declares <;> decide

end Kind.Declares

namespace SyntaxTree

/-- The node declares a variable, whose place is the node's identifier. -/
structure DeclaresSymbol (tree : SyntaxTree) (node : NodeId) (symbol : Symbol) : Prop where
  sort : ∃ kind, tree.kind node = .ok kind ∧ kind.Declares symbol.kind
  token : ∃ id token, tree.childToken? node .identifierToken = .ok (some id) ∧
    tree.token id = .ok token ∧ token.isMissing = false ∧
    symbol.locations = [tree.location token.span]

namespace DeclaresSymbol

variable {tree : SyntaxTree} {node : NodeId} {symbol : Symbol}

theorem kind (declares : tree.DeclaresSymbol node symbol) : symbol.kind.usesIdentity = true := by
  rcases declares.sort with ⟨kind, _, sort⟩
  exact sort.usesIdentity

/-- The node is no name, so that its identifier is not that of a reference. -/
theorem notName (declares : tree.DeclaresSymbol node symbol) :
    tree.kind node ≠ .ok .identifierName := by
  rcases declares.sort with ⟨kind, kindEq, sort⟩
  rw [kindEq, ne_eq, Except.ok.injEq]
  exact sort.not_name

theorem conclusion (declares : tree.DeclaresSymbol node symbol) :
    tree.kind node = .ok .queryConclusion ↔ symbol.kind = .queryConclusionVariable := by
  rcases declares.sort with ⟨kind, kindEq, sort⟩
  rw [kindEq, Except.ok.injEq]
  exact sort.conclusion_iff

end DeclaresSymbol

/-- The node is a name that is not missing. -/
structure IsReference (tree : SyntaxTree) (node : NodeId) : Prop where
  kind_eq : tree.kind node = .ok .identifierName
  names : ∃ name, tree.Names node name

/-- Where these symbols are declared, and what the references among these parts are: different
nodes below the tops declare the symbols, and the references are names. -/
structure Places (tree : SyntaxTree) (tops : List NodeId) (sites : List (NodeId × Symbol))
    (parts : List BoundPart) : Prop where
  references : ∀ part ∈ parts, ∀ reference ∈ part.reference?, tree.IsReference reference.1
  declares : ∀ site ∈ sites, tree.DeclaresSymbol site.1 site.2
  below : ∀ site ∈ sites, ∃ top ∈ tops, tree.Below top site.1
  nodup : (sites.map Prod.fst).Nodup

section

variable {tree : SyntaxTree} {damaged : Prop} {top : NodeId} {kind : Kind}
  {tops more children : List NodeId} {sites others : List (NodeId × Symbol)}
  {parts otherParts : List BoundPart}

namespace Places

theorem none : tree.Places tops [] [] where
  references := by simp
  declares := by simp
  below := by simp
  nodup := by simp

/-- What is below some nodes is below the nodes around them. -/
theorem around (places : tree.Places tops sites parts)
    (inside : ∀ top ∈ tops, ∃ outer ∈ more, tree.Below outer top) :
    tree.Places more sites parts where
  references := places.references
  declares := places.declares
  below site isSite := by
    rcases places.below site isSite with ⟨top, isTop, below⟩
    rcases inside top isTop with ⟨outer, isOuter, belowOuter⟩
    exact ⟨outer, isOuter, belowOuter.trans below⟩
  nodup := places.nodup

theorem mono (places : tree.Places tops sites parts) (subset : tops ⊆ more) :
    tree.Places more sites parts :=
  places.around fun top isTop => ⟨top, subset isTop, .refl⟩

theorem perm (places : tree.Places tops sites parts) (perm : sites.Perm others) :
    tree.Places tops others parts where
  references := places.references
  declares site isSite := places.declares site (perm.mem_iff.mpr isSite)
  below site isSite := places.below site (perm.mem_iff.mpr isSite)
  nodup := (perm.map Prod.fst).nodup_iff.mp places.nodup

/-- What stands below different nodes is declared at different nodes. -/
theorem append (left : tree.Places tops sites parts) (right : tree.Places more others otherParts)
    (separate : tree.Separate (tops ++ more)) :
    tree.Places (tops ++ more) (sites ++ others) (parts ++ otherParts) where
  references := List.forall_mem_append.mpr ⟨left.references, right.references⟩
  declares := List.forall_mem_append.mpr ⟨left.declares, right.declares⟩
  below := List.forall_mem_append.mpr
    ⟨(left.mono (List.subset_append_left tops more)).below,
      (right.mono (List.subset_append_right tops more)).below⟩
  nodup := by
    rw [List.map_append, List.nodup_append]
    refine ⟨left.nodup, right.nodup, ?_⟩
    rintro node inLeft _ inRight rfl
    rcases List.mem_map.mp inLeft with ⟨site, isSite, rfl⟩
    rcases List.mem_map.mp inRight with ⟨other, isOther, same⟩
    rcases left.below site isSite with ⟨top, isTop, below⟩
    rcases right.below other isOther with ⟨otherTop, isOtherTop, belowOther⟩
    rw [same] at belowOther
    exact (List.pairwise_append.mp separate).2.2 top isTop otherTop isOtherTop _ below belowOther

theorem cons {others : List (NodeId × Symbol)} (first : tree.Places [top] sites parts)
    (rest : tree.Places more others otherParts) (separate : tree.Separate (top :: more)) :
    tree.Places (top :: more) (sites ++ others) (parts ++ otherParts) :=
  first.append rest separate

/-- A part that is no reference changes nothing. -/
theorem part {own : BoundPart} (places : tree.Places tops sites parts)
    (notReference : own.reference? = .none) : tree.Places tops sites (own :: parts) where
  references := List.forall_mem_cons.mpr ⟨by simp [notReference], places.references⟩
  declares := places.declares
  below := places.below
  nodup := places.nodup

end Places

/-- What is below the children of a node is below the node. -/
theorem BranchAt.places (branch : tree.BranchAt top kind children)
    (inner : tree.Places children sites parts) : tree.Places [top] sites parts :=
  inner.around fun child isChild =>
    ⟨top, List.mem_singleton_self top, branch.below_iff.mpr (.inr ⟨child, isChild, .refl⟩)⟩

/-- A node may declare a symbol of its own. -/
theorem BranchAt.places_cons (wellFormed : tree.WellFormed damaged)
    (branch : tree.BranchAt top kind children) (inner : tree.Places children sites parts)
    {symbol : Symbol} (declares : tree.DeclaresSymbol top symbol) :
    tree.Places [top] ((top, symbol) :: sites) parts where
  references := inner.references
  declares := List.forall_mem_cons.mpr ⟨declares, inner.declares⟩
  below := List.forall_mem_cons.mpr
    ⟨⟨top, List.mem_singleton_self top, .refl⟩, (branch.places inner).below⟩
  nodup := by
    refine List.nodup_cons.mpr ⟨fun inside => ?_, inner.nodup⟩
    rcases List.mem_map.mp inside with ⟨site, isSite, same⟩
    rcases inner.below site isSite with ⟨child, isChild, below⟩
    rw [show site.1 = top from same] at below
    exact wellFormed.not_below_child branch isChild below

/-- Nothing is below two of the clauses of a query. -/
theorem WellFormed.separate_query (wellFormed : tree.WellFormed damaged) {query first body : NodeId}
    (branch : tree.BranchAt query .queryExpression [first, body])
    (bodyBranch : tree.BranchAt body .queryBody children) : tree.Separate (first :: children) := by
  refine List.pairwise_cons.mpr ⟨fun child isChild id belowFirst belowChild => ?_,
    wellFormed.separate bodyBranch⟩
  have belowBody := bodyBranch.below_iff.mpr (.inr ⟨child, isChild, belowChild⟩)
  exact List.rel_of_pairwise_cons (wellFormed.separate branch) (List.mem_singleton_self body) id
    belowFirst belowBody

/-- The symbol of a declaration with an identifier. -/
theorem DeclaresAt.declaresSymbol {node : NodeId} {identifier : Identifier} {symbol : Symbol}
    (declares : tree.DeclaresAt damaged node identifier) (kindEq : tree.kind node = .ok kind)
    (own : identifier.Declares symbol) (sort : kind.Declares symbol.kind) :
    tree.DeclaresSymbol node symbol where
  sort := ⟨kind, kindEq, sort⟩
  token := by
    rcases declares.token with ⟨id, token, found, isToken, location, nameEq⟩
    refine ⟨id, token, found, isToken, ?_, by rw [own.locations, location]⟩
    by_contra missing
    rw [Bool.not_eq_false] at missing
    have present := own.present
    simp [nameEq, missing] at present

end

end SyntaxTree

open SyntaxTree

section

variable {tree : SyntaxTree} {damaged : Prop}

/-! ### Steps of binding -/

theorem declarationSites_cons (part : BoundPart) (parts : List BoundPart) :
    declarationSites (part :: parts) = part.sites ++ declarationSites parts :=
  List.flatMap_cons

theorem BoundPart.reference?_eq_none {expr : BoundExpr} (noSymbol : expr.symbol? = none) :
    (BoundPart.expression expr).reference? = none := by
  rw [BoundPart.reference?, noSymbol]
  rfl

/-- An expression that is not a name has the places of the parts inside it. -/
theorem BoundExpr.IsAround.places {expr : BoundExpr} {node : NodeId} {tops : List NodeId}
    {parts : List BoundPart} (isAround : expr.IsAround node parts) (noSymbol : expr.symbol? = none)
    (inner : tree.Places tops (declarationSites parts) parts) :
    tree.Places tops (declarationSites expr.walk) expr.walk := by
  rw [isAround.walk_eq, declarationSites_cons, isAround.sites_eq]
  exact inner.part (BoundPart.reference?_eq_none noSymbol)

theorem bindName_places {binder : Binder} {site : Site} {identifier : Identifier}
    (isName : tree.NameAt damaged site.node identifier) :
    (bindName binder site identifier).Yields fun bound =>
      tree.Places [site.node] (declarationSites bound.walk) bound.walk := by
  have isBad : (BoundExpr.bad site.node []).IsAround site.node [] := ⟨rfl, rfl, rfl⟩
  unfold bindName
  split
  · exact .pure (isBad.places rfl .none)
  · next name hasName =>
      have isReference : tree.IsReference site.node :=
        ⟨isName.branch.kind_eq, name, isName.declares.names_iff.mpr hasName⟩
      refine .next fun result => ?_
      split
      · refine bindReference_yields.mono fun bound isBound => ?_
        have isAround := isBound.1
        rw [isAround.walk_eq, declarationSites_cons, isAround.sites_eq]
        refine { Places.none with references := List.forall_mem_singleton.mpr ?_ }
        intro reference isOwn
        rcases Option.map_eq_some_iff.mp isOwn with ⟨symbol, _, rfl⟩
        rw [isAround.node_eq]
        exact isReference
      · exact .next fun _ => .pure (isBad.places rfl .none)

theorem bindMemberAccess_unnamed {site : Site} {receiver : BoundExpr} {member : Identifier} :
    (bindMemberAccess site receiver member).Yields fun bound => bound.symbol? = none := by
  refine .next fun found => ?_
  cases found with
  | none => exact .pure rfl
  | some found => exact .pure rfl

theorem bindMemberCall_unnamed {site : Site} {receiver : BoundExpr} {member : Identifier}
    {arguments : List BoundExpr} :
    (bindMemberCall site receiver member arguments).Yields fun bound => bound.symbol? = none := by
  refine .next fun found => ?_
  cases found with
  | none => exact .pure rfl
  | some found => exact .pure rfl

theorem bindNamedCall_unnamed {binder : Binder} {site : Site} {callee : Identifier}
    {arguments : List BoundExpr} :
    (bindNamedCall binder site callee arguments).Yields fun bound => bound.symbol? = none := by
  unfold bindNamedCall
  split
  · exact .pure rfl
  · refine .next fun result => ?_
    split
    · exact .pure rfl
    · exact .next fun _ => .pure rfl

theorem bindOperator_unnamed {site : Site} {operator : Operator} {left right : BoundExpr} :
    (bindOperator site operator left right).Yields fun bound => bound.symbol? = none := by
  unfold bindOperator
  dsimp only
  split
  · exact .pure rfl
  · split
    · exact .pure rfl
    · exact .next fun _ => .next fun _ => .next fun _ => .pure rfl

theorem declareRangeVariable_declares {binder : Binder} {identifier : Identifier} {type : TypeId} :
    (declareRangeVariable binder identifier type).Yields fun found =>
      ∀ own ∈ found.map Subtype.val,
        identifier.Declares own ∧ own.kind = .rangeVariable := by
  unfold declareRangeVariable
  split
  · exact .pure (by simp)
  · next name hasName =>
      have declares (id : Nat) : identifier.Declares
          (.located id name binder.container identifier.location (.rangeVariable type)) ∧
            SymbolKind.rangeVariable = .rangeVariable :=
        ⟨⟨by rw [hasName]; rfl, rfl⟩, rfl⟩
      refine .next fun existing => ?_
      dsimp only
      split
      · exact .next fun _ => .next fun id => .pure (by rintro _ ⟨⟩; exact declares id)
      · exact .next fun id => .pure (by rintro _ ⟨⟩; exact declares id)

theorem declareConclusionVariable_declares {binder : Binder} {identifier : Identifier}
    {name : String} (hasName : identifier.name = some name) :
    (declareConclusionVariable binder name identifier.location).Yields fun own =>
      identifier.Declares own.val :=
  .next fun _ => .pure ⟨by rw [hasName]; rfl, rfl⟩

theorem StatementScope.declareLocal_declares {scope : StatementScope} {identifier : Identifier}
    {type : TypeId} :
    (scope.declareLocal identifier type).Yields fun result =>
      ∀ own ∈ result.2, identifier.Declares own ∧ own.kind = .localVariable := by
  unfold declareLocal
  split
  · exact .pure (by simp)
  · next name hasName =>
      have declares (id : Nat) : identifier.Declares
          (.located id name scope.binder.container identifier.location (.localVariable type)) ∧
            SymbolKind.localVariable = .localVariable :=
        ⟨⟨by rw [hasName]; rfl, rfl⟩, rfl⟩
      dsimp only
      split
      · exact .next fun _ => .next fun id => .pure (by rintro _ ⟨⟩; exact declares id)
      · exact .next fun id => .pure (by rintro _ ⟨⟩; exact declares id)

/-- A clause or statement that may declare a variable. -/
theorem SyntaxTree.BranchAt.places_declared (wellFormed : tree.WellFormed damaged) {node : NodeId}
    {kind : Kind} {children : List NodeId} {sites : List (NodeId × Symbol)}
    {parts : List BoundPart} (branch : tree.BranchAt node kind children)
    {symbolKind : SymbolKind} (sort : kind.Declares symbolKind)
    {identifier : Identifier} (declares : tree.DeclaresAt damaged node identifier)
    (inner : tree.Places children sites parts) {found : Option Symbol}
    (isFound : ∀ own ∈ found, identifier.Declares own ∧ own.kind = symbolKind) :
    tree.Places [node] ((found.map (node, ·)).toList ++ sites) parts := by
  cases found with
  | none => exact branch.places inner
  | some own =>
      rcases isFound own rfl with ⟨isDeclared, rfl⟩
      exact branch.places_cons wellFormed inner
        (declares.declaresSymbol branch.kind_eq isDeclared sort)

/-! ### Expressions -/

mutual

/-- The declarations in an expression stand below its node. -/
theorem bindExpr_places (wellFormed : tree.WellFormed damaged) {binder : Binder} (expr : Expr)
    (isAt : expr.At tree damaged) :
    (bindExpr binder expr).Yields fun bound =>
      tree.Places [expr.site.node] (declarationSites bound.walk) bound.walk := by
  match expr with
  | .name site identifier =>
      rw [bindExpr]
      exact bindName_places isAt
  | .literal site value =>
      rw [bindExpr]
      have isAround : (BoundExpr.literal site.node value).IsAround site.node [] := ⟨rfl, rfl, rfl⟩
      exact .pure (isAround.places rfl .none)
  | .parenthesized site inner =>
      rw [bindExpr]
      exact (bindExpr_places wellFormed inner isAt.2).mono fun bound places => isAt.1.places places
  | .memberAccess site receiver member =>
      rcases isAt with ⟨name, branch, nameAt, receiverAt⟩
      rw [bindExpr]
      refine (bindExpr_places wellFormed receiver receiverAt).bind fun bound places => ?_
      refine (bindMemberAccess_yields.and bindMemberAccess_unnamed).mono fun result isResult => ?_
      exact isResult.1.places isResult.2 (branch.places (places.mono (by simp)))
  | .memberCall site receiver member arguments =>
      rcases isAt with ⟨callee, name, list, branch, calleeBranch, nameAt, listBranch, receiverAt,
        argumentsAt⟩
      rw [bindExpr]
      refine (bindExpr_places wellFormed receiver receiverAt).bind fun bound places => ?_
      refine (bindExprs_place wellFormed arguments argumentsAt
        (wellFormed.separate listBranch)).bind ?_
      intro others othersPlace
      refine (bindMemberCall_yields.and bindMemberCall_unnamed).mono fun result isResult => ?_
      refine isResult.1.places isResult.2 (branch.places ?_)
      rw [declarationSites_append]
      exact (calleeBranch.places (places.mono (by simp))).cons (listBranch.places othersPlace)
        (wellFormed.separate branch)
  | .namedCall site callee arguments =>
      rcases isAt with ⟨name, list, branch, nameAt, listBranch, argumentsAt⟩
      rw [bindExpr]
      refine (bindExprs_place wellFormed arguments argumentsAt
        (wellFormed.separate listBranch)).bind ?_
      intro bound places
      refine (bindNamedCall_yields.and bindNamedCall_unnamed).mono fun result isResult => ?_
      exact isResult.1.places isResult.2
        (branch.places ((listBranch.places places).mono (by simp)))
  | .valueCall site callee text arguments =>
      rcases isAt with ⟨list, branch, _, listBranch, calleeAt, argumentsAt⟩
      rw [bindExpr]
      refine (bindExpr_places wellFormed callee calleeAt).bind fun bound places => ?_
      refine (bindExprs_place wellFormed arguments argumentsAt
        (wellFormed.separate listBranch)).bind ?_
      intro others othersPlace
      have isAround : (BoundExpr.bad site.node (bound :: others)).IsAround site.node
          (bound.walk ++ walkAll others) :=
        ⟨rfl, by rw [BoundExpr.walk, walkAll], rfl⟩
      refine .next fun _ => .pure (isAround.places rfl (branch.places ?_))
      rw [declarationSites_append]
      exact places.cons (listBranch.places othersPlace) (wellFormed.separate branch)
  | .binary site operator left right =>
      rcases isAt with ⟨branch, leftAt, rightAt⟩
      rw [bindExpr]
      refine (bindExpr_places wellFormed left leftAt).bind fun boundLeft leftPlaces => ?_
      refine (bindExpr_places wellFormed right rightAt).bind fun boundRight rightPlaces => ?_
      refine (bindOperator_yields.and bindOperator_unnamed).mono fun result isResult => ?_
      refine isResult.1.places isResult.2 (branch.places ?_)
      rw [declarationSites_append]
      exact leftPlaces.cons rightPlaces (wellFormed.separate branch)
  | .query site clauses ending conclusion =>
      rcases isAt with ⟨first, rest, body, isCons, branch, bodyBranch, clausesAt, endingAt,
        conclusionAt⟩
      rw [bindExpr]
      split
      · have isAround : (BoundExpr.bad site.node []).IsAround site.node [] := ⟨rfl, rfl, rfl⟩
        exact .pure (isAround.places rfl .none)
      · have separate := wellFormed.separate_query branch bodyBranch
        rw [← List.cons_append, ← List.map_cons, ← isCons] at separate
        rcases List.pairwise_append.mp separate with ⟨clausesSeparate, endingSeparate, _⟩
        refine (bindClauses_place wellFormed clauses clausesAt clausesSeparate).bind ?_
        rintro ⟨inner, bound⟩ clausesPlace
        refine (bindEnding_places wellFormed ending endingAt).bind ?_
        rintro ⟨type, last⟩ ⟨lastSites, endingPlaces⟩
        refine (bindConclusion_places wellFormed conclusion conclusionAt).bind ?_
        rintro ⟨boundConclusion, resultType⟩ conclusionPlaces
        refine .pure ?_
        have places := clausesPlace.append (endingPlaces.append conclusionPlaces endingSeparate)
          separate
        have inQuery : tree.Places [site.node] _ _ := places.around fun top isTop => by
          refine ⟨site.node, List.mem_singleton_self _, branch.below_iff.mpr (.inr ?_)⟩
          rw [isCons, List.map_cons, List.cons_append] at isTop
          rcases List.mem_cons.mp isTop with rfl | inBody
          · exact ⟨first.node, by simp, .refl⟩
          · exact ⟨body, by simp, bodyBranch.below_iff.mpr (.inr ⟨top, inBody, .refl⟩)⟩
        rw [BoundExpr.walk, declarationSites_cons, BoundPart.sites, List.filterMap_append,
          lastSites, List.append_nil, walkClauses_append,
          List.append_assoc (walkClauses bound)]
        refine (inQuery.perm (List.perm_iff_count.mpr fun declared => ?_)).part ?_
        · simp only [declarationSites_append, List.count_append]
          omega
        · rfl

/-- The declarations in expressions stand below their nodes. -/
theorem bindExprs_place (wellFormed : tree.WellFormed damaged) {binder : Binder}
    (exprs : List Expr) (areAt : Expr.AllAt tree damaged exprs)
    (separate : tree.Separate (exprs.map fun expr => expr.site.node)) :
    (bindExprs binder exprs).Yields fun bound =>
      tree.Places (exprs.map fun expr => expr.site.node) (declarationSites (walkAll bound))
        (walkAll bound) := by
  match exprs with
  | [] =>
      rw [bindExprs]
      exact .pure .none
  | expr :: rest =>
      rw [bindExprs]
      refine (bindExpr_places wellFormed expr areAt.1).bind fun bound places => ?_
      refine (bindExprs_place wellFormed rest areAt.2
        (List.pairwise_cons.mp separate).2).bind ?_
      intro others othersPlace
      refine .pure ?_
      rw [walkAll, declarationSites_append]
      exact places.cons othersPlace separate

/-- The declarations in a clause, and its own, stand below its node. -/
theorem bindClause_places (wellFormed : tree.WellFormed damaged) {binder : Binder}
    (clause : Clause) (isAt : clause.At tree damaged) :
    (bindClause binder clause).Yields fun result =>
      tree.Places [clause.node] (result.2.site?.toList ++ declarationSites result.2.walk)
        result.2.walk := by
  match clause with
  | .fromClause site identifier source =>
      rcases isAt with ⟨branch, declares, sourceAt⟩
      rw [bindClause]
      refine (bindExpr_places wellFormed source sourceAt).bind fun bound places => ?_
      refine .next fun element => ?_
      refine declareRangeVariable_declares.bind fun found isFound => .pure ?_
      exact branch.places_declared wellFormed .fromClause declares places isFound
  | .whereClause site condition =>
      rcases isAt with ⟨branch, conditionAt⟩
      rw [bindClause]
      refine (bindExpr_places wellFormed condition conditionAt).bind fun bound places => .pure ?_
      exact branch.places places
  | .letClause site identifier value =>
      rcases isAt with ⟨branch, declares, valueAt⟩
      rw [bindClause]
      refine (bindExpr_places wellFormed value valueAt).bind fun bound places => ?_
      refine declareRangeVariable_declares.bind fun found isFound => .pure ?_
      exact branch.places_declared wellFormed .letClause declares places isFound

/-- The declarations in clauses, and their own, stand below their nodes. -/
theorem bindClauses_place (wellFormed : tree.WellFormed damaged) {binder : Binder}
    (clauses : List Clause) (areAt : Clause.AllAt tree damaged clauses)
    (separate : tree.Separate (clauses.map Clause.node)) :
    (bindClauses binder clauses).Yields fun result =>
      tree.Places (clauses.map Clause.node)
        (result.2.filterMap BoundClause.site? ++ declarationSites (walkClauses result.2))
        (walkClauses result.2) := by
  match clauses with
  | [] =>
      rw [bindClauses]
      exact .pure .none
  | clause :: rest =>
      rw [bindClauses]
      refine (bindClause_places wellFormed clause areAt.1).bind ?_
      rintro ⟨next, bound⟩ places
      refine (bindClauses_place wellFormed rest areAt.2
        (List.pairwise_cons.mp separate).2).bind ?_
      rintro ⟨inner, others⟩ othersPlace
      refine .pure ?_
      have owns : (bound :: others).filterMap BoundClause.site? =
          bound.site?.toList ++ others.filterMap BoundClause.site? := by
        cases siteEq : bound.site? <;> simp [siteEq]
      rw [owns, walkClauses, declarationSites_append]
      exact (places.cons othersPlace separate).perm (List.perm_iff_count.mpr fun declared => by
        simp only [List.count_append]
        omega)

/-- The declarations in the last clause of a query stand below its node. -/
theorem bindEnding_places (wellFormed : tree.WellFormed damaged) {binder : Binder}
    (ending : QueryEnding) (isAt : ending.At tree damaged) :
    (bindEnding binder ending).Yields fun result =>
      result.2.filterMap BoundClause.site? = [] ∧
        tree.Places ending.nodes (declarationSites (walkClauses result.2))
          (walkClauses result.2) := by
  match ending with
  | .absent => exact isAt.elim
  | .selectClause site selected =>
      rcases isAt with ⟨branch, selectedAt⟩
      rw [bindEnding]
      refine (bindExpr_places wellFormed selected selectedAt).bind fun bound places => ?_
      refine .next fun type => .pure ⟨rfl, ?_⟩
      rw [walkClauses, walkClauses, BoundClause.walk, List.append_nil]
      exact branch.places places
  | .groupClause site element key =>
      rcases isAt with ⟨branch, elementAt, keyAt⟩
      rw [bindEnding]
      refine (bindExpr_places wellFormed element elementAt).bind ?_
      intro boundElement elementPlaces
      refine (bindExpr_places wellFormed key keyAt).bind fun boundKey keyPlaces => ?_
      refine .next fun grouping => .next fun type => .pure ⟨rfl, ?_⟩
      rw [walkClauses, walkClauses, BoundClause.walk, List.append_nil, declarationSites_append]
      exact branch.places (elementPlaces.cons keyPlaces (wellFormed.separate branch))

/-- The declarations in a conclusion, and its own, stand below its node. -/
theorem bindConclusion_places (wellFormed : tree.WellFormed damaged) {binder : Binder}
    {type : TypeId} (conclusion : Conclusion) (isAt : conclusion.At tree damaged) :
    (bindConclusion binder type conclusion).Yields fun result =>
      tree.Places conclusion.nodes
        (result.1.site?.toList ++ declarationSites result.1.walk) result.1.walk := by
  match conclusion with
  | .absent =>
      rw [bindConclusion]
      exact .pure .none
  | .present site identifier body =>
      rcases isAt with ⟨branch, declares, bodyAt⟩
      rw [bindConclusion]
      split
      · exact .pure .none
      · next name hasName =>
          refine (declareConclusionVariable_declares hasName).bind fun own isOwn => ?_
          refine .next fun scope => ?_
          refine (Binding.Yields.collecting (bindRoot_places wellFormed body bodyAt)).bind ?_
          rintro ⟨value, diagnostics⟩ places
          refine .pure ?_
          rw [BoundConclusion.walk]
          have sort : Kind.Declares .queryConclusion own.val.kind := by
            rw [show own.val.kind = .queryConclusionVariable from own.property]
            exact .conclusion
          exact .part (.part (branch.places_cons wellFormed places
            (declares.declaresSymbol branch.kind_eq isOwn sort)) rfl) rfl

/-- The declarations in a root expression stand below its node. -/
theorem bindRoot_places (wellFormed : tree.WellFormed damaged) {binder : Binder} (root : RootExpr)
    (isAt : root.At tree damaged) :
    (bindRoot binder root).Yields fun bound =>
      tree.Places [root.site.node] (declarationSites bound.walk) bound.walk := by
  match root with
  | .tooDeep site reported =>
      rw [bindRoot]
      have isAround : (BoundExpr.bad site.node []).IsAround site.node [] := ⟨rfl, rfl, rfl⟩
      exact .next fun _ => .pure (isAround.places rfl .none)
  | .expression expr =>
      rw [bindRoot]
      exact bindExpr_places wellFormed expr isAt

end

/-! ### Statements -/

/-- A statement that declares nothing has the places of the parts inside it. -/
theorem SyntaxTree.BranchAt.statementPlaces {node : NodeId} {kind : Kind} {children : List NodeId}
    {statement : BoundStatement} {parts : List BoundPart}
    (branch : tree.BranchAt node kind children)
    (declaresNone : (BoundPart.statement statement).sites = [])
    (inner : tree.Places children (declarationSites parts) parts) :
    tree.Places [node] (declarationSites (.statement statement :: parts))
      (.statement statement :: parts) := by
  rw [declarationSites_cons, declaresNone]
  exact (branch.places inner).part rfl

/-- A list of statements has the places of the statements. -/
theorem SyntaxTree.Places.block {tops : List NodeId} {parts : List BoundPart}
    (places : tree.Places tops (declarationSites parts) parts) (node : NodeId) :
    tree.Places tops (declarationSites (.block node :: parts)) (.block node :: parts) :=
  places.part rfl

mutual

/-- The declarations in a statement, and its own, stand below its node. -/
theorem bindStatement_places (wellFormed : tree.WellFormed damaged) {scope : StatementScope}
    (statement : Statement) (isAt : statement.At tree damaged) :
    (bindStatement scope statement).Yields fun result =>
      tree.Places [statement.site.node] (declarationSites result.2.walk) result.2.walk := by
  match statement with
  | .localDeclaration site identifier initializer =>
      rcases isAt with ⟨branch, declares, initializerAt⟩
      rw [bindStatement]
      refine (bindRoot_places wellFormed initializer initializerAt).bind fun value places => ?_
      refine StatementScope.declareLocal_declares.bind ?_
      rintro ⟨inner, found⟩ isFound
      refine .pure ?_
      rw [BoundStatement.walk, declarationSites_cons]
      have placed :=
        branch.places_declared wellFormed .localDeclaration declares places isFound
      exact placed.part rfl
  | .expression site value =>
      rcases isAt with ⟨branch, valueAt⟩
      rw [bindStatement]
      refine (bindRoot_places wellFormed value valueAt).bind fun bound places => .pure ?_
      rw [BoundStatement.walk]
      exact branch.statementPlaces rfl places
  | .returnValue site none =>
      rw [bindStatement]
      refine .pure ?_
      rw [BoundStatement.walk]
      exact BranchAt.statementPlaces isAt rfl .none
  | .returnValue site (some value) =>
      rcases isAt with ⟨branch, valueAt⟩
      rw [bindStatement]
      refine (bindRoot_places wellFormed value valueAt).bind fun bound places => .pure ?_
      rw [BoundStatement.walk]
      exact branch.statementPlaces rfl places
  | .yieldReturn site none => exact isAt.elim
  | .yieldReturn site (some value) =>
      rcases isAt with ⟨branch, valueAt⟩
      rw [bindStatement]
      refine (bindRoot_places wellFormed value valueAt).bind fun bound places => .pure ?_
      rw [BoundStatement.walk]
      exact branch.statementPlaces rfl places
  | .yieldBreak site =>
      rw [bindStatement]
      refine .pure ?_
      rw [BoundStatement.walk]
      exact BranchAt.statementPlaces isAt rfl .none
  | .doWhile site bodySite body condition =>
      rcases isAt with ⟨branch, bodyBranch, bodyAt, conditionAt⟩
      rw [bindStatement]
      refine (bindStatements_place wellFormed body bodyAt (wellFormed.separate bodyBranch)).bind ?_
      intro boundBody bodyPlaces
      refine (bindRoot_places wellFormed condition conditionAt).bind fun bound places => .pure ?_
      have inner := (bodyBranch.places bodyPlaces).cons places (wellFormed.separate branch)
      rw [← declarationSites_append] at inner
      rw [BoundStatement.walk]
      exact branch.statementPlaces rfl (inner.block bodySite.node)
  | .block site statements =>
      rcases isAt with ⟨branch, statementsAt⟩
      rw [bindStatement]
      refine (bindStatements_place wellFormed statements statementsAt
        (wellFormed.separate branch)).bind fun bound places => .pure ?_
      rw [BoundStatement.walk]
      exact branch.statementPlaces rfl (places.block site.node)

/-- The declarations in statements, and their own, stand below their nodes. -/
theorem bindStatements_place (wellFormed : tree.WellFormed damaged) {scope : StatementScope}
    (statements : List Statement) (areAt : Statement.AllAt tree damaged statements)
    (separate : tree.Separate (statements.map fun statement => statement.site.node)) :
    (bindStatements scope statements).Yields fun bound =>
      tree.Places (statements.map fun statement => statement.site.node)
        (declarationSites (walkStatements bound)) (walkStatements bound) := by
  match statements with
  | [] =>
      rw [bindStatements]
      exact .pure .none
  | statement :: rest =>
      rw [bindStatements]
      refine .next fun entered => ?_
      refine (bindStatement_places wellFormed statement areAt.1).bind ?_
      rintro ⟨next, bound⟩ places
      refine (bindStatements_place wellFormed rest areAt.2
        (List.pairwise_cons.mp separate).2).bind ?_
      intro others othersPlace
      refine .pure ?_
      rw [walkStatements, declarationSites_append]
      exact places.cons othersPlace separate

end

/-- The declarations and references of a bound file stand in its tree. -/
theorem bindFile_places (wellFormed : tree.WellFormed damaged) {binder : Binder} :
    (bindFile binder tree).Yields fun block =>
      tree.Places [root] (declarationSites block.walk) block.walk := by
  rcases StatementList.ofTree_gives wellFormed with ⟨list, listEq, isRoot, isAt⟩
  have branch := isAt.branch
  rw [isRoot] at branch
  refine .next fun _ => ?_
  refine .bind_lift fun read readEq => ?_
  cases readEq.symm.trans listEq
  refine (bindStatements_place wellFormed list.statements isAt.statements
    (wellFormed.separate branch)).bind fun bound places => .pure ?_
  exact (branch.places places).block list.site.node

end

end QueryLang
