import QueryLang.Proofs.Binding.Scoping
import QueryLang.Proofs.Bound.Reliable
import QueryLang.Binding.Statement

/-!
# How names are resolved

Every name that is bound as a value resolves to what is visible where it stands. The proof goes
along with binding: the scopes of the binder stand for what the node at hand sees, as long as the
bound tree declares what its scopes say it does.
-/

namespace QueryLang

/-- An expression at a node that declares nothing, around these parts. -/
structure BoundExpr.IsAround (expr : BoundExpr) (node : NodeId) (inner : List BoundPart) : Prop where
  node_eq : expr.node = node
  walk_eq : expr.walk = .expression expr :: inner
  sites_eq : (BoundPart.expression expr).sites = []

/-- If a part is a name that is bound as a value, it resolves to what is visible there. -/
def BoundPart.Resolved (tree : SyntaxTree) (declared : List (NodeId × Symbol))
    (globals : List Symbol) : BoundPart → Prop
  | .block _ | .statement _ => True
  | .expression expr => tree.kind expr.node = .ok .identifierName →
    ∀ name, tree.Names expr.node name → ∃ visible,
      tree.VisibleAt expr.node visible ∧
        ResolvesTo tree declared globals visible name expr.symbol?

/-- The names among some parts are resolved as they should, if the scopes stand for what is
visible and if what the parts declare is declared. -/
def Resolves (tree : SyntaxTree) (globals : List Symbol) (scopes : List Scope)
    (visible : List NodeId) (parts : List BoundPart) : Prop :=
  ∀ declared, ScopesFor tree declared globals scopes visible →
    declarationSites parts ⊆ declared → ∀ part ∈ parts, part.Resolved tree declared globals

section

variable {tree : SyntaxTree} {damaged : Prop} {globals : List Symbol} {scopes : List Scope}
  {visible : List NodeId} {parts others : List BoundPart}

theorem declarationSites_append (left right : List BoundPart) :
    declarationSites (left ++ right) = declarationSites left ++ declarationSites right :=
  List.flatMap_append

theorem Resolves.nil : Resolves tree globals scopes visible [] := by
  intro declared _ _ part isPart
  cases isPart

theorem Resolves.append (left : Resolves tree globals scopes visible parts)
    (right : Resolves tree globals scopes visible others) :
    Resolves tree globals scopes visible (parts ++ others) := by
  intro declared scopesFor declares
  rw [declarationSites_append, List.append_subset] at declares
  exact List.forall_mem_append.mpr
    ⟨left declared scopesFor declares.1, right declared scopesFor declares.2⟩

theorem Resolves.cons {part : BoundPart} (declaresNone : part.sites = [])
    (isResolved : ∀ declared, part.Resolved tree declared globals)
    (rest : Resolves tree globals scopes visible parts) :
    Resolves tree globals scopes visible (part :: parts) := by
  intro declared scopesFor declares
  rw [declarationSites, List.flatMap_cons, declaresNone] at declares
  exact List.forall_mem_cons.mpr ⟨isResolved declared, rest declared scopesFor declares⟩

/-- An expression that is not a name is resolved when the parts inside it are. -/
theorem BoundExpr.IsAround.resolves {expr : BoundExpr} {node : NodeId} {kind : Kind}
    (isAround : expr.IsAround node parts) (kindEq : tree.kind node = .ok kind)
    (notName : kind ≠ .identifierName) (inner : Resolves tree globals scopes visible parts) :
    Resolves tree globals scopes visible expr.walk := by
  rw [isAround.walk_eq]
  refine inner.cons isAround.sites_eq fun declared isName => ?_
  rw [isAround.node_eq, kindEq] at isName
  exact absurd (Except.ok.inj isName) notName

/-! ### Names -/

theorem conclusionReference?_eq_ok {node : NodeId} {symbol : Symbol} {found : Option BoundExpr}
    (isVariable : symbol.kind = .queryConclusionVariable)
    (foundEq : conclusionReference? node symbol scopes = .ok found) :
    (∃ reference, reference.node = node ∧ found = some (.conclusionVariable symbol reference)) ∨
      found = none ∧ ∀ scope ∈ scopes, ¬scope.Introduces symbol := by
  induction scopes with
  | nil =>
      cases foundEq
      exact .inr ⟨rfl, by simp⟩
  | cons scope outer ih =>
      have later {first : Scope} (notHere : ¬first.Introduces symbol)
          (foundLater : conclusionReference? node symbol outer = .ok found) :
          (∃ reference, reference.node = node ∧
            found = some (.conclusionVariable symbol reference)) ∨
            found = none ∧ ∀ scope ∈ first :: outer, ¬scope.Introduces symbol := by
        refine (ih foundLater).imp id (And.imp_right ?_)
        rw [List.forall_mem_cons]
        exact fun nowhere => ⟨notHere, nowhere⟩
      cases scope with
      | global symbols => exact later id foundEq
      | locals symbols =>
          refine later (fun introduces => ?_) foundEq
          cases isVariable.symm.trans introduces.2
      | rangeVariable own kind =>
          refine later (fun introduces => ?_) foundEq
          rw [show own = symbol from introduces] at kind
          cases isVariable.symm.trans kind
      | conclusion own =>
          rw [conclusionReference?] at foundEq
          split at foundEq
          · next same =>
              have isOwn : symbol = own.symbol := by
                simpa [Symbol.sameSymbol, isVariable, SymbolKind.usesIdentity] using same
              rcases Checked.bind_eq_ok_iff.mp foundEq with ⟨parameter, _, isFound⟩
              rw [← Checked.pure_eq_ok_iff.mp isFound, isOwn]
              exact .inl ⟨_, rfl, rfl⟩
          · next different =>
              refine later (fun introduces => different ?_) foundEq
              have isOwn : own.symbol = symbol := introduces
              simp [Symbol.sameSymbol, isVariable, SymbolKind.usesIdentity, isOwn]

theorem bindReference_yields {binder : Binder} {site : Site} {name : String}
    {location : Location} {symbol : Symbol} :
    (bindReference binder site name location symbol).Yields fun bound =>
      bound.IsAround site.node [] ∧
        ((∃ scope ∈ binder.scopes, scope.Introduces symbol) → bound.symbol? = some symbol) ∧
        ((symbol.kind = .method ∨ symbol.kind = .namedType ∨ symbol.kind = .field) →
          bound.symbol? = (some symbol).filter (·.kind == .field)) := by
  have isBad : (BoundExpr.bad site.node []).IsAround site.node [] := ⟨rfl, rfl, rfl⟩
  have misused (notVariable : ∀ scope : Scope, ¬scope.Introduces symbol)
      (notField : symbol.kind ≠ .field) :
      (do
        Binding.report location .usedLike [name, symbol.kind.displayName, "variable"]
        return .bad site.node [] : Binding BoundExpr).Yields fun bound =>
        bound.IsAround site.node [] ∧
          ((∃ scope ∈ binder.scopes, scope.Introduces symbol) → bound.symbol? = some symbol) ∧
          ((symbol.kind = .method ∨ symbol.kind = .namedType ∨ symbol.kind = .field) →
            bound.symbol? = (some symbol).filter (·.kind == .field)) := by
    refine .next fun _ => .pure ⟨isBad, ?_, fun _ => ?_⟩
    · rintro ⟨scope, _, introduces⟩
      exact absurd introduces (notVariable scope)
    · simp [BoundExpr.symbol?, Option.filter_some, notField]
  have variableKind {scope : Scope} (introduces : scope.Introduces symbol) := introduces.kind
  rw [bindReference]
  cases kindEq : symbol.kind with
  | localVariable | rangeVariable | parameter =>
      exact .pure ⟨⟨rfl, rfl, rfl⟩, fun _ => rfl, by simp⟩
  | field =>
      refine .pure ⟨⟨rfl, rfl, rfl⟩, fun _ => rfl, fun _ => ?_⟩
      simp [BoundExpr.symbol?, Option.filter_some, kindEq]
  | property => exact .pure ⟨⟨rfl, rfl, rfl⟩, fun _ => rfl, by simp⟩
  | queryConclusionVariable =>
      refine .bind_lift fun found foundEq => ?_
      rcases conclusionReference?_eq_ok kindEq foundEq with
        ⟨reference, isHere, rfl⟩ | ⟨rfl, nowhere⟩
      · exact .pure ⟨⟨isHere, rfl, rfl⟩, fun _ => rfl, by simp⟩
      · refine .next fun _ => .pure ⟨isBad, ?_, by simp⟩
        rintro ⟨scope, isScope, introduces⟩
        exact absurd introduces (nowhere scope isScope)
  | «namespace» | namedType | method | lambda | label =>
      rw [kindEq] at misused
      refine misused (fun scope introduces => ?_) (by decide)
      have isVariable := variableKind introduces
      rw [kindEq] at isVariable
      simp at isVariable

/-- What is found among the symbols of the host is one of them. -/
theorem mem_of_answer {name : String} {result : LookupResult} {symbol : Symbol}
    (decides : Scope.lookupThrough [.global globals] name 0 .unrestricted = .ok result)
    (isAnswer : result.answer? = some symbol) : symbol ∈ globals := by
  have gives : (Scope.lookupThrough [.global globals] name 0 .unrestricted).Gives fun result =>
      result.MadeOf 0 .unrestricted (Scope.IsCandidate [.global globals] name) :=
    Scope.lookupThrough_gives
  rcases gives with ⟨found, foundEq, madeOf⟩
  cases decides.symm.trans foundEq
  rcases (madeOf.answer isAnswer).1 with ⟨_, scope, isScope, inScope⟩
  rw [List.mem_singleton.mp isScope] at inScope
  exact inScope

/-- A name that is bound as a value resolves to what is visible. -/
theorem bindName_yields (kinds : HostKinds globals) {binder : Binder} {site : Site}
    {identifier : Identifier} (isName : tree.NameAt damaged site.node identifier)
    (sees : tree.VisibleAt site.node visible) :
    (bindName binder site identifier).Yields fun bound =>
      Resolves tree globals binder.scopes visible bound.walk := by
  have resolves {bound : BoundExpr} (isAround : bound.IsAround site.node [])
      (isResolved : ∀ declared name, ScopesFor tree declared globals binder.scopes visible →
        identifier.name = some name →
          ResolvesTo tree declared globals visible name bound.symbol?) :
      Resolves tree globals binder.scopes visible bound.walk := by
    intro declared scopesFor _
    rw [isAround.walk_eq]
    refine List.forall_mem_singleton.mpr fun _ name names => ?_
    rw [isAround.node_eq] at names ⊢
    exact ⟨visible, sees, isResolved declared name scopesFor (isName.declares.names_iff.mp names)⟩
  unfold bindName
  split
  · next noName =>
      refine .pure (resolves ⟨rfl, rfl, rfl⟩ fun declared name _ hasName => ?_)
      cases noName.symm.trans hasName
  · next name hasName =>
      refine .bind_lift fun result found => ?_
      split
      · next symbol isAnswer =>
          refine bindReference_yields.mono ?_
          rintro bound ⟨isAround, ofVariable, ofHost⟩
          refine resolves isAround fun declared other scopesFor hasOther => ?_
          cases hasName.symm.trans hasOther
          rcases scopesFor.lookup found with
            ⟨inner, declaration, outer, own, split, isNamed, none, isDeclared, isOwn, introduced⟩
              | ⟨noneVisible, decides⟩
          · cases isAnswer.symm.trans isOwn
            rw [ofVariable introduced]
            exact .innermost split isNamed none isDeclared
          · rw [ofHost (kinds symbol (mem_of_answer decides isAnswer)), ← isAnswer]
            exact .host noneVisible decides
      · next noAnswer =>
          refine .next fun _ => .pure (resolves ⟨rfl, rfl, rfl⟩ ?_)
          intro declared other scopesFor hasOther
          cases hasName.symm.trans hasOther
          rcases scopesFor.lookup found with
            ⟨_, _, _, own, _, _, _, _, isOwn, _⟩ | ⟨noneVisible, decides⟩
          · cases noAnswer.symm.trans isOwn
          · have isHost : ResolvesTo tree declared globals visible name
                (result.answer?.filter (·.kind == .field)) := .host noneVisible decides
            rw [noAnswer] at isHost
            exact isHost

/-! ### Expressions around others -/

theorem bindMemberAccess_yields {site : Site} {receiver : BoundExpr} {member : Identifier} :
    (bindMemberAccess site receiver member).Yields fun bound =>
      bound.IsAround site.node receiver.walk := by
  refine .next fun found => ?_
  cases found with
  | none => exact .pure ⟨rfl, by simp [BoundExpr.walk, walkAll], rfl⟩
  | some found => exact .pure ⟨rfl, by simp [BoundExpr.walk], rfl⟩

theorem bindMemberCall_yields {site : Site} {receiver : BoundExpr} {member : Identifier}
    {arguments : List BoundExpr} :
    (bindMemberCall site receiver member arguments).Yields fun bound =>
      bound.IsAround site.node (receiver.walk ++ walkAll arguments) := by
  refine .next fun found => ?_
  cases found with
  | none => exact .pure ⟨rfl, by simp [BoundExpr.walk, walkAll], rfl⟩
  | some found => exact .pure ⟨rfl, by simp [BoundExpr.walk], rfl⟩

theorem bindNamedCall_yields {binder : Binder} {site : Site} {callee : Identifier}
    {arguments : List BoundExpr} :
    (bindNamedCall binder site callee arguments).Yields fun bound =>
      bound.IsAround site.node (walkAll arguments) := by
  have isBad : (BoundExpr.bad site.node arguments).IsAround site.node (walkAll arguments) :=
    ⟨rfl, by simp [BoundExpr.walk], rfl⟩
  unfold bindNamedCall
  split
  · exact .pure isBad
  · refine .next fun result => ?_
    split
    · exact .pure ⟨rfl, by simp [BoundExpr.walk], rfl⟩
    · exact .next fun _ => .pure isBad

theorem bindOperator_yields {site : Site} {operator : Operator} {left right : BoundExpr} :
    (bindOperator site operator left right).Yields fun bound =>
      bound.IsAround site.node (left.walk ++ right.walk) := by
  have isBinary (type : TypeId) :
      (BoundExpr.binary site.node operator.kind left right type).IsAround site.node
        (left.walk ++ right.walk) :=
    ⟨rfl, by simp [BoundExpr.walk], rfl⟩
  unfold bindOperator
  dsimp only
  split
  · exact .pure (isBinary _)
  · split
    · exact .pure (isBinary _)
    · exact .next fun _ => .next fun _ => .next fun _ => .pure (isBinary _)

/-! ### Scopes that open -/

/-- Like `Resolves`, for parts after which further scopes are open. What the parts declare by
being part of a query is listed apart. -/
def ResolvesInto (tree : SyntaxTree) (globals : List Symbol) (scopes : List Scope)
    (visible : List NodeId) (own : List (NodeId × Symbol)) (parts : List BoundPart)
    (inner : List Scope) (innerVisible : List NodeId) : Prop :=
  ∀ declared, ScopesFor tree declared globals scopes visible → own ⊆ declared →
    declarationSites parts ⊆ declared →
      ScopesFor tree declared globals inner innerVisible ∧
        ∀ part ∈ parts, part.Resolved tree declared globals

theorem ResolvesInto.trans {middle inner : List Scope} {middleVisible innerVisible : List NodeId}
    {own further : List (NodeId × Symbol)}
    (first : ResolvesInto tree globals scopes visible own parts middle middleVisible)
    (second : ResolvesInto tree globals middle middleVisible further others inner innerVisible) :
    ResolvesInto tree globals scopes visible (own ++ further) (parts ++ others) inner
      innerVisible := by
  intro declared scopesFor owns declares
  rw [List.append_subset] at owns
  rw [declarationSites_append, List.append_subset] at declares
  rcases first declared scopesFor owns.1 declares.1 with ⟨between, resolved⟩
  rcases second declared between owns.2 declares.2 with ⟨inside, othersResolved⟩
  exact ⟨inside, List.forall_mem_append.mpr ⟨resolved, othersResolved⟩⟩

theorem Resolves.into (resolves : Resolves tree globals scopes visible parts) :
    ResolvesInto tree globals scopes visible [] parts scopes visible :=
  fun declared scopesFor _ declares => ⟨scopesFor, resolves declared scopesFor declares⟩

theorem declareRangeVariable_yields {binder : Binder} {identifier : Identifier} {type : TypeId} :
    (declareRangeVariable binder identifier type).Yields fun found =>
      found.map (·.val.name) = identifier.name := by
  unfold declareRangeVariable
  split
  · next noName => exact .pure (by simp [noName])
  · next name hasName =>
      refine .next fun existing => ?_
      dsimp only
      split
      · exact .next fun _ => .next fun id => .pure (by rw [hasName]; rfl)
      · exact .next fun id => .pure (by rw [hasName]; rfl)

/-- A clause that declares a variable opens a scope for it, unless the name is missing. -/
theorem scopesFor_pushRangeVariable {declared : List (NodeId × Symbol)} {binder : Binder}
    {node : NodeId} {identifier : Identifier} {found : Option RangeVariable}
    (declares : tree.DeclaresAt damaged node identifier)
    (isFound : found.map (·.val.name) = identifier.name)
    (owns : ((found.map Subtype.val).map (node, ·)).toList ⊆ declared)
    (scopesFor : ScopesFor tree declared globals binder.scopes visible) :
    ScopesFor tree declared globals (binder.pushRangeVariable found).scopes (node :: visible) := by
  cases found with
  | none =>
      refine .nameless scopesFor fun name names => ?_
      cases isFound.trans (declares.names_iff.mp names)
  | some own =>
      refine .named scopesFor (declares.names_iff.mpr isFound.symm) ?_ rfl
      exact owns (by simp)

theorem declareConclusionVariable_yields {binder : Binder} {name : String} {location : Location} :
    (declareConclusionVariable binder name location).Yields fun own => own.val.name = name :=
  .next fun _ => .pure rfl

theorem declareConclusionScope_yields {binder : Binder} {site : Site} {identifier : Identifier}
    {own : ConclusionVariable} {type : TypeId} :
    (declareConclusionScope binder site identifier own type).Yields fun scope =>
      scope.symbol = own.val :=
  .next fun _ => .next fun _ => .pure rfl

mutual

/-- The names in an expression are resolved as they should. -/
theorem bindExpr_resolves (kinds : HostKinds globals) {binder : Binder} {visible : List NodeId}
    (expr : Expr) (isAt : expr.At tree damaged) (sees : tree.VisibleAt expr.site.node visible) :
    (bindExpr binder expr).Yields fun bound =>
      Resolves tree globals binder.scopes visible bound.walk := by
  match expr with
  | .name site identifier =>
      rw [bindExpr]
      exact bindName_yields kinds isAt sees
  | .literal site value =>
      rcases isAt with ⟨kind, isLiteral, branch⟩
      have notName : kind ≠ .identifierName := by
        rintro rfl
        cases isLiteral
      rw [bindExpr]
      have isAround : (BoundExpr.literal site.node value).IsAround site.node [] := ⟨rfl, rfl, rfl⟩
      exact .pure (isAround.resolves branch.kind_eq notName .nil)
  | .parenthesized site inner =>
      rcases isAt with ⟨branch, innerAt⟩
      have silent : ∀ child ∈ [inner.site.node], tree.Silent child :=
        List.forall_mem_singleton.mpr innerAt.silent
      rw [bindExpr]
      exact bindExpr_resolves kinds inner innerAt
        (sees.through branch (by decide) silent (List.mem_singleton_self _))
  | .memberAccess site receiver member =>
      rcases isAt with ⟨name, branch, nameAt, receiverAt⟩
      have silent : ∀ child ∈ [receiver.site.node, name], tree.Silent child := by
        simp [receiverAt.silent, nameAt.silent]
      rw [bindExpr]
      refine (bindExpr_resolves kinds receiver receiverAt
        (sees.through branch (by decide) silent (by simp))).bind fun bound resolves => ?_
      exact bindMemberAccess_yields.mono fun result isAround =>
        isAround.resolves branch.kind_eq (by decide) resolves
  | .memberCall site receiver member arguments =>
      rcases isAt with ⟨callee, name, list, branch, calleeBranch, nameAt, listBranch, receiverAt,
        argumentsAt⟩
      have silent : ∀ child ∈ [callee, list], tree.Silent child := by
        simp [calleeBranch.silent rfl (by decide), listBranch.silent rfl (by decide)]
      have silentCallee : ∀ child ∈ [receiver.site.node, name], tree.Silent child := by
        simp [receiverAt.silent, nameAt.silent]
      have seesCallee := sees.through branch (by decide) silent (List.mem_pair.mpr (.inl rfl))
      have seesList := sees.through branch (by decide) silent (List.mem_pair.mpr (.inr rfl))
      rw [bindExpr]
      refine (bindExpr_resolves kinds receiver receiverAt (seesCallee.through calleeBranch
        (by decide) silentCallee (by simp))).bind fun bound resolves => ?_
      refine (bindExprs_resolves kinds arguments argumentsAt fun node isNode => seesList.through
        listBranch (by decide) argumentsAt.silent isNode).bind fun others othersResolve => ?_
      exact bindMemberCall_yields.mono fun result isAround =>
        isAround.resolves branch.kind_eq (by decide) (resolves.append othersResolve)
  | .namedCall site callee arguments =>
      rcases isAt with ⟨name, list, branch, nameAt, listBranch, argumentsAt⟩
      have silent : ∀ child ∈ [name, list], tree.Silent child := by
        simp [nameAt.silent, listBranch.silent rfl (by decide)]
      have seesList := sees.through branch (by decide) silent (List.mem_pair.mpr (.inr rfl))
      rw [bindExpr]
      refine (bindExprs_resolves kinds arguments argumentsAt fun node isNode => seesList.through
        listBranch (by decide) argumentsAt.silent isNode).bind fun bound resolves => ?_
      exact bindNamedCall_yields.mono fun result isAround =>
        isAround.resolves branch.kind_eq (by decide) resolves
  | .valueCall site callee text arguments =>
      rcases isAt with ⟨list, branch, _, listBranch, calleeAt, argumentsAt⟩
      have silent : ∀ child ∈ [callee.site.node, list], tree.Silent child := by
        simp [calleeAt.silent, listBranch.silent rfl (by decide)]
      have seesList := sees.through branch (by decide) silent (List.mem_pair.mpr (.inr rfl))
      rw [bindExpr]
      refine (bindExpr_resolves kinds callee calleeAt
        (sees.through branch (by decide) silent (by simp))).bind fun bound resolves => ?_
      refine (bindExprs_resolves kinds arguments argumentsAt fun node isNode => seesList.through
        listBranch (by decide) argumentsAt.silent isNode).bind fun others othersResolve => ?_
      have isAround : (BoundExpr.bad site.node (bound :: others)).IsAround site.node
          (bound.walk ++ walkAll others) :=
        ⟨rfl, by simp [BoundExpr.walk, walkAll], rfl⟩
      exact .next fun _ => .pure
        (isAround.resolves branch.kind_eq (by decide) (resolves.append othersResolve))
  | .binary site operator left right =>
      rcases isAt with ⟨branch, leftAt, rightAt⟩
      have silent : ∀ child ∈ [left.site.node, right.site.node], tree.Silent child := by
        simp [leftAt.silent, rightAt.silent]
      rw [bindExpr]
      refine (bindExpr_resolves kinds left leftAt
        (sees.through branch (by decide) silent (by simp))).bind fun boundLeft leftResolves => ?_
      refine (bindExpr_resolves kinds right rightAt
        (sees.through branch (by decide) silent (by simp))).bind fun boundRight rightResolves => ?_
      exact bindOperator_yields.mono fun result isAround =>
        isAround.resolves branch.kind_eq (by decide) (leftResolves.append rightResolves)
  | .query site clauses ending conclusion =>
      have clausesSee := Expr.At.clausesSee isAt sees
      have conclusionSees := Expr.At.conclusionSees isAt sees
      rcases isAt with ⟨first, rest, body, _, branch, _, clausesAt, endingAt, conclusionAt⟩
      rw [bindExpr]
      split
      · have isAround : (BoundExpr.bad site.node []).IsAround site.node [] := ⟨rfl, rfl, rfl⟩
        exact .pure (isAround.resolves branch.kind_eq (by decide) .nil)
      · refine (bindClauses_resolve kinds clauses clausesAt clausesSee.left).bind ?_
        rintro ⟨inner, bound⟩ intoClauses
        refine (bindEnding_resolves kinds ending endingAt clausesSee.append).bind ?_
        rintro ⟨type, last⟩ ⟨lastSites, lastResolves⟩
        refine (bindConclusion_resolves kinds conclusion conclusionAt conclusionSees).bind ?_
        rintro ⟨boundConclusion, resultType⟩ conclusionResolves
        refine .pure fun declared scopesFor declares => ?_
        have intoAll := intoClauses.trans lastResolves.into
        rw [List.append_nil] at intoAll
        rw [BoundExpr.walk, declarationSites, List.flatMap_cons, List.flatMap_append,
          List.append_subset, List.append_subset, BoundPart.sites, List.append_subset,
          List.filterMap_append, lastSites, List.append_nil, walkClauses_append] at declares
        rcases declares with ⟨⟨owns, conclusionOwns⟩, declares, conclusionDeclares⟩
        have clausesResolved := (intoAll declared scopesFor owns declares).2
        have conclusionResolved :=
          (conclusionResolves declared scopesFor conclusionOwns conclusionDeclares).2
        rw [BoundExpr.walk, walkClauses_append, List.forall_mem_cons, List.forall_mem_append]
        refine ⟨fun isName => ?_, clausesResolved, conclusionResolved⟩
        cases branch.kind_eq.symm.trans isName

/-- The names in expressions are resolved as they should. -/
theorem bindExprs_resolves (kinds : HostKinds globals) {binder : Binder} {visible : List NodeId}
    (exprs : List Expr) (areAt : Expr.AllAt tree damaged exprs)
    (see : ∀ node ∈ exprs.map fun expr => expr.site.node, tree.VisibleAt node visible) :
    (bindExprs binder exprs).Yields fun bound =>
      Resolves tree globals binder.scopes visible (walkAll bound) := by
  match exprs with
  | [] =>
      rw [bindExprs]
      exact .pure .nil
  | expr :: rest =>
      rw [List.map_cons, List.forall_mem_cons] at see
      rw [bindExprs]
      refine (bindExpr_resolves kinds expr areAt.1 see.1).bind fun bound resolves => ?_
      refine (bindExprs_resolves kinds rest areAt.2 see.2).bind fun others othersResolve => ?_
      exact .pure (resolves.append othersResolve)

/-- The names in a clause are resolved as they should, and the clause opens its scope. -/
theorem bindClause_resolves (kinds : HostKinds globals) {binder : Binder} {visible : List NodeId}
    (clause : Clause) (isAt : clause.At tree damaged) (sees : tree.VisibleAt clause.node visible) :
    (bindClause binder clause).Yields fun result =>
      ResolvesInto tree globals binder.scopes visible result.2.site?.toList result.2.walk
        result.1.scopes (tree.variableNodes [clause.node] ++ visible) := by
  match clause with
  | .fromClause site identifier source =>
      rcases isAt with ⟨branch, declares, sourceAt⟩
      have silent : ∀ child ∈ [source.site.node], tree.Silent child :=
        List.forall_mem_singleton.mpr sourceAt.silent
      rw [bindClause]
      refine (bindExpr_resolves kinds source sourceAt (sees.through branch (by decide) silent
        (List.mem_singleton_self _))).bind fun bound resolves => ?_
      refine .next fun element => ?_
      refine declareRangeVariable_yields.bind fun found isFound => ?_
      refine .pure fun declared scopesFor owns declaresAll => ⟨?_, ?_⟩
      · rw [Clause.node, SyntaxTree.variableNodes_singleton branch.kind_eq]
        exact scopesFor_pushRangeVariable declares isFound owns scopesFor
      · rw [BoundClause.walk] at declaresAll ⊢
        exact resolves declared scopesFor declaresAll
  | .whereClause site condition =>
      rcases isAt with ⟨branch, conditionAt⟩
      have silent : ∀ child ∈ [condition.site.node], tree.Silent child :=
        List.forall_mem_singleton.mpr conditionAt.silent
      rw [bindClause]
      refine (bindExpr_resolves kinds condition conditionAt (sees.through branch (by decide) silent
        (List.mem_singleton_self _))).bind fun bound resolves => ?_
      refine .pure ?_
      rw [Clause.node, SyntaxTree.variableNodes_singleton branch.kind_eq, BoundClause.walk]
      exact resolves.into
  | .letClause site identifier value =>
      rcases isAt with ⟨branch, declares, valueAt⟩
      have silent : ∀ child ∈ [value.site.node], tree.Silent child :=
        List.forall_mem_singleton.mpr valueAt.silent
      rw [bindClause]
      refine (bindExpr_resolves kinds value valueAt (sees.through branch (by decide) silent
        (List.mem_singleton_self _))).bind fun bound resolves => ?_
      refine declareRangeVariable_yields.bind fun found isFound => ?_
      refine .pure fun declared scopesFor owns declaresAll => ⟨?_, ?_⟩
      · rw [Clause.node, SyntaxTree.variableNodes_singleton branch.kind_eq]
        exact scopesFor_pushRangeVariable declares isFound owns scopesFor
      · rw [BoundClause.walk] at declaresAll ⊢
        exact resolves declared scopesFor declaresAll

/-- The names in clauses are resolved as they should, and the clauses open their scopes. -/
theorem bindClauses_resolve (kinds : HostKinds globals) {binder : Binder} {visible : List NodeId}
    (clauses : List Clause) (areAt : Clause.AllAt tree damaged clauses)
    (see : tree.RowSees (clauses.map Clause.node) visible) :
    (bindClauses binder clauses).Yields fun result =>
      ResolvesInto tree globals binder.scopes visible
        (result.2.filterMap BoundClause.site?) (walkClauses result.2) result.1.scopes
        (tree.variableNodes (clauses.map Clause.node) ++ visible) := by
  match clauses with
  | [] =>
      rw [bindClauses]
      exact .pure Resolves.nil.into
  | clause :: rest =>
      rw [bindClauses]
      refine (bindClause_resolves kinds clause areAt.1 see.head).bind ?_
      rintro ⟨next, bound⟩ intoClause
      refine (bindClauses_resolve kinds rest areAt.2 see.tail).bind ?_
      rintro ⟨inner, others⟩ intoRest
      refine .pure ?_
      have owns : (bound :: others).filterMap BoundClause.site? =
          bound.site?.toList ++ others.filterMap BoundClause.site? := by
        cases siteEq : bound.site? <;> simp [siteEq]
      rw [owns, walkClauses, List.map_cons, SyntaxTree.variableNodes_cons, List.append_assoc]
      exact intoClause.trans intoRest

/-- The names in the last clause of a query are resolved as they should. -/
theorem bindEnding_resolves (kinds : HostKinds globals) {binder : Binder} {visible : List NodeId}
    (ending : QueryEnding) (isAt : ending.At tree damaged) (see : tree.RowSees ending.nodes visible) :
    (bindEnding binder ending).Yields fun result =>
      result.2.filterMap BoundClause.site? = [] ∧
        Resolves tree globals binder.scopes visible (walkClauses result.2) := by
  match ending with
  | .absent => exact isAt.elim
  | .selectClause site selected =>
      rcases isAt with ⟨branch, selectedAt⟩
      have silent : ∀ child ∈ [selected.site.node], tree.Silent child :=
        List.forall_mem_singleton.mpr selectedAt.silent
      rw [bindEnding]
      refine (bindExpr_resolves kinds selected selectedAt (see.head.through branch (by decide)
        silent (List.mem_singleton_self _))).bind fun bound resolves => ?_
      refine .next fun type => .pure ⟨rfl, ?_⟩
      rw [walkClauses, walkClauses, BoundClause.walk]
      exact resolves.append .nil
  | .groupClause site element key =>
      rcases isAt with ⟨branch, elementAt, keyAt⟩
      have silent : ∀ child ∈ [element.site.node, key.site.node], tree.Silent child := by
        simp [elementAt.silent, keyAt.silent]
      rw [bindEnding]
      refine (bindExpr_resolves kinds element elementAt (see.head.through branch (by decide)
        silent (by simp))).bind fun boundElement elementResolves => ?_
      refine (bindExpr_resolves kinds key keyAt (see.head.through branch (by decide)
        silent (by simp))).bind fun boundKey keyResolves => ?_
      refine .next fun grouping => .next fun type => .pure ⟨rfl, ?_⟩
      rw [walkClauses, walkClauses, BoundClause.walk]
      exact (elementResolves.append keyResolves).append .nil

/-- The names in a conclusion are resolved as they should. -/
theorem bindConclusion_resolves (kinds : HostKinds globals) {binder : Binder} {visible : List NodeId}
    {type : TypeId} (conclusion : Conclusion) (isAt : conclusion.At tree damaged)
    (see : ∀ node ∈ conclusion.nodes, tree.VisibleAt node visible) :
    (bindConclusion binder type conclusion).Yields fun result =>
      ResolvesInto tree globals binder.scopes visible result.1.site?.toList result.1.walk
        binder.scopes visible := by
  match conclusion with
  | .absent =>
      rw [bindConclusion]
      exact .pure Resolves.nil.into
  | .present site identifier body =>
      rcases isAt with ⟨branch, declares, bodyAt⟩
      rw [bindConclusion]
      split
      · exact .pure Resolves.nil.into
      · next name hasName =>
          have seesBody : tree.VisibleAt body.site.node (site.node :: visible) :=
            .conclusionBody (see site.node (by simp [Conclusion.nodes])) branch
              (List.mem_singleton_self _)
          refine declareConclusionVariable_yields.bind fun own sameName => ?_
          refine declareConclusionScope_yields.bind fun scope isOwn => ?_
          refine (Binding.Yields.collecting (bindRoot_resolves kinds body bodyAt seesBody)).bind ?_
          rintro ⟨value, diagnostics⟩ resolves
          refine .pure fun declared scopesFor owns declaresAll => ⟨scopesFor, ?_⟩
          have isNamed : tree.Names site.node own.val.name :=
            declares.names_iff.mpr (sameName ▸ hasName)
          have inside : ScopesFor tree declared globals (.conclusion scope :: binder.scopes)
              (site.node :: visible) :=
            .named scopesFor isNamed (owns (by simp [BoundConclusion.site?])) isOwn
          rw [BoundConclusion.walk, List.forall_mem_cons, List.forall_mem_cons]
          exact ⟨trivial, trivial, resolves declared inside declaresAll⟩

/-- The names in a root expression are resolved as they should. -/
theorem bindRoot_resolves (kinds : HostKinds globals) {binder : Binder} {visible : List NodeId}
    (root : RootExpr) (isAt : root.At tree damaged) (sees : tree.VisibleAt root.site.node visible) :
    (bindRoot binder root).Yields fun bound =>
      Resolves tree globals binder.scopes visible bound.walk := by
  match root with
  | .tooDeep site reported =>
      rcases isAt with ⟨_, kind, kindEq, _, notName⟩
      have isAround : (BoundExpr.bad site.node []).IsAround site.node [] := ⟨rfl, rfl, rfl⟩
      rw [bindRoot]
      exact .next fun _ => .pure (isAround.resolves kindEq notName .nil)
  | .expression expr =>
      rw [bindRoot]
      exact bindExpr_resolves kinds expr isAt sees

end

end

end QueryLang
