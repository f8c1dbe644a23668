import QueryLang.Proofs.Binding.ExpressionReports
import QueryLang.Proofs.Compilation.DeclaringNodes
import QueryLang.Proofs.Compilation.Names
import QueryLang.Proofs.Program.Roots

/-!
# Expressions that are too deep

Of the expressions that stand directly in statements, binding gives up those that something lies too
deep below, and reports each of them once, where its first token is. It goes down all others, never
further than the limit says. What is inside of those is no deeper, so that of the bodies of
conclusions in them none is reported again.
-/

namespace QueryLang

open Binding

namespace RootExpr

/-- What is reported about a root that is too deep. -/
def depthReports : RootExpr → Diagnostics
  | .tooDeep _ reported => [.located reported .tooDeeplyNested []]
  | .expression _ => []

/-- A root that is too deep is bound to something bad with nothing inside. -/
def BoundAs : RootExpr → BoundExpr → Prop
  | .tooDeep site _, bound => bound = .bad site.node []
  | .expression _, _ => True

/-- A root that is not too deep has few enough levels, and nothing in it is too deep. -/
def Guarded (root : RootExpr) : Prop :=
  ∀ expr, root = .expression expr → root.Within (maxExpressionDepth + 1)

end RootExpr

/-- About depth, a step reports these, up to order, and its result is good. -/
abbrev Binding.TellsDepth {α : Type} (step : Binding α) (expected : Diagnostics)
    (good : α → Prop) : Prop :=
  step.TellsAbout [DiagnosticMessage.tooDeeplyNested.code] expected good

open RootExpr

/-! ### Binding statements -/

theorem bindRoot_depth (binder : Binder) {root : RootExpr} (guarded : root.Guarded) :
    (bindRoot binder root).TellsDepth ([root].flatMap depthReports)
      fun bound => List.Forall₂ BoundAs [root] [bound] := by
  rw [List.flatMap_singleton]
  cases root with
  | tooDeep site reported =>
      rw [bindRoot]
      refine Tells.bind Tells.report fun reported _ own => Tells.pure ⟨?_, .cons rfl .nil⟩
      rw [own]
      exact .refl _
  | expression expr =>
      have speaks := (guarded expr rfl).speaks binder
      exact Tells.mono (TellsAbout.of_speaks speaks (by decide)) fun _ _ own =>
        ⟨own.1, .cons trivial .nil⟩

variable {tree : SyntaxTree} {damaged : Prop}

mutual

/-- About depth, binding a statement reports its roots that are too deep. -/
theorem bindStatement_depth (scope : StatementScope) (statement : Statement)
    (isAt : statement.At tree damaged) (guarded : ∀ root ∈ statement.roots, root.Guarded) :
    (bindStatement scope statement).TellsDepth (statement.roots.flatMap depthReports)
      fun result => List.Forall₂ BoundAs statement.roots result.2.roots := by
  match statement with
  | .localDeclaration site identifier value =>
      have ofValue := bindRoot_depth scope.binder (List.forall_mem_singleton.mp guarded)
      have declares (type : TypeId) :
          (scope.declareLocal identifier type).TellsDepth [] fun _ => True :=
        .of_speaks (StatementScope.declareLocal_reports.speaks fun _ isCode => isCode) (by decide)
      rw [bindStatement]
      refine ofValue.bind_quiet fun bound own => ?_
      exact (declares bound.type).bind_quiet fun _ _ => .pure own
  | .expression site value | .returnValue site (some value) | .yieldReturn site (some value) =>
      have ofValue := bindRoot_depth scope.binder (List.forall_mem_singleton.mp guarded)
      rw [bindStatement]
      exact ofValue.bind_pure fun bound own => own
  | .returnValue site none | .yieldBreak site =>
      rw [bindStatement]
      exact .pure .nil
  | .yieldReturn site none => exact isAt.elim
  | .doWhile site bodySite body condition =>
      rw [Statement.roots, List.forall_mem_append, List.forall_mem_singleton] at guarded
      have ofBody := bindStatements_depth (.start scope.binder) body isAt.2.2.1 guarded.1
      have ofCondition := bindRoot_depth scope.binder guarded.2
      rw [bindStatement, Statement.roots, List.flatMap_append]
      exact ofBody.bind fun boundBody own => ofCondition.bind_pure fun bound ofBound =>
        List.rel_append own ofBound
  | .block site statements =>
      have inner := bindStatements_depth (.start scope.binder) statements isAt.2 guarded
      rw [bindStatement]
      exact inner.bind_pure fun bound own => own

/-- About depth, binding statements reports their roots that are too deep. -/
theorem bindStatements_depth (scope : StatementScope) (statements : List Statement)
    (areAt : Statement.AllAt tree damaged statements)
    (guarded : ∀ root ∈ Statement.allRoots statements, root.Guarded) :
    (bindStatements scope statements).TellsDepth
      ((Statement.allRoots statements).flatMap depthReports) fun bound =>
        List.Forall₂ BoundAs (Statement.allRoots statements) (rootsOfStatements bound) := by
  match statements with
  | [] =>
      rw [bindStatements]
      exact .pure .nil
  | statement :: rest =>
      rw [Statement.allRoots, List.forall_mem_append] at guarded
      rw [bindStatements, Statement.allRoots, List.flatMap_append]
      refine .speaks_bind (StatementScope.enter_reports.speaks fun _ isCode => isCode) (by decide)
        fun entered => ?_
      have first := bindStatement_depth entered statement areAt.1 guarded.1
      refine first.bind fun result own => ?_
      have others := bindStatements_depth (result.1.after result.2) rest areAt.2 guarded.2
      exact others.bind_pure fun bound ofRest => List.rel_append own ofRest

end

/-- About depth, binding a file reports its roots that are too deep. -/
theorem bindFile_depth (binder : Binder) {list : StatementList}
    (isRead : StatementList.ofTree tree = .ok list) (isAt : list.At tree damaged .compilationUnit)
    (guarded : ∀ root ∈ list.roots, root.Guarded) :
    (bindFile binder tree).TellsDepth (list.roots.flatMap depthReports)
      fun block => List.Forall₂ BoundAs list.roots block.roots := by
  refine Tells.bind_lift fun _ _ => Tells.bind_lift fun read readEq => ?_
  cases readEq.symm.trans isRead
  exact (bindStatements_depth (.start binder) list.statements isAt.statements guarded).bind_pure
    fun bound own => own

theorem SemanticModel.bind_depth {model : SemanticModel} (unbound : model.bound = none)
    {list : StatementList} (isRead : StatementList.ofTree model.tree = .ok list)
    (isAt : list.At model.tree damaged .compilationUnit)
    (guarded : ∀ root ∈ list.roots, root.Guarded) (isCancelled : Bool) :
    (model.bind isCancelled).Yields fun result =>
      (result.1.diagnostics.filter fun diagnostic =>
        [DiagnosticMessage.tooDeeplyNested.code].contains diagnostic.code).Perm
          (list.roots.flatMap depthReports) ∧
        List.Forall₂ BoundAs list.roots result.1.block.roots := by
  rw [SemanticModel.bind, unbound]
  refine .next fun before => ?_
  refine (Binding.Tells.collecting (bindFile_depth _ isRead isAt guarded)).yields.bind ?_
  rintro ⟨block, diagnostics⟩ ⟨reported, told, rfl⟩
  exact .next fun _ => .pure told

/-! ### The roots of a tree -/

theorem Kind.needsToken_of_isExpression {kind : Kind} (isExpression : kind.isExpression = true)
    (moreThanName : kind ≠ .identifierName) : kind.needsToken = true := by
  cases kind with
  | identifierName => exact absurd rfl moreThanName
  | numericLiteralExpression | stringLiteralExpression | trueLiteralExpression
  | falseLiteralExpression | parenthesizedExpression | memberAccessExpression
  | invocationExpression | binaryExpression | queryExpression => rfl
  | _ => cases isExpression

/-- A report says that a node is too deep, at the first token that a walk from the node comes to and
that is not missing. -/
def SyntaxTree.ReportsDepth (tree : SyntaxTree) (diagnostic : Diagnostic) (node : NodeId) : Prop :=
  ∃ below first token, tree.Walks (.node node) below ∧
    (below.filterMap Element.token?).find? tree.isPresent = some first ∧
    tree.tokens[first]? = some token ∧
    diagnostic = .located (tree.location token.span) .tooDeeplyNested []

/-- The root is read at its node, and is what the tree says there. -/
structure RootExpr.Stands (tree : SyntaxTree) (damaged : Prop) (root : RootExpr) : Prop where
  isRead : root.IsRead tree
  isAt : root.At tree damaged

namespace RootExpr.Stands

variable {file : ParseTree} {root : RootExpr} (stands : root.Stands tree damaged)

include stands

theorem isTooDeep_iff :
    tree.IsTooDeep root.site.node ↔ ∃ reported, root = .tooDeep root.site reported := by
  refine ⟨fun isDeep => ?_, ?_⟩
  · obtain ⟨reported, same, _⟩ := stands.isRead.exists_tooDeep isDeep
    exact ⟨reported, same⟩
  · rintro ⟨reported, same⟩
    have isAt := stands.isAt
    rw [same] at isAt
    exact SyntaxTree.isTooDeep_iff.mpr isAt.1

theorem guarded : root.Guarded := by
  rintro expr rfl
  have notDeep : ¬tree.IsTooDeep expr.site.node := by
    intro isDeep
    obtain ⟨_, same⟩ := stands.isTooDeep_iff.mp isDeep
    cases same
  exact stands.isAt.within (Nat.le_refl _)
    (Bool.eq_false_iff.mpr fun reaches => notDeep (SyntaxTree.isTooDeep_iff.mpr reaches))

/-- Something too deep has a token of the source, as names are not deep. -/
theorem reportsDepth (shows : tree.Shows damaged file) (sourced : file.Sourced)
    (isDeep : tree.IsTooDeep root.site.node) :
    ∃ diagnostic, root.depthReports = [diagnostic] ∧
      tree.ReportsDepth diagnostic root.site.node := by
  obtain ⟨reported, same, isFirst⟩ := stands.isRead.exists_tooDeep isDeep
  have isAt := stands.isAt
  rw [same] at isAt ⊢
  obtain ⟨_, kind, kindEq, isExpression, moreThanName⟩ := isAt
  obtain ⟨first, token, firstEq, isToken, _⟩ := shows.exists_firstToken sourced kindEq
    (Kind.needsToken_of_isExpression isExpression moreThanName)
  obtain ⟨node, found, _⟩ := SyntaxTree.node_eq_ok kindEq
  obtain ⟨below, walks⟩ := shows.ordered.walks _ (Array.getElem?_eq_some_iff.mp found).1
  have reached := (shows.ordered.first_below _ below walks).symm.trans firstEq
  rw [isFirst first token firstEq isToken]
  exact ⟨_, rfl, below, first, token, walks, Except.ok.inj reached, isToken, rfl⟩

end RootExpr.Stands

variable {roots : List RootExpr} (stand : ∀ root ∈ roots, root.Stands tree damaged)

include stand

/-- The reports on roots are those on the roots that are too deep, one for each. -/
theorem depthReports_tell {file : ParseTree} (shows : tree.Shows damaged file)
    (sourced : file.Sourced) :
    List.Forall₂ tree.ReportsDepth (roots.flatMap depthReports)
      ((roots.map (·.site.node)).filter (tree.exceedsDepth · maxExpressionDepth)) := by
  induction roots with
  | nil => exact .nil
  | cons root rest ih =>
      rw [List.forall_mem_cons] at stand
      rw [List.flatMap_cons, List.map_cons]
      by_cases isDeep : tree.exceedsDepth root.site.node maxExpressionDepth = true
      · obtain ⟨diagnostic, reports, tells⟩ := stand.1.reportsDepth shows sourced
          (SyntaxTree.isTooDeep_iff.mpr isDeep)
        rw [reports, List.filter_cons, if_pos isDeep]
        exact .cons tells (ih stand.2)
      · have noReports : root.depthReports = [] := by
          cases root with
          | tooDeep site reported =>
              exact absurd (SyntaxTree.isTooDeep_iff.mp (stand.1.isTooDeep_iff.mpr ⟨_, rfl⟩)) isDeep
          | expression expr => rfl
        rw [noReports, List.filter_cons, if_neg isDeep]
        exact ih stand.2

/-- Roots that are too deep are bound to something bad with nothing inside. -/
theorem boundAs_bad {bound : List BoundExpr} (boundAs : List.Forall₂ BoundAs roots bound) :
    List.Forall₂ (fun node bound => tree.IsTooDeep node → bound = .bad node [])
      (roots.map (·.site.node)) bound := by
  induction boundAs with
  | nil => exact .nil
  | @cons root own rest others isOwn _ ih =>
      rw [List.forall_mem_cons] at stand
      refine .cons (fun isDeep => ?_) (ih stand.2)
      obtain ⟨reported, same⟩ := stand.1.isTooDeep_iff.mp isDeep
      rw [same] at isOwn
      exact isOwn

omit stand

/-- At a node is an expression that is bound with no more activations inside of one another than the
limit and one, and nothing that is in it, such as the body of a conclusion, is reported as too deep
however it is bound. -/
def SyntaxTree.BindsWithin (tree : SyntaxTree) (node : NodeId) : Prop :=
  ∃ expr, RootExpr.ofNode tree node = .ok (.expression expr) ∧
    (∀ binder, bindExprWithin (maxExpressionDepth + 1) binder expr = bindExpr binder expr) ∧
    ∀ part : RootExpr, part.PartOf (.expression expr) → ∀ binder,
      (bindRoot binder part).Tells fun reported _ => ∀ diagnostic ∈ reported,
        diagnostic.code ≠ DiagnosticMessage.tooDeeplyNested.code

theorem RootExpr.Stands.bindsWithin {expr : Expr}
    (stands : (RootExpr.expression expr).Stands tree damaged) :
    tree.BindsWithin expr.site.node := by
  have within := stands.guarded expr rfl
  refine ⟨expr, stands.isRead, within.boundAlike, fun part isPart binder => ?_⟩
  obtain ⟨fewer, own⟩ := within.part isPart
  refine Tells.mono (own.speaks binder) fun reported _ codes diagnostic isReported isCode => ?_
  have notDepth : DiagnosticMessage.tooDeeplyNested.code ∉ activationCodes := by decide
  exact notDepth (isCode ▸ codes diagnostic isReported)

/-- What a bound file says about depth, where these are the roots of its tree, those of them that
are too deep, and the reports on these. -/
structure SyntaxTree.GuardsDepth (tree : SyntaxTree) (unit : BoundUnit) (roots deep : List NodeId)
    (reports : Diagnostics) : Prop where
  roots_nodup : roots.Nodup
  mem_roots_iff : ∀ node, node ∈ roots ↔ tree.IsRoot node
  deep_nodup : deep.Nodup
  mem_deep_iff : ∀ node, node ∈ deep ↔ tree.IsRoot node ∧ tree.IsTooDeep node
  /-- The reports are all that is said about depth. -/
  reported :
    (unit.diagnostics.filter (·.code == DiagnosticMessage.tooDeeplyNested.code)).Perm reports
  /-- There is one report for each root that is too deep. -/
  reports_deep : List.Forall₂ tree.ReportsDepth reports deep
  /-- A root that is too deep is bound to something bad with nothing inside. -/
  bound_bad : List.Forall₂ (fun node bound => tree.IsTooDeep node → bound = .bad node [])
    roots unit.block.roots
  bindsWithin : ∀ node, tree.IsRoot node → ¬tree.IsTooDeep node → tree.BindsWithin node

namespace SyntaxTree.GuardsDepth

variable {unit : BoundUnit} {nodes deep : List NodeId} {reports : Diagnostics} {node : NodeId}
  (guards : tree.GuardsDepth unit nodes deep reports)

include guards

/-- A root that is too deep is among those that are, and is reported. -/
theorem exists_report (isRoot : tree.IsRoot node) (isDeep : tree.IsTooDeep node) :
    node ∈ deep ∧ ∃ report ∈ unit.diagnostics, tree.ReportsDepth report node := by
  have isMember := (guards.mem_deep_iff node).mpr ⟨isRoot, isDeep⟩
  obtain ⟨before, report, after, reportsEq, tells⟩ :=
    exists_split_of_forall₂ guards.reports_deep.flip isMember
  have isReport : report ∈ reports := by simp [reportsEq]
  exact ⟨isMember, report, List.mem_of_mem_filter (guards.reported.mem_iff.mpr isReport), tells⟩

/-- Where nothing is too deep, nothing is reported. -/
theorem eq_nil_of_shallow
    (shallow : ∀ node < tree.nodes.size, tree.exceedsDepth node maxExpressionDepth = false) :
    deep = [] ∧ reports = [] := by
  have noneDeep : deep = [] := by
    refine List.eq_nil_iff_forall_not_mem.mpr fun node isMember => ?_
    obtain ⟨⟨⟨kind, kindEq, _⟩, _⟩, tooDeep⟩ := (guards.mem_deep_iff node).mp isMember
    obtain ⟨_, found, _⟩ := SyntaxTree.node_eq_ok kindEq
    have fits := shallow node (Array.getElem?_eq_some_iff.mp found).1
    rw [SyntaxTree.isTooDeep_iff.mp tooDeep] at fits
    cases fits
  have related := guards.reports_deep
  rw [noneDeep, List.forall₂_nil_right_iff] at related
  exact ⟨noneDeep, related⟩

end SyntaxTree.GuardsDepth

namespace Compilation

/-- A file is bound, and then the reports on depth correspond one to one to those expressions right
inside of statements that something lies too deep below, each at the first token of the expression
that is not missing. Such an expression is bound to something bad with nothing inside. In every
other one the activations of binding that are inside of one another are no more than the limit and
one, and nothing in it is reported as too deep. -/
theorem SetUp.depth_guarded {compilation : Compilation} (setUp : compilation.SetUp)
    (provides : compilation.Provides (· < compilation.types.size)) {file : FileId}
    {source : SourceFile} {model : SemanticModel}
    (isModel : compilation.modelOf file source = .ok model) :
    ∃ roots deep reports unit bound after,
      compilation.run (model.bind false) = (.ok ((unit, bound), []), after) ∧
      model.tree.GuardsDepth unit roots deep reports := by
  obtain ⟨unit, bound, after, ran⟩ := setUp.runs_bind provides isModel
  obtain ⟨unbound, _, wellFormed⟩ := modelOf_gives isModel
  obtain ⟨damaged, shape, shows, _, sourced⟩ := modelOf_shows isModel
  obtain ⟨list, isRead, isRoot, isAt⟩ := StatementList.ofTree_gives shows.wellFormed
  have areRead := StatementList.roots_areRead list isRead
  have areAt := Statement.allRoots_at list.statements isAt.statements
  have stand : ∀ root ∈ list.roots, root.Stands model.tree damaged := fun root isOwn =>
    ⟨areRead root isOwn, areAt root isOwn⟩
  obtain ⟨nodup, mem_iff⟩ := StatementList.mem_roots_iff shows.wellFormed isRoot isAt
  obtain ⟨told, boundAs⟩ := (SemanticModel.bind_depth unbound isRead isAt
    (fun root isOwn => (stand root isOwn).guarded) false).of_run ran
  refine ⟨list.roots.map (·.site.node), _, _, unit, bound, after, ran, nodup, mem_iff,
    nodup.filter _, fun node => ?_, ?_, depthReports_tell stand shows sourced,
    boundAs_bad stand boundAs, fun node isRootNode notDeep => ?_⟩
  · rw [List.mem_filter, mem_iff, SyntaxTree.isTooDeep_iff]
  · simpa only [List.contains_cons, List.contains_nil, Bool.or_false] using told
  · obtain ⟨root, isOwn, rfl⟩ := List.mem_map.mp ((mem_iff node).mpr isRootNode)
    obtain ⟨expr, rfl⟩ := (areRead root isOwn).exists_expression notDeep
    exact (stand _ isOwn).bindsWithin

/-- A file with five roots, one of them a query whose conclusion has a body, where none is too deep,
and a file with a sum of so many numbers that it is. -/
theorem depth_guarded_sums :
    let sums := "var x = 1; do \x7b x; \x7d while true; " ++
      "from n in numbers select n yield into r do r; return x;"
    let deepSum := "1".toList ++ (List.replicate 501 "+1".toList).flatten ++ "; return 1;".toList
    ∃ compilation,
      ofOptions ⟨["queryConclusions"], none, [("numbers", "seq<int>")], by decide⟩ =
        .ok compilation ∧
      (∃ model roots unit bound after,
        compilation.modelOf 0 ⟨"main", ⟨sums.toList, by decide +kernel⟩⟩ = .ok model ∧
        compilation.run (model.bind false) = (.ok ((unit, bound), []), after) ∧
        model.tree.GuardsDepth unit roots [] [] ∧ roots.length = 5) ∧
      ∃ model roots deep reports unit bound after,
        compilation.modelOf 1 ⟨"sum", ⟨deepSum, by decide +kernel⟩⟩ = .ok model ∧
        compilation.run (model.bind false) = (.ok ((unit, bound), []), after) ∧
        model.tree.GuardsDepth unit roots deep reports ∧
        ∃ node ∈ deep, ∃ report ∈ unit.diagnostics, model.tree.ReportsDepth report node := by
  intro shallowText deepText
  let shallowSource : SourceFile := ⟨"main", ⟨shallowText.toList, by decide +kernel⟩⟩
  let deepSource : SourceFile := ⟨"sum", ⟨deepText, by decide +kernel⟩⟩
  let options : CompilerOptions :=
    ⟨["queryConclusions"], none, [("numbers", "seq<int>")], by decide⟩
  have isMade : (ofOptions options).isOk := by decide +kernel
  obtain ⟨compilation, made⟩ := Checked.exists_ok_of_isOk isMade
  have provides := (ofOptions_gives made).2.mono fun _ has => has.1
  refine ⟨compilation, made, ?_, ?_⟩
  · have isScanned : (scanText 0 shallowSource.text).isOk := by decide +kernel
    have evaluated :
        ∀ compilation ∈ (ofOptions options).toOption,
        ∀ model ∈ (compilation.modelOf 0 shallowSource).toOption,
        ∀ result ∈ (compilation.run (model.bind false)).1.toOption,
          result.1.1.block.roots.length = 5 ∧
            ∀ node < model.tree.nodes.size,
              model.tree.exceedsDepth node maxExpressionDepth = false := by
      decide +kernel
    obtain ⟨scanned, scans⟩ := Checked.exists_ok_of_isOk isScanned
    obtain ⟨model, isModel⟩ := modelOf_eq_ok compilation scans
    obtain ⟨roots, deep, reports, unit, bound, after, ran, guards⟩ :=
      SetUp.depth_guarded (.ofOptions made) provides isModel
    obtain ⟨count, shallow⟩ := evaluated compilation (by rw [made]; rfl) model
      (by rw [isModel]; rfl) _ (by rw [ran]; rfl)
    obtain ⟨rfl, rfl⟩ := guards.eq_nil_of_shallow shallow
    exact ⟨model, roots, unit, bound, after, isModel, ran, guards,
      guards.bound_bad.length_eq.trans count⟩
  · have isScanned : (scanText 1 deepSource.text).isOk := by decide +kernel
    -- binding so deep a tree is too much to compute, but not what it has been parsed from
    have evaluated :
        ∀ compilation ∈ (ofOptions options).toOption,
        ∀ scanned ∈ (scanText 1 deepSource.text).toOption,
          let file := (parseTokens 1 compilation.features scanned).shape
          file.kind? = some .compilationUnit ∧
            ∃ statement ∈ file.children, statement.kind?.any Kind.isStatement = true ∧
              ∃ sum ∈ statement.children, sum.kind?.any Kind.isExpression = true ∧
                maxExpressionDepth + 1 < sum.height := by
      decide +kernel
    obtain ⟨scanned, scans⟩ := Checked.exists_ok_of_isOk isScanned
    obtain ⟨isFile, statement, isOwn, isStatement, sum, isChild, isExpression, high⟩ :=
      evaluated compilation (by rw [made]; rfl) scanned (by rw [scans]; rfl)
    have isModel := modelOf_eq compilation scans
    obtain ⟨roots, deep, reports, unit, bound, after, ran, guards⟩ :=
      SetUp.depth_guarded (.ofOptions made) provides isModel
    have isPart := ParseTree.PartOf.refl.of_child (ParseTree.isNode_of_kind isFile) isOwn
    obtain ⟨node, isRoot, isDeep⟩ := (ParseTree.holds_toTree _).exists_tooDeep isPart isStatement
      isChild isExpression high
    obtain ⟨isMember, isReported⟩ := guards.exists_report isRoot isDeep
    exact ⟨_, roots, deep, reports, unit, bound, after, isModel, ran, guards, node, isMember,
      isReported⟩

end Compilation

end QueryLang
