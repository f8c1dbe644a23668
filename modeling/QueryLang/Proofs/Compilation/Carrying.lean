import QueryLang.Proofs.Binding.Carrying
import QueryLang.Proofs.Compilation.Occurrence
import QueryLang.Proofs.Compilation.Undeclared

/-!
# Conclusions and their lambdas

In a file that is bound, every name that refers to a conclusion stands for the parameter of that
conclusion's lambda, at any depth and whatever other conclusions have the same name.
-/

namespace QueryLang

/-- A name refers to a declaration: to the innermost of those that its node sees and that have the
name. -/
structure SyntaxTree.RefersTo (tree : SyntaxTree) (node declaration : NodeId) : Prop where
  isName : tree.kind node = .ok .identifierName
  innermost : ∃ name inner outer, tree.Names node name ∧
    tree.VisibleAt node (inner ++ declaration :: outer) ∧ tree.Names declaration name ∧
    ∀ other ∈ inner, ¬tree.Names other name

/-- What is carried by the lambda of a conclusion stands for the variable that the conclusion
declares. -/
theorem BoundExpr.CarriedAt.site {expr : BoundExpr} {table : TypeTable} {parts : List BoundPart}
    {node : NodeId} (carried : expr.CarriedAt table parts node) :
    ∃ own, expr.symbol? = some own ∧ (node, own) ∈ declarationSites parts := by
  rcases carried with ⟨query, clauses, own, type, lambda, bodyNode, value, diagnostics, queryType,
    parameter, isPart, _, _, isCarried⟩
  refine ⟨own, by rw [isCarried.isReference]; rfl, List.mem_flatMap.mpr ⟨_, isPart, ?_⟩⟩
  simp [BoundPart.sites, BoundConclusion.site?]

namespace BoundUnit.IsOf

variable {unit : BoundUnit} {tree : SyntaxTree} {damaged : Prop} {globals : List Symbol}
  {node other : NodeId} {symbol : Symbol} {expr : BoundExpr}

variable (isOf : unit.IsOf tree damaged globals)

include isOf

/-- A symbol is declared at one node. -/
theorem site_node_unique (isSite : (node, symbol) ∈ declarationSites unit.parts)
    (isOther : (other, symbol) ∈ declarationSites unit.parts) : node = other := by
  rcases isOf.site_identifier isSite with ⟨id, token, own, location⟩
  rcases isOf.site_identifier isOther with ⟨otherId, otherToken, otherOwn, otherLocation⟩
  have sameSpan : token.span = otherToken.span :=
    congrArg Location.span (Option.some.inj (location.symm.trans otherLocation))
  have touches : token.span.IsTouchedBy token.span.start := ⟨Nat.le_refl _, Nat.le_add_right _ _⟩
  have same := isOf.laidOut.identifier_unique own.isIdentifier otherOwn.isIdentifier touches
    (sameSpan ▸ touches)
  subst same
  cases own.isIdentifier.isToken.symm.trans otherOwn.isIdentifier.isToken
  rw [← own.parent_eq, otherOwn.parent_eq]

/-- A name that refers to a declaration stands for the symbol that is declared there. -/
theorem symbol_of_refersTo (isPart : .expression expr ∈ unit.parts)
    (refers : tree.RefersTo expr.node node) :
    ∃ own, expr.symbol? = some own ∧ (node, own) ∈ declarationSites unit.parts := by
  rcases refers.innermost with ⟨name, inner, outer, names, sees, isNamed, noneInside⟩
  rcases isOf.resolved _ isPart refers.isName name names with ⟨visible, seesOther, resolves⟩
  cases sees.unique isOf.wellFormed seesOther
  generalize isFound : expr.symbol? = found at resolves
  cases resolves with
  | innermost split isOther noneBefore isDeclared =>
      cases innermost_unique rfl isNamed noneInside split isOther noneBefore
      exact ⟨_, rfl, isDeclared⟩
  | host noneVisible decides => exact absurd isNamed (noneVisible node (by simp))

/-- Where the symbol of a name is declared, the name refers to. -/
theorem refersTo_of_symbol (isPart : .expression expr ∈ unit.parts)
    (isSymbol : expr.symbol? = some symbol) (isVariable : symbol.kind = .queryConclusionVariable) :
    ∃ declaration, tree.RefersTo expr.node declaration ∧
      tree.kind declaration = .ok .queryConclusion := by
  have isMark : (expr.node, symbol) ∈ unit.references :=
    mem_references.mpr ⟨expr, isPart, rfl, isSymbol⟩
  have isReference := isOf.isReference isMark
  rcases isReference.names with ⟨name, names⟩
  rcases isOf.resolvesTo isMark names with ⟨visible, sees, resolves⟩
  generalize isFound : some symbol = found at resolves
  cases resolves with
  | @innermost inner outer declaration own split isNamed noneInside isDeclared =>
      cases isFound
      subst split
      refine ⟨declaration, ⟨isReference.kind_eq, name, inner, outer, names, sees, isNamed,
        noneInside⟩, ?_⟩
      exact (isOf.places.declares _ isDeclared).conclusion.mpr isVariable
  | host noneVisible decides =>
      have isField := (Option.filter_eq_some_iff.mp isFound.symm).2
      rw [isVariable] at isField
      cases isField

/-- A name that refers to a conclusion is carried by the conclusion's lambda. -/
theorem carriedAt {table : TypeTable} (carried : Carried table [] unit.parts)
    (isPart : .expression expr ∈ unit.parts) (refers : tree.RefersTo expr.node node)
    (isConclusion : tree.kind node = .ok .queryConclusion) :
    expr.CarriedAt table unit.parts node := by
  rcases isOf.symbol_of_refersTo isPart refers with ⟨own, isSymbol, isSite⟩
  have isVariable := (isOf.places.declares _ isSite).conclusion.mp isConclusion
  rcases carried expr isPart with ⟨home, isCarried⟩ | isKnown
  · rcases isCarried.site with ⟨same, isSame, isHome⟩
    cases isSymbol.symm.trans isSame
    rwa [isOf.site_node_unique isSite isHome]
  · rcases isKnown own isSymbol isVariable with ⟨scope, isScope, _⟩
    cases isScope

end BoundUnit.IsOf

theorem SemanticModel.bind_settles {model : SemanticModel} {globals : List Symbol}
    (unbound : model.bound = none) (isRoot : model.binder.scopes = [.global globals])
    (isCancelled : Bool) :
    (model.bind isCancelled).Settles fun table result => Carried table [] result.1.parts := by
  have knows : Binder.Knows { model.binder with isCancelled } [] := by
    refine ⟨?_, by simp⟩
    rw [Binder.conclusions, isRoot]
    rfl
  rw [SemanticModel.bind, unbound]
  refine .quiet_bind (Binding.get_silent : Binding.ReportsOnly get []) .anyResult fun before _ => ?_
  refine (bindFile_settles knows).collecting.bind ?_
  rintro ⟨block, diagnostics⟩ -
  intro state value after ran
  cases ran
  exact ⟨.refl, fun table _ => id⟩

namespace Compilation

/-- The file of a model is parsed, so what binding gives is a unit of its tree. -/
theorem SetUp.bind_isOf {compilation : Compilation} (setUp : compilation.SetUp) {file : FileId}
    {source : SourceFile} {model : SemanticModel}
    (isModel : compilation.modelOf file source = .ok model) :
    (model.bind false).Yields fun result => result.1.IsOf model.tree
      (Diagnostics.hasErrors model.parseDiagnostics = true) compilation.globals := by
  rcases modelOf_gives isModel with ⟨unbound, isRoot, wellFormed⟩
  rcases Checked.bind_eq_ok_iff.mp isModel with ⟨parsed, isParsed, isPure⟩
  rcases exists_scanned_of_parseText isParsed with ⟨scanned, scans, rfl⟩
  cases isPure
  exact SemanticModel.bind_isOf setUp.sound.kinds unbound rfl wellFormed
    (orderedTree_of_scanText scans) (laidOut_of_scanText scans) false

/-- A file is bound, and then every name that refers to a conclusion stands for the only parameter
of the lambda that is made for that conclusion. Only such names stand for variables of conclusions.
So it is never reported that one is out of scope. -/
theorem SetUp.conclusions_carried {compilation : Compilation} (setUp : compilation.SetUp)
    (provides : compilation.Provides (· < compilation.types.size)) {file : FileId}
    {source : SourceFile} {model : SemanticModel}
    (isModel : compilation.modelOf file source = .ok model) :
    ∃ unit bound after, compilation.run (model.bind false) = (.ok ((unit, bound), []), after) ∧
      (∀ expr, .expression expr ∈ unit.parts → ∀ declaration,
        model.tree.RefersTo expr.node declaration →
        model.tree.kind declaration = .ok .queryConclusion →
          expr.CarriedAt after.types unit.parts declaration) ∧
      (∀ expr, .expression expr ∈ unit.parts → ∀ own ∈ expr.symbol?,
        own.kind = .queryConclusionVariable → ∃ declaration,
          model.tree.RefersTo expr.node declaration ∧
            model.tree.kind declaration = .ok .queryConclusion) ∧
      ∀ diagnostic ∈ unit.diagnostics,
        diagnostic.code ≠ DiagnosticMessage.conclusionOutOfScope.code := by
  rcases setUp.runs_bind provides isModel with ⟨unit, bound, after, ran⟩
  rcases modelOf_gives isModel with ⟨unbound, isRoot, wellFormed⟩
  have root : model.binder.scopes = [.global compilation.globals] := congrArg Binder.scopes isRoot
  have isOf := (setUp.bind_isOf isModel).of_run ran
  rcases run_eq_ok ran with ⟨state, ranStep, afterEq⟩
  have settles := SemanticModel.bind_settles unbound root false
  have carried : Carried after.types [] unit.parts := by
    rw [afterEq]
    exact (settles _ _ _ ranStep).2 _ .refl
  rcases StatementList.ofTree_gives wellFormed with ⟨list, isRead, _⟩
  have told := (SemanticModel.bind_tells setUp.sound.kinds unbound root isRead).of_run ran
  refine ⟨unit, bound, after, ran, ?_, ?_, (NameUse.filter_of_isAboutScope told).2⟩
  · intro expr isPart declaration refers isConclusion
    exact isOf.carriedAt carried isPart refers isConclusion
  · intro expr isPart own isSymbol isVariable
    exact isOf.refersTo_of_symbol isPart isSymbol isVariable

/-- Whether a part is an expression that stands for the variable of a conclusion. -/
def isConclusionVariable : BoundPart → Bool
  | .expression expr => expr.symbol?.any (·.kind == .queryConclusionVariable)
  | .block _ | .statement _ => false

/-- A conclusion in a conclusion, whose variables have one name. -/
theorem conclusions_carried_nested :
    let text := "from n in numbers select n yield into r do from n in r select n yield into r do r;"
    ∃ compilation model unit bound after expr declaration,
      ofOptions ⟨["queryConclusions"], none, [("numbers", "seq<int>")], by decide⟩ =
        .ok compilation ∧
      compilation.modelOf 0 ⟨"main", ⟨text.toList, by decide +kernel⟩⟩ = .ok model ∧
      compilation.run (model.bind false) = (.ok ((unit, bound), []), after) ∧
      .expression expr ∈ unit.parts ∧ model.tree.RefersTo expr.node declaration ∧
      expr.CarriedAt after.types unit.parts declaration := by
  intro text
  let source : SourceFile := ⟨"main", ⟨text.toList, by decide +kernel⟩⟩
  have isMade :
      (ofOptions ⟨["queryConclusions"], none, [("numbers", "seq<int>")], by decide⟩).isOk := by
    decide +kernel
  have isScanned : (scanText 0 source.text).isOk := by decide +kernel
  have hasVariable :
      ∀ compilation ∈
        (ofOptions ⟨["queryConclusions"], none, [("numbers", "seq<int>")], by decide⟩).toOption,
      ∀ model ∈ (compilation.modelOf 0 source).toOption,
      ∀ bound ∈ (compilation.run (model.bind false)).1.toOption,
        bound.1.1.parts.any isConclusionVariable = true := by
    decide +kernel
  rcases Checked.exists_ok_of_isOk isMade with ⟨compilation, made⟩
  rcases Checked.exists_ok_of_isOk isScanned with ⟨scanned, scans⟩
  have provides := (ofOptions_gives made).2.mono fun _ has => has.1
  rcases modelOf_eq_ok compilation scans with ⟨model, isModel⟩
  rcases SetUp.conclusions_carried (.ofOptions made) provides isModel with
    ⟨unit, bound, after, ran, carried, refers, _⟩
  rcases List.any_eq_true.mp (hasVariable compilation (by rw [made]; rfl) model
    (by rw [isModel]; rfl) ((unit, bound), []) (by rw [ran]; rfl)) with ⟨part, isPart, isVariable⟩
  cases part with
  | block node | statement inner => cases isVariable
  | expression expr =>
      cases symbolEq : expr.symbol? with
      | none => simp [isConclusionVariable, symbolEq] at isVariable
      | some own =>
          have isKind : own.kind = .queryConclusionVariable := by
            simpa [isConclusionVariable, symbolEq] using isVariable
          rcases refers expr isPart own symbolEq isKind with ⟨declaration, refersTo, isConclusion⟩
          exact ⟨compilation, model, unit, bound, after, expr, declaration, made, isModel, ran,
            isPart, refersTo, carried expr isPart declaration refersTo isConclusion⟩

end Compilation

end QueryLang
