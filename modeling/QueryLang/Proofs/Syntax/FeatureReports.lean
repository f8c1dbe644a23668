import QueryLang.Proofs.Diagnostic.Sorting
import QueryLang.Proofs.Lists
import QueryLang.Proofs.Syntax.Holding
import QueryLang.Proofs.Syntax.ParserAgreement
import QueryLang.Proofs.Syntax.Parsing

/-!
# Features that are off

Whichever features are on, a text is parsed as the same tree. What is reported differs only in one
report for every optional construct that is off, at the first token of its node.
-/

namespace QueryLang

/-! ### Two sets of features -/

/-- States of parsing that are the same apart from the features and the reports on them. -/
structure ParseState.SameButFeatures (state twin : ParseState) : Prop where
  same : state = { twin with features := state.features, diagnostics := state.diagnostics }
  diagnostics : state.diagnostics.filter (!·.isOnFeature) =
    twin.diagnostics.filter (!·.isOnFeature)

namespace ParseState.SameButFeatures

variable {state twin : ParseState} (same : state.SameButFeatures twin)

include same

theorem rest : state.rest = twin.rest := by rw [same.same]

theorem endOfFile : state.endOfFile = twin.endOfFile := by rw [same.same]

theorem currentToken : state.currentToken = twin.currentToken := by
  rw [ParseState.currentToken, ParseState.currentToken, same.rest, same.endOfFile]

theorem advance (consumed rest : List Token) :
    (state.advance consumed rest).SameButFeatures (twin.advance consumed rest) := by
  refine ⟨?_, same.diagnostics⟩
  rw [same.same]
  rfl

theorem report (span : Span) (message : DiagnosticMessage) (arguments : List String) :
    (state.report span message arguments).SameButFeatures
      (twin.report span message arguments) := by
  have file : state.file = twin.file := by rw [same.same]
  refine ⟨?_, ?_⟩
  · rw [ParseState.report, same.same]
    rfl
  · simp only [ParseState.report, List.filter_append, same.diagnostics, file]

theorem checked (feature : Features) :
    (state.checked feature).SameButFeatures (twin.checked feature) := by
  have unreported (state : ParseState) :
      (state.checked feature).diagnostics.filter (!·.isOnFeature) =
        state.diagnostics.filter (!·.isOnFeature) := by
    rw [ParseState.checked]
    split
    · rfl
    · have onFeature (location : Location) (arguments : List String) :
          Diagnostic.isOnFeature (.located location .featureDisabled arguments) = true := rfl
      simp [ParseState.report, onFeature]
  have unchanged (state : ParseState) : state.checked feature =
      { state with diagnostics := (state.checked feature).diagnostics } := by
    rw [ParseState.checked]
    split
    · rfl
    · rfl
  refine ⟨?_, by rw [unreported, unreported, same.diagnostics]⟩
  rw [unchanged state, unchanged twin, same.same]

end ParseState.SameButFeatures

namespace Parser

/-- No parser goes by the features. -/
theorem kept_features : KeptByParsing ParseState.SameButFeatures Eq where
  current same := congrArg Token.kind same.currentToken
  following same := by rw [ParseState.following, ParseState.following, same.rest, same.endOfFile]
  text same := congrArg Token.text same.currentToken
  length same := congrArg List.length same.rest
  missing _ := rfl
  node children := congrArg (ParseTree.node _) (List.forall₂_eq_eq_eq ▸ children)
  wrapped first rest := congrArg₂ (ParseTree.wrapped _) first (List.forall₂_eq_eq_eq ▸ rest)
  bump := by
    refine .get fun state twin same => ?_
    rw [← same.rest, ← same.endOfFile]
    split
    · exact (Agree.set (same.advance _ _)).bind fun _ _ _ => .pure rfl
    · exact .pure rfl
  reportHere message arguments := .modify fun state twin same => by
    rw [same.currentToken]
    exact same.report _ message arguments
  reportAfterLast message arguments := .modify fun state twin same => by
    have lastEnd : state.lastEnd = twin.lastEnd := by rw [same.same]
    rw [lastEnd]
    exact same.report _ message arguments
  reportTooDeep := by
    refine .get fun state twin same => ?_
    have reported : state.reportedTooDeep = twin.reportedTooDeep := by rw [same.same]
    rw [reported]
    refine .ite (.pure rfl) ?_
    have marks : ∀ state twin : ParseState, state.SameButFeatures twin →
        ({ state with reportedTooDeep := true } : ParseState).SameButFeatures
          { twin with reportedTooDeep := true } := fun state twin same =>
      ⟨by rw [same.same], same.diagnostics⟩
    refine (Agree.modify marks).bind fun _ _ _ => .modify fun state twin same => ?_
    rw [same.currentToken]
    exact same.report _ _ _
  checkFeature feature := fun state twin same =>
    (checkFeature_leads state feature).mono fun _ _ isChecked =>
      (checkFeature_leads twin feature).mono fun _ _ isCheckedToo => by
        subst isChecked isCheckedToo
        exact ⟨rfl, same.checked feature⟩
  looseTokens := by
    refine .get fun state twin same => ?_
    rw [← same.rest]
    refine (Agree.set (same.advance _ _)).bind fun _ _ _ => .pure ?_
    exact List.forall₂_refl _

end Parser

/-- Under two sets of features the tokens of a file have the same shape, and apart from the reports
on features the same is reported. -/
theorem parseTokens_features (file : FileId) (features others : Features) (scanned : ScannedText) :
    (parseTokens file features scanned).shape = (parseTokens file others scanned).shape ∧
      (parseTokens file features scanned).diagnostics.filter (!·.isOnFeature) =
        (parseTokens file others scanned).diagnostics.filter (!·.isOnFeature) := by
  have start : (ParseState.start file features scanned).SameButFeatures
      (.start file others scanned) := ⟨rfl, rfl⟩
  obtain ⟨shapes, finished⟩ := Parser.kept_features.compilationUnit _ _ start
  exact ⟨shapes, finished.diagnostics⟩

/-! ### Nodes -/

namespace SyntaxTree

variable {tree : SyntaxTree} {place : Place} {parent : Option NodeId} {kind : Kind}

/-- Whether a node has a kind. -/
def nodeHasKind (tree : SyntaxTree) (kind : Kind) (id : NodeId) : Bool :=
  tree.nodes[id]?.any (·.kind == kind)

/-- The first token of a node is in the source, and stands where the construct starts. -/
def StartsAs (tree : SyntaxTree) (id : NodeId) (construct : Construct) : Prop :=
  ∀ token others, construct.pieces = .token token :: others →
    ∃ first, tree.firstToken? id = .ok (some first) ∧
      tree.tokenLocation first = .ok ⟨tree.file, token.span⟩

/-- If the first piece of a node is a token, the node starts with it. -/
theorem Holds.opening {shape : ParseTree} {token : Token} {others : List ParseTree} {id : Nat}
    (holds : tree.Holds place parent shape) (isNode : shape.IsNode kind (.token token :: others))
    (isOwn : shape.element place = .node id) :
    tree.firstToken? id = .ok (some place.token) ∧ ∃ owner, tree.tokens[place.token]? =
      some ⟨token.kind, token.span, ParseTree.tokenValue token, false, owner⟩ := by
  obtain ⟨own, ownEq, found, standsFor⟩ := holds.node isNode
  rw [isOwn] at ownEq
  cases ownEq
  have isFirst : (shape.childElements place).head? = some (.token place.token) := by
    rcases isNode with rfl | ⟨first, rest, rfl, sameChildren⟩
    · rfl
    · cases sameChildren
      rfl
  have isToken : ∃ owner, tree.tokens[place.token]? =
      some ⟨token.kind, token.span, ParseTree.tokenValue token, false, owner⟩ := by
    cases children : shape.childElements place with
    | nil =>
      rw [children] at isFirst
      cases isFirst
    | cons child more =>
      rw [children] at isFirst standsFor
      cases isFirst
      cases standsFor with
      | cons standsFor _ =>
        obtain ⟨inner, isInner, innerHolds⟩ := standsFor
        have isInner : place.token = inner.token := Element.token.inj isInner
        exact ⟨_, isInner ▸ innerHolds.token⟩
  have leaves : ∃ count, shape.leafCount = count + 1 := by
    rcases isNode with rfl | ⟨first, rest, rfl, sameChildren⟩
    · exact ⟨_, Nat.add_comm ..⟩
    · cases sameChildren
      exact ⟨_, Nat.add_comm ..⟩
  refine ⟨?_, isToken⟩
  obtain ⟨owner, isToken⟩ := isToken
  obtain ⟨count, leaves⟩ := leaves
  rw [firstToken?, SyntaxTree.node, found]
  simp [leaves, firstRealToken?, isToken]

/-- A node starts with the token that is its first piece. -/
theorem Holds.startsAs {shape : ParseTree} {pieces : List ParseTree} {id : Nat}
    (holds : tree.Holds place parent shape) (isNode : shape.IsNode kind pieces)
    (isOwn : shape.element place = .node id) : tree.StartsAs id ⟨kind, pieces⟩ := by
  rintro token others rfl
  obtain ⟨isFirst, owner, isToken⟩ := holds.opening isNode isOwn
  refine ⟨place.token, isFirst, ?_⟩
  rw [tokenLocation, SyntaxTree.token, isToken]
  rfl

/-- A node that is not a construct of the kind is passed over, and one that is starts as it. -/
theorem Holds.startsAs_own {feature : Features} {own : Kind} {shape : ParseTree}
    {pieces : List ParseTree} {id : Nat} (isOf : kind.feature? = some feature)
    (holds : tree.Holds place parent shape) (isNode : shape.IsNode own pieces)
    (isOwn : shape.element place = .node id) :
    List.Forall₂ tree.StartsAs ([id].filter (tree.nodeHasKind kind))
      ((Construct.ofNode own pieces).filter (·.kind == kind)) := by
  have starts := holds.startsAs isNode isOwn
  obtain ⟨other, otherEq, found, _⟩ := holds.node isNode
  rw [isOwn] at otherEq
  cases otherEq
  have hasKind : tree.nodeHasKind kind id = (own == kind) := by
    rw [nodeHasKind, found]
    rfl
  rw [List.filter_singleton, hasKind, Construct.ofNode]
  by_cases isKind : own = kind
  · subst isKind
    simp [isOf, starts]
  · have notKind : (own == kind) = false := beq_false_of_ne isKind
    split
    · simp [notKind]
    · simp [notKind]

mutual

/-- The nodes of an optional kind that a piece of source has are its constructs of the kind. -/
theorem Holds.startsAs_constructs {feature : Features} (isOf : kind.feature? = some feature)
    {place : Place} {parent : Option NodeId} (shape : ParseTree)
    (holds : tree.Holds place parent shape) :
    List.Forall₂ tree.StartsAs
      ((List.range' place.node shape.nodeCount).filter (tree.nodeHasKind kind))
      (shape.constructs.filter (·.kind == kind)) :=
  match shape with
  | .token _ | .missing _ => .nil
  | .node own children => by
      have opened := holds.startsAs_own isOf (.inl rfl) rfl
      have inside := holds.inside.startsAs_constructs isOf children
      rw [ParseTree.nodeCount, Nat.add_comm, ← List.range'_append_1, List.filter_append,
        ParseTree.constructs, List.filter_append]
      exact List.rel_append opened inside
  | .wrapped own first rest => by
      have opened := holds.startsAs_own isOf (.inr ⟨first, rest, rfl, rfl⟩) rfl
      obtain ⟨firstHolds, inside⟩ := holds.wrapped
      have firstStarts := firstHolds.startsAs_constructs isOf first
      have restStarts := inside.startsAs_constructs isOf rest
      rw [ParseTree.nodeCount, Nat.add_assoc, Nat.add_comm _ 1, ← List.range'_append_1,
        ← List.range'_append_1, List.filter_append, List.filter_append, ParseTree.constructs,
        List.filter_append, List.filter_append]
      exact List.rel_append firstStarts (List.rel_append opened restStarts)

theorem HoldsAll.startsAs_constructs {feature : Features} (isOf : kind.feature? = some feature)
    {place : Place} {parent : NodeId} (shapes : List ParseTree)
    (holds : tree.HoldsAll place parent shapes) :
    List.Forall₂ tree.StartsAs
      ((List.range' place.node (ParseTree.nodeCountAll shapes)).filter (tree.nodeHasKind kind))
      ((ParseTree.constructsOfAll shapes).filter (·.kind == kind)) :=
  match shapes with
  | [] => .nil
  | shape :: others => by
      obtain ⟨first, rest⟩ := holds.cons
      have firstStarts := first.startsAs_constructs isOf shape
      have restStarts := rest.startsAs_constructs isOf others
      rw [ParseTree.nodeCountAll, ← List.range'_append_1, List.filter_append,
        ParseTree.constructsOfAll, List.filter_append]
      exact List.rel_append firstStarts restStarts

end

/-- The report says that a feature is off, at the first token of a node. -/
def ReportsFeature (tree : SyntaxTree) (feature : Features) (id : NodeId) (report : Diagnostic) :
    Prop :=
  ∃ token location, tree.firstToken? id = .ok (some token) ∧
    tree.tokenLocation token = .ok location ∧
    report = .located location .featureDisabled [feature.displayName]

/-- Constructs of one kind are reported at their nodes. -/
theorem reportsFeature_of_startsAs {feature : Features} {ids : List NodeId}
    {constructs : List Construct} {reports : Diagnostics} (isOf : kind.feature? = some feature)
    (ofKind : ∀ construct ∈ constructs, construct.kind = kind)
    (start : List.Forall₂ tree.StartsAs ids constructs)
    (reported : List.Forall₂ (Construct.ReportedAs tree.file) constructs reports) :
    List.Forall₂ (tree.ReportsFeature feature) ids reports := by
  induction start generalizing reports with
  | nil =>
    cases reported
    exact .nil
  | @cons id construct ids constructs startsAs _ ih =>
    cases reported with
    | cons isReported reported =>
      rw [List.forall_mem_cons] at ofKind
      refine .cons ?_ (ih ofKind.2 reported)
      obtain ⟨own, token, others, isOwn, pieces, rfl⟩ := isReported
      rw [ofKind.1, isOf] at isOwn
      cases isOwn
      obtain ⟨first, isFirst, location⟩ := startsAs token others pieces
      exact ⟨first, _, isFirst, location, rfl⟩

end SyntaxTree

/-- The nodes of an optional kind in the tree of a file are its constructs of the kind. -/
theorem ParseTree.startsAs_constructs {shape : ParseTree} {kind : Kind} {feature : Features}
    (isOf : kind.feature? = some feature) (file : FileId) (fileName : String)
    (source : SourceText) (features : Features) :
    List.Forall₂ (shape.toTree file fileName source features).StartsAs
      ((shape.toTree file fileName source features).nodesOfKind kind)
      (shape.constructs.filter (·.kind == kind)) := by
  have holds : (shape.toTree file fileName source features).Holds .start none shape :=
    ⟨⟨[], [], by simp [toTree], rfl⟩, ⟨[], [], by simp [toTree], rfl⟩⟩
  have size : (shape.toTree file fileName source features).nodes.size = shape.nodeCount := by
    rw [toTree, List.size_toArray, length_treeNodes]
  rw [SyntaxTree.nodesOfKind, size, List.range_eq_range']
  exact holds.startsAs_constructs isOf shape

/-! ### Files -/

theorem Features.disables_eq (features : Features) (kind : Kind) :
    features.disables kind = ((kind == .doStatement && !features.doStatements) ||
      (kind == .queryConclusion && !features.queryConclusions)) := by
  rw [disables]
  unfold Kind.feature?
  split
  · simp [enables, onlyQueryConclusions]
  · simp [enables, onlyDoStatements]
  · next notConclusion notStatement =>
    have notConclusion : kind ≠ .queryConclusion := notConclusion
    have notStatement : kind ≠ .doStatement := notStatement
    simp [notConclusion, notStatement]

/-- Of the constructs that are off, the `do` statements are all of them or none, -/
theorem filter_disables_doStatement (features : Features) (constructs : List Construct) :
    (constructs.filter fun construct => features.disables construct.kind).filter
        (·.kind == .doStatement) =
      if features.doStatements then [] else constructs.filter (·.kind == .doStatement) := by
  rw [List.filter_filter]
  split
  · next isOn =>
    refine List.filter_eq_nil_iff.mpr fun construct _ => ?_
    rw [Features.disables_eq, isOn]
    cases isStatement : construct.kind == .doStatement with
    | false => simp
    | true => simp [eq_of_beq isStatement]
  · next isOff =>
    refine List.filter_congr fun construct _ => ?_
    rw [Bool.not_eq_true] at isOff
    rw [Features.disables_eq, isOff]
    cases isStatement : construct.kind == .doStatement with
    | false => simp
    | true => simp

/-- and so are the query conclusions, which are the others. -/
theorem filter_disables_queryConclusion (features : Features) (constructs : List Construct) :
    (constructs.filter fun construct => features.disables construct.kind).filter
        (!·.kind == .doStatement) =
      if features.queryConclusions then []
      else constructs.filter (·.kind == .queryConclusion) := by
  rw [List.filter_filter]
  split
  · next isOn =>
    refine List.filter_eq_nil_iff.mpr fun construct _ => ?_
    rw [Features.disables_eq, isOn]
    cases isStatement : construct.kind == .doStatement with
    | false => simp
    | true => simp
  · next isOff =>
    refine List.filter_congr fun construct _ => ?_
    rw [Bool.not_eq_true] at isOff
    rw [Features.disables_eq, isOff]
    cases isStatement : construct.kind == .doStatement with
    | false => simp
    | true => simp [eq_of_beq isStatement]

/-- Where a feature is off, the constructs of its kind are reported at their nodes. -/
theorem ParseTree.reportsFeature {shape : ParseTree} {file : FileId} {kind : Kind}
    {feature : Features} {isOn : Bool} {reports : Diagnostics}
    (isOf : kind.feature? = some feature)
    (reported : List.Forall₂ (Construct.ReportedAs file)
      (if isOn then [] else shape.constructs.filter (·.kind == kind)) reports)
    (fileName : String) (source : SourceText) (features : Features) :
    let tree := shape.toTree file fileName source features
    List.Forall₂ (tree.ReportsFeature feature) (if isOn then [] else tree.nodesOfKind kind)
      reports := by
  cases isOn with
  | true =>
    cases reported
    exact .nil
  | false =>
    have ofKind : ∀ construct ∈ shape.constructs.filter (·.kind == kind),
        construct.kind = kind :=
      fun construct member => eq_of_beq (List.mem_filter.mp member).2
    exact SyntaxTree.reportsFeature_of_startsAs isOf ofKind
      (startsAs_constructs isOf file fileName source features) reported

/-- Whichever features are on, parsing a text gives the same nodes and tokens. What it reports is
what it reports with all features, and a report for every `do` statement if those are off, and one
for every query conclusion if those are off, each at the first token of its node. -/
theorem parseText_features {file : FileId} {source : SourceText} {scanned : ScannedText}
    (scans : scanText file source = .ok scanned) (fileName : String)
    (features others : Features) :
    ∃ parsed again complete, parseText file fileName source features = .ok parsed ∧
      parseText file fileName source others = .ok again ∧
      parseText file fileName source .all = .ok complete ∧
      parsed.tree.nodes = again.tree.nodes ∧ parsed.tree.tokens = again.tree.tokens ∧
      ∃ statements conclusions,
        List.Forall₂ (parsed.tree.ReportsFeature .onlyDoStatements)
          (if features.doStatements then [] else parsed.tree.nodesOfKind .doStatement)
          statements ∧
        List.Forall₂ (parsed.tree.ReportsFeature .onlyQueryConclusions)
          (if features.queryConclusions then [] else parsed.tree.nodesOfKind .queryConclusion)
          conclusions ∧
        parsed.diagnostics.Perm (complete.diagnostics ++ (statements ++ conclusions)) := by
  have covers := scanText_covers scans
  obtain ⟨sameShape, sameOthers⟩ := parseTokens_features file features .all scanned
  obtain ⟨againShape, _⟩ := parseTokens_features file features others scanned
  obtain ⟨reports, reported, reportsEq⟩ := parseTokens_screens file features covers
  obtain ⟨noReports, noneReported, noReportsEq⟩ := parseTokens_screens file .all covers
  obtain ⟨statements, conclusions, areStatements, areConclusions, parts⟩ :=
    exists_filter_of_forall₂ reported (·.kind == .doStatement)
  rw [filter_disables_doStatement] at areStatements
  rw [filter_disables_queryConclusion] at areConclusions
  refine ⟨_, _, _, parseText_eq_ok scans, parseText_eq_ok scans, parseText_eq_ok scans, ?nodes,
    ?tokens, statements, conclusions, ?statements, ?conclusions, ?diagnostics⟩
  case nodes => rw [againShape]; rfl
  case tokens => rw [againShape]; rfl
  case statements => exact ParseTree.reportsFeature rfl areStatements fileName source features
  case conclusions => exact ParseTree.reportsFeature rfl areConclusions fileName source features
  case diagnostics =>
    have allOn : (parseTokens file .all scanned).shape.constructs.filter
        (Features.all.disables ·.kind) = [] := by
      refine List.filter_eq_nil_iff.mpr fun construct _ => ?_
      rw [Features.disables_eq]
      simp [Features.all]
    rw [allOn, List.forall₂_nil_left_iff] at noneReported
    rw [noneReported, List.append_nil] at noReportsEq
    have unsorted (diagnostics : Diagnostics) :
        diagnostics.sorted.Perm (diagnostics.filter Diagnostic.isOnFeature ++
          diagnostics.filter (!·.isOnFeature)) :=
      (List.mergeSort_perm _ _).trans (List.filter_append_perm _ _).symm
    have enabled := unsorted (parseTokens file .all scanned).diagnostics
    have own := unsorted (parseTokens file features scanned).diagnostics
    rw [noReportsEq] at enabled
    rw [reportsEq, sameOthers, List.append_assoc] at own
    have swapped := own.trans (List.perm_append_comm.append_left _)
    rw [← List.append_assoc] at swapped
    exact swapped.trans (enabled.symm.append parts)

/-- A `do` statement that ends too early, and a conclusion inside of another one, without any
feature and with `do` statements alone. -/
theorem parseText_features_nested :
    let source : SourceText :=
      ⟨"\x7b do \x7b ; \x7d from x in xs select x yield into r do from y in r select y yield s".toList,
        by decide +kernel⟩
    ∃ scanned, scanText 0 source = .ok scanned ∧
      ∃ parsed again complete, parseText 0 "main" source .none = .ok parsed ∧
        parseText 0 "main" source .onlyDoStatements = .ok again ∧
        parseText 0 "main" source .all = .ok complete ∧
        parsed.tree.nodes = again.tree.nodes ∧ parsed.tree.tokens = again.tree.tokens ∧
        ∃ statements conclusions,
          List.Forall₂ (parsed.tree.ReportsFeature .onlyDoStatements)
            (parsed.tree.nodesOfKind .doStatement) statements ∧
          List.Forall₂ (parsed.tree.ReportsFeature .onlyQueryConclusions)
            (parsed.tree.nodesOfKind .queryConclusion) conclusions ∧
          parsed.diagnostics.Perm (complete.diagnostics ++ (statements ++ conclusions)) := by
  intro source
  have isScanned : (scanText 0 source).isOk := by decide +kernel
  obtain ⟨scanned, scans⟩ := Checked.exists_ok_of_isOk isScanned
  exact ⟨scanned, scans, parseText_features scans "main" .none .onlyDoStatements⟩

end QueryLang
