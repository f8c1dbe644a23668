import QueryLang.Proofs.Syntax.FeatureReports
import QueryLang.Proofs.Syntax.Parts

/-!
# Where constructs start

The parser starts an optional construct at a token that it has seen, never at one that the source
lacks. So a query conclusion starts at its keyword `yield`, however much of the rest is missing. An
expression can start at a missing token, but has one of the source unless it is a name.
-/

namespace QueryLang

namespace ParseTree

variable {part whole child : ParseTree} {kind : Kind} {children : List ParseTree}

theorem constructs_subset_constructsOfAll {trees : List ParseTree} {tree : ParseTree}
    (isTree : tree ∈ trees) : tree.constructs ⊆ constructsOfAll trees := by
  induction trees with
  | nil => cases isTree
  | cons first rest ih =>
    rw [constructsOfAll]
    rcases List.mem_cons.mp isTree with rfl | inRest
    · exact List.subset_append_left ..
    · exact List.subset_append_of_subset_right _ (ih inRest)

theorem constructs_subset_of_child (isNode : whole.IsNode kind children)
    (isChild : child ∈ children) : child.constructs ⊆ whole.constructs := by
  rcases isNode with rfl | ⟨first, rest, rfl, rfl⟩
  · exact List.subset_append_of_subset_right _ (constructs_subset_constructsOfAll isChild)
  · rw [constructs]
    rcases List.mem_cons.mp isChild with rfl | inRest
    · exact List.subset_append_left ..
    · exact List.subset_append_of_subset_right _
        (List.subset_append_of_subset_right _ (constructs_subset_constructsOfAll inRest))

/-- A part of an optional kind is one of the optional constructs. -/
theorem PartOf.mem_constructs (isPart : part.PartOf whole) (isNode : part.IsNode kind children)
    (isOptional : kind.feature?.isSome) : ⟨kind, children⟩ ∈ whole.constructs := by
  induction isPart with
  | refl =>
    have own : ⟨kind, children⟩ ∈ Construct.ofNode kind children := by
      simp [Construct.ofNode, isOptional]
    rcases isNode with rfl | ⟨first, rest, rfl, rfl⟩
    · exact List.mem_append_left _ own
    · rw [constructs]
      exact List.mem_append_right _ (List.mem_append_left _ own)
  | inside isOuter isInner _ ih => exact constructs_subset_of_child isOuter isInner ih

/-- Every optional construct of a piece of source starts with a token of the source. -/
def StartsConstructs (shape : ParseTree) : Prop :=
  ∀ construct ∈ shape.constructs, construct.kind.feature?.isSome →
    ∃ token others, construct.pieces = .token token :: others

theorem Sourced.of_isNode (sourced : whole.Sourced) (isNode : whole.IsNode kind children) :
    Stands kind children ∧ SourcedAll children := by
  rcases isNode with rfl | ⟨first, rest, rfl, rfl⟩
  · cases sourced with
    | node stands sourced => exact ⟨stands, sourced⟩
  · cases sourced with
    | wrapped stands sourced => exact ⟨stands, sourced⟩

theorem Sourced.of_part (sourced : whole.Sourced) (isPart : part.PartOf whole) :
    part.Sourced := by
  induction isPart with
  | refl => exact sourced
  | inside isNode isChild _ ih =>
    exact ih (sourcedAll_iff.mp (sourced.of_isNode isNode).2 _ isChild)

end ParseTree

theorem Features.disables_none (kind : Kind) :
    Features.none.disables kind = kind.feature?.isSome := by
  cases kind <;> rfl

/-- Every optional construct of a file starts with a token of the source. -/
theorem parseTokens_startsConstructs (file : FileId) (features : Features) {scanned : ScannedText}
    {offset : Nat} {chars : List Char} (covers : scanned.Covers offset chars) :
    (parseTokens file features scanned).shape.StartsConstructs := by
  intro construct isConstruct isOptional
  -- Without any feature all of them are reported, where they start.
  rw [(parseTokens_features file features .none scanned).1] at isConstruct
  obtain ⟨reports, reported, _⟩ := parseTokens_screens file .none covers
  rw [← Features.disables_none] at isOptional
  obtain ⟨_, report, _, _, feature, token, others, _, pieces, _⟩ :=
    exists_split_of_forall₂ reported (List.mem_filter.mpr ⟨isConstruct, isOptional⟩)
  exact ⟨token, others, pieces⟩

namespace SyntaxTree

variable {tree : SyntaxTree} {damaged : Prop} {file : ParseTree} {id : NodeId}

/-- A query conclusion starts where its keyword `yield` does, which stands in the source. -/
theorem Shows.conclusion_opens (shows : tree.Shows damaged file) (starts : file.StartsConstructs)
    (kindEq : tree.kind id = .ok .queryConclusion) :
    ∃ (span : Span) (first : TokenId) (token : TreeToken), tree.span id = .ok span ∧
      tree.tokens[first]? = some token ∧ token.kind = .yieldKeyword ∧
      token.isMissing = false ∧ span.start = token.span.start := by
  obtain ⟨node, isNode, _⟩ := node_eq_ok kindEq
  have inRange := (Array.getElem?_eq_some_iff.mp isNode).1
  obtain ⟨place, parent, role, piece, isOwn, held⟩ := shows.exists_part inRange
  obtain ⟨kind, pieces, isPiece⟩ := isNode_of_element isOwn
  obtain ⟨own, ownEq, found, _⟩ := held.holds.node isPiece
  rw [isOwn] at ownEq
  cases ownEq
  rw [kind_eq_ok found] at kindEq
  cases kindEq
  obtain ⟨token, others, same⟩ := starts _ (held.isPart.mem_constructs isPiece rfl) rfl
  cases same
  obtain ⟨roles, production, formed⟩ := held.formed.production isPiece
  rw [production.roles_of_queryConclusion rfl] at formed
  have isYield : token.kind = .yieldKeyword := by
    cases formed with
    | cons head _ =>
      generalize isLeaf : Role.leaf .yieldKeyword = role at head
      cases head
      exact (Role.leaf.inj isLeaf).symm
  obtain ⟨isFirst, owner, isToken⟩ := held.holds.opening isPiece isOwn
  obtain ⟨span, first, last, spanEq, firstEq, _, runs⟩ := shows.ordered.span_runs id inRange
  cases isFirst.symm.trans firstEq
  cases last with
  | none => exact runs.elim
  | some last =>
    obtain ⟨firstToken, _, isFirstToken, _, startEq, _⟩ := runs
    cases isToken.symm.trans isFirstToken
    exact ⟨span, place.token, _, spanEq, isToken, isYield, rfl, startEq⟩

/-- A node of a piece with tokens in the source has a first one. -/
theorem HoldsNode.exists_firstToken {node : TreeNode} {place : Place} {shape : ParseTree}
    (own : tree.HoldsNode id node place shape) (found : tree.nodes[id]? = some node)
    (hasTokens : shape.tokens ≠ []) :
    ∃ first token, tree.firstToken? id = .ok (some first) ∧ tree.tokens[first]? = some token ∧
      token.isMissing = false := by
  obtain ⟨first, firstEq, range, value⟩ := firstRealToken?_eq_ok own.tokens_bound
  rw [own.slice_eq] at value
  have isFirst : tree.firstToken? id = .ok first := by
    simp only [firstToken?, SyntaxTree.node, found, Checked.ok_bind, firstEq]
  have placed := ParseTree.placed_treeTokens place (node.parent.getD root) shape
  have real : ((shape.treeTokens place (node.parent.getD root)).find? TreeToken.isReal).isSome := by
    rw [List.find?_isSome]
    by_contra noneReal
    apply hasTokens
    rw [List.filter_eq_nil_iff.mpr (by simpa using noneReal)] at placed
    exact List.map_eq_nil_iff.mp placed.symm
  obtain ⟨token, isFound⟩ := Option.isSome_iff_exists.mp real
  rw [isFound] at value
  obtain ⟨first, rfl, isToken⟩ := Option.map_eq_some_iff.mp value
  have inTree := Nat.lt_of_lt_of_le (range first rfl).2 own.tokens_bound
  have isReal : token.isReal = true := List.find?_some isFound
  refine ⟨first, token, isFirst, ?_, by simpa [TreeToken.isReal] using isReal⟩
  rw [← isToken]
  simp [inTree]

/-- An expression other than a name has a token of the source. -/
theorem Shows.exists_firstToken (shows : tree.Shows damaged file) (sourced : file.Sourced)
    {kind : Kind} (kindEq : tree.kind id = .ok kind) (needs : kind.needsToken = true) :
    ∃ first token, tree.firstToken? id = .ok (some first) ∧ tree.tokens[first]? = some token ∧
      token.isMissing = false := by
  obtain ⟨node, found, _⟩ := node_eq_ok kindEq
  obtain ⟨place, parent, role, piece, isOwn, held⟩ :=
    shows.exists_part (Array.getElem?_eq_some_iff.mp found).1
  obtain ⟨own, pieces, isPiece⟩ := isNode_of_element isOwn
  obtain ⟨owner, ownerEq, foundOwner, _⟩ := held.holds.node isPiece
  rw [isOwn] at ownerEq
  cases ownerEq
  rw [kind_eq_ok foundOwner] at kindEq
  cases kindEq
  refine (held.holds.holdsNode isOwn foundOwner).exists_firstToken foundOwner ?_
  rw [isPiece.tokens_eq]
  exact ((sourced.of_part held.isPart).of_isNode isPiece).1 needs

end SyntaxTree

end QueryLang
