import QueryLang.Proofs.Diagnostic.Sorting
import QueryLang.Proofs.Syntax.Layout

/-!
# Missing tokens and the reports on them

The parser reports that a token was expected where the last token ends that it has consumed, and
the builder puts the missing token where the last token ends that it was given. These are the same
places: in their order, the reports are those on the missing tokens of the tree, but for the tokens
that stand in for something else.
-/

namespace QueryLang

namespace SyntaxTree

variable {tree : SyntaxTree} {place : Place} {parent : Option NodeId}

/-- Whether a node is what a member access names. The operand comes first in the access. -/
def isMemberName (tree : SyntaxTree) (id : NodeId) : Bool :=
  (tree.nodes[id]?.bind TreeNode.parent).any fun parent =>
    tree.nodes[parent]?.any fun access =>
      access.kind == .memberAccessExpression && access.children[0]? != some (.node id)

/-- Whether the first child of a node is a missing token. -/
def startsMissing (tree : SyntaxTree) (node : TreeNode) : Bool :=
  (node.children[0]?.bind Element.token?).any fun first => tree.tokens[first]?.any (·.isMissing)

/-- Whether missing tokens of a kind stand in for something else in a node: the identifier of a name
that is no member's, the keyword of a `select` clause, and the closing brace of a block whose
opening brace is missing. -/
def standsIn (tree : SyntaxTree) (id : NodeId) (kind : Kind) : Bool :=
  tree.nodes[id]?.any fun node =>
    tree.startsMissing node && node.kind.standsIn (tree.isMemberName id) kind

/-- Whether a token is missing and stands in for nothing else. -/
def isGap (tree : SyntaxTree) (token : TreeToken) : Bool :=
  token.isMissing && !tree.standsIn token.parent token.kind

/-! ### Nodes -/

/-- Whether the first child of a node is missing shows in its shape. -/
theorem Holds.any_isMissing {shape : ParseTree} (holds : tree.Holds place parent shape) :
    ((shape.element place).token?.any fun id => tree.tokens[id]?.any (·.isMissing)) =
      shape.isMissing := by
  cases shape with
  | token leaf => simp [ParseTree.element, Element.token?, holds.token, ParseTree.isMissing]
  | missing kind => simp [ParseTree.element, Element.token?, holds.missing, ParseTree.isMissing]
  | node kind children => rfl
  | wrapped kind first rest => rfl

theorem Holds.standsIn_eq {shape first : ParseTree} {kind : Kind} {rest : List ParseTree}
    {id : Nat} (holds : tree.Holds place parent shape) (isNode : shape.IsNode kind (first :: rest))
    (isOwn : shape.element place = .node id) :
    tree.standsIn id = ParseTree.standIns kind (tree.isMemberName id) first := by
  funext token
  obtain ⟨own, ownEq, found, standsFor⟩ := holds.node isNode
  rw [isOwn] at ownEq
  cases ownEq
  rw [standsIn, found, Option.any_some, startsMissing, ParseTree.standIns]
  generalize shape.childElements place = children at standsFor ⊢
  cases standsFor with
  | cons standsFor _ =>
    obtain ⟨inner, rfl, innerHolds⟩ := standsFor
    rw [← innerHolds.any_isMissing]
    rfl

/-- What a member access names is any node in it but its first child. -/
theorem Holds.isMemberName_children {shape : ParseTree} {kind : Kind} {children : List ParseTree}
    {id : Nat} {first : Element} {rest : List Element} (holds : tree.Holds place parent shape)
    (isNode : shape.IsNode kind children) (isOwn : shape.element place = .node id)
    (elements : shape.childElements place = first :: rest) :
    (∀ child, first = .node child → tree.isMemberName child = false) ∧
      ∀ child, .node child ∈ rest →
        tree.isMemberName child = (kind == .memberAccessExpression) := by
  obtain ⟨own, ownEq, found, standsFor⟩ := holds.node isNode
  rw [isOwn] at ownEq
  cases ownEq
  have distinct := ParseTree.childElements_nodup place shape
  rw [elements] at found standsFor distinct
  have named (child : Nat) (isChild : .node child ∈ first :: rest) : tree.isMemberName child =
      (kind == .memberAccessExpression && some first != some (.node child)) := by
    have itsParent : tree.nodes[child]?.bind TreeNode.parent = some id :=
      parentOf?_of_mem standsFor isChild
    rw [isMemberName, itsParent, Option.any_some, found, Option.any_some]
    rfl
  constructor
  · rintro child rfl
    simpa using named child (List.mem_cons_self ..)
  · intro child isLater
    have notFirst : (some first != some (.node child)) = true := by
      rw [bne_iff_ne]
      rintro ⟨⟩
      exact (List.nodup_cons.mp distinct).1 isLater
    rw [named child (List.mem_cons_of_mem _ isLater), notFirst, Bool.and_true]

/-! ### Gaps -/

mutual

/-- The gaps of a piece of source are the missing tokens that the tree has for it and that stand in
for nothing else. -/
theorem Holds.filter_isGap {place : Place} {parent : Option NodeId} {silent : Kind → Bool}
    {isMember : Bool} (shape : ParseTree) (holds : tree.Holds place parent shape)
    (around : tree.standsIn (parent.getD root) = silent)
    (named : ∀ id, shape.element place = .node id → tree.isMemberName id = isMember) :
    ((shape.treeTokens place (parent.getD root)).filter tree.isGap).map TreeToken.placed =
      shape.gaps silent isMember place.position :=
  match shape with
  | .token leaf => by simp [ParseTree.treeTokens, isGap, ParseTree.gaps]
  | .missing kind => by
    subst around
    cases isSilent : tree.standsIn (parent.getD root) kind with
    | true => simp [ParseTree.treeTokens, isGap, ParseTree.gaps, isSilent]
    | false =>
      simp [ParseTree.treeTokens, isGap, ParseTree.gaps, isSilent, TreeToken.placed]
  | .node kind [] => rfl
  | .node kind (first :: rest) => by
    have isNode : (ParseTree.node kind (first :: rest)).IsNode kind (first :: rest) := .inl rfl
    have own := holds.standsIn_eq isNode rfl
    rw [named place.node rfl] at own
    obtain ⟨firstNamed, restNamed⟩ := holds.isMemberName_children isNode rfl rfl
    obtain ⟨firstHolds, restHolds⟩ := holds.inside.cons
    have firstGaps := firstHolds.filter_isGap first own firstNamed
    have restGaps := restHolds.filter_isGap rest own restNamed
    rw [ParseTree.treeTokens, ParseTree.treeTokensAll, List.filter_append, List.map_append,
      ParseTree.gaps]
    exact congrArg₂ (· ++ ·) firstGaps restGaps
  | .wrapped kind first rest => by
    have isNode : (ParseTree.wrapped kind first rest).IsNode kind (first :: rest) :=
      .inr ⟨first, rest, rfl, rfl⟩
    have own := holds.standsIn_eq isNode rfl
    rw [named (place.after first).node rfl] at own
    obtain ⟨firstNamed, restNamed⟩ := holds.isMemberName_children isNode rfl rfl
    obtain ⟨firstHolds, restHolds⟩ := holds.wrapped
    have firstGaps := firstHolds.filter_isGap first own firstNamed
    have restGaps := restHolds.filter_isGap rest own restNamed
    rw [ParseTree.treeTokens, List.filter_append, List.map_append, ParseTree.gaps]
    exact congrArg₂ (· ++ ·) firstGaps restGaps

theorem HoldsAll.filter_isGap {place : Place} {parent : NodeId} {silent : Kind → Bool}
    {isMember : Bool} (shapes : List ParseTree) (holds : tree.HoldsAll place parent shapes)
    (around : tree.standsIn parent = silent)
    (named : ∀ id, .node id ∈ ParseTree.elements place shapes → tree.isMemberName id = isMember) :
    ((ParseTree.treeTokensAll place parent shapes).filter tree.isGap).map TreeToken.placed =
      ParseTree.gapsOfAll silent isMember place.position shapes :=
  match shapes with
  | [] => rfl
  | shape :: others => by
    obtain ⟨first, rest⟩ := holds.cons
    have firstGaps := first.filter_isGap shape around fun id isOwn =>
      named id (List.mem_cons.mpr (.inl isOwn.symm))
    have restGaps := rest.filter_isGap others around fun id member =>
      named id (List.mem_cons_of_mem _ member)
    rw [ParseTree.treeTokensAll, List.filter_append, List.map_append, ParseTree.gapsOfAll]
    exact congrArg₂ (· ++ ·) firstGaps restGaps

end

end SyntaxTree

namespace ParseTree

mutual

/-- A missing token of a formed piece is empty, and it stands in damaged source. -/
theorem missing_of_mem_treeTokens {damaged : Prop} {role : Role} {token : TreeToken}
    (place : Place) (parent : NodeId) (shape : ParseTree) (formed : Formed damaged role shape)
    (member : token ∈ treeTokens place parent shape) (isMissing : token.isMissing = true) :
    token.span.length = 0 ∧ damaged :=
  match shape, formed with
  | .token leaf, _ => by
    cases List.mem_singleton.mp member
    cases isMissing
  | .missing kind, .missing _ isDamaged => by
    cases List.mem_singleton.mp member
    exact ⟨rfl, isDamaged⟩
  | .node kind children, .node _ formed =>
    missing_of_mem_treeTokensAll place.inside place.node children formed member isMissing
  | .wrapped kind first rest, .wrapped _ (.cons formedFirst formedRest) => by
    rcases List.mem_append.mp member with inFirst | inRest
    · exact missing_of_mem_treeTokens _ _ first formedFirst inFirst isMissing
    · exact missing_of_mem_treeTokensAll _ _ rest formedRest inRest isMissing

theorem missing_of_mem_treeTokensAll {damaged : Prop} {roles : List Role} {token : TreeToken}
    (place : Place) (parent : NodeId) (shapes : List ParseTree)
    (formed : FormedAll damaged roles shapes) (member : token ∈ treeTokensAll place parent shapes)
    (isMissing : token.isMissing = true) : token.span.length = 0 ∧ damaged :=
  match shapes, formed with
  | shape :: others, .cons formedFirst formedRest => by
    rcases List.mem_append.mp member with inFirst | inRest
    · exact missing_of_mem_treeTokens _ _ shape formedFirst inFirst isMissing
    · exact missing_of_mem_treeTokensAll _ _ others formedRest inRest isMissing

end

end ParseTree

/-! ### Files -/

/-- Scanning never says that a token was expected. -/
theorem scanText_expectations {file : FileId} {source : SourceText} {scanned : ScannedText}
    (scans : scanText file source = .ok scanned) :
    scanned.diagnostics.filter Diagnostic.isExpectation = [] := by
  obtain ⟨lexemes, stop, _, rfl⟩ := scanText_eq_ok_iff.mp scans
  refine List.filter_eq_nil_iff.mpr fun report member => ?_
  obtain ⟨⟨offset, lexeme⟩, _, isReport⟩ := List.mem_flatMap.mp member
  dsimp only [Lexeme.reports] at isReport
  split at isReport
  · next problem _ =>
    cases problem with
    | danglingEscape => cases isReport
    | unexpectedCharacter char =>
      cases List.mem_singleton.mp isReport
      exact Bool.eq_false_iff.mp rfl
    | newlineInConstant =>
      cases List.mem_singleton.mp isReport
      exact Bool.eq_false_iff.mp rfl
  · cases isReport

theorem Diagnostic.place_expectation (file : FileId) (gap : Kind × Span) :
    (expectation file gap).place = (file, gap.2.start) := by
  rw [expectation]
  split
  · rfl
  · rfl

/-- Reports on tokens that lie in order are in order. -/
theorem Diagnostic.pairwise_expectation {tokens : List TreeToken} (file : FileId)
    (ordered : TreeToken.Ordered tokens) :
    (tokens.map fun token => expectation file token.placed).Pairwise (·.precedes · = true) := by
  refine List.pairwise_map.mpr (ordered.imp fun {token later} inOrder => ?_)
  rw [precedes_iff, place_expectation, place_expectation]
  refine .inr ⟨rfl, ?_⟩
  exact Nat.le_trans (Nat.le_add_right _ _) inOrder

namespace ParseTree

/-- The gaps of a file are those of its tree. -/
theorem filter_isGap_toTree {shape : ParseTree} {kind : Kind} {children : List ParseTree}
    (isNode : shape = .node kind children) (file : FileId) (fileName : String)
    (source : SourceText) (features : Features) :
    let tree := shape.toTree file fileName source features
    (tree.tokens.toList.filter tree.isGap).map TreeToken.placed =
      shape.gaps noStandIns false 0 := by
  subst isNode
  intro tree
  have holds : tree.Holds .start none (.node kind children) := holds_toTree _
  have noName : tree.isMemberName SyntaxTree.root = false := rfl
  have gaps := holds.filter_isGap _ rfl (by rintro id ⟨⟩; exact noName)
  have tokens : tree.tokens.toList = (node kind children).treeTokens .start SyntaxTree.root := by
    simp [tree, toTree]
  rw [Option.getD_none, ← tokens] at gaps
  rw [gaps]
  cases children with
  | nil => rfl
  | cons first rest => rfl

end ParseTree

/-- The reports on tokens that were expected are in their order those on the missing tokens of the
tree, but for the tokens that stand in for something else. Every missing token is empty, and where
there is one there is an error. -/
theorem parseText_gaps {file : FileId} {source : SourceText} {scanned : ScannedText}
    (scans : scanText file source = .ok scanned) (fileName : String) (features : Features) :
    ∃ parsed, parseText file fileName source features = .ok parsed ∧
      parsed.diagnostics.filter Diagnostic.isExpectation =
        (parsed.tree.tokens.toList.filter parsed.tree.isGap).map
          (fun token => .expectation file token.placed) ∧
      ∀ token ∈ parsed.tree.tokens.toList, token.isMissing = true →
        token.span.length = 0 ∧ parsed.diagnostics.hasErrors = true := by
  have covers := scanText_covers scans
  have faithful := parseTokens_faithful file features covers
  refine ⟨_, parseText_eq_ok scans, ?reports, ?missing⟩
  case reports =>
    obtain ⟨children, isNode⟩ := faithful.isNode
    have gaps := ParseTree.filter_isGap_toTree isNode file fileName source features
    have reports := parseTokens_gaps file features covers
    rw [scanText_expectations scans, List.nil_append, ← gaps, List.map_map] at reports
    rw [Diagnostics.filter_sorted ?_, reports]
    · rfl
    · rw [reports]
      exact Diagnostic.pairwise_expectation file ((laidOut_of_scanText scans).ordered.filter _)
  case missing =>
    intro token member isMissing
    rw [Diagnostics.hasErrors_sorted]
    refine ParseTree.missing_of_mem_treeTokens .start SyntaxTree.root _ faithful.formed ?_ isMissing
    simpa [ParseTree.toTree] using member

/-- Stand-ins for a block that is not opened, for an absent expression and for the end of a query,
among tokens that are expected. -/
theorem parseText_gaps_standIns :
    let source : SourceText := ⟨"var = a.; do while (from x in .b)".toList, by decide +kernel⟩
    ∃ scanned, scanText 0 source = .ok scanned ∧
      ∃ parsed, parseText 0 "main" source .all = .ok parsed ∧
        (parsed.tree.tokens.toList.filter (·.isMissing)).map
            (fun token => (token.kind, token.span.start, parsed.tree.isGap token)) =
          [(.identifierToken, 3, true), (.identifierToken, 8, true), (.openBraceToken, 12, true),
            (.closeBraceToken, 12, false), (.identifierToken, 29, false),
            (.selectKeyword, 32, false), (.identifierToken, 32, false),
            (.semicolonToken, 33, true)] ∧
        parsed.diagnostics.filter Diagnostic.isExpectation =
          (parsed.tree.tokens.toList.filter parsed.tree.isGap).map
            (fun token => .expectation 0 token.placed) ∧
        ∀ token ∈ parsed.tree.tokens.toList, token.isMissing = true →
          token.span.length = 0 ∧ parsed.diagnostics.hasErrors = true := by
  intro source
  have isScanned : (scanText 0 source).isOk := by decide +kernel
  have areMissing : ∀ parsed ∈ (parseText 0 "main" source .all).toOption,
      (parsed.tree.tokens.toList.filter (·.isMissing)).map
          (fun token => (token.kind, token.span.start, parsed.tree.isGap token)) =
        [(.identifierToken, 3, true), (.identifierToken, 8, true), (.openBraceToken, 12, true),
          (.closeBraceToken, 12, false), (.identifierToken, 29, false),
          (.selectKeyword, 32, false), (.identifierToken, 32, false),
          (.semicolonToken, 33, true)] := by
    decide +kernel
  obtain ⟨scanned, scans⟩ := Checked.exists_ok_of_isOk isScanned
  obtain ⟨parsed, parses, reports, missing⟩ := parseText_gaps scans "main" .all
  exact ⟨scanned, scans, parsed, parses, areMissing parsed (by rw [parses]; rfl), reports, missing⟩

end QueryLang
