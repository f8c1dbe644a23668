import QueryLang.Proofs.Lists
import QueryLang.Proofs.Syntax.Layout
import QueryLang.Proofs.Syntax.Typing

/-!
# Parts of a file

Every node of a parsed tree stands for a part of the file. `SyntaxTree.ChildAt` says where a child
of a node stands among the pieces that the node was made of, and in which roles these are formed.
A token that the source has is a piece of its own, and a node whose last token stands in the source
ends with it.
-/

namespace QueryLang

namespace ParseTree

/-- The piece is another one or somewhere inside it. -/
inductive PartOf (part : ParseTree) : ParseTree → Prop
  | refl : PartOf part part
  | inside {whole kind children child} (isNode : whole.IsNode kind children)
      (isChild : child ∈ children) (isPart : PartOf part child) : PartOf part whole

variable {target : Token} {keyword kind : Kind} {part whole child : ParseTree}
  {children : List ParseTree}

theorem PartOf.of_child (isPart : part.PartOf whole) (isNode : part.IsNode kind children)
    (isChild : child ∈ children) : child.PartOf whole := by
  induction isPart with
  | refl => exact .inside isNode isChild .refl
  | inside isOuter isInner _ ih => exact .inside isOuter isInner ih

/-- What a part accepts, the whole does. -/
theorem Accepts.of_part (accepts : part.Accepts target keyword) (isPart : part.PartOf whole) :
    whole.Accepts target keyword := by
  induction isPart with
  | refl => exact accepts
  | inside isNode isChild _ ih => exact .inside isNode isChild ih

end ParseTree

/-! ### Roles of children -/

variable {damaged : Prop} {role : Role} {kind : Kind} {roles : List Role}

theorem FormedAll.length_eq {pieces : List ParseTree} (formed : FormedAll damaged roles pieces) :
    roles.length = pieces.length := by
  induction pieces generalizing roles with
  | nil =>
    cases formed
    rfl
  | cons piece rest ih =>
    cases formed with
    | cons _ formed => exact congrArg (· + 1) (ih formed)

theorem FormedAll.ne_nil {pieces : List ParseTree} (formed : FormedAll damaged roles pieces)
    (nonempty : roles ≠ []) : pieces ≠ [] := by
  cases formed with
  | nil => exact absurd rfl nonempty
  | cons => exact List.cons_ne_nil _ _

theorem FormedAll.split {before after : List ParseTree} {piece : ParseTree}
    (formed : FormedAll damaged roles (before ++ piece :: after)) :
    ∃ lefts own rights, roles = lefts ++ own :: rights ∧ lefts.length = before.length ∧
      rights.length = after.length ∧ Formed damaged own piece := by
  induction before generalizing roles with
  | nil =>
    cases formed with
    | cons head rest => exact ⟨[], _, _, rfl, rfl, rest.length_eq, head⟩
  | cons first before ih =>
    cases formed with
    | cons head rest =>
      obtain ⟨lefts, own, rights, rfl, leftLength, rightLength, formed⟩ := ih rest
      exact ⟨_ :: lefts, own, rights, rfl, congrArg (· + 1) leftLength, rightLength, formed⟩

/-- A node follows a production. -/
theorem Formed.production {piece : ParseTree} {children : List ParseTree}
    (formed : Formed damaged role piece) (isNode : piece.IsNode kind children) :
    ∃ roles, Production damaged role kind roles ∧ FormedAll damaged roles children := by
  rcases isNode with rfl | ⟨first, rest, rfl, rfl⟩
  · cases formed with
    | node production formed => exact ⟨_, production, formed⟩
  · cases formed with
    | wrapped production formed => exact ⟨_, production, formed⟩

namespace Production

/-- The clause that ends a query body stands in no other role. -/
theorem role_of_final (production : Production damaged role kind roles)
    (isFinal : kind = .selectClause ∨ kind = .groupClause) : role = .ending := by
  induction production with
  | ofName _ ih | ofPrimary _ ih | ofOperand _ ih | ofFromClause _ ih | ofBlock _ ih =>
    cases ih isFinal
  | selectClause | groupClause => rfl
  | literal isLiteral =>
    rcases isFinal with rfl | rfl
    · cases isLiteral
    · cases isLiteral
  | _ =>
    rcases isFinal with isFinal | isFinal
    · cases isFinal
    · cases isFinal

theorem not_isContent_ending : ¬Role.ending.IsContent damaged := by
  rintro (isStatement | ⟨_, _, isLeaf⟩)
  · cases isStatement
  · cases isLeaf

/-- Only a query body is ended by a clause. -/
theorem kind_of_ending (production : Production damaged role kind roles)
    (isChild : .ending ∈ roles) : kind = .queryBody := by
  induction production with
  | ofName _ ih | ofPrimary _ ih | ofOperand _ ih | ofFromClause _ ih | ofBlock _ ih =>
    exact ih isChild
  | queryBody | concludedBody => rfl
  | someArguments count => simp [Role.furtherArgument] at isChild
  | block allowed | file allowed =>
    simp only [List.mem_cons, List.mem_append, reduceCtorEq, List.not_mem_nil, or_false,
      false_or] at isChild
    exact absurd (allowed _ isChild) not_isContent_ending
  | _ => simp at isChild

/-- A statement other than a block ends with its only semicolon. -/
theorem semicolon_last (production : Production damaged role kind roles)
    (isStatement : kind.isStatement = true) (notBlock : kind ≠ .block) :
    ∃ front, roles = front ++ [.leaf .semicolonToken] ∧ .leaf .semicolonToken ∉ front := by
  induction production with
  | ofName _ ih | ofPrimary _ ih | ofOperand _ ih | ofFromClause _ ih | ofBlock _ ih =>
    exact ih isStatement notBlock
  | block => exact absurd rfl notBlock
  | localDeclaration =>
    exact ⟨[.leaf .varKeyword, .leaf .identifierToken, .leaf .equalsToken, .expression], rfl,
      by decide⟩
  | returnNothing => exact ⟨[.leaf .returnKeyword], rfl, by decide⟩
  | returnValue => exact ⟨[.leaf .returnKeyword, .expression], rfl, by decide⟩
  | yieldReturn =>
    exact ⟨[.leaf .yieldKeyword, .leaf .returnKeyword, .expression], rfl, by decide⟩
  | yieldBreak => exact ⟨[.leaf .yieldKeyword, .leaf .breakKeyword], rfl, by decide⟩
  | doStatement =>
    exact ⟨[.leaf .doKeyword, .block, .leaf .whileKeyword, .leaf .openParenToken, .expression,
      .leaf .closeParenToken], rfl, by decide⟩
  | expressionStatement => exact ⟨[.expression], rfl, by decide⟩
  | literal isLiteral =>
    unfold Kind.isStatement at isStatement
    split at isStatement
    all_goals first | cases isLiteral | cases isStatement
  | _ => cases isStatement

/-- A block and a file end with a token of their own. -/
theorem closing_last (production : Production damaged role kind roles)
    (holds : kind = .block ∨ kind = .compilationUnit) :
    ∃ front last, roles = front ++ [.leaf last] ∧
      (last = .closeBraceToken ∨ last = .endOfFileToken) := by
  induction production with
  | ofName _ ih | ofPrimary _ ih | ofOperand _ ih | ofFromClause _ ih | ofBlock _ ih =>
    exact ih holds
  | block => exact ⟨_ :: _, _, rfl, .inl rfl⟩
  | file => exact ⟨_, _, rfl, .inr rfl⟩
  | literal isLiteral =>
    rcases holds with rfl | rfl
    · cases isLiteral
    · cases isLiteral
  | _ =>
    rcases holds with holds | holds
    · cases holds
    · cases holds

/-- The keyword `yield` starts a statement or a conclusion. Elsewhere it is a loose token. -/
theorem kind_of_yield (production : Production damaged role kind roles)
    (isChild : .leaf .yieldKeyword ∈ roles) :
    (kind = .yieldReturnStatement ∨ kind = .yieldBreakStatement) ∨ kind = .queryConclusion ∨
      kind = .block ∨ kind = .compilationUnit := by
  induction production with
  | ofName _ ih | ofPrimary _ ih | ofOperand _ ih | ofFromClause _ ih | ofBlock _ ih =>
    exact ih isChild
  | yieldReturn => exact .inl (.inl rfl)
  | yieldBreak => exact .inl (.inr rfl)
  | conclusion => exact .inr (.inl rfl)
  | block => exact .inr (.inr (.inl rfl))
  | file => exact .inr (.inr (.inr rfl))
  | literal isLiteral =>
    simp only [List.mem_singleton, Role.leaf.injEq] at isChild
    subst isChild
    unfold Kind.literalToken? at isLiteral
    split at isLiteral
    all_goals cases isLiteral
  | binary binds =>
    simp only [List.mem_cons, Role.leaf.injEq, List.not_mem_nil, or_false, reduceCtorEq,
      false_or] at isChild
    subst isChild
    cases binds
  | someArguments count => simp [Role.furtherArgument] at isChild
  | _ => simp at isChild

theorem yield_first (production : Production damaged role kind roles)
    (isYield : kind = .yieldReturnStatement ∨ kind = .yieldBreakStatement) :
    ∃ more, roles = .leaf .yieldKeyword :: more ∧ .leaf .yieldKeyword ∉ more := by
  induction production with
  | ofName _ ih | ofPrimary _ ih | ofOperand _ ih | ofFromClause _ ih | ofBlock _ ih =>
    exact ih isYield
  | yieldReturn =>
    exact ⟨[.leaf .returnKeyword, .expression, .leaf .semicolonToken], rfl, by decide⟩
  | yieldBreak => exact ⟨[.leaf .breakKeyword, .leaf .semicolonToken], rfl, by decide⟩
  | literal isLiteral =>
    rcases isYield with rfl | rfl
    · cases isLiteral
    · cases isLiteral
  | _ =>
    rcases isYield with isYield | isYield
    · cases isYield
    · cases isYield

end Production

namespace SyntaxTree

variable {tree : SyntaxTree} {file : ParseTree} {id : Nat}

/-- The tree holds a part of the file in some role. -/
structure HoldsPart (tree : SyntaxTree) (damaged : Prop) (file : ParseTree) (place : Place)
    (parent : Option NodeId) (role : Role) (piece : ParseTree) : Prop where
  holds : tree.Holds place parent piece
  formed : Formed damaged role piece
  isPart : piece.PartOf file

/-- A child of a node stands for `part`, which is between other pieces. The node stands for the
`whole` of them, which follows a production. -/
structure ChildAt (tree : SyntaxTree) (damaged : Prop) (file : ParseTree) (id : NodeId)
    (child : Element) (whole : ParseTree) (kind : Kind) (lefts : List Role) (role : Role)
    (rights : List Role) (before : List ParseTree) (part : ParseTree) (after : List ParseTree) :
    Prop where
  kind_eq : tree.kind id = .ok kind
  isNode : whole.IsNode kind (before ++ part :: after)
  isPart : whole.PartOf file
  production : ∃ own, Production damaged own kind (lefts ++ role :: rights)
  lefts_length : lefts.length = before.length
  rights_length : rights.length = after.length
  holdsPart : ∃ place, part.element place = child ∧
    tree.HoldsPart damaged file place (some id) role part

namespace HoldsPart

variable {place : Place} {parent : Option NodeId} {piece : ParseTree}

/-- The tree holds the children of a part that it holds. -/
theorem child (part : tree.HoldsPart damaged file place parent role piece)
    (isOwn : piece.element place = .node id) {child : Element} (isChild : tree.IsChildOf child id) :
    ∃ kind lefts own rights before inner after,
      tree.ChildAt damaged file id child piece kind lefts own rights before inner after := by
  obtain ⟨kind, children, isNode⟩ := isNode_of_element isOwn
  obtain ⟨own, ownEq, found, standsFor⟩ := part.holds.node isNode
  rw [isOwn] at ownEq
  cases ownEq
  obtain ⟨node, foundAgain, isMember⟩ := isChild
  rw [found] at foundAgain
  cases foundAgain
  obtain ⟨before, inner, after, rfl, innerPlace, rfl, innerHolds⟩ :=
    exists_split_of_forall₂ standsFor isMember
  obtain ⟨roles, production, formedAll⟩ := part.formed.production isNode
  obtain ⟨lefts, innerRole, rights, rfl, leftLength, rightLength, formed⟩ := formedAll.split
  refine ⟨kind, lefts, innerRole, rights, before, inner, after, kind_eq_ok found,
    isNode, part.isPart, ⟨role, production⟩, leftLength, rightLength, innerPlace, rfl,
    innerHolds, formed, part.isPart.of_child isNode (by simp)⟩

/-- The tree holds what is below a part that it holds. -/
theorem below {top : Nat} (part : tree.HoldsPart damaged file place parent role piece)
    (isOwn : piece.element place = .node top) (below : tree.Below top id) :
    ∃ place parent role piece, piece.element place = .node id ∧
      tree.HoldsPart damaged file place parent role piece := by
  induction below generalizing place parent role piece with
  | refl => exact ⟨place, parent, role, piece, isOwn, part⟩
  | inside found isChild _ ih =>
    obtain ⟨_, _, _, _, _, _, _, childAt⟩ := part.child isOwn ⟨_, found, isChild⟩
    obtain ⟨innerPlace, isInner, inner⟩ := childAt.holdsPart
    exact ih inner isInner

end HoldsPart

/-- A token that the source has is a piece of its own. -/
theorem Holds.token_of_real {place : Place} {parent : Option NodeId} {piece : ParseTree}
    {token : TreeToken} (holds : tree.Holds place parent piece)
    (isOwn : piece.element place = .token id) (isToken : tree.tokens[id]? = some token)
    (isReal : token.isMissing = false) :
    ∃ leaf, piece = .token leaf ∧ leaf.kind = token.kind ∧ leaf.span = token.span := by
  cases piece with
  | token leaf =>
    cases isOwn
    have found := holds.token
    rw [isToken] at found
    cases found
    exact ⟨leaf, rfl, rfl, rfl⟩
  | missing kind =>
    cases isOwn
    have found := holds.missing
    rw [isToken] at found
    cases found
    cases isReal
  | node kind children => cases isOwn
  | wrapped kind first rest => cases isOwn

mutual

/-- A piece whose last token stands in the source ends with it. -/
theorem Holds.endsWith {place : Place} {parent : Option NodeId} {role : Role} {token : TreeToken}
    (piece : ParseTree) (holds : tree.Holds place parent piece) (formed : Formed damaged role piece)
    (isLast : place.token + piece.leafCount = id + 1) (isToken : tree.tokens[id]? = some token)
    (isReal : token.isMissing = false) :
    ∃ leaf, leaf.kind = token.kind ∧ leaf.span = token.span ∧ piece.EndsWith leaf :=
  match piece with
  | .token leaf => by
      have isOwn : (ParseTree.token leaf).element place = .token id :=
        congrArg Element.token (Nat.add_right_cancel isLast)
      obtain ⟨_, ⟨⟩, sameKind, sameSpan⟩ := holds.token_of_real isOwn isToken isReal
      exact ⟨leaf, sameKind, sameSpan, .token⟩
  | .missing kind => by
      have isOwn : (ParseTree.missing kind).element place = .token id :=
        congrArg Element.token (Nat.add_right_cancel isLast)
      obtain ⟨_, ⟨⟩, _⟩ := holds.token_of_real isOwn isToken isReal
  | .node kind children => by
      cases formed with
      | node production formed =>
        obtain ⟨others, last, rfl, leaf, sameKind, sameSpan, ends⟩ :=
          HoldsAll.endsWith children holds.inside formed (formed.ne_nil production.roles_ne_nil) isLast
            isToken isReal
        exact ⟨leaf, sameKind, sameSpan, .node (.inl rfl) ends⟩
  | .wrapped kind first [] => by
      cases formed with
      | wrapped _ formed =>
        cases formed with
        | cons formed _ =>
          obtain ⟨leaf, sameKind, sameSpan, ends⟩ :=
            Holds.endsWith first holds.wrapped.1 formed isLast isToken isReal
          have isNode : (ParseTree.wrapped kind first []).IsNode kind ([] ++ [first]) :=
            .inr ⟨first, [], rfl, rfl⟩
          exact ⟨leaf, sameKind, sameSpan, .node isNode ends⟩
  | .wrapped kind first (second :: rest) => by
      cases formed with
      | wrapped _ formed =>
        cases formed with
        | cons _ formed =>
          have isLast : (place.after first).inside.token +
              ParseTree.leafCountAll (second :: rest) = id + 1 := by
            rw [← isLast]
            exact Nat.add_assoc _ _ _
          obtain ⟨others, last, same, leaf, sameKind, sameSpan, ends⟩ :=
            HoldsAll.endsWith (second :: rest) holds.wrapped.2 formed (List.cons_ne_nil _ _) isLast
              isToken isReal
          have isNode : (ParseTree.wrapped kind first (second :: rest)).IsNode kind
              ((first :: others) ++ [last]) :=
            .inr ⟨first, second :: rest, rfl, congrArg (first :: ·) same.symm⟩
          exact ⟨leaf, sameKind, sameSpan, .node isNode ends⟩

theorem HoldsAll.endsWith {place : Place} {parent : NodeId} {roles : List Role} {token : TreeToken}
    (pieces : List ParseTree) (holds : tree.HoldsAll place parent pieces)
    (formed : FormedAll damaged roles pieces) (nonempty : pieces ≠ [])
    (isLast : place.token + ParseTree.leafCountAll pieces = id + 1)
    (isToken : tree.tokens[id]? = some token) (isReal : token.isMissing = false) :
    ∃ others last, pieces = others ++ [last] ∧
      ∃ leaf, leaf.kind = token.kind ∧ leaf.span = token.span ∧ last.EndsWith leaf :=
  match pieces with
  | [] => absurd rfl nonempty
  | [piece] => by
      cases formed with
      | cons formed _ =>
        obtain ⟨leaf, ends⟩ := Holds.endsWith piece holds.cons.1 formed isLast isToken isReal
        exact ⟨[], piece, rfl, leaf, ends⟩
  | piece :: second :: others => by
      cases formed with
      | cons _ formed =>
        have isLast : (place.after piece).token + ParseTree.leafCountAll (second :: others) =
            id + 1 := by
          rw [← isLast]
          exact Nat.add_assoc _ _ _
        obtain ⟨front, last, same, leaf, ends⟩ :=
          HoldsAll.endsWith (second :: others) holds.cons.2 formed (List.cons_ne_nil _ _) isLast
            isToken isReal
        exact ⟨piece :: front, last, congrArg (piece :: ·) same, leaf, ends⟩

end

namespace ChildAt

variable {parent : NodeId} {child : Element} {whole part : ParseTree} {lefts rights : List Role}
  {before after : List ParseTree} {leaf : Token} {keyword : Kind}

/-- A token of some kind stands in its role. -/
theorem role_eq (childAt : tree.ChildAt damaged file parent child whole kind lefts role rights
    before (.token leaf) after) : role = .leaf leaf.kind := by
  obtain ⟨_, _, part⟩ := childAt.holdsPart
  cases part.formed
  rfl

/-- Behind a piece between the braces of a block, or in a file, a keyword is accepted. -/
theorem accepts_between (childAt : tree.ChildAt damaged file parent child whole kind lefts role
      rights before part after) (holds : kind = .block ∨ kind = .compilationUnit)
    (notLast : after ≠ []) (ends : part.EndsWith leaf) : file.Accepts leaf keyword := by
  obtain ⟨more, last, rfl⟩ := List.eq_nil_or_concat after |>.resolve_left notLast
  rw [List.concat_eq_append] at childAt
  have accepts : whole.Accepts leaf keyword := .statement childAt.isNode holds ends
  exact accepts.of_part childAt.isPart

end ChildAt

theorem parent_eq_some_iff {outer : Nat} :
    tree.parent id = .ok (some outer) ↔ tree.parentOf? (.node id) = some outer := by
  rw [SyntaxTree.parent, SyntaxTree.node, parentOf?]
  cases tree.nodes[id]? with
  | none => simp
  | some node => simp [pure, Except.pure]

/-- A node that is not the first of some nodes is a child. -/
theorem Below.eq_or_isChildOf {top : Nat} (below : tree.Below top id) :
    id = top ∨ ∃ parent, tree.IsChildOf (.node id) parent := by
  induction below with
  | refl => exact .inl rfl
  | @inside top child id node found isChild _ ih =>
    rcases ih with rfl | isChildOf
    · exact .inr ⟨top, node, found, isChild⟩
    · exact .inr isChildOf

/-- The tree of a parsed file, and the shape of the file. -/
structure Shows (tree : SyntaxTree) (damaged : Prop) (file : ParseTree) : Prop where
  wellFormed : tree.WellFormed damaged
  laidOut : tree.LaidOut
  ordered : tree.OrderedTree
  root : file.element .start = .node SyntaxTree.root
  root_kind : tree.kind SyntaxTree.root = .ok .compilationUnit
  whole : tree.HoldsPart damaged file .start none .file file

namespace Shows

variable (shows : tree.Shows damaged file)

include shows

/-- Every node stands for a part of the file. -/
theorem exists_part {id : Nat} (inRange : id < tree.nodes.size) :
    ∃ place parent role piece, piece.element place = .node id ∧
      tree.HoldsPart damaged file place parent role piece :=
  shows.whole.below shows.root (shows.wellFormed.reachable id inRange)

/-- What is a child stands for a part of the file. -/
theorem exists_childAt {child : Element} {parent : NodeId} (isChild : tree.IsChildOf child parent) :
    ∃ whole kind lefts role rights before part after,
      tree.ChildAt damaged file parent child whole kind lefts role rights before part after := by
  obtain ⟨node, found, isMember⟩ := isChild
  have inRange := (Array.getElem?_eq_some_iff.mp found).1
  obtain ⟨place, outer, role, piece, isOwn, part⟩ := shows.exists_part inRange
  exact ⟨piece, part.child isOwn ⟨node, found, isMember⟩⟩

theorem token_isChildOf {token : TreeToken} (isToken : tree.tokens[id]? = some token) :
    tree.IsChildOf (.token id) token.parent :=
  (shows.ordered.parent_iff _ _).mp (by simp [parentOf?, isToken])

/-- A token of the source is a piece of the file. -/
theorem exists_leaf {token : TreeToken} (isToken : tree.tokens[id]? = some token)
    (isReal : token.isMissing = false) :
    ∃ whole kind lefts rights before leaf after, leaf.kind = token.kind ∧ leaf.span = token.span ∧
      tree.ChildAt damaged file token.parent (.token id) whole kind lefts (.leaf leaf.kind) rights
        before (.token leaf) after := by
  obtain ⟨whole, kind, lefts, role, rights, before, part, after, childAt⟩ :=
    shows.exists_childAt (shows.token_isChildOf isToken)
  obtain ⟨place, isOwn, held⟩ := childAt.holdsPart
  obtain ⟨leaf, rfl, sameKind, sameSpan⟩ := held.holds.token_of_real isOwn isToken isReal
  rw [childAt.role_eq] at childAt
  exact ⟨whole, kind, lefts, rights, before, leaf, after, sameKind, sameSpan, childAt⟩

/-- Only the file has no parent. -/
theorem node_isChildOf (inRange : id < tree.nodes.size) (notRoot : id ≠ SyntaxTree.root) :
    ∃ parent, tree.IsChildOf (.node id) parent :=
  (shows.wellFormed.reachable id inRange).eq_or_isChildOf.resolve_left notRoot

end Shows

/-- Parsing a text gives the tree of its shape. -/
theorem shows_of_scanText {number : FileId} {fileName : String} {source : SourceText}
    {features : Features} {scanned : ScannedText}
    (scans : scanText number source = .ok scanned) :
    ((parseTokens number features scanned).shape.toTree number fileName source features).Shows
      ((parseTokens number features scanned).diagnostics.hasErrors = true)
      (parseTokens number features scanned).shape := by
  have faithful := parseTokens_faithful number features (scanText_covers scans)
  obtain ⟨children, isFile⟩ := faithful.isNode
  exact {
    wellFormed := wellFormed_of_scanText scans
    laidOut := laidOut_of_scanText scans
    ordered := orderedTree_of_scanText scans
    root := by
      rw [isFile]
      rfl
    root_kind := by
      rw [isFile]
      rfl
    whole := ⟨ParseTree.holds_toTree _, faithful.formed, .refl⟩ }

end SyntaxTree

end QueryLang
