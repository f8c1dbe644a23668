import QueryLang.Proofs.Diagnostic.Sorting
import QueryLang.Proofs.Syntax.Children

/-!
# What views recover

A view looks for the parts of a node by kind and by number among the children. `Recovers` says what
it should find, without a search: each production lists all children of the node, and names which
of them are the parts. Where nesting was not too deep, every node of a parsed tree follows such a
production, and the view of the node finds just these parts, whatever recovery did to the node.
-/

namespace QueryLang

variable {damaged : Prop} {role : Role} {kind : Kind} {roles : List Role} {view : View}

/-- The view that nodes of a kind can be seen through. -/
def Kind.view? : Kind → Option View
  | .compilationUnit => some .compilationUnit
  | .block => some .block
  | .localDeclarationStatement => some .localDeclaration
  | .returnStatement | .yieldReturnStatement | .yieldBreakStatement => some .returnStatement
  | .doStatement => some .doStatement
  | .expressionStatement | .parenthesizedExpression | .whereClause | .selectClause =>
    some .wrappedExpression
  | .identifierName => some .identifierName
  | .numericLiteralExpression | .stringLiteralExpression | .trueLiteralExpression
  | .falseLiteralExpression => some .literal
  | .memberAccessExpression => some .memberAccess
  | .invocationExpression => some .invocation
  | .binaryExpression => some .binary
  | .queryExpression => some .query
  | .queryBody => some .queryBody
  | .fromClause => some .fromClause
  | .letClause => some .letClause
  | .groupClause => some .groupClause
  | .queryConclusion => some .queryConclusion
  | _ => none

theorem Kind.view?_of_accepts (accepts : view.accepts kind = true) : kind.view? = some view := by
  unfold View.accepts at accepts
  split at accepts
  all_goals first
    | rfl
    | cases accepts

theorem Kind.view?_of_literalToken? {token : Kind} (isLiteral : kind.literalToken? = some token) :
    kind.view? = some .literal := by
  unfold Kind.literalToken? at isLiteral
  split at isLiteral
  all_goals first
    | rfl
    | cases isLiteral

/-- What can stand between the ends of a block or file: a statement, or a token that was skipped. -/
def Slot.IsContent (slot : Slot) : Prop := slot.role = .statement ∨ ∃ kind, slot.role = .leaf kind

/-! ### Children of known roles -/

/-- There are numbers for children of these roles that are as claimed. -/
def SomeSlots : List Role → (List Slot → Prop) → Prop
  | [], claim => claim []
  | role :: rest, claim => ∃ id, SomeSlots rest fun slots => claim (⟨role, id⟩ :: slots)

theorem someSlots {claim : List Slot → Prop} {slots : List Slot} (holds : claim slots) :
    SomeSlots (slots.map Slot.role) claim := by
  induction slots generalizing claim with
  | nil => exact holds
  | cons slot rest ih => exact ⟨slot.id, ih holds⟩

/-- Where the roles are clauses and an ending, and then some, so are the children. -/
theorem exists_body {slots : List Slot} {count : Nat} {rest : List Role}
    (same : slots.map Slot.role = List.replicate count .clause ++ .ending :: rest) :
    ∃ (clauses : List NodeId) (ending : NodeId) (more : List Slot),
      more.map Slot.role = rest ∧
        slots = clauses.map (Slot.mk .clause) ++ ⟨.ending, ending⟩ :: more := by
  induction count generalizing slots with
  | zero =>
    obtain ⟨⟨_, ending⟩, more, rfl, rfl, sameRest⟩ := List.map_eq_cons_iff.mp same
    exact ⟨[], ending, more, sameRest, rfl⟩
  | succ count ih =>
    rw [List.replicate_succ, List.cons_append] at same
    obtain ⟨⟨_, clause⟩, others, rfl, rfl, sameOthers⟩ := List.map_eq_cons_iff.mp same
    obtain ⟨clauses, ending, more, sameRest, rfl⟩ := ih sameOthers
    exact ⟨clause :: clauses, ending, more, sameRest, rfl⟩

theorem exists_between {slots : List Slot} {first last : Kind} {content : List Role}
    (same : slots.map Slot.role = .leaf first :: (content ++ [.leaf last])) :
    ∃ openToken between closeToken, between.map Slot.role = content ∧
      slots = ⟨.leaf first, openToken⟩ :: (between ++ [⟨.leaf last, closeToken⟩]) := by
  obtain ⟨⟨_, openToken⟩, rest, rfl, rfl, sameRest⟩ := List.map_eq_cons_iff.mp same
  obtain ⟨between, ending, rfl, rfl, sameEnding⟩ := List.map_eq_append_iff.mp sameRest
  obtain ⟨⟨_, closeToken⟩, more, rfl, rfl, noMore⟩ := List.map_eq_cons_iff.mp sameEnding
  cases List.map_eq_nil_iff.mp noMore
  exact ⟨openToken, between, closeToken, rfl, rfl⟩

/-- An argument list has expressions and commas between its parentheses. -/
theorem Production.exists_arguments {slots : List Slot}
    (production : Production damaged role .argumentList (slots.map Slot.role)) :
    ∃ openParen between closeParen,
      (∀ slot ∈ between, slot.role = .expression ∨ slot.role = .leaf .commaToken) ∧
        slots = ⟨.leaf .openParenToken, openParen⟩ ::
          (between ++ [⟨.leaf .closeParenToken, closeParen⟩]) := by
  have allowed : ∃ content, (∀ role ∈ content, role = .expression ∨ role = .leaf .commaToken) ∧
      slots.map Slot.role =
        .leaf .openParenToken :: (content ++ [.leaf .closeParenToken]) := by
    generalize isList : Kind.argumentList = kind at production
    generalize slots.map Slot.role = roles at production ⊢
    induction production with
    | ofName _ ih | ofPrimary _ ih | ofOperand _ ih | ofFromClause _ ih | ofBlock _ ih =>
      exact ih isList
    | noArguments => exact ⟨[], by simp, rfl⟩
    | someArguments count =>
      refine ⟨.expression :: (List.replicate count Role.furtherArgument).flatten, ?_, rfl⟩
      simp [Role.furtherArgument, or_comm]
    | literal isLiteral =>
      rw [← isList] at isLiteral
      cases isLiteral
    | _ => cases isList
  obtain ⟨content, allowed, same⟩ := allowed
  obtain ⟨openParen, between, closeParen, rfl, rfl⟩ := exists_between same
  exact ⟨openParen, between, closeParen, List.forall_mem_map.mp allowed, rfl⟩

namespace SyntaxTree

variable {tree : SyntaxTree} {id : NodeId} {parts : List (String × ViewPart)}

/-- The parts of a node are the children that the grammar has in their roles. -/
inductive Recovers (tree : SyntaxTree) (id : NodeId) : View → List (String × ViewPart) → Prop
  | compilationUnit {content : List Slot} {endOfFile : TokenId}
      (between : ∀ slot ∈ content, slot.IsContent)
      (children : tree.HasChildren id .compilationUnit
        (content ++ [⟨.leaf .endOfFileToken, endOfFile⟩])) :
      Recovers tree id .compilationUnit
        [("node", .one id), ("statements", .many (content.filterMap Slot.node?))]
  | block {openBrace closeBrace : TokenId} {content : List Slot}
      (between : ∀ slot ∈ content, slot.IsContent ∧ slot.role ≠ .leaf .closeBraceToken)
      (children : tree.HasChildren id .block
        (⟨.leaf .openBraceToken, openBrace⟩ ::
          (content ++ [⟨.leaf .closeBraceToken, closeBrace⟩]))) :
      Recovers tree id .block
        [("node", .one id), ("open", .one openBrace),
          ("statements", .many (content.filterMap Slot.node?)), ("close", .one closeBrace)]
  | localDeclaration {varKeyword identifier equals semicolon : TokenId} {initializer : NodeId}
      (children : tree.HasChildren id .localDeclarationStatement
        [⟨.leaf .varKeyword, varKeyword⟩, ⟨.leaf .identifierToken, identifier⟩,
          ⟨.leaf .equalsToken, equals⟩, ⟨.expression, initializer⟩,
          ⟨.leaf .semicolonToken, semicolon⟩]) :
      Recovers tree id .localDeclaration
        [("node", .one id), ("identifier", .one identifier), ("initializer", .one initializer),
          ("semicolon", .one semicolon)]
  | returnNothing {keyword semicolon : TokenId}
      (children : tree.HasChildren id .returnStatement
        [⟨.leaf .returnKeyword, keyword⟩, ⟨.leaf .semicolonToken, semicolon⟩]) :
      Recovers tree id .returnStatement
        [("node", .one id), ("yield", .optional none), ("keyword", .one keyword),
          ("expression", .optional none)]
  | returnValue {keyword semicolon : TokenId} {expression : NodeId}
      (children : tree.HasChildren id .returnStatement
        [⟨.leaf .returnKeyword, keyword⟩, ⟨.expression, expression⟩,
          ⟨.leaf .semicolonToken, semicolon⟩]) :
      Recovers tree id .returnStatement
        [("node", .one id), ("yield", .optional none), ("keyword", .one keyword),
          ("expression", .optional (some expression))]
  | yieldReturn {yieldKeyword keyword semicolon : TokenId} {expression : NodeId}
      (children : tree.HasChildren id .yieldReturnStatement
        [⟨.leaf .yieldKeyword, yieldKeyword⟩, ⟨.leaf .returnKeyword, keyword⟩,
          ⟨.expression, expression⟩, ⟨.leaf .semicolonToken, semicolon⟩]) :
      Recovers tree id .returnStatement
        [("node", .one id), ("yield", .optional (some yieldKeyword)), ("keyword", .one keyword),
          ("expression", .optional (some expression))]
  | yieldBreak {yieldKeyword keyword semicolon : TokenId}
      (children : tree.HasChildren id .yieldBreakStatement
        [⟨.leaf .yieldKeyword, yieldKeyword⟩, ⟨.leaf .breakKeyword, keyword⟩,
          ⟨.leaf .semicolonToken, semicolon⟩]) :
      Recovers tree id .returnStatement
        [("node", .one id), ("yield", .optional (some yieldKeyword)), ("keyword", .one keyword),
          ("expression", .optional none)]
  | doStatement {doKeyword whileKeyword openParen closeParen semicolon : TokenId}
      {body condition : NodeId}
      (children : tree.HasChildren id .doStatement
        [⟨.leaf .doKeyword, doKeyword⟩, ⟨.block, body⟩, ⟨.leaf .whileKeyword, whileKeyword⟩,
          ⟨.leaf .openParenToken, openParen⟩, ⟨.expression, condition⟩,
          ⟨.leaf .closeParenToken, closeParen⟩, ⟨.leaf .semicolonToken, semicolon⟩]) :
      Recovers tree id .doStatement
        [("node", .one id), ("do", .one doKeyword), ("body", .one body),
          ("condition", .one condition)]
  | expressionStatement {expression : NodeId} {semicolon : TokenId}
      (children : tree.HasChildren id .expressionStatement
        [⟨.expression, expression⟩, ⟨.leaf .semicolonToken, semicolon⟩]) :
      Recovers tree id .wrappedExpression [("node", .one id), ("expression", .one expression)]
  | parenthesized {openParen closeParen : TokenId} {expression : NodeId}
      (children : tree.HasChildren id .parenthesizedExpression
        [⟨.leaf .openParenToken, openParen⟩, ⟨.expression, expression⟩,
          ⟨.leaf .closeParenToken, closeParen⟩]) :
      Recovers tree id .wrappedExpression [("node", .one id), ("expression", .one expression)]
  | whereClause {keyword : TokenId} {expression : NodeId}
      (children : tree.HasChildren id .whereClause
        [⟨.leaf .whereKeyword, keyword⟩, ⟨.expression, expression⟩]) :
      Recovers tree id .wrappedExpression [("node", .one id), ("expression", .one expression)]
  | selectClause {keyword : TokenId} {expression : NodeId}
      (children : tree.HasChildren id .selectClause
        [⟨.leaf .selectKeyword, keyword⟩, ⟨.expression, expression⟩]) :
      Recovers tree id .wrappedExpression [("node", .one id), ("expression", .one expression)]
  | identifierName {identifier : TokenId}
      (children : tree.HasChildren id .identifierName [⟨.leaf .identifierToken, identifier⟩]) :
      Recovers tree id .identifierName [("node", .one id), ("identifier", .one identifier)]
  | literal {kind tokenKind : Kind} {token : TokenId}
      (isLiteral : kind.literalToken? = some tokenKind)
      (children : tree.HasChildren id kind [⟨.leaf tokenKind, token⟩]) :
      Recovers tree id .literal [("node", .one id), ("token", .one token)]
  | memberAccess {receiver name : NodeId} {dot : TokenId}
      (children : tree.HasChildren id .memberAccessExpression
        [⟨.operand, receiver⟩, ⟨.leaf .dotToken, dot⟩, ⟨.name, name⟩]) :
      Recovers tree id .memberAccess
        [("node", .one id), ("expression", .one receiver), ("dot", .one dot), ("name", .one name)]
  | invocation {callee list : NodeId} {openParen closeParen : TokenId} {content : List Slot}
      (children : tree.HasChildren id .invocationExpression
        [⟨.operand, callee⟩, ⟨.arguments, list⟩])
      (between : ∀ slot ∈ content, slot.role = .expression ∨ slot.role = .leaf .commaToken)
      (inside : tree.HasChildren list .argumentList
        (⟨.leaf .openParenToken, openParen⟩ ::
          (content ++ [⟨.leaf .closeParenToken, closeParen⟩]))) :
      Recovers tree id .invocation
        [("node", .one id), ("expression", .one callee),
          ("arguments", .many (content.filterMap Slot.node?))]
  | binary {operatorKind : Kind} {precedence : Nat} {left right : NodeId} {operator : TokenId}
      (binds : operatorKind.binaryPrecedence? = some precedence)
      (children : tree.HasChildren id .binaryExpression
        [⟨.expression, left⟩, ⟨.leaf operatorKind, operator⟩, ⟨.expression, right⟩]) :
      Recovers tree id .binary
        [("node", .one id), ("left", .one left), ("operator", .one operator), ("right", .one right)]
  | query {fromClause body : NodeId}
      (children : tree.HasChildren id .queryExpression
        [⟨.fromClause, fromClause⟩, ⟨.queryBody, body⟩]) :
      Recovers tree id .query [("node", .one id), ("from", .one fromClause), ("body", .one body)]
  | queryBody {clauses : List NodeId} {ending : NodeId} {conclusion : Option NodeId}
      (children : tree.HasChildren id .queryBody
        (clauses.map (Slot.mk .clause) ++
          (⟨.ending, ending⟩ :: conclusion.toList.map (Slot.mk .conclusion)))) :
      Recovers tree id .queryBody
        [("node", .one id), ("clauses", .many clauses),
          ("select_or_group", .optional (some ending)), ("conclusion", .optional conclusion)]
  | fromClause {fromKeyword identifier inKeyword : TokenId} {expression : NodeId}
      (children : tree.HasChildren id .fromClause
        [⟨.leaf .fromKeyword, fromKeyword⟩, ⟨.leaf .identifierToken, identifier⟩,
          ⟨.leaf .inKeyword, inKeyword⟩, ⟨.expression, expression⟩]) :
      Recovers tree id .fromClause
        [("node", .one id), ("identifier", .one identifier), ("expression", .one expression)]
  | letClause {letKeyword identifier equals : TokenId} {expression : NodeId}
      (children : tree.HasChildren id .letClause
        [⟨.leaf .letKeyword, letKeyword⟩, ⟨.leaf .identifierToken, identifier⟩,
          ⟨.leaf .equalsToken, equals⟩, ⟨.expression, expression⟩]) :
      Recovers tree id .letClause
        [("node", .one id), ("identifier", .one identifier), ("expression", .one expression)]
  | groupClause {groupKeyword byKeyword : TokenId} {element key : NodeId}
      (children : tree.HasChildren id .groupClause
        [⟨.leaf .groupKeyword, groupKeyword⟩, ⟨.expression, element⟩,
          ⟨.leaf .byKeyword, byKeyword⟩, ⟨.expression, key⟩]) :
      Recovers tree id .groupClause
        [("node", .one id), ("group", .one element), ("by_keyword", .one byKeyword),
          ("by", .one key)]
  | queryConclusion {yieldKeyword intoKeyword identifier doKeyword : TokenId} {expression : NodeId}
      (children : tree.HasChildren id .queryConclusion
        [⟨.leaf .yieldKeyword, yieldKeyword⟩, ⟨.leaf .intoKeyword, intoKeyword⟩,
          ⟨.leaf .identifierToken, identifier⟩, ⟨.leaf .doKeyword, doKeyword⟩,
          ⟨.expression, expression⟩]) :
      Recovers tree id .queryConclusion
        [("node", .one id), ("yield", .one yieldKeyword), ("into", .one intoKeyword),
          ("identifier", .one identifier), ("do", .one doKeyword), ("expression", .one expression)]

/-! ### Views find the parts -/

theorem addChild_clauses {body : QueryBodyView} {clauses : List NodeId}
    (fill : ∀ clause ∈ clauses, tree.Fills ⟨.clause, clause⟩) :
    clauses.foldlM (QueryBodyView.addChild tree) body =
      .ok { body with clauses := body.clauses ++ clauses } := by
  induction clauses generalizing body with
  | nil => simp [pure, Except.pure]
  | cons clause rest ih =>
    rw [List.forall_mem_cons] at fill
    obtain ⟨kind, kindEq, allows⟩ := fill.1
    have isClause : kind = .fromClause ∨ kind = .whereClause ∨ kind = .letClause := by
      simpa [Role.allows, or_assoc] using allows
    have added : QueryBodyView.addChild tree body clause =
        .ok { body with clauses := body.clauses ++ [clause] } := by
      rw [QueryBodyView.addChild, kindEq]
      obtain rfl | rfl | rfl := isClause
      all_goals rfl
    rw [List.foldlM_cons, added, Checked.ok_bind, ih fill.2]
    simp

theorem addChild_ending {body : QueryBodyView} {ending : NodeId}
    (fills : tree.Fills ⟨.ending, ending⟩) :
    QueryBodyView.addChild tree body ending = .ok { body with selectOrGroup := some ending } := by
  obtain ⟨kind, kindEq, allows⟩ := fills
  have isEnding : kind = .selectClause ∨ kind = .groupClause := by
    simpa [Role.allows] using allows
  rw [QueryBodyView.addChild, kindEq]
  obtain rfl | rfl := isEnding
  all_goals rfl

theorem addChild_conclusion {body : QueryBodyView} {conclusion : NodeId}
    (fills : tree.Fills ⟨.conclusion, conclusion⟩) :
    QueryBodyView.addChild tree body conclusion =
      .ok { body with conclusion := some conclusion } := by
  obtain ⟨kind, kindEq, allows⟩ := fills
  have isConclusion : kind = .queryConclusion := by simpa [Role.allows] using allows
  rw [QueryBodyView.addChild, kindEq, isConclusion]
  rfl

theorem HasChildren.read_queryBody {clauses : List NodeId} {ending : NodeId}
    {conclusion : Option NodeId}
    (children : tree.HasChildren id .queryBody
      (clauses.map (Slot.mk .clause) ++
        (⟨.ending, ending⟩ :: conclusion.toList.map (Slot.mk .conclusion)))) :
    QueryBodyView.read tree id = .ok ⟨id, clauses, some ending, conclusion⟩ := by
  have isClause : ∀ clause ∈ clauses, tree.Fills ⟨.clause, clause⟩ := by
    intro clause member
    exact children.fills _ (by simp [member])
  have isEnding : tree.Fills ⟨.ending, ending⟩ := children.fills _ (by simp)
  have node : (Slot.mk .ending ending).node? = some ending := rfl
  have nodes (role : Role) (isNode : role.isNode = true) (ids : List NodeId) :
      (ids.map (Slot.mk role)).filterMap Slot.node? = ids := by
    rw [List.filterMap_map]
    simp [Function.comp_def, Slot.node?, isNode]
  rw [QueryBodyView.read, children.childNodes, Checked.ok_bind, List.filterMap_append,
    nodes .clause rfl, List.filterMap_cons_some node, nodes .conclusion rfl, List.foldlM_append,
    addChild_clauses isClause, Checked.ok_bind, List.foldlM_cons, addChild_ending isEnding,
    Checked.ok_bind]
  cases conclusion with
  | none => rfl
  | some conclusion =>
    have isConclusion : tree.Fills ⟨.conclusion, conclusion⟩ := children.fills _ (by simp)
    rw [Option.toList_some, List.foldlM_cons, addChild_conclusion isConclusion]
    rfl

/-- The nodes between the ends of a file, of a block or of the arguments of a call. -/
theorem HasChildren.childNodes_between {kind first last : Kind} {openToken closeToken : TokenId}
    {content : List Slot}
    (children : tree.HasChildren id kind
      (⟨.leaf first, openToken⟩ :: (content ++ [⟨.leaf last, closeToken⟩]))) :
    tree.childNodes id = .ok (content.filterMap Slot.node?) := by
  rw [children.childNodes, List.filterMap_cons_none rfl, List.filterMap_append,
    List.filterMap_cons_none rfl, List.filterMap_nil, List.append_nil]

/-- A view finds the parts of a node. -/
theorem Recovers.read_eq (recovers : tree.Recovers id view parts) :
    view.read tree id = .ok parts := by
  cases recovers with
  | @compilationUnit content endOfFile _ children =>
    have nodesEq := children.childNodes
    rw [List.filterMap_append, List.filterMap_cons_none rfl, List.filterMap_nil,
      List.append_nil] at nodesEq
    simp only [View.read, CompilationUnitView.read, nodesEq, Checked.ok_bind, pure_bind]
    rfl
  | @block openBrace closeBrace content between children =>
    have notBefore : content.find? (fun slot => slot.role = .leaf .closeBraceToken) = none := by
      rw [List.find?_eq_none]
      intro slot member
      simpa using (between slot member).2
    have openEq := children.requireToken .openBraceToken rfl
    have closeEq := children.requireToken .closeBraceToken (by
      rw [List.find?_cons_of_neg (by simp), List.find?_append, notBefore]
      rfl)
    simp only [View.read, BlockView.read, openEq, closeEq, children.childNodes_between,
      Checked.ok_bind, pure_bind]
    rfl
  | localDeclaration children =>
    have identifierEq := children.requireToken .identifierToken rfl
    have initializerEq := children.requireChild 0 rfl
    have semicolonEq := children.requireToken .semicolonToken rfl
    simp only [View.read, LocalDeclarationView.read, identifierEq, initializerEq, semicolonEq,
      Checked.ok_bind, pure_bind]
    rfl
  | returnNothing children | returnValue children | yieldReturn children =>
    have yieldEq := children.childToken? .yieldKeyword
    have keywordEq := children.requireToken .returnKeyword rfl
    have expressionEq := children.childNode? 0
    simp only [View.read, ReturnStatementView.read, children.kind_eq, yieldEq, keywordEq,
      expressionEq, Checked.ok_bind, pure_bind, reduceCtorEq, if_false]
    rfl
  | yieldBreak children =>
    have yieldEq := children.childToken? .yieldKeyword
    have keywordEq := children.requireToken .breakKeyword rfl
    have expressionEq := children.childNode? 0
    simp only [View.read, ReturnStatementView.read, children.kind_eq, yieldEq, keywordEq,
      expressionEq, Checked.ok_bind, pure_bind, if_true]
    rfl
  | doStatement children =>
    have keywordEq := children.requireToken .doKeyword rfl
    have bodyEq := children.requireChild 0 rfl
    have conditionEq := children.requireChild 1 rfl
    simp only [View.read, DoStatementView.read, keywordEq, bodyEq, conditionEq, Checked.ok_bind,
      pure_bind]
    rfl
  | expressionStatement children | parenthesized children | whereClause children
  | selectClause children =>
    have expressionEq := children.requireChild 0 rfl
    simp only [View.read, WrappedExpressionView.read, expressionEq, Checked.ok_bind, pure_bind]
    rfl
  | identifierName children =>
    have identifierEq := children.requireToken .identifierToken rfl
    simp only [View.read, IdentifierNameView.read, identifierEq, Checked.ok_bind, pure_bind]
    rfl
  | literal isLiteral children =>
    have tokensEq := children.childTokens
    simp only [View.read, LiteralView.read, tokensEq, Checked.ok_bind, pure_bind]
    rfl
  | memberAccess children =>
    have expressionEq := children.requireChild 0 rfl
    have dotEq := children.requireToken .dotToken rfl
    have nameEq := children.requireChild 1 rfl
    simp only [View.read, MemberAccessView.read, expressionEq, dotEq, nameEq, Checked.ok_bind,
      pure_bind]
    rfl
  | invocation children between inside =>
    have listEq := children.requireChild 1 rfl
    have calleeEq := children.requireChild 0 rfl
    simp only [View.read, InvocationView.read, listEq, calleeEq, inside.childNodes_between,
      Checked.ok_bind, pure_bind]
    rfl
  | binary binds children =>
    have leftEq := children.requireChild 0 rfl
    have rightEq := children.requireChild 1 rfl
    have tokensEq := children.childTokens
    simp only [View.read, BinaryView.read, tokensEq, leftEq, rightEq, Checked.ok_bind, pure_bind]
    rfl
  | query children =>
    have fromEq := children.requireChild 0 rfl
    have bodyEq := children.requireChild 1 rfl
    simp only [View.read, QueryView.read, fromEq, bodyEq, Checked.ok_bind, pure_bind]
    rfl
  | queryBody children =>
    simp only [View.read, children.read_queryBody, Checked.ok_bind, pure_bind]
    rfl
  | fromClause children =>
    have identifierEq := children.requireToken .identifierToken rfl
    have expressionEq := children.requireChild 0 rfl
    simp only [View.read, FromClauseView.read, identifierEq, expressionEq, Checked.ok_bind,
      pure_bind]
    rfl
  | letClause children =>
    have identifierEq := children.requireToken .identifierToken rfl
    have expressionEq := children.requireChild 0 rfl
    simp only [View.read, LetClauseView.read, identifierEq, expressionEq, Checked.ok_bind,
      pure_bind]
    rfl
  | groupClause children =>
    have elementEq := children.requireChild 0 rfl
    have byEq := children.requireToken .byKeyword rfl
    have keyEq := children.requireChild 1 rfl
    simp only [View.read, GroupClauseView.read, elementEq, byEq, keyEq, Checked.ok_bind, pure_bind]
    rfl
  | queryConclusion children =>
    have yieldEq := children.requireToken .yieldKeyword rfl
    have intoEq := children.requireToken .intoKeyword rfl
    have identifierEq := children.requireToken .identifierToken rfl
    have doEq := children.requireToken .doKeyword rfl
    have expressionEq := children.requireChild 0 rfl
    simp only [View.read, QueryConclusionView.read, yieldEq, intoEq, identifierEq, doEq,
      expressionEq, Checked.ok_bind, pure_bind]
    rfl

/-! ### The grammar names the parts -/

/-- The grammar names the parts of every node that has a view. -/
theorem Shows.exists_recovers {file : ParseTree} (shows : tree.Shows damaged file)
    (braced : file.Braced) (kindEq : tree.kind id = .ok kind) (isView : kind.view? = some view) :
    ∃ parts, tree.Recovers id view parts := by
  obtain ⟨role, slots, production, children, notClosing⟩ := shows.exists_children braced kindEq
  have named := someSlots children
  generalize same : slots.map Slot.role = roles at production notClosing named
  induction production with
  | ofName _ ih | ofPrimary _ ih | ofOperand _ ih | ofFromClause _ ih | ofBlock _ ih =>
    exact ih kindEq isView children same notClosing named
  | name =>
    cases isView
    obtain ⟨identifier, children⟩ := named
    exact ⟨_, .identifierName children⟩
  | literal isLiteral =>
    rw [Kind.view?_of_literalToken? isLiteral] at isView
    cases isView
    obtain ⟨token, children⟩ := named
    exact ⟨_, .literal isLiteral children⟩
  | parenthesized =>
    cases isView
    obtain ⟨openParen, expression, closeParen, children⟩ := named
    exact ⟨_, .parenthesized children⟩
  | query =>
    cases isView
    obtain ⟨fromClause, body, children⟩ := named
    exact ⟨_, .query children⟩
  | memberAccess =>
    cases isView
    obtain ⟨receiver, dot, name, children⟩ := named
    exact ⟨_, .memberAccess children⟩
  | invocation =>
    cases isView
    obtain ⟨callee, list, children⟩ := named
    obtain ⟨listKind, listEq, isList⟩ := children.fills ⟨.arguments, list⟩ (by simp)
    have isList : listKind = .argumentList := by simpa [Role.allows] using isList
    subst isList
    obtain ⟨_, listed, listProduction, inside, _⟩ := shows.exists_children braced listEq
    obtain ⟨openParen, between, closeParen, allowed, rfl⟩ := listProduction.exists_arguments
    exact ⟨_, .invocation children allowed inside⟩
  | noArguments | someArguments => cases isView
  | binary binds =>
    cases isView
    obtain ⟨left, operator, right, children⟩ := named
    exact ⟨_, .binary binds children⟩
  | fromClause =>
    cases isView
    obtain ⟨fromKeyword, identifier, inKeyword, expression, children⟩ := named
    exact ⟨_, .fromClause children⟩
  | whereClause =>
    cases isView
    obtain ⟨keyword, expression, children⟩ := named
    exact ⟨_, .whereClause children⟩
  | letClause =>
    cases isView
    obtain ⟨letKeyword, identifier, equals, expression, children⟩ := named
    exact ⟨_, .letClause children⟩
  | selectClause =>
    cases isView
    obtain ⟨keyword, expression, children⟩ := named
    exact ⟨_, .selectClause children⟩
  | groupClause =>
    cases isView
    obtain ⟨groupKeyword, element, byKeyword, key, children⟩ := named
    exact ⟨_, .groupClause children⟩
  | conclusion =>
    cases isView
    obtain ⟨yieldKeyword, intoKeyword, identifier, doKeyword, expression, children⟩ := named
    exact ⟨_, .queryConclusion children⟩
  | queryBody count =>
    cases isView
    obtain ⟨clauses, ending, more, noMore, rfl⟩ := exists_body same
    cases List.map_eq_nil_iff.mp noMore
    exact ⟨_, @Recovers.queryBody _ _ clauses ending none children⟩
  | concludedBody count =>
    cases isView
    obtain ⟨clauses, ending, more, sameMore, rfl⟩ := exists_body same
    obtain ⟨⟨_, conclusion⟩, more, rfl, rfl, noMore⟩ := List.map_eq_cons_iff.mp sameMore
    cases List.map_eq_nil_iff.mp noMore
    exact ⟨_, @Recovers.queryBody _ _ clauses ending (some conclusion) children⟩
  | @block content allowed =>
    cases isView
    obtain ⟨openBrace, between, closeBrace, rfl, rfl⟩ := exists_between same
    refine ⟨_, .block (fun slot member => ⟨?_, ?_⟩) children⟩
    · exact (allowed _ (List.mem_map_of_mem member)).imp_right And.right
    · refine notClosing rfl _ ?_
      rw [← List.cons_append, List.dropLast_concat]
      exact List.mem_cons_of_mem _ (List.mem_map_of_mem member)
  | localDeclaration =>
    cases isView
    obtain ⟨varKeyword, identifier, equals, initializer, semicolon, children⟩ := named
    exact ⟨_, .localDeclaration children⟩
  | returnNothing =>
    cases isView
    obtain ⟨keyword, semicolon, children⟩ := named
    exact ⟨_, .returnNothing children⟩
  | returnValue =>
    cases isView
    obtain ⟨keyword, expression, semicolon, children⟩ := named
    exact ⟨_, .returnValue children⟩
  | yieldReturn =>
    cases isView
    obtain ⟨yieldKeyword, keyword, expression, semicolon, children⟩ := named
    exact ⟨_, .yieldReturn children⟩
  | yieldBreak =>
    cases isView
    obtain ⟨yieldKeyword, keyword, semicolon, children⟩ := named
    exact ⟨_, .yieldBreak children⟩
  | doStatement =>
    cases isView
    obtain ⟨doKeyword, body, whileKeyword, openParen, condition, closeParen, semicolon, children⟩ :=
      named
    exact ⟨_, .doStatement children⟩
  | expressionStatement =>
    cases isView
    obtain ⟨expression, semicolon, children⟩ := named
    exact ⟨_, .expressionStatement children⟩
  | @file content allowed =>
    cases isView
    obtain ⟨between, ending, rfl, rfl, sameEnding⟩ := List.map_eq_append_iff.mp same
    obtain ⟨⟨_, endOfFile⟩, more, rfl, rfl, noMore⟩ := List.map_eq_cons_iff.mp sameEnding
    cases List.map_eq_nil_iff.mp noMore
    refine ⟨_, .compilationUnit (fun slot member => ?_) children⟩
    exact (allowed _ (List.mem_map_of_mem member)).imp_right And.right

end SyntaxTree

/-- Where nesting was not too deep, a view finds in every node that it accepts the children that
the grammar has in its roles. -/
theorem parseText_recovers {file : FileId} {fileName : String} {source : SourceText}
    {features : Features} {parsed : ParsedFile}
    (isParsed : parseText file fileName source features = .ok parsed)
    (notTooDeep : ∀ diagnostic ∈ parsed.diagnostics,
      diagnostic.code ≠ DiagnosticMessage.tooDeeplyNested.code)
    {id : NodeId} (kindEq : parsed.tree.kind id = .ok kind) (accepts : view.accepts kind = true) :
    ∃ parts, view.read parsed.tree id = .ok parts ∧
      view.cast? parsed.tree id = .ok (some parts) ∧ parsed.tree.Recovers id view parts := by
  obtain ⟨scanned, scans, rfl⟩ := exists_scanned_of_parseText isParsed
  have shows : ((parseTokens file features scanned).shape.toTree file fileName source
      features).Shows _ _ := SyntaxTree.shows_of_scanText scans
  have braced := parseTokens_braced file features (scanText_covers scans)
    fun diagnostic isReported => notTooDeep diagnostic (Diagnostics.mem_sorted.mpr isReported)
  obtain ⟨parts, recovers⟩ := shows.exists_recovers braced kindEq (Kind.view?_of_accepts accepts)
  have readEq := recovers.read_eq
  refine ⟨parts, readEq, ?_, recovers⟩
  rw [View.cast?, kindEq, Checked.ok_bind, if_pos accepts, readEq]
  rfl

/-- A block with a token that was skipped, around a query with a clause that lacks its name, an
ending that lacks most of its parts, and a conclusion. -/
theorem parseText_recovers_damaged :
    let text := "\x7b ) from y in q let = y group yield into z do z ]; \x7d"
    let source : SourceText := ⟨text.toList, by decide +kernel⟩
    ∃ parsed, parseText 0 "main" source .all = .ok parsed ∧ parsed.diagnostics.hasErrors = true ∧
      (∀ diagnostic ∈ parsed.diagnostics,
        diagnostic.code ≠ DiagnosticMessage.tooDeeplyNested.code) ∧
      parsed.tree.kind 1 = .ok .block ∧ View.block.accepts .block = true ∧
      (∃ parts, View.block.read parsed.tree 1 = .ok parts ∧
        View.block.cast? parsed.tree 1 = .ok (some parts) ∧
        parsed.tree.Recovers 1 .block parts) ∧
      parsed.tree.kind 8 = .ok .queryBody ∧ View.queryBody.accepts .queryBody = true ∧
      ∃ parts, View.queryBody.read parsed.tree 8 = .ok parts ∧
        View.queryBody.cast? parsed.tree 8 = .ok (some parts) ∧
        parsed.tree.Recovers 8 .queryBody parts := by
  intro text source
  have isParsable : (parseText 0 "main" source .all).isOk := by decide +kernel
  have isReported : ∀ scanned ∈ (scanText 0 source).toOption,
      (parseTokens 0 .all scanned).diagnostics.hasErrors = true ∧
        ∀ diagnostic ∈ (parseTokens 0 .all scanned).diagnostics,
          diagnostic.code ≠ DiagnosticMessage.tooDeeplyNested.code := by
    decide +kernel
  have areKinds : ∀ parsed ∈ (parseText 0 "main" source .all).toOption,
      (parsed.tree.kind 1).toOption = some .block ∧
        (parsed.tree.kind 8).toOption = some .queryBody := by
    decide +kernel
  obtain ⟨parsed, isParsed⟩ := Checked.exists_ok_of_isOk isParsable
  obtain ⟨isBlock, isBody⟩ := areKinds parsed (by rw [isParsed]; rfl)
  have isBlock := Checked.eq_ok_of_toOption isBlock
  have isBody := Checked.eq_ok_of_toOption isBody
  obtain ⟨scanned, scans, same⟩ := exists_scanned_of_parseText isParsed
  obtain ⟨hasErrors, shallow⟩ := isReported scanned (by rw [scans]; rfl)
  have notTooDeep : ∀ diagnostic ∈ parsed.diagnostics,
      diagnostic.code ≠ DiagnosticMessage.tooDeeplyNested.code := by
    rw [same]
    exact fun diagnostic member => shallow diagnostic (Diagnostics.mem_sorted.mp member)
  refine ⟨parsed, isParsed, ?_, notTooDeep, isBlock, rfl,
    parseText_recovers isParsed notTooDeep isBlock rfl, isBody, rfl,
    parseText_recovers isParsed notTooDeep isBody rfl⟩
  rw [same, Diagnostics.hasErrors_sorted, hasErrors]

end QueryLang
