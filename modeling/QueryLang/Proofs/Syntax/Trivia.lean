import QueryLang.Proofs.Syntax.Lexing
import QueryLang.Proofs.Syntax.ParserAgreement
import QueryLang.Proofs.Syntax.Parsing

/-!
# Trivia has no meaning

What stands between the tokens of a file does not matter. Take the tokens of a text and put one line
feed between them: the text that this gives has the same tokens, since a line feed ends whatever
does not end by itself and, unlike other white space, also stands after a string without closing
quote. The parsers look at no place. So the tree is the same apart from places, and the same is
reported.
-/

namespace QueryLang

/-! ### Scanning -/

/-- Lexemes that are alike, whatever the text after them. -/
structure Lexeme.Alike (lexeme other : Lexeme) : Prop where
  kind : lexeme.kind = other.kind
  chars : lexeme.chars = other.chars
  problem : lexeme.problem = other.problem

/-- The lexemes of a text are those of the text in which line feeds stand between them. -/
theorem Lexed.joined {offset stop : Nat} {text : List Char} {lexemes : List (Nat × Lexeme)}
    (lexed : Lexed offset text lexemes stop) (start : Nat) :
    ∃ again last,
      Lexed start (['\n'].intercalate (lexemes.map (·.2.chars))) again last ∧
        List.Forall₂ (fun first second => first.2.Alike second.2) lexemes again := by
  induction lexed generalizing start with
  | done _ => exact ⟨[], _, .done rfl, .nil⟩
  | @next _ _ _ _ _ _ lexeme others standing taken notDangling _ ih =>
    have noTrivia := noTrivia_of_splitTrivia standing
    cases others with
    | nil =>
      have alone : Lexed start (lexeme.chars ++ []) _ _ :=
        .again noTrivia taken notDangling .ends (fun _ => .inl rfl) (.done rfl)
      rw [List.append_nil] at alone
      exact ⟨[(start, { lexeme with rest := [] })], _, by simpa using alone,
        .cons ⟨rfl, rfl, rfl⟩ .nil⟩
    | cons second others =>
      obtain ⟨again, last, lexed, alike⟩ := ih (start + byteLength lexeme.chars + 1)
      have lineFeed : isWhiteSpace '\n' = true := by decide
      have moved : Lexed (start + byteLength lexeme.chars) ('\n' :: _) again last :=
        lexed.space lineFeed
      have whole := Lexed.again noTrivia taken notDangling (.space lineFeed)
        (fun _ => .inr ⟨_, rfl⟩) moved
      exact ⟨(start, { lexeme with rest := '\n' :: _ }) :: again, last, by simpa using whole,
        .cons ⟨rfl, rfl, rfl⟩ alike⟩

/-- A token without its place. -/
def Token.unplaced (token : Token) : Token := { token with span := .empty 0 }

theorem Token.unplaced_eq_iff {token other : Token} :
    token.unplaced = other.unplaced ↔ token.kind = other.kind ∧ token.text = other.text := by
  simp [Token.unplaced]

/-- A diagnostic without its place. -/
def Diagnostic.unplaced (diagnostic : Diagnostic) : Diagnostic :=
  { diagnostic with location := none }

namespace Lexeme

variable {lexeme other : Lexeme}

theorem Alike.token (alike : lexeme.Alike other) (offset place : Nat) :
    (lexeme.token offset).unplaced = (other.token place).unplaced := by
  simp [Lexeme.token, Token.unplaced, alike.kind, alike.chars]

theorem Alike.reports (alike : lexeme.Alike other) (file : FileId) (offset place : Nat) :
    (lexeme.reports file offset).map Diagnostic.unplaced =
      (other.reports file place).map Diagnostic.unplaced := by
  rw [Lexeme.reports, Lexeme.reports, ← alike.problem]
  cases lexeme.problem with
  | none => rfl
  | some problem => cases problem <;> rfl

end Lexeme

/-- Files of the same tokens and the same reports, apart from their places. -/
structure ScannedText.Alike (scanned other : ScannedText) : Prop where
  tokens : scanned.tokens.map Token.unplaced = other.tokens.map Token.unplaced
  endOfFile : scanned.endOfFile.unplaced = other.endOfFile.unplaced
  diagnostics : scanned.diagnostics.map Diagnostic.unplaced =
    other.diagnostics.map Diagnostic.unplaced

theorem ScannedText.Alike.ofLexemes {file : FileId} {lexemes others : List (Nat × Lexeme)}
    {stop last : Nat}
    (alike : List.Forall₂ (fun first second => first.2.Alike second.2) lexemes others) :
    (ScannedText.ofLexemes file lexemes stop).Alike (.ofLexemes file others last) := by
  refine ⟨?tokens, rfl, ?diagnostics⟩
  case tokens =>
    induction alike with
    | nil => rfl
    | cons head _ ih => exact congrArg₂ List.cons (head.token _ _) ih
  case diagnostics =>
    induction alike with
    | nil => rfl
    | cons head _ ih =>
      simp only [ScannedText.ofLexemes, List.flatMap_cons, List.map_append] at ih ⊢
      rw [head.reports, ih]

/-- The tokens of a text, joined by line feeds, are scanned as the same tokens. -/
theorem scanText_joined {file : FileId} {source joined : SourceText} {scanned : ScannedText}
    (scans : scanText file source = .ok scanned)
    (joins : joined.chars = ("\n".intercalate (scanned.tokens.map Token.text)).toList) :
    ∃ again, scanText file joined = .ok again ∧ scanned.Alike again := by
  obtain ⟨lexemes, stop, lexed, rfl⟩ := scanText_eq_ok_iff.mp scans
  obtain ⟨again, last, lexedAgain, alike⟩ := lexed.joined 0
  have sameText : joined.chars = ['\n'].intercalate (lexemes.map (·.2.chars)) := by
    rw [joins, String.toList_intercalate]
    simp [ScannedText.ofLexemes, Lexeme.token, Function.comp_def]
  rw [← sameText] at lexedAgain
  exact ⟨_, scanText_eq_ok_iff.mpr ⟨again, last, lexedAgain, rfl⟩, .ofLexemes alike⟩

/-! ### Parsing -/

namespace ParseTree

mutual

/-- A piece of source without the places of its tokens. -/
def unplaced : ParseTree → ParseTree
  | .token leaf => .token leaf.unplaced
  | .missing kind => .missing kind
  | .node kind children => .node kind (unplacedAll children)
  | .wrapped kind first rest => .wrapped kind first.unplaced (unplacedAll rest)

/-- Pieces of source without the places of their tokens. -/
def unplacedAll : List ParseTree → List ParseTree
  | [] => []
  | tree :: rest => tree.unplaced :: unplacedAll rest

end

/-- Pieces of source that are the same apart from places. -/
def Alike (tree other : ParseTree) : Prop := tree.unplaced = other.unplaced

theorem unplacedAll_eq {trees others : List ParseTree}
    (alike : List.Forall₂ Alike trees others) : unplacedAll trees = unplacedAll others := by
  induction alike with
  | nil => rfl
  | cons head _ ih => exact congrArg₂ List.cons head ih

end ParseTree

namespace ParseState

/-- States of parsing that are the same apart from places. -/
structure Alike (state twin : ParseState) : Prop where
  features : state.features = twin.features
  rest : state.rest.map Token.unplaced = twin.rest.map Token.unplaced
  endOfFile : state.endOfFile.unplaced = twin.endOfFile.unplaced
  diagnostics : state.diagnostics.map Diagnostic.unplaced = twin.diagnostics.map Diagnostic.unplaced
  reportedTooDeep : state.reportedTooDeep = twin.reportedTooDeep

namespace Alike

variable {state twin : ParseState} (alike : state.Alike twin)

include alike

theorem currentToken : state.currentToken.unplaced = twin.currentToken.unplaced := by
  have heads (token : Token) (tokens : List Token) :
      (tokens.headD token).unplaced = (tokens.map Token.unplaced).headD token.unplaced := by
    cases tokens <;> rfl
  rw [ParseState.currentToken, ParseState.currentToken, heads, heads, alike.rest, alike.endOfFile]

theorem report (span other : Span) (message : DiagnosticMessage) (arguments : List String) :
    (state.report span message arguments).Alike (twin.report other message arguments) where
  features := alike.features
  rest := alike.rest
  endOfFile := alike.endOfFile
  diagnostics := by
    simp only [ParseState.report, List.map_append, alike.diagnostics]
    rfl
  reportedTooDeep := alike.reportedTooDeep

theorem advance {consumed rest others otherRest : List Token}
    (sameRest : rest.map Token.unplaced = otherRest.map Token.unplaced) :
    (state.advance consumed rest).Alike (twin.advance others otherRest) :=
  ⟨alike.features, sameRest, alike.endOfFile, alike.diagnostics, alike.reportedTooDeep⟩

end Alike

end ParseState

theorem splitAtClosingBrace_unplaced (opened : Nat) (tokens : List Token) :
    splitAtClosingBrace opened (tokens.map Token.unplaced) =
      ((splitAtClosingBrace opened tokens).1.map Token.unplaced,
        (splitAtClosingBrace opened tokens).2.map Token.unplaced) := by
  have sameKind (token : Token) : token.unplaced.kind = token.kind := rfl
  induction tokens generalizing opened with
  | nil => simp [splitAtClosingBrace]
  | cons token rest ih =>
    simp only [List.map_cons, splitAtClosingBrace, sameKind]
    split <;> simp [ih]

theorem following_unplaced (state : ParseState) :
    state.following =
      (((state.rest.map Token.unplaced).drop 1).headD state.endOfFile.unplaced).kind := by
  rw [ParseState.following, ← List.map_drop]
  cases state.rest.drop 1 <;> rfl

namespace Parser

/-- No parser looks at a place. -/
theorem kept_unplaced : KeptByParsing ParseState.Alike ParseTree.Alike where
  current alike := (Token.unplaced_eq_iff.mp alike.currentToken).1
  following alike := by
    rw [following_unplaced, following_unplaced, alike.rest, alike.endOfFile]
  text alike := (Token.unplaced_eq_iff.mp alike.currentToken).2
  length alike := by simpa using congrArg List.length alike.rest
  missing kind := rfl
  node children := congrArg (ParseTree.node _) (ParseTree.unplacedAll_eq children)
  wrapped first rest := congrArg₂ (ParseTree.wrapped _) first (ParseTree.unplacedAll_eq rest)
  bump := by
    refine .get fun state twin alike => ?_
    have sameRest := alike.rest
    cases left : state.rest with
    | nil =>
      cases otherLeft : twin.rest with
      | nil => exact .pure (congrArg ParseTree.token alike.endOfFile)
      | cons other others => simp [left, otherLeft] at sameRest
    | cons token rest =>
      cases otherLeft : twin.rest with
      | nil => simp [left, otherLeft] at sameRest
      | cons other others =>
        rw [left, otherLeft, List.map_cons, List.map_cons, List.cons.injEq] at sameRest
        refine (Agree.set (alike.advance sameRest.2)).bind fun _ _ _ => .pure ?_
        exact congrArg ParseTree.token sameRest.1
  reportHere message arguments := .modify fun _ _ alike => alike.report _ _ message arguments
  reportAfterLast message arguments := .modify fun _ _ alike => alike.report _ _ message arguments
  reportTooDeep := by
    refine .get fun state twin alike => ?_
    rw [← alike.reportedTooDeep]
    refine .ite (.pure rfl) ?_
    have marks : ∀ state twin : ParseState, state.Alike twin →
        ({ state with reportedTooDeep := true } : ParseState).Alike
          { twin with reportedTooDeep := true } := fun _ _ alike =>
      ⟨alike.features, alike.rest, alike.endOfFile, alike.diagnostics, rfl⟩
    exact (Agree.modify marks).bind fun _ _ _ =>
      .modify fun _ _ alike => alike.report _ _ _ _
  checkFeature feature := by
    refine .get fun state twin alike => ?_
    rw [← alike.features]
    exact .ite (.pure rfl) (.modify fun _ _ alike => alike.report _ _ _ _)
  looseTokens := by
    refine .get fun state twin alike => ?_
    have split := splitAtClosingBrace_unplaced 0 state.rest
    rw [alike.rest, splitAtClosingBrace_unplaced, Prod.mk.injEq] at split
    refine (Agree.set (alike.advance split.2.symm)).bind fun _ _ _ => .pure ?_
    have loose := split.1.symm
    rw [← List.forall₂_eq_eq_eq, List.forall₂_map_left_iff, List.forall₂_map_right_iff] at loose
    rw [List.forall₂_map_left_iff, List.forall₂_map_right_iff]
    exact loose.imp fun _ _ same => congrArg ParseTree.token same

end Parser

/-- Files of the same tokens are parsed alike. -/
theorem parseTokens_alike {file other : FileId} {features : Features} {scanned again : ScannedText}
    (alike : scanned.Alike again) :
    (parseTokens file features scanned).shape.Alike (parseTokens other features again).shape ∧
      (parseTokens file features scanned).diagnostics.map Diagnostic.unplaced =
        (parseTokens other features again).diagnostics.map Diagnostic.unplaced := by
  have start : (ParseState.start file features scanned).Alike (.start other features again) :=
    ⟨rfl, alike.tokens, alike.endOfFile, alike.diagnostics, rfl⟩
  obtain ⟨shapes, finished⟩ := Parser.kept_unplaced.compilationUnit _ _ start
  exact ⟨shapes, finished.diagnostics⟩

/-! ### Trees -/

/-- A token of a tree without its place. -/
def TreeToken.unplaced (token : TreeToken) : TreeToken := { token with span := .empty 0 }

/-- A node of a tree without its place. -/
def TreeNode.unplaced (node : TreeNode) : TreeNode := { node with span := .empty 0 }

/-- Trees that are the same apart from the places of their nodes and tokens. -/
structure SyntaxTree.Alike (tree other : SyntaxTree) : Prop where
  nodes : tree.nodes.map TreeNode.unplaced = other.nodes.map TreeNode.unplaced
  tokens : tree.tokens.map TreeToken.unplaced = other.tokens.map TreeToken.unplaced

/-- Places with the same numbers. -/
structure Place.SameNumbers (place other : Place) : Prop where
  node : place.node = other.node
  token : place.token = other.token

namespace ParseTree

mutual

theorem nodeCount_unplaced (tree : ParseTree) : tree.unplaced.nodeCount = tree.nodeCount :=
  match tree with
  | .token _ | .missing _ => rfl
  | .node _ children => by simp [unplaced, nodeCount, nodeCountAll_unplaced children]
  | .wrapped _ first rest => by
      simp [unplaced, nodeCount, nodeCount_unplaced first, nodeCountAll_unplaced rest]

theorem nodeCountAll_unplaced (trees : List ParseTree) :
    nodeCountAll (unplacedAll trees) = nodeCountAll trees :=
  match trees with
  | [] => rfl
  | tree :: rest => by
      simp [unplacedAll, nodeCountAll, nodeCount_unplaced tree, nodeCountAll_unplaced rest]

end

mutual

theorem leafCount_unplaced (tree : ParseTree) : tree.unplaced.leafCount = tree.leafCount :=
  match tree with
  | .token _ | .missing _ => rfl
  | .node _ children => by simp [unplaced, leafCount, leafCountAll_unplaced children]
  | .wrapped _ first rest => by
      simp [unplaced, leafCount, leafCount_unplaced first, leafCountAll_unplaced rest]

theorem leafCountAll_unplaced (trees : List ParseTree) :
    leafCountAll (unplacedAll trees) = leafCountAll trees :=
  match trees with
  | [] => rfl
  | tree :: rest => by
      simp [unplacedAll, leafCountAll, leafCount_unplaced tree, leafCountAll_unplaced rest]

end

theorem sameNumbers_after {place other : Place} (same : place.SameNumbers other)
    (tree : ParseTree) : (place.after tree).SameNumbers (other.after tree.unplaced) where
  node := by simp [Place.after, same.node, nodeCount_unplaced]
  token := by simp [Place.after, same.token, leafCount_unplaced]

theorem sameNumbers_inside {place other : Place} (same : place.SameNumbers other) :
    place.inside.SameNumbers other.inside :=
  ⟨congrArg (· + 1) same.node, same.token⟩

theorem element_unplaced {place other : Place} (same : place.SameNumbers other)
    (tree : ParseTree) : tree.unplaced.element other = tree.element place := by
  cases tree with
  | token leaf => exact congrArg Element.token same.token.symm
  | missing kind => exact congrArg Element.token same.token.symm
  | node kind children => exact congrArg Element.node same.node.symm
  | wrapped kind first rest =>
    exact congrArg Element.node (sameNumbers_after same first).node.symm

theorem elements_unplaced {place other : Place} (same : place.SameNumbers other)
    (trees : List ParseTree) : elements other (unplacedAll trees) = elements place trees := by
  induction trees generalizing place other with
  | nil => rfl
  | cons tree rest ih =>
    rw [unplacedAll, elements, elements, element_unplaced same, ih (sameNumbers_after same tree)]

mutual

theorem treeTokens_unplaced {place other : Place} (same : place.SameNumbers other)
    (parent : NodeId) (tree : ParseTree) :
    (treeTokens other parent tree.unplaced).map TreeToken.unplaced =
      (treeTokens place parent tree).map TreeToken.unplaced :=
  match tree with
  | .token _ | .missing _ => rfl
  | .node _ children => by
      rw [unplaced, treeTokens, treeTokens, ← same.node]
      exact treeTokensAll_unplaced (sameNumbers_inside same) place.node children
  | .wrapped _ first rest => by
      have opened := sameNumbers_after same first
      rw [unplaced, treeTokens, treeTokens, ← opened.node, List.map_append, List.map_append,
        treeTokens_unplaced same _ first, treeTokensAll_unplaced (sameNumbers_inside opened) _ rest]

theorem treeTokensAll_unplaced {place other : Place} (same : place.SameNumbers other)
    (parent : NodeId) (trees : List ParseTree) :
    (treeTokensAll other parent (unplacedAll trees)).map TreeToken.unplaced =
      (treeTokensAll place parent trees).map TreeToken.unplaced :=
  match trees with
  | [] => rfl
  | tree :: rest => by
      rw [unplacedAll, treeTokensAll, treeTokensAll, List.map_append, List.map_append,
        treeTokens_unplaced same _ tree,
        treeTokensAll_unplaced (sameNumbers_after same tree) _ rest]

end

mutual

theorem treeNodes_unplaced {place other : Place} (same : place.SameNumbers other)
    (parent : Option NodeId) (tree : ParseTree) :
    (treeNodes other parent tree.unplaced).map TreeNode.unplaced =
      (treeNodes place parent tree).map TreeNode.unplaced :=
  match tree with
  | .token _ | .missing _ => rfl
  | .node _ children => by
      have inside := sameNumbers_inside same
      have nodes := treeNodesAll_unplaced inside place.node children
      rw [unplaced, treeNodes, treeNodes, List.map_cons, List.map_cons, ← same.node, nodes]
      simp [TreeNode.unplaced, elements_unplaced inside, ← same.token, leafCountAll_unplaced]
  | .wrapped _ first rest => by
      have opened := sameNumbers_after same first
      have inside := sameNumbers_inside opened
      have firstNodes := treeNodes_unplaced same (some (place.after first).node) first
      have restNodes := treeNodesAll_unplaced inside (place.after first).node rest
      rw [unplaced, treeNodes, treeNodes, List.map_append, List.map_append, List.map_cons,
        List.map_cons, ← opened.node, firstNodes, restNodes]
      simp [TreeNode.unplaced, element_unplaced same, elements_unplaced inside, ← same.token,
        ← opened.token, leafCountAll_unplaced]

theorem treeNodesAll_unplaced {place other : Place} (same : place.SameNumbers other)
    (parent : NodeId) (trees : List ParseTree) :
    (treeNodesAll other parent (unplacedAll trees)).map TreeNode.unplaced =
      (treeNodesAll place parent trees).map TreeNode.unplaced :=
  match trees with
  | [] => rfl
  | tree :: rest => by
      rw [unplacedAll, treeNodesAll, treeNodesAll, List.map_append, List.map_append,
        treeNodes_unplaced same _ tree,
        treeNodesAll_unplaced (sameNumbers_after same tree) _ rest]

end

/-- Shapes that are the same apart from places have trees that are. -/
theorem Alike.toTree {shape other : ParseTree} (alike : shape.Alike other)
    (file : FileId) (fileName : String) (source joined : SourceText) (features : Features) :
    (shape.toTree file fileName source features).Alike
      (other.toTree file fileName joined features) := by
  have same : Place.start.SameNumbers Place.start := ⟨rfl, rfl⟩
  have nodes (tree : ParseTree) := treeNodes_unplaced same none tree
  have tokens (tree : ParseTree) := treeTokens_unplaced same SyntaxTree.root tree
  have unplacedEq : shape.unplaced = other.unplaced := alike
  constructor
  · simp only [ParseTree.toTree, List.map_toArray]
    rw [← nodes shape, ← nodes other, unplacedEq]
  · simp only [ParseTree.toTree, List.map_toArray]
    rw [← tokens shape, ← tokens other, unplacedEq]

end ParseTree

/-! ### Files -/

/-- A kind and a text are what a token is without its place. -/
theorem kinds_and_texts_eq {tokens others : List Token}
    (same : tokens.map Token.unplaced = others.map Token.unplaced) :
    tokens.map (fun token => (token.kind, token.text)) =
      others.map fun token => (token.kind, token.text) := by
  have read (tokens : List Token) : tokens.map (fun token => (token.kind, token.text)) =
      (tokens.map Token.unplaced).map fun token => (token.kind, token.text) := by
    rw [List.map_map]
    rfl
  rw [read tokens, read others, same]

/-- Trivia has no meaning: the tokens of a text, joined by line feeds, are scanned as the same
tokens, and parsed as the same tree with the same reports, apart from places. -/
theorem trivia_irrelevant {file : FileId} {source joined : SourceText} {scanned : ScannedText}
    (scans : scanText file source = .ok scanned)
    (joins : joined.chars = ("\n".intercalate (scanned.tokens.map Token.text)).toList)
    (fileName : String) (features : Features) :
    ∃ again, scanText file joined = .ok again ∧
      again.allTokens.map (fun token => (token.kind, token.text)) =
        scanned.allTokens.map (fun token => (token.kind, token.text)) ∧
      ∃ parsed parsedAgain, parseText file fileName source features = .ok parsed ∧
        parseText file fileName joined features = .ok parsedAgain ∧
        parsed.tree.Alike parsedAgain.tree ∧
        (parsed.diagnostics.map Diagnostic.unplaced).Perm
          (parsedAgain.diagnostics.map Diagnostic.unplaced) := by
  obtain ⟨again, scansAgain, alike⟩ := scanText_joined scans joins
  obtain ⟨shapes, reports⟩ := @parseTokens_alike file file features scanned again alike
  refine ⟨again, scansAgain, ?tokens, _, _, parseText_eq_ok scans, parseText_eq_ok scansAgain,
    shapes.toTree file fileName source joined features, ?diagnostics⟩
  case tokens =>
    refine (kinds_and_texts_eq ?_).symm
    rw [ScannedText.allTokens, ScannedText.allTokens, List.map_append, List.map_append,
      alike.tokens, List.map_singleton, List.map_singleton, alike.endOfFile]
  case diagnostics =>
    have unsorted (diagnostics : Diagnostics) :
        (diagnostics.sorted.map Diagnostic.unplaced).Perm
          (diagnostics.map Diagnostic.unplaced) :=
      (List.mergeSort_perm _ _).map _
    refine (unsorted _).trans ?_
    rw [reports]
    exact (unsorted _).symm

/-- A text with an escaped line feed, a string without closing quote, comments, and characters
that start no token. -/
theorem trivia_irrelevant_unfinished :
    let source : SourceText :=
      ⟨"do\x7ba/ /b// c\n\x7d&\"x\\\ny\\\"z// \n!==1.2.from _1\"".toList,
        by decide +kernel⟩
    let joined : SourceText :=
      ⟨"do\n\x7b\na\n/\n/\nb\n\x7d\n&\n\"x\\\ny\\\"z// \n!=\n=\n1.2\n.\nfrom\n_1\n\"".toList,
        by decide +kernel⟩
    ∃ scanned, scanText 0 source = .ok scanned ∧
      joined.chars = ("\n".intercalate (scanned.tokens.map Token.text)).toList ∧
      ∃ again, scanText 0 joined = .ok again ∧
        again.allTokens.map (fun token => (token.kind, token.text)) =
          scanned.allTokens.map (fun token => (token.kind, token.text)) ∧
        ∃ parsed parsedAgain, parseText 0 "main" source .all = .ok parsed ∧
          parseText 0 "main" joined .all = .ok parsedAgain ∧
          parsed.tree.Alike parsedAgain.tree ∧
          (parsed.diagnostics.map Diagnostic.unplaced).Perm
            (parsedAgain.diagnostics.map Diagnostic.unplaced) := by
  intro source joined
  have isScanned : (scanText 0 source).isOk := by decide +kernel
  have areJoined : ∀ scanned ∈ (scanText 0 source).toOption,
      joined.chars = ("\n".intercalate (scanned.tokens.map Token.text)).toList := by
    decide +kernel
  obtain ⟨scanned, scans⟩ := Checked.exists_ok_of_isOk isScanned
  have joins := areJoined scanned (by rw [scans]; rfl)
  exact ⟨scanned, scans, joins, trivia_irrelevant scans joins "main" .all⟩

end QueryLang
