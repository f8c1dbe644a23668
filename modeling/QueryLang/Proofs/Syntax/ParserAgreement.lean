import Mathlib.Data.List.Forall2
import QueryLang.Proofs.Syntax.ParserRun
import QueryLang.Syntax.Parser.Statement

/-!
# Parsers that agree

A file can be parsed from states that differ in something the parsers do not look at. Given a
relation between such states, and one between the pieces of source that are made from them, it is
enough that the basic steps keep both: `KeptByParsing` lists them. Then every parser does, by
`Parser.Agree`, one lemma per parser.
-/

namespace QueryLang

namespace Parser

variable {α β γ δ : Type} {states : ParseState → ParseState → Prop}

/-- Run from related states, the parsers give related values and lead to related states. -/
def Agree (states : ParseState → ParseState → Prop) (values : α → β → Prop) (parser : Parser α)
    (other : Parser β) : Prop :=
  ∀ state twin, states state twin →
    parser.Leads state fun value after =>
      other.Leads twin fun otherValue otherAfter =>
        values value otherValue ∧ states after otherAfter

namespace Agree

theorem pure {values : α → β → Prop} {value : α} {other : β} (related : values value other) :
    Agree states values (pure value) (pure other) :=
  fun _ _ together => ⟨related, together⟩

theorem bind {values : α → β → Prop} {results : γ → δ → Prop} {parser : Parser α}
    {other : Parser β} {next : α → Parser γ} {nextOther : β → Parser δ}
    (agree : Agree states values parser other)
    (rest : ∀ value twin, values value twin → Agree states results (next value) (nextOther twin)) :
    Agree states results (parser >>= next) (other >>= nextOther) := by
  intro state twin together
  obtain ⟨related, togetherAfter⟩ := agree state twin together
  exact rest _ _ related _ _ togetherAfter

/-- What a step is given by looking at the state it runs from is given to the other as well. -/
theorem get {results : γ → δ → Prop} {next : ParseState → Parser γ}
    {nextOther : ParseState → Parser δ}
    (rest : ∀ state twin, states state twin →
      Agree states results (next state) (nextOther twin)) :
    Agree states results (MonadState.get >>= next) (MonadState.get >>= nextOther) := by
  intro state twin together
  exact rest state twin together state twin together

theorem set {state twin : ParseState} (together : states state twin) :
    Agree states Eq (MonadStateOf.set state) (MonadStateOf.set twin) :=
  fun _ _ _ => ⟨rfl, together⟩

theorem modify {change changeOther : ParseState → ParseState}
    (keeps : ∀ state twin, states state twin → states (change state) (changeOther twin)) :
    Agree states Eq (modify change) (modify changeOther) :=
  fun state twin together => ⟨rfl, keeps state twin together⟩

theorem ite {values : α → β → Prop} {condition : Prop} [Decidable condition]
    {yes no : Parser α} {otherYes otherNo : Parser β} (agreeYes : Agree states values yes otherYes)
    (agreeNo : Agree states values no otherNo) :
    Agree states values (if condition then yes else no)
      (if condition then otherYes else otherNo) := by
  split
  · exact agreeYes
  · exact agreeNo

theorem manyWithin {trees : ParseTree → ParseTree → Prop} {step : Parser (List ParseTree)}
    (agree : Agree states (List.Forall₂ trees) step step) (limit : Nat) :
    Agree states (List.Forall₂ trees) (Parser.manyWithin step limit)
      (Parser.manyWithin step limit) := by
  induction limit with
  | zero => exact .pure .nil
  | succ limit ih =>
    refine agree.bind fun pieces others related => ?_
    cases related with
    | nil => exact .pure .nil
    | cons first rest =>
      exact ih.bind fun more otherMore moreRelated =>
        .pure (List.rel_append (.cons first rest) moreRelated)

theorem growWithin {trees : ParseTree → ParseTree → Prop}
    {step : ParseTree → Parser (Option ParseTree)}
    (agree : ∀ piece other, trees piece other →
      Agree states (Option.Rel trees) (step piece) (step other)) (limit : Nat)
    {piece other : ParseTree} (related : trees piece other) :
    Agree states trees (Parser.growWithin step limit piece)
      (Parser.growWithin step limit other) := by
  induction limit generalizing piece other with
  | zero => exact .pure related
  | succ limit ih =>
    refine (agree piece other related).bind fun grown otherGrown grownRelated => ?_
    cases grownRelated with
    | none => exact .pure related
    | some larger => exact ih larger

end Agree

/-- The relation between states and the one between pieces of source are kept by the basic steps of
parsing. -/
structure KeptByParsing (states : ParseState → ParseState → Prop)
    (trees : ParseTree → ParseTree → Prop) : Prop where
  current : ∀ {state twin}, states state twin → state.current = twin.current
  following : ∀ {state twin}, states state twin → state.following = twin.following
  text : ∀ {state twin}, states state twin → state.currentToken.text = twin.currentToken.text
  length : ∀ {state twin}, states state twin → state.rest.length = twin.rest.length
  missing : ∀ kind, trees (.missing kind) (.missing kind)
  node : ∀ {kind children others}, List.Forall₂ trees children others →
    trees (.node kind children) (.node kind others)
  wrapped : ∀ {kind first otherFirst rest others}, trees first otherFirst →
    List.Forall₂ trees rest others →
    trees (.wrapped kind first rest) (.wrapped kind otherFirst others)
  bump : Agree states trees bump bump
  reportHere : ∀ message arguments,
    Agree states Eq (reportHere message arguments) (reportHere message arguments)
  reportAfterLast : ∀ message arguments,
    Agree states Eq (reportAfterLast message arguments) (reportAfterLast message arguments)
  reportTooDeep : Agree states Eq reportTooDeep reportTooDeep
  checkFeature : ∀ feature, Agree states Eq (checkFeature feature) (checkFeature feature)
  looseTokens : Agree states (List.Forall₂ trees) looseTokens looseTokens

namespace KeptByParsing

variable {α β : Type} {states : ParseState → ParseState → Prop}
  {trees : ParseTree → ParseTree → Prop} (kept : KeptByParsing states trees)

include kept

/-- Both parsers go on by the kind of the token at which they stand. -/
theorem atCurrent {values : α → β → Prop} {next : Kind → Parser α} {nextOther : Kind → Parser β}
    (rest : ∀ kind, Agree states values (next kind) (nextOther kind)) :
    Agree states values (Parser.current >>= next) (Parser.current >>= nextOther) := by
  intro state twin together
  simp only [leads_bind, leads_current]
  rw [← kept.current together]
  exact rest state.current state twin together

theorem expect (kind : Kind) : Agree states trees (expect kind) (expect kind) := by
  unfold Parser.expect
  refine kept.atCurrent fun current => .ite kept.bump ?_
  have missing (message : DiagnosticMessage) (arguments : List String) :
      Agree states trees
        (do Parser.reportAfterLast message arguments; return ParseTree.missing kind)
        (do Parser.reportAfterLast message arguments; return ParseTree.missing kind) :=
    (kept.reportAfterLast message arguments).bind fun _ _ _ => .pure (kept.missing kind)
  exact .ite (missing _ _) (missing _ _)

/-- Both parsers close a node with a token. -/
theorem closing (kind closer : Kind) {pieces others : List ParseTree}
    (related : List.Forall₂ trees pieces others) :
    Agree states trees (do return .node kind (pieces ++ [← Parser.expect closer]))
      (do return .node kind (others ++ [← Parser.expect closer])) :=
  (kept.expect closer).bind fun _ _ close =>
    .pure (kept.node (List.rel_append related (.cons close .nil)))

theorem missingName : trees missingName missingName :=
  kept.node (.cons (kept.missing _) .nil)

theorem many {step : Parser (List ParseTree)}
    (agree : Agree states (List.Forall₂ trees) step step) :
    Agree states (List.Forall₂ trees) (many step) (many step) := by
  refine .get fun state twin together => ?_
  rw [← kept.length together]
  exact agree.manyWithin state.rest.length

theorem grow {step : ParseTree → Parser (Option ParseTree)}
    (agree : ∀ piece other, trees piece other →
      Agree states (Option.Rel trees) (step piece) (step other))
    {piece other : ParseTree} (related : trees piece other) :
    Agree states trees (grow step piece) (grow step other) := by
  refine .get fun state twin together => ?_
  rw [← kept.length together]
  exact .growWithin agree state.rest.length related

/-! ### Expressions -/

theorem identifierName : Agree states trees identifierName identifierName :=
  (kept.expect _).bind fun _ _ identifier => .pure (kept.node (.cons identifier .nil))

theorem literal (kind : Kind) : Agree states trees (literal kind) (literal kind) :=
  kept.bump.bind fun _ _ token => .pure (kept.node (.cons token .nil))

theorem absentExpression : Agree states trees absentExpression absentExpression := by
  refine .get fun state twin together => ?_
  have sameKind : state.currentToken.kind = twin.currentToken.kind := kept.current together
  dsimp only
  rw [← sameKind, ← kept.text together]
  split
  · exact .pure kept.missingName
  · exact (kept.reportHere _ _).bind fun _ _ _ => .pure kept.missingName
  · exact (kept.reportHere _ _).bind fun _ _ _ => .pure kept.missingName

section Layers

variable {inner : Parser ParseTree} (innerAgrees : Agree states trees inner inner)

include innerAgrees

theorem fromClause : Agree states trees (fromClause inner) (fromClause inner) := by
  refine kept.bump.bind fun _ _ keyword => ?_
  refine (kept.expect _).bind fun _ _ identifier => ?_
  refine (kept.expect _).bind fun _ _ inKeyword => ?_
  refine innerAgrees.bind fun _ _ source => .pure ?_
  exact kept.node (.cons keyword (.cons identifier (.cons inKeyword (.cons source .nil))))

theorem whereClause : Agree states trees (whereClause inner) (whereClause inner) := by
  refine kept.bump.bind fun _ _ keyword => ?_
  refine innerAgrees.bind fun _ _ condition => .pure ?_
  exact kept.node (.cons keyword (.cons condition .nil))

theorem letClause : Agree states trees (letClause inner) (letClause inner) := by
  refine kept.bump.bind fun _ _ keyword => ?_
  refine (kept.expect _).bind fun _ _ identifier => ?_
  refine (kept.expect _).bind fun _ _ equals => ?_
  refine innerAgrees.bind fun _ _ value => .pure ?_
  exact kept.node (.cons keyword (.cons identifier (.cons equals (.cons value .nil))))

theorem bodyClause :
    Agree states (List.Forall₂ trees) (bodyClause inner) (bodyClause inner) := by
  refine kept.atCurrent fun kind => ?_
  split
  · exact (kept.fromClause innerAgrees).bind fun _ _ clause => .pure (.cons clause .nil)
  · exact (kept.whereClause innerAgrees).bind fun _ _ clause => .pure (.cons clause .nil)
  · exact (kept.letClause innerAgrees).bind fun _ _ clause => .pure (.cons clause .nil)
  · exact .pure .nil

theorem selectClause : Agree states trees (selectClause inner) (selectClause inner) := by
  refine kept.bump.bind fun _ _ keyword => ?_
  refine innerAgrees.bind fun _ _ value => .pure ?_
  exact kept.node (.cons keyword (.cons value .nil))

theorem groupClause : Agree states trees (groupClause inner) (groupClause inner) := by
  refine kept.bump.bind fun _ _ keyword => ?_
  refine innerAgrees.bind fun _ _ element => ?_
  refine (kept.expect _).bind fun _ _ byKeyword => ?_
  refine innerAgrees.bind fun _ _ key => .pure ?_
  exact kept.node (.cons keyword (.cons element (.cons byKeyword (.cons key .nil))))

theorem finalClause : Agree states trees (finalClause inner) (finalClause inner) := by
  refine kept.atCurrent fun kind => ?_
  split
  · exact kept.selectClause innerAgrees
  · exact kept.groupClause innerAgrees
  · exact (kept.reportAfterLast _ _).bind fun _ _ _ =>
      .pure (kept.node (.cons (kept.missing _) (.cons kept.missingName .nil)))

theorem queryConclusion : Agree states trees (queryConclusion inner) (queryConclusion inner) := by
  refine (kept.checkFeature _).bind fun _ _ _ => ?_
  refine kept.bump.bind fun _ _ yieldKeyword => ?_
  refine (kept.expect _).bind fun _ _ intoKeyword => ?_
  refine (kept.expect _).bind fun _ _ identifier => ?_
  refine (kept.expect _).bind fun _ _ doKeyword => ?_
  refine innerAgrees.bind fun _ _ body => .pure ?_
  exact kept.node (.cons yieldKeyword (.cons intoKeyword (.cons identifier (.cons doKeyword
    (.cons body .nil)))))

theorem optionalConclusion :
    Agree states (List.Forall₂ trees) (optionalConclusion inner) (optionalConclusion inner) := by
  refine kept.atCurrent fun kind => .ite ?_ (.pure .nil)
  exact (kept.queryConclusion innerAgrees).bind fun _ _ conclusion => .pure (.cons conclusion .nil)

theorem queryBody : Agree states trees (queryBody inner) (queryBody inner) := by
  refine (kept.many (kept.bodyClause innerAgrees)).bind fun _ _ clauses => ?_
  refine (kept.finalClause innerAgrees).bind fun _ _ last => ?_
  refine (kept.optionalConclusion innerAgrees).bind fun _ _ conclusion => .pure ?_
  exact kept.node (List.rel_append clauses (.cons last conclusion))

theorem queryExpression : Agree states trees (queryExpression inner) (queryExpression inner) := by
  refine (kept.fromClause innerAgrees).bind fun _ _ first => ?_
  refine (kept.queryBody innerAgrees).bind fun _ _ body => .pure ?_
  exact kept.node (.cons first (.cons body .nil))

theorem parenthesized : Agree states trees (parenthesized inner) (parenthesized inner) := by
  refine kept.bump.bind fun _ _ openParen => ?_
  refine innerAgrees.bind fun _ _ expression => ?_
  refine (kept.expect _).bind fun _ _ closeParen => .pure ?_
  exact kept.node (.cons openParen (.cons expression (.cons closeParen .nil)))

theorem primary : Agree states trees (primary inner) (primary inner) := by
  refine kept.atCurrent fun kind => ?_
  split
  · exact kept.identifierName
  · exact kept.queryExpression innerAgrees
  · exact kept.parenthesized innerAgrees
  · exact kept.literal _
  · exact kept.literal _
  · exact kept.literal _
  · exact kept.literal _
  · exact kept.absentExpression

theorem nextArgument :
    Agree states (List.Forall₂ trees) (nextArgument inner) (nextArgument inner) := by
  refine kept.atCurrent fun kind => .ite ?_ (.pure .nil)
  refine kept.bump.bind fun _ _ comma => ?_
  exact innerAgrees.bind fun _ _ argument => .pure (.cons comma (.cons argument .nil))

theorem argumentList : Agree states trees (argumentList inner) (argumentList inner) := by
  refine kept.bump.bind fun _ _ openParen => kept.atCurrent fun kind => ?_
  refine .ite (kept.closing _ _ (.cons openParen .nil)) (innerAgrees.bind fun _ _ first => ?_)
  refine (kept.many (kept.nextArgument innerAgrees)).bind fun _ _ more => ?_
  exact kept.closing _ _ (.cons openParen (.cons first more))

theorem suffix {operand other : ParseTree} (related : trees operand other) :
    Agree states (Option.Rel trees) (suffix inner operand) (suffix inner other) := by
  refine kept.atCurrent fun kind => ?_
  split
  · refine kept.bump.bind fun _ _ dot => ?_
    refine kept.identifierName.bind fun _ _ name => .pure (.some ?_)
    exact kept.wrapped related (.cons dot (.cons name .nil))
  · refine (kept.argumentList innerAgrees).bind fun _ _ arguments => .pure (.some ?_)
    exact kept.wrapped related (.cons arguments .nil)
  · exact .pure .none

theorem postfixed : Agree states trees (postfixed inner) (postfixed inner) :=
  (kept.primary innerAgrees).bind fun _ _ operand =>
    kept.grow (fun _ _ related => kept.suffix innerAgrees related) operand

end Layers

theorem operation {right : Nat → Parser ParseTree}
    (rightAgrees : ∀ precedence, Agree states trees (right precedence) (right precedence))
    (minimum : Nat) {left other : ParseTree} (related : trees left other) :
    Agree states (Option.Rel trees) (operation right minimum left)
      (operation right minimum other) := by
  refine kept.atCurrent fun kind => ?_
  split
  · next precedence _ =>
    refine .ite (.pure .none) (kept.bump.bind fun _ _ operator => ?_)
    refine (rightAgrees precedence).bind fun _ _ operand => .pure (.some ?_)
    exact kept.wrapped related (.cons operator (.cons operand .nil))
  · exact .pure .none

theorem binary {operand : Parser ParseTree} (operandAgrees : Agree states trees operand operand)
    (precedences minimum : Nat) :
    Agree states trees (binary operand precedences minimum)
      (binary operand precedences minimum) := by
  induction precedences generalizing minimum with
  | zero => exact operandAgrees
  | succ precedences ih =>
    exact operandAgrees.bind fun _ _ left =>
      kept.grow (fun _ _ related => kept.operation ih minimum related) left

theorem expression (levels : Nat) :
    Agree states trees (expression levels) (expression levels) := by
  induction levels with
  | zero => exact kept.reportTooDeep.bind fun _ _ _ => .pure kept.missingName
  | succ levels ih => exact kept.binary (kept.postfixed ih) _ _

/-! ### Statements -/

theorem recoveringStatement {statement : Parser ParseTree}
    (agree : Agree states trees statement statement) :
    Agree states (List.Forall₂ trees) (recoveringStatement statement)
      (recoveringStatement statement) := by
  refine .get fun state twin together => agree.bind fun _ _ parsed => ?_
  refine .get fun after otherAfter togetherAfter => ?_
  rw [← kept.length together, ← kept.length togetherAfter]
  refine .ite ?_ (.pure (.cons parsed .nil))
  exact kept.bump.bind fun _ _ skipped => .pure (.cons parsed (.cons skipped .nil))

theorem blockStatement {statement : Parser ParseTree}
    (agree : Agree states trees statement statement) :
    Agree states (List.Forall₂ trees) (blockStatement statement) (blockStatement statement) := by
  refine kept.atCurrent fun kind => ?_
  split
  · exact .pure .nil
  · exact .pure .nil
  · exact kept.recoveringStatement agree

theorem fileStatement {statement : Parser ParseTree}
    (agree : Agree states trees statement statement) :
    Agree states (List.Forall₂ trees) (fileStatement statement) (fileStatement statement) := by
  refine kept.atCurrent fun kind => ?_
  split
  · exact .pure .nil
  · exact kept.recoveringStatement agree

theorem blockOf {content : Parser (List ParseTree)}
    (agree : Agree states (List.Forall₂ trees) content content) :
    Agree states trees (blockOf content) (blockOf content) := by
  refine kept.atCurrent fun kind => .ite ?_ ?_
  · refine kept.bump.bind fun _ _ openBrace => ?_
    exact agree.bind fun _ _ statements => kept.closing _ _ (.cons openBrace statements)
  · refine (kept.expect _).bind fun _ _ openBrace => .pure (kept.node ?_)
    exact .cons openBrace (.cons (kept.missing _) .nil)

section Statements

variable {inner block : Parser ParseTree} (innerAgrees : Agree states trees inner inner)
  (blockAgrees : Agree states trees block block)

include innerAgrees

theorem localDeclaration :
    Agree states trees (localDeclaration inner) (localDeclaration inner) := by
  refine kept.bump.bind fun _ _ keyword => ?_
  refine (kept.expect _).bind fun _ _ identifier => ?_
  refine (kept.expect _).bind fun _ _ equals => ?_
  refine innerAgrees.bind fun _ _ initializer => ?_
  refine (kept.expect _).bind fun _ _ semicolon => .pure ?_
  exact kept.node (.cons keyword (.cons identifier (.cons equals (.cons initializer
    (.cons semicolon .nil)))))

theorem returnStatement :
    Agree states trees (returnStatement inner) (returnStatement inner) := by
  refine kept.bump.bind fun _ _ keyword => kept.atCurrent fun kind => ?_
  refine .ite (kept.closing _ _ (.cons keyword .nil)) (innerAgrees.bind fun _ _ value => ?_)
  exact kept.closing _ _ (.cons keyword (.cons value .nil))

theorem yieldStatement : Agree states trees (yieldStatement inner) (yieldStatement inner) := by
  refine .get fun state twin together => ?_
  rw [← kept.following together]
  refine .ite ?_ ?_
  · refine kept.bump.bind fun _ _ yieldKeyword => ?_
    refine kept.bump.bind fun _ _ breakKeyword => ?_
    refine (kept.expect _).bind fun _ _ semicolon => .pure ?_
    exact kept.node (.cons yieldKeyword (.cons breakKeyword (.cons semicolon .nil)))
  · refine kept.bump.bind fun _ _ yieldKeyword => ?_
    refine (kept.expect _).bind fun _ _ returnKeyword => ?_
    refine innerAgrees.bind fun _ _ value => ?_
    refine (kept.expect _).bind fun _ _ semicolon => .pure ?_
    exact kept.node (.cons yieldKeyword (.cons returnKeyword (.cons value
      (.cons semicolon .nil))))

theorem expressionStatement :
    Agree states trees (expressionStatement inner) (expressionStatement inner) := by
  refine innerAgrees.bind fun _ _ value => ?_
  refine (kept.expect _).bind fun _ _ semicolon => .pure ?_
  exact kept.node (.cons value (.cons semicolon .nil))

include blockAgrees

theorem doStatement :
    Agree states trees (doStatement block inner) (doStatement block inner) := by
  refine (kept.checkFeature _).bind fun _ _ _ => ?_
  refine kept.bump.bind fun _ _ doKeyword => ?_
  refine blockAgrees.bind fun _ _ body => ?_
  refine (kept.expect _).bind fun _ _ whileKeyword => ?_
  refine (kept.expect _).bind fun _ _ openParen => ?_
  refine innerAgrees.bind fun _ _ condition => ?_
  refine (kept.expect _).bind fun _ _ closeParen => ?_
  refine (kept.expect _).bind fun _ _ semicolon => .pure ?_
  exact kept.node (.cons doKeyword (.cons body (.cons whileKeyword (.cons openParen
    (.cons condition (.cons closeParen (.cons semicolon .nil)))))))

theorem statementOf :
    Agree states trees (statementOf block inner) (statementOf block inner) := by
  refine kept.atCurrent fun kind => ?_
  split
  · exact blockAgrees
  · exact kept.localDeclaration innerAgrees
  · exact kept.returnStatement innerAgrees
  · exact kept.yieldStatement innerAgrees
  · exact kept.doStatement innerAgrees blockAgrees
  · exact kept.expressionStatement innerAgrees

end Statements

theorem block (levels : Nat) : Agree states trees (block levels) (block levels) := by
  induction levels with
  | zero => exact kept.blockOf (kept.reportTooDeep.bind fun _ _ _ => kept.looseTokens)
  | succ levels ih =>
    have statements := kept.statementOf (kept.expression levels) ih
    exact kept.blockOf (kept.many (kept.blockStatement statements))

theorem statement (levels : Nat) : Agree states trees (statement levels) (statement levels) :=
  kept.statementOf (kept.expression levels) (kept.block levels)

/-- Files are parsed alike from related states. -/
theorem compilationUnit : Agree states trees compilationUnit compilationUnit := by
  refine (kept.many (kept.fileStatement (kept.statement _))).bind fun _ _ statements => ?_
  refine kept.bump.bind fun _ _ endOfFile => .pure (kept.node ?_)
  exact List.rel_append statements (.cons endOfFile .nil)

end KeptByParsing

end Parser

end QueryLang
