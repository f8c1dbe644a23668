import QueryLang.Proofs.Diagnostic.Sorting
import QueryLang.Proofs.Syntax.ParserShape

/-!
# Parsing takes no report back

Whatever a parser does, what was reported before it ran is still reported after. If the tokens that
are left lie in a text, the places of what the parser adds lie in it too. This is an instance for
each way of putting parsers together, and from these for each parser.
-/

namespace QueryLang

/-- What is left of the tokens, and what was reported, lies in the text. -/
structure ParseState.LiesIn (state : ParseState) (chars : List Char) : Prop where
  rest : ∀ token ∈ state.rest, token.span.Within chars
  endOfFile : state.endOfFile.span.Within chars
  lastEnd : Boundary chars state.lastEnd
  placed : ∀ diagnostic ∈ state.diagnostics, diagnostic.Placed (Location.InText state.file chars)

namespace ParseState.LiesIn

variable {state : ParseState} {chars : List Char}

theorem currentToken (lies : state.LiesIn chars) : state.currentToken.span.Within chars := by
  rw [ParseState.currentToken]
  cases left : state.rest with
  | nil => exact lies.endOfFile
  | cons token rest => exact lies.rest token (left ▸ List.mem_cons_self)

theorem report (lies : state.LiesIn chars) {span : Span} (within : span.Within chars)
    (message : DiagnosticMessage) (arguments : List String) :
    (state.report span message arguments).LiesIn chars where
  rest := lies.rest
  endOfFile := lies.endOfFile
  lastEnd := lies.lastEnd
  placed := List.forall_mem_append.mpr
    ⟨lies.placed, List.forall_mem_singleton.mpr (.located ⟨rfl, within⟩ message arguments)⟩

/-- Consumed tokens end between characters. -/
theorem advance (lies : state.LiesIn chars) {consumed rest : List Token}
    (isRest : state.rest = consumed ++ rest) : (state.advance consumed rest).LiesIn chars where
  rest := fun token isLeft => lies.rest token (isRest ▸ List.mem_append_right _ isLeft)
  endOfFile := lies.endOfFile
  lastEnd := by
    rw [ParseState.advance]
    dsimp only
    split
    · next token isLast =>
        have isConsumed := List.mem_of_getLast? isLast
        exact (lies.rest token (isRest ▸ List.mem_append_left _ isConsumed)).stop_boundary
    · exact lies.lastEnd
  placed := lies.placed

end ParseState.LiesIn

/-- One state comes after another, with reports added. It lies in each text in which the state
before lay. -/
structure ParseState.Adds (state after : ParseState) : Prop where
  file : after.file = state.file
  isPrefix : state.diagnostics <+: after.diagnostics
  lies : ∀ chars, state.LiesIn chars → after.LiesIn chars

namespace ParseState.Adds

variable {state after last : ParseState}

theorem refl (state : ParseState) : state.Adds state :=
  ⟨rfl, List.prefix_rfl, fun _ lies => lies⟩

theorem trans (first : state.Adds after) (second : after.Adds last) : state.Adds last :=
  ⟨second.file.trans first.file, first.isPrefix.trans second.isPrefix,
    fun chars lies => second.lies chars (first.lies chars lies)⟩

theorem report {span : Span}
    (within : ∀ chars, state.LiesIn chars → span.Within chars) (message : DiagnosticMessage)
    (arguments : List String) : state.Adds (state.report span message arguments) :=
  ⟨rfl, List.prefix_append _ _,
    fun chars lies => lies.report (within chars lies) message arguments⟩

theorem advance {consumed rest : List Token} (isRest : state.rest = consumed ++ rest) :
    state.Adds (state.advance consumed rest) :=
  ⟨rfl, List.prefix_rfl, fun _ lies => lies.advance isRest⟩

end ParseState.Adds

namespace Parser

variable {α β : Type}

/-- Running the parser keeps what was reported, and adds reports in the text only. -/
class Grows (parser : Parser α) : Prop where
  adds : ∀ state : ParseState, parser.Leads state fun _ after => state.Adds after

namespace Grows

theorem reported {parser : Parser α} [grows : Grows parser] (state : ParseState) :
    parser.Leads state fun _ after => state.diagnostics <+: after.diagnostics :=
  (grows.adds state).mono fun _ _ => ParseState.Adds.isPrefix

theorem bind {parser : Parser α} {next : α → Parser β} [Grows parser]
    (rest : ∀ value, Grows (next value)) : Grows (parser >>= next) where
  adds := by
    intro state
    refine Leads.bind (adds state) ?_
    intro value middle before
    exact ((rest value).adds middle).mono fun _ _ after => before.trans after

end Grows

instance {value : α} : Grows (pure value : Parser α) where
  adds _ := .refl _

instance {parser : Parser α} {next : α → Parser β} [Grows parser]
    [rest : ∀ value, Grows (next value)] : Grows (parser >>= next) :=
  .bind rest

instance {condition : Prop} [Decidable condition] {yes no : Parser α} [Grows yes] [Grows no] :
    Grows (if condition then yes else no) := by
  split <;> infer_instance

instance : Grows (get : Parser ParseState) where
  adds _ := .refl _

instance : Grows current where
  adds _ := .refl _

instance : Grows bump where
  adds state := by
    rw [bump, leads_bind, leads_get]
    split
    · next token rest isRest =>
        have isSplit : state.rest = [token] ++ rest := isRest
        exact .advance isSplit
    · exact .refl _

instance {message : DiagnosticMessage} {arguments : List String} :
    Grows (reportHere message arguments) where
  adds _ := .report (fun _ lies => lies.currentToken) message arguments

instance {message : DiagnosticMessage} {arguments : List String} :
    Grows (reportAfterLast message arguments) where
  adds _ := .report (fun _ lies => .empty lies.lastEnd) message arguments

instance {kind : Kind} : Grows (expect kind) := by
  unfold expect
  infer_instance

instance : Grows reportTooDeep where
  adds state := by
    rw [reportTooDeep, leads_bind, leads_get]
    cases state.reportedTooDeep with
    | true => exact .refl _
    | false =>
        have marked : state.Adds { state with reportedTooDeep := true } :=
          ⟨rfl, List.prefix_rfl, fun _ lies =>
            ⟨lies.rest, lies.endOfFile, lies.lastEnd, lies.placed⟩⟩
        exact marked.trans (.report (fun _ lies => lies.currentToken) .tooDeeplyNested [])

instance {feature : Features} : Grows (checkFeature feature) := by
  unfold checkFeature
  infer_instance

instance {step : Parser (List ParseTree)} [Grows step] {limit : Nat} :
    Grows (manyWithin step limit) := by
  induction limit with
  | zero => exact inferInstanceAs (Grows (pure []))
  | succ limit ih =>
      refine Grows.bind fun pieces => ?_
      cases pieces <;> infer_instance

instance {step : Parser (List ParseTree)} [Grows step] : Grows (many step) := by
  unfold many
  infer_instance

instance {step : ParseTree → Parser (Option ParseTree)} [∀ piece, Grows (step piece)]
    {limit : Nat} {piece : ParseTree} : Grows (growWithin step limit piece) := by
  induction limit generalizing piece with
  | zero => exact inferInstanceAs (Grows (pure piece))
  | succ limit ih =>
      refine Grows.bind fun grown => ?_
      cases grown <;> infer_instance

instance {step : ParseTree → Parser (Option ParseTree)} [∀ piece, Grows (step piece)]
    {piece : ParseTree} : Grows (grow step piece) := by
  unfold grow
  infer_instance

/-! ### Expressions -/

instance : Grows identifierName := by
  unfold identifierName
  infer_instance

instance {kind : Kind} : Grows (literal kind) := by
  unfold literal
  infer_instance

instance : Grows absentExpression := by
  refine .bind fun state => ?_
  dsimp only
  split <;> infer_instance

section Layers

variable {inner : Parser ParseTree} [Grows inner]

instance : Grows (fromClause inner) := by
  unfold fromClause
  infer_instance

instance : Grows (bodyClause inner) := by
  have whereGrows : Grows (whereClause inner) := by
    unfold whereClause
    infer_instance
  have letGrows : Grows (letClause inner) := by
    unfold letClause
    infer_instance
  refine .bind fun kind => ?_
  split <;> infer_instance

instance : Grows (finalClause inner) := by
  have selectGrows : Grows (selectClause inner) := by
    unfold selectClause
    infer_instance
  have groupGrows : Grows (groupClause inner) := by
    unfold groupClause
    infer_instance
  refine .bind fun kind => ?_
  split <;> infer_instance

instance : Grows (queryConclusion inner) := by
  unfold queryConclusion
  infer_instance

instance : Grows (optionalConclusion inner) := by
  unfold optionalConclusion
  infer_instance

instance : Grows (queryBody inner) := by
  unfold queryBody
  infer_instance

instance : Grows (queryExpression inner) := by
  unfold queryExpression
  infer_instance

instance : Grows (primary inner) := by
  have parenthesizedGrows : Grows (parenthesized inner) := by
    unfold parenthesized
    infer_instance
  refine .bind fun kind => ?_
  split <;> infer_instance

instance : Grows (nextArgument inner) := by
  unfold nextArgument
  infer_instance

instance : Grows (argumentList inner) := by
  unfold argumentList
  infer_instance

instance {operand : ParseTree} : Grows (suffix inner operand) := by
  refine .bind fun kind => ?_
  split <;> infer_instance

instance : Grows (postfixed inner) := by
  unfold postfixed
  infer_instance

end Layers

instance {right : Nat → Parser ParseTree} [∀ precedence, Grows (right precedence)]
    {minimum : Nat} {left : ParseTree} : Grows (operation right minimum left) := by
  refine .bind fun kind => ?_
  split <;> infer_instance

instance {operand : Parser ParseTree} [Grows operand] {precedences minimum : Nat} :
    Grows (binary operand precedences minimum) := by
  induction precedences generalizing minimum with
  | zero => exact inferInstanceAs (Grows operand)
  | succ precedences ih =>
      unfold binary
      infer_instance

instance {levels : Nat} : Grows (expression levels) := by
  induction levels with
  | zero =>
      unfold expression
      infer_instance
  | succ levels ih =>
      unfold expression
      infer_instance

/-! ### Statements -/

instance : Grows looseTokens where
  adds state := .advance (splitAtClosingBrace_append 0 state.rest).symm

instance {statement : Parser ParseTree} [Grows statement] :
    Grows (recoveringStatement statement) := by
  unfold recoveringStatement
  infer_instance

instance {statement : Parser ParseTree} [Grows statement] : Grows (blockStatement statement) := by
  refine .bind fun kind => ?_
  split <;> infer_instance

instance {statement : Parser ParseTree} [Grows statement] : Grows (fileStatement statement) := by
  refine .bind fun kind => ?_
  split <;> infer_instance

instance {content : Parser (List ParseTree)} [Grows content] : Grows (blockOf content) := by
  unfold blockOf
  infer_instance

instance {block inner : Parser ParseTree} [Grows block] [Grows inner] :
    Grows (statementOf block inner) := by
  have declarationGrows : Grows (localDeclaration inner) := by
    unfold localDeclaration
    infer_instance
  have returnGrows : Grows (returnStatement inner) := by
    unfold returnStatement
    infer_instance
  have yieldGrows : Grows (yieldStatement inner) := by
    unfold yieldStatement
    infer_instance
  have doGrows : Grows (doStatement block inner) := by
    unfold doStatement
    infer_instance
  have expressionGrows : Grows (expressionStatement inner) := by
    unfold expressionStatement
    infer_instance
  refine .bind fun kind => ?_
  split <;> infer_instance

instance {levels : Nat} : Grows (block levels) := by
  induction levels with
  | zero =>
      unfold block
      infer_instance
  | succ levels ih =>
      unfold block
      infer_instance

instance {levels : Nat} : Grows (statement levels) := by
  unfold statement
  infer_instance

instance : Grows compilationUnit := by
  unfold compilationUnit
  infer_instance

end Parser

end QueryLang
