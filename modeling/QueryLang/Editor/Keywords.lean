import QueryLang.Editor.Context
import QueryLang.Syntax.View

/-!
# Keyword completion

Three keywords are offered where they can be typed: `do` and `yield`, which start statements and
are parts of query conclusions, and `return`, which starts a statement and follows `yield`.
-/

namespace QueryLang

/-- A keyword that is offered. -/
structure CompletionItem where
  label : String
  detail : String
  sortText : String
deriving DecidableEq, Inhabited

namespace CompletionItem

/-- The offer of a keyword. -/
def ofKeyword (text : String) : CompletionItem := ⟨text, "keyword", s!"1_{text}"⟩

end CompletionItem

namespace CaretContext

/-- Whether a token is the last of an expression that has a width. -/
def endsExpression (tree : SyntaxTree) (token : TokenId) (expression : NodeId) :
    Checked Bool := do
  if (← tree.width expression) = 0 then
    return false
  else
    return (← tree.lastToken? expression) == some token

/-- Whether a member is being named: the word at the caret, or nothing yet, comes after a dot. -/
def namesMember (context : CaretContext) (tree : SyntaxTree) : Checked Bool := do
  match ← context.beforeTarget? tree with
  | some before => return (← tree.token before).kind = .dotToken
  | none => return false

/-- Whether a conclusion can follow the `select` clause around a token. It cannot while a member
is being named. -/
def endsSelect (context : CaretContext) (tree : SyntaxTree) (token : TokenId) : Checked Bool := do
  match ← tree.ancestorOfKind? token .selectClause with
  | none => return false
  | some clause =>
    let view ← WrappedExpressionView.read tree clause
    if ← context.namesMember tree then
      return false
    else
      endsExpression tree token view.expression

/-- Whether a conclusion can follow the `group` clause around a token. -/
def endsGroup (tree : SyntaxTree) (token : TokenId) : Checked Bool := do
  match ← tree.ancestorOfKind? token .groupClause with
  | none => return false
  | some clause =>
    let view ← GroupClauseView.read tree clause
    if (← tree.width view.element) = 0 then
      return false
    else
      endsExpression tree token view.key

/-- Whether `yield` can be typed. -/
def offersYield (context : CaretContext) (tree : SyntaxTree) : Checked Bool := do
  if context.isStatement then
    return true
  else
    match context.target with
    | none => return false
    | some token =>
      if ← context.endsSelect tree token then return true else endsGroup tree token

/-- Whether `do` can be typed: where a statement can start, and in a conclusion once its variable
is named and the caret has left the name. -/
def offersDo (context : CaretContext) (tree : SyntaxTree) : Checked Bool := do
  if context.isStatement || context.isGlobalStatement then
    return true
  else
    match context.target with
    | none => return false
    | some token =>
      let parent := (← tree.token token).parent
      if (← tree.kind parent) = .queryConclusion then
        let view ← QueryConclusionView.read tree parent
        let identifier ← tree.token view.identifier
        if identifier.isMissing then
          return false
        else
          return !(← identifier.span.touches context.position)
      else
        return false

/-- Whether `return` can be typed: where a statement can start, and after a `yield` that does not
begin a conclusion. -/
def offersReturn (context : CaretContext) (tree : SyntaxTree) : Checked Bool := do
  if context.isStatement then
    return true
  else if (← context.targetKind? tree) = some .yieldKeyword then
    return (← context.targetParentKind? tree) ≠ some .queryConclusion
  else
    return false

end CaretContext

namespace SyntaxTree

/-- The keywords that can be typed at a position, in alphabetical order. -/
def recommendKeywords (tree : SyntaxTree) (position : Nat) : Checked (List CompletionItem) := do
  let context ← tree.caretContext position
  let offers := [("do", ← context.offersDo tree), ("return", ← context.offersReturn tree),
    ("yield", ← context.offersYield tree)]
  return (offers.filter Prod.snd).map fun (keyword, _) => .ofKeyword keyword

end SyntaxTree

end QueryLang
