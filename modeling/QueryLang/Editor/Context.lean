import QueryLang.Syntax.Tree.Search

/-!
# Where a caret stands

What surrounds a caret, as far as completion needs it. All of it comes from the tree alone.
-/

namespace QueryLang

/-- What surrounds a caret. -/
structure CaretContext where
  position : Nat
  /-- The token to the left of the caret, which the caret may touch. -/
  left : Option TokenId
  /-- The last token before the word that is being typed. -/
  target : Option TokenId
  /-- Whether a statement could start here. -/
  isStatement : Bool
  /-- Whether a statement could start here, directly in the file and in no block. -/
  isGlobalStatement : Bool
deriving Inhabited

namespace SyntaxTree

/-- A token, or the one before it when it is a word that the position touches. -/
def beforeTouchedWord? (tree : SyntaxTree) (position : Nat) (id : TokenId) :
    Checked (Option TokenId) := do
  let token ← tree.token id
  if token.kind.isWord then
    if ← token.span.touches position then
      tree.previousToken? id
    else
      return some id
  else
    return some id

/-- Whether a kind of node holds statements. With `global` only the file itself counts. -/
def holdsStatements (global : Bool) (kind : Kind) : Bool :=
  kind == .compilationUnit || (!global && kind == .block)

/-- Whether the token ends a statement, or opens a block, so that the next statement could start
after it. With `global` it has to be a statement directly in the file. Where no token is in
front, a statement can start. -/
def isStatementBoundary (tree : SyntaxTree) (global : Bool) :
    Option TokenId → Checked Bool
  | none => .ok true
  | some id => do
    let token ← tree.token id
    let parentKind ← tree.kind token.parent
    match token.kind with
    | .openBraceToken => return !global && parentKind == .block
    | .semicolonToken | .closeBraceToken =>
      if token.kind = .closeBraceToken && parentKind ≠ .block then
        return false
      else if parentKind.isStatement then
        match ← tree.parent token.parent with
        | some outer => return holdsStatements global (← tree.kind outer)
        | none => return false
      else
        return false
    | _ => return false

/-- What surrounds a caret at a position. -/
def caretContext (tree : SyntaxTree) (position : Nat) : Checked CaretContext := do
  let left ← tree.tokenLeftOf? position
  let target ← match left with
    | some id => tree.beforeTouchedWord? position id
    | none => pure none
  return {
    position, left, target
    isStatement := ← tree.isStatementBoundary false target
    isGlobalStatement := ← tree.isStatementBoundary true target }

end SyntaxTree

namespace CaretContext

/-- The kind of the target token. -/
def targetKind? (context : CaretContext) (tree : SyntaxTree) : Checked (Option Kind) :=
  context.target.mapM fun id => do return (← tree.token id).kind

/-- The token that a word at the caret follows: the one before the target if the caret touches the
target and that is a word, else the target. -/
def beforeTarget? (context : CaretContext) (tree : SyntaxTree) : Checked (Option TokenId) :=
  match context.target with
  | some token => tree.beforeTouchedWord? context.position token
  | none => .ok none

/-- The kind of the node around the target token. -/
def targetParentKind? (context : CaretContext) (tree : SyntaxTree) : Checked (Option Kind) :=
  context.target.mapM fun id => do tree.kind (← tree.token id).parent

end CaretContext

end QueryLang
