import QueryLang.Halving
import QueryLang.Syntax.Tree

/-!
# Finding tokens by position

`findToken` is the token at a position, or the first one after it, and `tokenLeftOf?` the token to
the left of a caret. Both find it by halving, which needs the tokens to be in order.

Tokens are numbered by their place in the tree. Outside of a tree they go by ids of 32 bits, which
are cut from these numbers. `endOfFileId` and `findTokenId` answer with ids.
-/

namespace QueryLang

namespace SyntaxTree

/-- The place of the token that ends the file. -/
def endOfFileToken (tree : SyntaxTree) : Checked TokenId :=
  if tree.tokens.size = 0 then .error .positionOverflow else .ok (tree.tokens.size - 1)

/-- The id of the token that ends the file: one less than the count of tokens, which is cut to 32
bits before. -/
def endOfFileId (tree : SyntaxTree) : Checked TokenId :=
  subtractPositions (truncateToPosition tree.tokens.size) 1

/-- The nearest token before a token that stands in the source. -/
def previousToken? (tree : SyntaxTree) (id : TokenId) : Checked (Option TokenId) :=
  lastRealToken? tree.tokens id 0

/-- The nearest token after a token that stands in the source. -/
def nextToken? (tree : SyntaxTree) (id : TokenId) : Checked (Option TokenId) := do
  let next ← addPositions id 1
  firstRealToken? tree.tokens (tree.tokens.size - next) next

/-- Whether a token ends at or before a position. -/
def endsBy (tree : SyntaxTree) (position : Nat) (id : TokenId) : Checked Bool := do
  return (← (← tree.token id).span.stop) ≤ position

/-- The token that holds a position, or the first one after it when the position falls between
tokens. Past the last token there is none. -/
def tokenFrom? (tree : SyntaxTree) (position : Nat) : Checked (Option TokenId) := do
  let start ← partitionIndex (tree.endsBy position) tree.tokens.size
  firstRealToken? tree.tokens (tree.tokens.size - start) start

/-- The token that holds a position, or the first one after it when the position falls between
tokens. Past the last token it is the end-of-file token. -/
def findToken (tree : SyntaxTree) (position : Nat) : Checked TokenId := do
  match ← tree.tokenFrom? position with
  | some id => return id
  | none => tree.endOfFileToken

/-- The id of the token that `findToken` finds. -/
def findTokenId (tree : SyntaxTree) (position : Nat) : Checked TokenId := do
  match ← tree.tokenFrom? position with
  | some id => return truncateToPosition id
  | none => tree.endOfFileId

/-- The token to the left of a position: the token that holds it, or the one before when the
position is at or before that token's start. -/
def tokenLeftOf? (tree : SyntaxTree) (position : Nat) : Checked (Option TokenId) := do
  let id ← tree.findToken position
  if position ≤ (← tree.token id).span.start then
    tree.previousToken? id
  else
    return some id

end SyntaxTree

end QueryLang
