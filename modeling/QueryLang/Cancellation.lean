import QueryLang.Fault

/-!
# Cancellation tokens

A token is a handle to a flag. Clones of a token share its flag, so cancelling one cancels all of
them. Long operations look at a flag when they begin and when they are done.
-/

namespace QueryLang

/-- A set of tokens: the flag that each token refers to, and which flags are raised. -/
structure CancellationTokens where
  flagOf : Array Nat
  raised : Array Bool
deriving Inhabited

namespace CancellationTokens

/-- No tokens. -/
def empty : CancellationTokens := ⟨#[], #[]⟩

/-- Adds a token with a flag of its own. -/
def fresh (tokens : CancellationTokens) : CancellationTokens :=
  ⟨tokens.flagOf.push tokens.raised.size, tokens.raised.push false⟩

/-- Adds a token that shares the flag of another. -/
def clone (tokens : CancellationTokens) (token : Nat) : Checked CancellationTokens :=
  match tokens.flagOf[token]? with
  | some flag => .ok { tokens with flagOf := tokens.flagOf.push flag }
  | none => .error .outOfRange

/-- Raises the flag of a token. -/
def cancel (tokens : CancellationTokens) (token : Nat) : Checked CancellationTokens :=
  match tokens.flagOf[token]? with
  | some flag => .ok { tokens with raised := tokens.raised.setIfInBounds flag true }
  | none => .error .outOfRange

/-- Whether the flag of a token is raised. -/
def isCancelled (tokens : CancellationTokens) (token : Nat) : Checked Bool :=
  match tokens.flagOf[token]? with
  | some flag => .ok (tokens.raised.getD flag false)
  | none => .error .outOfRange

/-- The state of every token, in the order in which they were added. -/
def states (tokens : CancellationTokens) : List Bool :=
  tokens.flagOf.toList.map fun flag => tokens.raised.getD flag false

end CancellationTokens

/-- Stops an operation whose token was cancelled. -/
def checkCancelled (cancelled : Bool) : Checked Unit :=
  if cancelled then .error .cancelled else .ok ()

end QueryLang
