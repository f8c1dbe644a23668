import QueryLang.Text.Source

/-!
# Tokens

A token is a kind, the span it takes in its file, and its text.
-/

namespace QueryLang

/-- A scanned token. -/
structure Token where
  kind : Kind
  span : Span
  text : String
deriving DecidableEq, Inhabited

end QueryLang
