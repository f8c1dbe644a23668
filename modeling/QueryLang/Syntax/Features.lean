/-!
# Language features

Two constructs can be switched off: query conclusions and `do` statements. A construct that is
off still parses, and a diagnostic says so at its first token.
-/

namespace QueryLang

/-- A set of optional language features. -/
structure Features where
  queryConclusions : Bool
  doStatements : Bool
deriving DecidableEq, Inhabited

namespace Features

/-- No feature. -/
def none : Features := ⟨false, false⟩

/-- Query conclusions alone. -/
def onlyQueryConclusions : Features := ⟨true, false⟩

/-- `do` statements alone. -/
def onlyDoStatements : Features := ⟨false, true⟩

/-- All features. This is what a file is parsed with unless its options say otherwise. -/
def all : Features := ⟨true, true⟩

/-- The features of either set. -/
def union (left right : Features) : Features :=
  ⟨left.queryConclusions || right.queryConclusions, left.doStatements || right.doStatements⟩

/-- Whether every feature of `wanted` is in the set. -/
def enables (features wanted : Features) : Bool :=
  (!wanted.queryConclusions || features.queryConclusions)
    && (!wanted.doStatements || features.doStatements)

/-- The set as a number: bit 0 for query conclusions, bit 1 for `do` statements. -/
def bits (features : Features) : Nat :=
  (if features.queryConclusions then 1 else 0) + (if features.doStatements then 2 else 0)

/-- The set with the given bits. Bits that stand for no feature are dropped. -/
def ofBits (bits : Nat) : Features :=
  ⟨bits.testBit 0, bits.testBit 1⟩

/-- How a single feature is called in messages. -/
def displayName (features : Features) : String :=
  if features = onlyQueryConclusions then "query conclusions"
  else if features = onlyDoStatements then "do statements"
  else "unknown feature"

/-- The feature with a name as compiler options write it. -/
def ofOptionName? (name : String) : Option Features :=
  if name = "queryConclusions" then some onlyQueryConclusions
  else if name = "doStatements" then some onlyDoStatements
  else Option.none

@[simp]
theorem ofBits_bits (features : Features) : ofBits features.bits = features := by
  rcases features with ⟨_ | _, _ | _⟩ <;> decide

end Features

end QueryLang
