import QueryLang.Fault

/-!
# Halving

`partitionIndex` finds where a condition on indices stops to hold, by halving the range of indices
until the boundary is found. The condition has to hold up to some index and fail from there on; of
other conditions it still answers what the halving finds.
-/

namespace QueryLang

/-- Looks for the first index from `base` on that is not `before` the boundary, in a range of
`size` indices. The range halves in each of at most `steps` steps. -/
def partitionIndexFrom (before : Nat → Checked Bool) : (steps base size : Nat) → Checked Nat
  | steps + 1, base, size =>
    if 1 < size then do
      let middle := base + size / 2
      partitionIndexFrom before steps (if ← before middle then middle else base)
        (size - size / 2)
    else do
      if ← before base then return base + 1 else return base
  | 0, base, _ => .ok base

/-- The number of leading indices below `size` that are `before` a boundary. -/
def partitionIndex (before : Nat → Checked Bool) (size : Nat) : Checked Nat :=
  partitionIndexFrom before size 0 size

end QueryLang
