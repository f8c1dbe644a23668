/-!
# Replacing a pattern

`replaceAll` puts one text in place of every occurrence of another, from left to right; found
occurrences do not overlap, and what was put in is not searched again.
-/

namespace QueryLang

/-- `replaceAll pattern replacement` after an occurrence of which `skip` characters are still to
be passed over. -/
def replaceAllFrom (pattern replacement : List Char) : Nat → List Char → List Char
  | _, [] => []
  | skip + 1, _ :: rest => replaceAllFrom pattern replacement skip rest
  | 0, char :: rest =>
    if pattern.isPrefixOf (char :: rest) then
      replacement ++ replaceAllFrom pattern replacement (pattern.length - 1) rest
    else
      char :: replaceAllFrom pattern replacement 0 rest

/-- The text with every occurrence of a non-empty pattern replaced. -/
def replaceAll (pattern replacement text : List Char) : List Char :=
  replaceAllFrom pattern replacement 0 text

variable {pattern replacement text rest : List Char} {char : Char}

/-- What is to be passed over is passed over. -/
theorem replaceAllFrom_append (skipped rest : List Char) :
    replaceAllFrom pattern replacement skipped.length (skipped ++ rest) =
      replaceAll pattern replacement rest := by
  induction skipped with
  | nil => rfl
  | cons char skipped ih => exact ih

theorem replaceAll_cons (notHere : ¬pattern <+: char :: rest) :
    replaceAll pattern replacement (char :: rest) =
      char :: replaceAll pattern replacement rest := by
  rw [← List.isPrefixOf_iff_prefix] at notHere
  exact if_neg notHere

/-- A pattern at the start is replaced. -/
theorem replaceAll_pattern_append (nonempty : pattern ≠ []) (rest : List Char) :
    replaceAll pattern replacement (pattern ++ rest) =
      replacement ++ replaceAll pattern replacement rest := by
  cases pattern with
  | nil => exact absurd rfl nonempty
  | cons char pattern =>
      have isHere : (char :: pattern).isPrefixOf (char :: (pattern ++ rest)) = true :=
        List.isPrefixOf_iff_prefix.mpr (List.prefix_append _ _)
      calc replaceAll (char :: pattern) replacement (char :: (pattern ++ rest))
        _ = replacement ++ replaceAllFrom (char :: pattern) replacement pattern.length
              (pattern ++ rest) := if_pos isHere
        _ = replacement ++ replaceAll (char :: pattern) replacement rest := by
            rw [replaceAllFrom_append]

theorem replaceAll_pattern (nonempty : pattern ≠ []) :
    replaceAll pattern replacement pattern = replacement := by
  have whole : replaceAll pattern replacement (pattern ++ []) = replacement ++ [] :=
    replaceAll_pattern_append nonempty []
  rwa [List.append_nil, List.append_nil] at whole

/-- Where the pattern does not start, the text is kept. -/
theorem replaceAll_append_of_notStarts
    (notStarts : ∀ behind, behind ≠ [] → behind <:+ text → ¬pattern <+: behind ++ rest) :
    replaceAll pattern replacement (text ++ rest) =
      text ++ replaceAll pattern replacement rest := by
  induction text with
  | nil => rfl
  | cons char text ih =>
      have notHere := notStarts (char :: text) (List.cons_ne_nil _ _) List.suffix_rfl
      have kept := ih fun behind someLeft isBehind =>
        notStarts behind someLeft (isBehind.trans (List.suffix_cons _ _))
      exact (replaceAll_cons notHere).trans (congrArg (char :: ·) kept)

theorem replaceAll_eq_self (absent : ¬pattern <:+: text) :
    replaceAll pattern replacement text = text := by
  have kept : replaceAll pattern replacement (text ++ []) = text ++ [] := by
    refine replaceAll_append_of_notStarts fun behind _ isBehind isHere => absent ?_
    rw [List.append_nil] at isHere
    exact isHere.isInfix.trans isBehind.isInfix
  rwa [List.append_nil] at kept

/-- What has to be passed over in the first of two texts is passed over there. -/
theorem replaceAllFrom_append_of_notCrosses {skip : Nat} (inText : skip ≤ text.length)
    (notCrosses : ∀ behind, behind ≠ [] → behind <:+ text → pattern <+: behind ++ rest →
      pattern <+: behind) :
    replaceAllFrom pattern replacement skip (text ++ rest) =
      replaceAllFrom pattern replacement skip text ++ replaceAll pattern replacement rest := by
  induction text generalizing skip with
  | nil =>
      rw [Nat.le_zero.mp inText]
      rfl
  | cons char text ih =>
      have notCrossesTail : ∀ behind, behind ≠ [] → behind <:+ text → pattern <+: behind ++ rest →
          pattern <+: behind := fun behind someLeft isBehind =>
        notCrosses behind someLeft (isBehind.trans (List.suffix_cons _ _))
      cases skip with
      | succ skip => exact ih (Nat.le_of_succ_le_succ inText) notCrossesTail
      | zero =>
          by_cases isHere : pattern <+: char :: text
          · have isHereToo : pattern <+: char :: (text ++ rest) :=
              isHere.trans (List.prefix_append (char :: text) rest)
            have inTail : pattern.length - 1 ≤ text.length := by
              have shorter := isHere.length_le
              rw [List.length_cons] at shorter
              omega
            rw [← List.isPrefixOf_iff_prefix] at isHere isHereToo
            rw [List.cons_append, replaceAllFrom, if_pos isHereToo, replaceAllFrom, if_pos isHere,
              ih inTail notCrossesTail, List.append_assoc]
          · have notHere : ¬pattern <+: char :: (text ++ rest) := fun isHereToo =>
              isHere (notCrosses (char :: text) (List.cons_ne_nil _ _) List.suffix_rfl isHereToo)
            have inTail := ih (Nat.zero_le _) notCrossesTail
            calc replaceAll pattern replacement (char :: (text ++ rest))
              _ = char :: replaceAll pattern replacement (text ++ rest) := replaceAll_cons notHere
              _ = char :: (replaceAll pattern replacement text ++
                    replaceAll pattern replacement rest) := by rw [replaceAll, inTail]; rfl
              _ = replaceAll pattern replacement (char :: text) ++
                    replaceAll pattern replacement rest := by
                  rw [replaceAll_cons isHere]
                  rfl

/-- Of two texts, each is searched on its own when no pattern goes from the first into the
second. -/
theorem replaceAll_append
    (notCrosses : ∀ behind, behind ≠ [] → behind <:+ text → pattern <+: behind ++ rest →
      pattern <+: behind) :
    replaceAll pattern replacement (text ++ rest) =
      replaceAll pattern replacement text ++ replaceAll pattern replacement rest :=
  replaceAllFrom_append_of_notCrosses (Nat.zero_le _) notCrosses

end QueryLang
