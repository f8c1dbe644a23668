import Mathlib.Data.List.Chain
import QueryLang.Diagnostic.Catalog

/-!
# Filling templates

The placeholders of a template are meant to be replaced by the arguments all at once: `substitute`
does so, on the parts of the template. Filling replaces them one after the other instead, each time
in the whole text so far. Both give the same when no placeholder is ever read where the template has
none. In the messages of the catalog the placeholders stand apart from each other and from other
braces. There the only other place is within an argument, and an argument that has the placeholder
of a later one is filled by it.
-/

namespace QueryLang

/-! ### Placeholders -/

/-- Placeholders consist of such characters. -/
def InPlaceholder (char : Char) : Prop :=
  char = '{' ∨ char = '}' ∨ char.isDigit = true

instance (char : Char) : Decidable (InPlaceholder char) :=
  inferInstanceAs (Decidable (_ ∨ _))

section Placeholders

variable {index other : Nat}

theorem placeholder_ne_nil (index : Nat) : placeholder index ≠ [] :=
  List.cons_ne_nil _ _

theorem isDigit_of_mem_digits {char : Char} (isIn : char ∈ Nat.toDigits 10 index) :
    char.isDigit = true :=
  Nat.isDigit_of_mem_toDigits (by decide) (by decide) isIn

theorem inPlaceholder_of_mem {char : Char} (isIn : char ∈ placeholder index) :
    InPlaceholder char := by
  rcases List.mem_cons.mp isIn with isOpen | isIn
  · exact .inl isOpen
  · rcases List.mem_append.mp isIn with isDigit | isClose
    · exact .inr (.inr (isDigit_of_mem_digits isDigit))
    · exact .inr (.inl (List.mem_singleton.mp isClose))

/-- Two placeholders that start at one place are the same. -/
theorem placeholder_unique {rest : List Char}
    (isPrefix : placeholder index <+: placeholder other ++ rest) : index = other := by
  have digitsOf (number : Nat) (behind : List Char) :
      (Nat.toDigits 10 number ++ '}' :: behind).takeWhile Char.isDigit =
        Nat.toDigits 10 number := by
    rw [List.takeWhile_append_of_pos fun _ => isDigit_of_mem_digits,
      List.takeWhile_cons_of_neg (by decide), List.append_nil]
  rcases isPrefix with ⟨behind, sameText⟩
  have sameTail : Nat.toDigits 10 index ++ '}' :: behind =
      Nat.toDigits 10 other ++ '}' :: rest := by
    simpa [placeholder] using sameText
  have sameDigits : Nat.toDigits 10 index = Nat.toDigits 10 other := by
    rw [← digitsOf index behind, sameTail, digitsOf]
  rw [← Nat.ofDigitChars_ten_toDigits (n := index), sameDigits, Nat.ofDigitChars_ten_toDigits]

/-- In a placeholder there is no other one. -/
theorem eq_of_placeholder_eq_append {before after : List Char}
    (sameText : placeholder other = before ++ (placeholder index ++ after)) :
    before = [] ∧ index = other := by
  cases before with
  | nil =>
      have isPrefix : placeholder index <+: placeholder other ++ [] := by
        rw [List.append_nil, sameText]
        exact List.prefix_append _ _
      exact ⟨rfl, placeholder_unique isPrefix⟩
  | cons char before =>
      exfalso
      have sameTail := (List.cons.inj sameText).2
      have isIn : '{' ∈ Nat.toDigits 10 other ++ ['}'] := by
        rw [sameTail]
        simp [placeholder]
      rcases List.mem_append.mp isIn with isDigit | isClose
      · exact absurd (isDigit_of_mem_digits isDigit) (by decide)
      · exact absurd isClose (by decide)

theorem placeholder_absent (differ : index ≠ other) :
    ¬placeholder index <:+: placeholder other := by
  rintro ⟨before, after, sameText⟩
  rw [List.append_assoc] at sameText
  exact differ (eq_of_placeholder_eq_append sameText.symm).2

end Placeholders

/-! ### Templates -/

/-- A part of a template: a character that stays, or the placeholder of an argument. -/
inductive TemplatePart
  | kept (char : Char)
  | hole (index : Nat)
deriving DecidableEq

/-- A part as text, with something in place of the placeholders. -/
def TemplatePart.text (contents : Nat → List Char) : TemplatePart → List Char
  | .kept char => [char]
  | .hole index => contents index

/-- The text of parts, with something in place of the placeholders. -/
def filled (contents : Nat → List Char) (parts : List TemplatePart) : List Char :=
  parts.flatMap (·.text contents)

/-- The parts of a template for `count` arguments, after a placeholder of which `skip` characters
are still to be passed over. -/
def templatePartsFrom (count : Nat) : (skip : Nat) → List Char → List TemplatePart
  | _, [] => []
  | skip + 1, _ :: rest => templatePartsFrom count skip rest
  | 0, char :: rest =>
    match (List.range count).find? fun index => (placeholder index).isPrefixOf (char :: rest) with
    | some index => .hole index :: templatePartsFrom count ((placeholder index).length - 1) rest
    | none => .kept char :: templatePartsFrom count 0 rest

/-- The parts of a template for `count` arguments. What looks like the placeholder of an argument
that there is not stays as it stands. -/
def templateParts (count : Nat) (template : List Char) : List TemplatePart :=
  templatePartsFrom count 0 template

/-- What stands for a placeholder: its argument, or itself if there is none. -/
def contentOf (arguments : List String) (index : Nat) : List Char :=
  match arguments[index]? with
  | some argument => argument.toList
  | none => placeholder index

/-- The template with its own placeholders replaced by the arguments, all of them at once. What is
put in is not looked at. -/
def substitute (template : String) (arguments : List String) : String :=
  String.ofList
    (filled (contentOf arguments) (templateParts arguments.length template.toList))

section Templates

variable {contents : Nat → List Char} {parts : List TemplatePart} {count index : Nat}

@[simp]
theorem filled_nil (contents : Nat → List Char) : filled contents [] = [] := rfl

@[simp]
theorem filled_cons (contents : Nat → List Char) (part : TemplatePart)
    (parts : List TemplatePart) :
    filled contents (part :: parts) = part.text contents ++ filled contents parts := rfl

theorem templateParts_kept {char : Char} {rest : List Char}
    (notHere : ∀ index < count, ¬placeholder index <+: char :: rest) :
    templateParts count (char :: rest) = .kept char :: templateParts count rest := by
  have noneHere : (List.range count).find?
      (fun index => (placeholder index).isPrefixOf (char :: rest)) = none := by
    simpa [List.isPrefixOf_iff_prefix] using notHere
  rw [templateParts, templatePartsFrom, noneHere]
  rfl

theorem templatePartsFrom_append (skipped rest : List Char) :
    templatePartsFrom count skipped.length (skipped ++ rest) = templateParts count rest := by
  induction skipped with
  | nil => rfl
  | cons char skipped ih => exact ih

theorem templateParts_placeholder (inRange : index < count) (rest : List Char) :
    templateParts count (placeholder index ++ rest) = .hole index :: templateParts count rest := by
  have isHere : (List.range count).find?
      (fun other => (placeholder other).isPrefixOf (placeholder index ++ rest)) = some index := by
    refine List.find?_range_eq_some.mpr ⟨?_, List.mem_range.mpr inRange, fun other isBefore => ?_⟩
    · exact List.isPrefixOf_iff_prefix.mpr (List.prefix_append _ _)
    · have notHere : ¬placeholder other <+: placeholder index ++ rest := fun isHere =>
        Nat.ne_of_lt isBefore (placeholder_unique isHere)
      rw [← List.isPrefixOf_iff_prefix, Bool.not_eq_true] at notHere
      rw [notHere]
      rfl
  let tail := Nat.toDigits 10 index ++ ['}']
  calc templateParts count ('{' :: (tail ++ rest))
    _ = .hole index :: templatePartsFrom count tail.length (tail ++ rest) := by
        rw [templateParts, templatePartsFrom]
        rw [placeholder, List.cons_append] at isHere
        rw [isHere]
        rfl
    _ = .hole index :: templateParts count rest := by rw [templatePartsFrom_append]

/-- Templates are made of characters and placeholders. -/
theorem template_induction (count : Nat) {motive : List Char → Prop} (nil : motive [])
    (kept : ∀ char rest, (∀ index < count, ¬placeholder index <+: char :: rest) → motive rest →
      motive (char :: rest))
    (hole : ∀ index rest, index < count → motive rest → motive (placeholder index ++ rest))
    (template : List Char) : motive template := by
  induction length : template.length using Nat.strongRecOn generalizing template with
  | ind _ ih =>
      subst length
      cases template with
      | nil => exact nil
      | cons first rest =>
          by_cases isHere : ∃ index < count, placeholder index <+: first :: rest
          · rcases isHere with ⟨index, inRange, behind, isText⟩
            rw [← isText]
            refine hole index behind inRange (ih _ ?_ behind rfl)
            have longer : 0 < (placeholder index).length :=
              List.length_pos_iff.mpr (placeholder_ne_nil index)
            rw [← isText, List.length_append]
            omega
          · refine kept first rest (fun index inRange here => isHere ⟨index, inRange, here⟩) ?_
            exact ih _ (Nat.lt_succ_self _) rest rfl

/-- With every placeholder in its own place the parts are the template. -/
theorem filled_placeholder (count : Nat) (template : List Char) :
    filled placeholder (templateParts count template) = template := by
  induction template using template_induction count with
  | nil => rfl
  | kept char rest notHere ih =>
      rw [templateParts_kept notHere, filled_cons, ih]
      rfl
  | hole index rest inRange ih =>
      rw [templateParts_placeholder inRange, filled_cons, ih]
      rfl

end Templates

/-! ### One argument after the other -/

/-- Wherever the placeholder with the index can be read in the text of the parts, it is one of
them. -/
def ReadsOnlyHoles (contents : Nat → List Char) (parts : List TemplatePart) (index : Nat) : Prop :=
  ∀ before after, filled contents parts = before ++ (placeholder index ++ after) →
    ∃ front back, parts = front ++ .hole index :: back ∧ filled contents front = before

section Steps

variable {contents : Nat → List Char} {part : TemplatePart} {parts : List TemplatePart}
  {index : Nat} {replacement : List Char}

theorem ReadsOnlyHoles.tail (isOpen : contents index = placeholder index)
    (reads : ReadsOnlyHoles contents (part :: parts) index) :
    ReadsOnlyHoles contents parts index := by
  intro before after isText
  have isWhole : filled contents (part :: parts) =
      (part.text contents ++ before) ++ (placeholder index ++ after) := by
    rw [filled_cons, isText, List.append_assoc]
  rcases reads _ _ isWhole with ⟨front, back, isParts, isBefore⟩
  cases front with
  | nil =>
      rcases List.cons.inj isParts with ⟨rfl, _⟩
      have noText : contents index = [] := (List.append_eq_nil_iff.mp isBefore.symm).1
      exact absurd (isOpen.symm.trans noText) (placeholder_ne_nil index)
  | cons first front =>
      rcases List.cons.inj isParts with ⟨rfl, isTail⟩
      exact ⟨front, back, isTail, List.append_cancel_left isBefore⟩

/-- The placeholder does not start in another part. -/
theorem ReadsOnlyHoles.notStarts (reads : ReadsOnlyHoles contents (part :: parts) index)
    (isOther : part ≠ .hole index) {behind : List Char} (someLeft : behind ≠ [])
    (isBehind : behind <:+ part.text contents) :
    ¬placeholder index <+: behind ++ filled contents parts := by
  rintro ⟨after, isHere⟩
  rcases isBehind with ⟨ahead, isText⟩
  have isWhole : filled contents (part :: parts) = ahead ++ (placeholder index ++ after) := by
    rw [filled_cons, ← isText, isHere, List.append_assoc]
  rcases reads _ _ isWhole with ⟨front, back, isParts, isBefore⟩
  cases front with
  | nil => exact isOther (List.cons.inj isParts).1
  | cons first front =>
      rcases List.cons.inj isParts with ⟨rfl, _⟩
      have lengths := congrArg List.length isBefore
      have isPositive := List.length_pos_iff.mpr someLeft
      rw [filled_cons, ← isText, List.length_append, List.length_append] at lengths
      omega

/-- What stands in place of another placeholder does not have it. -/
theorem ReadsOnlyHoles.absent (isOpen : contents index = placeholder index)
    (reads : ReadsOnlyHoles contents parts index) {other : Nat} (isOther : other ≠ index)
    (isPart : .hole other ∈ parts) : ¬placeholder index <:+: contents other := by
  induction parts with
  | nil => cases isPart
  | cons part rest ih =>
      rcases List.mem_cons.mp isPart with rfl | isLater
      · rintro ⟨ahead, behind, isText⟩
        rw [List.append_assoc] at isText
        have someText : placeholder index ++ behind ≠ [] := fun noText =>
          placeholder_ne_nil index (List.append_eq_nil_iff.mp noText).1
        refine reads.notStarts (fun same => isOther (TemplatePart.hole.inj same)) someText
          ⟨ahead, isText⟩ ?_
        rw [List.append_assoc]
        exact List.prefix_append _ _
      · exact ih (reads.tail isOpen) isLater

/-- One step puts the argument in place of the placeholders that the template has, if it can be read
nowhere else. -/
theorem ReadsOnlyHoles.replaceAll_eq (isOpen : contents index = placeholder index)
    (reads : ReadsOnlyHoles contents parts index) :
    replaceAll (placeholder index) replacement (filled contents parts) =
      filled (Function.update contents index replacement) parts := by
  induction parts with
  | nil => rfl
  | cons part rest ih =>
      have restEq := ih (reads.tail isOpen)
      by_cases isHole : part = .hole index
      · have isText : part.text contents = placeholder index := by
          rw [isHole]
          exact isOpen
        have isFilled : part.text (Function.update contents index replacement) = replacement := by
          rw [isHole]
          exact Function.update_self ..
        rw [filled_cons, filled_cons, isText, isFilled,
          replaceAll_pattern_append (placeholder_ne_nil index), restEq]
      · have sameText : part.text (Function.update contents index replacement) =
            part.text contents := by
          cases part with
          | kept char => rfl
          | hole other => exact Function.update_of_ne (fun same => isHole (by rw [same])) ..
        rw [filled_cons, filled_cons, sameText, ← restEq]
        exact replaceAll_append_of_notStarts fun behind someLeft isBehind =>
          reads.notStarts isHole someLeft isBehind

/-! ### All arguments -/

theorem contentOf_eq {arguments : List String} {argument : String}
    (isArgument : arguments[index]? = some argument) :
    contentOf arguments index = argument.toList := by
  rw [contentOf, isArgument]

theorem contentOf_length (arguments : List String) :
    contentOf arguments arguments.length = placeholder arguments.length := by
  rw [contentOf, List.getElem?_eq_none (Nat.le_refl _)]

/-- The next argument stands for its placeholder. -/
theorem update_contentOf (arguments : List String) (argument : String) :
    Function.update (contentOf arguments) arguments.length argument.toList =
      contentOf (arguments ++ [argument]) := by
  funext index
  rcases Nat.lt_trichotomy index arguments.length with isBefore | rfl | isAfter
  · rw [Function.update_of_ne (Nat.ne_of_lt isBefore), contentOf, contentOf,
      List.getElem?_append_left isBefore]
  · rw [Function.update_self, contentOf, List.getElem?_concat_length]
  · rw [Function.update_of_ne (Nat.ne_of_gt isAfter), contentOf, contentOf,
      List.getElem?_eq_none (Nat.le_of_lt isAfter), List.getElem?_eq_none]
    rw [List.length_append]
    exact isAfter

/-- With some arguments in place, the others are put in place as well. -/
theorem fillPlaceholders_eq_filled (done rest : List String)
    (reads : ∀ index, done.length ≤ index → index < (done ++ rest).length →
      ReadsOnlyHoles (contentOf ((done ++ rest).take index)) parts index) :
    fillPlaceholders done.length (filled (contentOf done) parts) rest =
      filled (contentOf (done ++ rest)) parts := by
  -- Each step moves one argument from `rest` to `done`, and all of them together stay the same.
  induction rest generalizing done with
  | nil => rw [List.append_nil, fillPlaceholders]
  | cons argument rest ih =>
      have isNext : done.length < (done ++ argument :: rest).length := by
        rw [List.length_append, List.length_cons]
        omega
      have readsNext := reads done.length (Nat.le_refl _) isNext
      rw [List.take_left] at readsNext
      have grown : done ++ argument :: rest = (done ++ [argument]) ++ rest :=
        List.append_cons done argument rest
      rw [fillPlaceholders, readsNext.replaceAll_eq (contentOf_length done), update_contentOf,
        grown]
      rw [grown] at reads
      have further := ih (done ++ [argument]) fun index isLater =>
        reads index (Nat.le_trans (by simp) isLater)
      rwa [List.length_append] at further

end Steps

/-- With the arguments before it put in, each placeholder can only be read where the template has
it. -/
def TakesLiterally (template : String) (arguments : List String) : Prop :=
  ∀ index < arguments.length, ReadsOnlyHoles (contentOf (arguments.take index))
    (templateParts arguments.length template.toList) index

/-- Filling is substituting when no placeholder is ever read where the template has none. -/
theorem formatMessage_eq_substitute {template : String} {arguments : List String}
    (literally : TakesLiterally template arguments) :
    formatMessage template arguments = substitute template arguments := by
  have isFilled := fillPlaceholders_eq_filled [] arguments fun index _ => literally index
  have isTemplate : filled (contentOf []) (templateParts arguments.length template.toList) =
      template.toList := filled_placeholder _ _
  rw [isTemplate] at isFilled
  rw [formatMessage, substitute]
  exact congrArg String.ofList isFilled

/-! ### Placeholders that stand apart -/

/-- In front of each opening brace and behind each closing one there is a character that no
placeholder has, or the text is at its end. -/
def StandsApart (template : List Char) : Prop :=
  template.IsChain fun first second =>
    (second = '{' → ¬InPlaceholder first) ∧ (first = '}' → ¬InPlaceholder second)

instance (template : List Char) : Decidable (StandsApart template) :=
  inferInstanceAs (Decidable (List.IsChain _ _))

/-- The text is empty, or starts with a character that no placeholder has. -/
def StartsOutside (text : List Char) : Prop :=
  ∀ char ∈ text.head?, ¬InPlaceholder char

section Apart

variable {contents : Nat → List Char} {template : List Char} {count index : Nat}
  {replacement : List Char}

theorem StandsApart.cons {char : Char} {rest : List Char} (apart : StandsApart (char :: rest)) :
    ('{' ∈ rest.head? → ¬InPlaceholder char) ∧ StandsApart rest := by
  rcases List.isChain_cons.mp apart with ⟨areApart, restApart⟩
  exact ⟨fun isOpen => (areApart '{' isOpen).1 rfl, restApart⟩

theorem StandsApart.behind {rest : List Char} (apart : StandsApart (placeholder index ++ rest)) :
    StandsApart rest ∧ StartsOutside rest := by
  rcases List.isChain_append.mp apart with ⟨_, restApart, areApart⟩
  refine ⟨restApart, fun char isFirst => (areApart '}' ?_ char isFirst).2 rfl⟩
  rw [placeholder, ← List.cons_append, List.getLast?_concat]
  exact rfl

/-- A placeholder does not go on into what no placeholder starts with. -/
theorem StartsOutside.notCrosses {behind rest : List Char} (outside : StartsOutside rest)
    (isHere : placeholder index <+: behind ++ rest) : placeholder index <+: behind := by
  rcases List.prefix_or_prefix_of_prefix isHere (List.prefix_append behind rest) with
    within | beyond
  · exact within
  · rcases beyond with ⟨further, isWhole⟩
    cases further with
    | nil =>
        have sameText : behind = placeholder index := (List.append_nil behind).symm.trans isWhole
        exact sameText ▸ List.prefix_rfl
    | cons char further =>
        exfalso
        rw [← isWhole, List.prefix_append_right_inj] at isHere
        rcases isHere with ⟨others, rfl⟩
        have isIn : char ∈ placeholder index := by
          rw [← isWhole]
          exact List.mem_append_right _ List.mem_cons_self
        exact outside char rfl (inPlaceholder_of_mem isIn)

/-- What is read of a placeholder in front of the next hole is read in the template. -/
theorem StandsApart.prefix_of_prefix_filled (apart : StandsApart template)
    (notOpen : '{' ∉ template.head?) {text : List Char}
    (inPlaceholder : ∀ char ∈ text, InPlaceholder char)
    (isHere : text <+: filled contents (templateParts count template)) : text <+: template := by
  induction template using template_induction count generalizing text with
  | nil => exact isHere
  | hole index rest inRange ih =>
      -- Nothing of a placeholder stands in front of the opening brace of another one.
      exact absurd rfl notOpen
  | kept char rest notHere ih =>
      rw [templateParts_kept notHere] at isHere
      cases text with
      | nil => exact List.nil_prefix
      | cons first text =>
          rcases List.cons_prefix_cons.mp isHere with ⟨rfl, isBehind⟩
          rcases apart.cons with ⟨isApart, restApart⟩
          rcases List.forall_mem_cons.mp inPlaceholder with ⟨firstIn, restIn⟩
          have restNotOpen : '{' ∉ rest.head? := fun isOpen => isApart isOpen firstIn
          exact List.cons_prefix_cons.mpr ⟨rfl, ih restApart restNotOpen restIn isBehind⟩

/-- No placeholder starts with a character that is kept. -/
theorem StandsApart.not_prefix_filled {char : Char} {rest : List Char}
    (apart : StandsApart (char :: rest)) (inRange : index < count)
    (notHere : ∀ index < count, ¬placeholder index <+: char :: rest) :
    ¬placeholder index <+: char :: filled contents (templateParts count rest) := by
  intro isHere
  rcases List.cons_prefix_cons.mp isHere with ⟨rfl, isBehind⟩
  rcases apart.cons with ⟨isApart, restApart⟩
  have notOpen : '{' ∉ rest.head? := fun isOpen => isApart isOpen (.inl rfl)
  have inPlaceholder : ∀ char ∈ Nat.toDigits 10 index ++ ['}'], InPlaceholder char := by
    intro char isBehindBrace
    have isIn : char ∈ placeholder index := List.mem_cons_of_mem _ isBehindBrace
    exact inPlaceholder_of_mem isIn
  exact notHere index inRange (List.cons_prefix_cons.mpr
    ⟨rfl, restApart.prefix_of_prefix_filled notOpen inPlaceholder isBehind⟩)

theorem StartsOutside.filled {rest : List Char} (outside : StartsOutside rest) :
    StartsOutside (filled contents (templateParts count rest)) := by
  cases rest with
  | nil => exact outside
  | cons char rest =>
      have notHere : ∀ index < count, ¬placeholder index <+: char :: rest := by
        rintro index _ isHere
        rcases List.cons_prefix_cons.mp isHere with ⟨rfl, _⟩
        exact outside '{' rfl (.inl rfl)
      rw [templateParts_kept notHere]
      exact outside

/-- One step looks at what was put in for each placeholder on its own. -/
theorem StandsApart.replaceAll_filled (apart : StandsApart template) (inRange : index < count) :
    replaceAll (placeholder index) replacement (filled contents (templateParts count template)) =
      filled (fun other => replaceAll (placeholder index) replacement (contents other))
        (templateParts count template) := by
  induction template using template_induction count with
  | nil => rfl
  | kept char rest notHere ih =>
      have restEq := ih apart.cons.2
      rw [templateParts_kept notHere, filled_cons, filled_cons, ← restEq]
      exact replaceAll_cons (apart.not_prefix_filled inRange notHere)
  | hole other rest otherInRange ih =>
      rcases apart.behind with ⟨restApart, outside⟩
      rw [templateParts_placeholder otherInRange, filled_cons, filled_cons, ← ih restApart]
      exact replaceAll_append fun _ _ _ => outside.filled.notCrosses

/-- All steps together look at what was put in for each placeholder on its own. -/
theorem StandsApart.fillPlaceholders_filled (apart : StandsApart template)
    (arguments : List String) (inRange : index + arguments.length ≤ count) :
    fillPlaceholders index (filled contents (templateParts count template)) arguments =
      filled (fun other => fillPlaceholders index (contents other) arguments)
        (templateParts count template) := by
  induction arguments generalizing index contents with
  | nil => rfl
  | cons argument rest ih =>
      rw [List.length_cons] at inRange
      rw [fillPlaceholders, apart.replaceAll_filled (by omega), ih (by omega)]
      rfl

/-- What stands in place of a placeholder only matters for the arguments. -/
theorem filled_congr {others : Nat → List Char}
    (same : ∀ index < count, contents index = others index) (template : List Char) :
    filled contents (templateParts count template) =
      filled others (templateParts count template) := by
  induction template using template_induction count with
  | nil => rfl
  | kept char rest notHere ih =>
      rw [templateParts_kept notHere, filled_cons, filled_cons, ih]
      rfl
  | hole index rest inRange ih =>
      rw [templateParts_placeholder inRange, filled_cons, filled_cons, ih]
      exact congrArg (· ++ _) (same index inRange)

/-- A placeholder is only read within what stands in place of one. -/
theorem StandsApart.exists_hole (apart : StandsApart template) (inRange : index < count)
    {before after : List Char}
    (isText : filled contents (templateParts count template) =
      before ++ (placeholder index ++ after)) :
    ∃ front other back ahead behind, templateParts count template = front ++ .hole other :: back ∧
      before = filled contents front ++ ahead ∧
      contents other = ahead ++ (placeholder index ++ behind) := by
  induction template using template_induction count generalizing before with
  | nil =>
      have noText := (List.append_eq_nil_iff.mp (List.append_eq_nil_iff.mp isText.symm).2).1
      exact absurd noText (placeholder_ne_nil index)
  | kept char rest notHere ih =>
      rw [templateParts_kept notHere] at isText ⊢
      cases before with
      | nil => exact absurd ⟨after, isText.symm⟩ (apart.not_prefix_filled inRange notHere)
      | cons first before =>
          rcases List.cons.inj isText with ⟨rfl, isRest⟩
          rcases ih apart.cons.2 isRest with ⟨front, other, back, ahead, behind, isParts, rfl, isIn⟩
          exact ⟨.kept char :: front, other, back, ahead, behind, congrArg (_ :: ·) isParts, rfl,
            isIn⟩
  | hole here rest hereInRange ih =>
      rcases apart.behind with ⟨restApart, outside⟩
      rw [templateParts_placeholder hereInRange] at isText ⊢
      rcases List.append_eq_append_iff.mp isText with
        ⟨later, rfl, isRest⟩ | ⟨part, isContent, isPart⟩
      · rcases ih restApart isRest with ⟨front, other, back, ahead, behind, isParts, rfl, isIn⟩
        refine ⟨.hole here :: front, other, back, ahead, behind, congrArg (_ :: ·) isParts, ?_,
          isIn⟩
        exact (List.append_assoc ..).symm
      · rcases outside.filled.notCrosses ⟨after, isPart⟩ with ⟨behind, rfl⟩
        exact ⟨[], here, _, before, behind, rfl, rfl, isContent⟩

end Apart

theorem contentOf_take (arguments : List String) (index other : Nat) :
    contentOf (arguments.take index) other =
      if other < index then contentOf arguments other else placeholder other := by
  rw [contentOf, List.getElem?_take]
  by_cases isBefore : other < index
  · rw [if_pos isBefore, if_pos isBefore, contentOf]
  · rw [if_neg isBefore, if_neg isBefore]

/-- Where the placeholders stand apart, one can only be read elsewhere in an earlier argument. -/
theorem takesLiterally_iff {template : String} (apart : StandsApart template.toList)
    (arguments : List String) :
    TakesLiterally template arguments ↔ ∀ index < arguments.length, ∀ earlier < index,
      .hole earlier ∈ templateParts arguments.length template.toList →
      ¬placeholder index <:+: contentOf arguments earlier := by
  refine forall₂_congr fun index inRange => ⟨fun reads earlier isEarlier isPart => ?_, ?_⟩
  · have isOpen : contentOf (arguments.take index) index = placeholder index := by
      rw [contentOf_take, if_neg (Nat.lt_irrefl index)]
    have absent := reads.absent isOpen (Nat.ne_of_lt isEarlier) isPart
    rwa [contentOf_take, if_pos isEarlier] at absent
  · intro absent before after isText
    rcases apart.exists_hole inRange isText with
      ⟨front, other, back, ahead, behind, isParts, rfl, isContent⟩
    rw [contentOf_take] at isContent
    split at isContent
    · next isEarlier =>
        have isPart : .hole other ∈ templateParts arguments.length template.toList := by
          rw [isParts]
          exact List.mem_append_right _ List.mem_cons_self
        refine absurd ⟨ahead, behind, ?_⟩ (absent other isEarlier isPart)
        rw [isContent, List.append_assoc]
    · rcases eq_of_placeholder_eq_append isContent with ⟨rfl, rfl⟩
      exact ⟨front, back, isParts, (List.append_nil _).symm⟩

theorem StandsApart.of_ofList {template : String} {chars : List Char}
    (isText : String.ofList chars = template) (apart : StandsApart chars) :
    StandsApart template.toList := by
  rwa [← isText, String.toList_ofList]

/-- In every message the placeholders stand apart. -/
theorem catalog_standsApart :
    ∀ entry ∈ DiagnosticMessage.catalog, StandsApart entry.2.template.toList := by
  simp only [DiagnosticMessage.catalog, List.forall_mem_cons, List.not_mem_nil, false_implies,
    implies_true, and_true]
  and_intros
  -- Unifying gives the characters of each text, so that they are not decoded from its bytes.
  all_goals exact .of_ofList rfl (by decide +kernel)

/-- The arguments, each with the placeholders of the later ones filled by these. -/
def refilled (index : Nat) : List String → List String
  | [] => []
  | argument :: rest =>
    String.ofList (fillPlaceholders (index + 1) argument.toList rest) :: refilled (index + 1) rest

theorem length_refilled (index : Nat) (arguments : List String) :
    (refilled index arguments).length = arguments.length := by
  induction arguments generalizing index with
  | nil => rfl
  | cons argument rest ih => rw [refilled, List.length_cons, List.length_cons, ih]

/-- A placeholder is filled by its argument, and that by the later ones. -/
theorem fillPlaceholders_placeholder {first index : Nat} {arguments : List String}
    {content : String} (isRefilled : (refilled first arguments)[index]? = some content) :
    fillPlaceholders first (placeholder (first + index)) arguments = content.toList := by
  induction arguments generalizing first index with
  | nil => cases isRefilled
  | cons argument rest ih =>
      rw [fillPlaceholders]
      cases index with
      | zero =>
          have isArgument :
              replaceAll (placeholder first) argument.toList (placeholder (first + 0)) =
                argument.toList := replaceAll_pattern (placeholder_ne_nil first)
          rw [isArgument, ← Option.some.inj isRefilled, String.toList_ofList]
      | succ index =>
          have isOther : first ≠ first + (index + 1) := by omega
          have isLater : first + (index + 1) = first + 1 + index := by omega
          rw [replaceAll_eq_self (placeholder_absent isOther), isLater]
          exact ih isRefilled

/-- Where the placeholders stand apart, the arguments are put in all at once, after each has been
filled by the later ones. -/
theorem formatMessage_eq_refilled {template : String} (apart : StandsApart template.toList)
    (arguments : List String) :
    formatMessage template arguments = substitute template (refilled 0 arguments) := by
  have inRange : 0 + arguments.length ≤ arguments.length := by omega
  have isFilled := @StandsApart.fillPlaceholders_filled placeholder _ _ _ apart arguments inRange
  rw [filled_placeholder] at isFilled
  rw [formatMessage, substitute, isFilled, length_refilled]
  refine congrArg String.ofList (filled_congr (fun index isIn => ?_) _)
  rw [← length_refilled 0] at isIn
  have isRefilled := List.getElem?_eq_getElem isIn
  have isFilled := fillPlaceholders_placeholder isRefilled
  rwa [Nat.zero_add, ← contentOf_eq isRefilled] at isFilled

/-- What filling a template gives. It puts in all arguments at once, each as it stands, when no
placeholder is ever read where the template has none. Where the placeholders stand apart this means
that no argument in the text has the placeholder of a later one, and if one has, then it is itself
filled by the later ones. -/
theorem formatMessage_fills (template : String) (arguments : List String) :
    (TakesLiterally template arguments →
      formatMessage template arguments = substitute template arguments) ∧
    (StandsApart template.toList →
      formatMessage template arguments = substitute template (refilled 0 arguments) ∧
      (TakesLiterally template arguments ↔ ∀ index < arguments.length, ∀ earlier < index,
        .hole earlier ∈ templateParts arguments.length template.toList →
        ¬placeholder index <:+: contentOf arguments earlier)) := by
  refine ⟨fun literally => formatMessage_eq_substitute literally, fun apart => ⟨?_, ?_⟩⟩
  · exact formatMessage_eq_refilled apart arguments
  · exact takesLiterally_iff apart arguments

/-- The type has a placeholder in its name and the member is one, but neither is the placeholder of
a later argument. -/
theorem formatMessage_fills_braces :
    let template := DiagnosticMessage.noSuchMember.template
    let arguments := ["seq<\x7b0\x7d>", "\x7b1\x7d"]
    StandsApart template.toList ∧ TakesLiterally template arguments ∧
      formatMessage template arguments = substitute template arguments := by
  intro template arguments
  have apart : StandsApart template.toList :=
    catalog_standsApart ("no_member", .noSuchMember) (by decide +kernel)
  have literally : TakesLiterally template arguments :=
    ((formatMessage_fills template arguments).2 apart).2.mpr (by decide +kernel)
  exact ⟨apart, literally, (formatMessage_fills template arguments).1 literally⟩

/-- A type whose name is a placeholder is not named in the report. -/
theorem formatMessage_rereads :
    let template := DiagnosticMessage.noSuchMember.template
    let arguments := ["\x7b1\x7d", "Name"]
    formatMessage template arguments = "'Name' does not contain a definition for 'Name'." ∧
      formatMessage template arguments ≠ substitute template arguments := by
  decide +kernel

end QueryLang
