import QueryLang.Compilation.Asking
import QueryLang.Proofs.Bound.Matching
import QueryLang.Proofs.Compilation.Model

/-!
# Answers that match

Bound files that are alike give answers that are alike to questions that are alike: lists of parts
that are alike are searched for the same node, the same place or the same symbol.
-/

namespace QueryLang

variable {types : TypeId → TypeId → Prop} {ids : Nat → Nat → Prop}

/-- Questions that differ in the numbers of symbols and in the indices of types only. -/
inductive Question.Alike (types : TypeId → TypeId → Prop) (ids : Nat → Nat → Prop) :
    Question → Question → Prop
  | boundUnit : Alike types ids .boundUnit .boundUnit
  | diagnostics : Alike types ids .diagnostics .diagnostics
  | conclusionLambda (node : NodeId) :
      Alike types ids (.conclusionLambda node) (.conclusionLambda node)
  | symbolAt (position : Nat) : Alike types ids (.symbolAt position) (.symbolAt position)
  | symbolType {symbol other : Symbol} (symbols : symbol.Alike types ids other) :
      Alike types ids (.symbolType symbol) (.symbolType other)
  | referenceSpans {symbol other : Symbol} (symbols : symbol.Alike types ids other) :
      Alike types ids (.referenceSpans symbol) (.referenceSpans other)

/-- Answers that differ in the numbers of symbols and in the indices of types only. -/
inductive Answer.Alike (types : TypeId → TypeId → Prop) (ids : Nat → Nat → Prop) :
    Answer → Answer → Prop
  | boundUnit {unit other : BoundUnit} (units : unit.Alike types ids other) :
      Alike types ids (.boundUnit unit) (.boundUnit other)
  | diagnostics (reports : Diagnostics) : Alike types ids (.diagnostics reports) (.diagnostics reports)
  | conclusionLambda {found other : Option BoundConclusionLambda}
      (lambdas : Option.Rel (BoundConclusionLambda.Alike types ids) found other) :
      Alike types ids (.conclusionLambda found) (.conclusionLambda other)
  | symbolAt {found other : Option Symbol}
      (symbols : Option.Rel (Symbol.Alike types ids) found other) :
      Alike types ids (.symbolAt found) (.symbolAt other)
  | symbolType {found other : Option TypeId} (type_alike : Option.Rel types found other) :
      Alike types ids (.symbolType found) (.symbolType other)
  | referenceSpans (spans : List Span) :
      Alike types ids (.referenceSpans spans) (.referenceSpans spans)

/-- The numbers of the symbol that a question is about. -/
def Question.numbers : Question → List Nat
  | .symbolType symbol | .referenceSpans symbol => symbol.numbers
  | .boundUnit | .diagnostics | .conclusionLambda _ | .symbolAt _ => []

theorem Question.exists_alike {question : Question}
    (total : ∀ number ∈ question.numbers, ∃ other, ids number other) :
    ∃ other, question.Alike Eq ids other := by
  cases question with
  | boundUnit => exact ⟨_, .boundUnit⟩
  | diagnostics => exact ⟨_, .diagnostics⟩
  | conclusionLambda node => exact ⟨_, .conclusionLambda node⟩
  | symbolAt position => exact ⟨_, .symbolAt position⟩
  | symbolType symbol =>
      rcases Symbol.exists_alike total with ⟨other, symbols⟩
      exact ⟨_, .symbolType symbols⟩
  | referenceSpans symbol =>
      rcases Symbol.exists_alike total with ⟨other, symbols⟩
      exact ⟨_, .referenceSpans symbols⟩

/-! ### Searching lists -/

section Searching

variable {α β : Type} {related : α → α → Prop} {list other : List α}

/-- What is found first by conditions that agree is related. -/
theorem find?_related (lists : List.Forall₂ related list other) {here there : α → Bool}
    (agree : ∀ item otherItem, related item otherItem → here item = there otherItem) :
    Option.Rel related (list.find? here) (other.find? there) := by
  induction lists with
  | nil => exact .none
  | @cons item otherItem rest otherRest first _ ih =>
      rw [List.find?_cons, List.find?_cons, agree item otherItem first]
      split
      · exact .some first
      · exact ih

theorem lookup_related [BEq β] {list other : List (β × α)}
    (lists : List.Forall₂ (fun entry otherEntry => entry.1 = otherEntry.1 ∧
      related entry.2 otherEntry.2) list other) (key : β) :
    Option.Rel related (list.lookup key) (other.lookup key) := by
  induction lists with
  | nil => exact .none
  | @cons entry otherEntry rest otherRest first _ ih =>
      rcases first with ⟨sameKey, values⟩
      rw [List.lookup_cons, List.lookup_cons, sameKey]
      split
      · exact .some values
      · exact ih

theorem map_related {relatedValues : β → β → Prop} {found otherFound : Option α}
    (first : Option.Rel related found otherFound) {here there : α → β}
    (agree : ∀ item otherItem, related item otherItem →
      relatedValues (here item) (there otherItem)) :
    Option.Rel relatedValues (found.map here) (otherFound.map there) := by
  cases first with
  | none => exact .none
  | some values => exact .some (agree _ _ values)

theorem or_related {found otherFound second otherSecond : Option α}
    (first : Option.Rel related found otherFound)
    (seconds : Option.Rel related second otherSecond) :
    Option.Rel related (found.or second) (otherFound.or otherSecond) := by
  cases first with
  | none => exact seconds
  | some values => exact .some values

end Searching

/-! ### Bound files -/

namespace BoundUnit.Alike

variable {unit other : BoundUnit}

theorem parts (alike : unit.Alike types ids other) :
    List.Forall₂ (BoundPart.Alike types ids) unit.parts other.parts :=
  alike.block.walk

theorem declarations (alike : unit.Alike types ids other) :
    List.Forall₂ (Symbol.Alike types ids) unit.declarations other.declarations :=
  List.rel_flatMap alike.parts fun _ _ parts => parts.declared

theorem references (alike : unit.Alike types ids other) :
    List.Forall₂ (fun entry otherEntry => entry.1 = otherEntry.1 ∧
      entry.2.Alike types ids otherEntry.2) unit.references other.references :=
  List.rel_filterMap (fun _ _ parts => parts.reference?) alike.parts

theorem declarationAt? (alike : unit.Alike types ids other) (start : Nat) :
    Option.Rel (Symbol.Alike types ids) (unit.declarationAt? start)
      (other.declarationAt? start) := by
  refine find?_related alike.declarations fun _ _ symbols => ?_
  rw [symbols.firstLocation?]

theorem referenceAt? (alike : unit.Alike types ids other) (node : NodeId) :
    Option.Rel (Symbol.Alike types ids) (unit.referenceAt? node) (other.referenceAt? node) :=
  lookup_related alike.references node

theorem lambdaAt? (alike : unit.Alike types ids other) (node : NodeId) :
    Option.Rel (BoundConclusionLambda.Alike types ids) (unit.lambdaAt? node)
      (other.lambdaAt? node) := by
  have lambdas : List.Forall₂ (BoundConclusionLambda.Alike types ids)
      (unit.parts.filterMap BoundPart.lambda?) (other.parts.filterMap BoundPart.lambda?) :=
    List.rel_filterMap (fun _ _ parts => parts.lambda?) alike.parts
  refine find?_related lambdas fun _ _ found => ?_
  rw [found.node]

variable (uniqueTypes : Relator.BiUnique types) (uniqueIds : Relator.BiUnique ids)

include uniqueTypes uniqueIds

theorem symbolType? (alike : unit.Alike types ids other) {symbol otherSymbol : Symbol}
    (symbols : symbol.Alike types ids otherSymbol) :
    Option.Rel types (unit.symbolType? symbol) (other.symbolType? otherSymbol) := by
  have own := symbols.type?
  have entries : List.Forall₂ (fun found otherFound => found.1.Alike types ids otherFound.1 ∧
      types found.2 otherFound.2) (unit.parts.filterMap BoundPart.conclusionType?)
      (other.parts.filterMap BoundPart.conclusionType?) :=
    List.rel_filterMap (fun _ _ parts => parts.conclusionType?) alike.parts
  have recorded := find?_related entries fun _ _ found =>
    found.1.sameSymbol_eq uniqueTypes uniqueIds symbols
  rw [BoundUnit.symbolType?, BoundUnit.symbolType?]
  generalize symbol.type? = type at own ⊢
  generalize otherSymbol.type? = otherType at own ⊢
  cases own with
  | some type_alike => exact .some type_alike
  | none => exact map_related recorded fun _ _ entry => entry.2

theorem referenceSpans {model otherModel : SemanticModel} (sameTree : model.tree = otherModel.tree)
    (alike : unit.Alike types ids other) {symbol otherSymbol : Symbol}
    (symbols : symbol.Alike types ids otherSymbol) :
    model.referenceSpans unit symbol = otherModel.referenceSpans other otherSymbol := by
  have same {own otherOwn : Symbol} (alike : own.Alike types ids otherOwn) :
      own.sameSymbol symbol ↔ otherOwn.sameSymbol otherSymbol := by
    rw [alike.sameSymbol_eq uniqueTypes uniqueIds symbols]
  have nodes : (unit.references.filter (·.2.sameSymbol symbol)).map Prod.fst =
      (other.references.filter (·.2.sameSymbol otherSymbol)).map Prod.fst := by
    rw [← List.forall₂_eq_eq_eq, List.forall₂_map_left_iff, List.forall₂_map_right_iff]
    exact (List.rel_filter (fun _ _ entry => same entry.2) alike.references).imp
      fun _ _ entry => entry.1
  have places : (unit.declarations.filter (·.sameSymbol symbol)).map Symbol.firstLocation? =
      (other.declarations.filter (·.sameSymbol otherSymbol)).map Symbol.firstLocation? := by
    rw [← List.forall₂_eq_eq_eq, List.forall₂_map_left_iff, List.forall₂_map_right_iff]
    exact (List.rel_filter (fun _ _ entry => same entry) alike.declarations).imp
      fun _ _ => Symbol.Alike.firstLocation?
  have spanOf (tree : SyntaxTree) (entries : List (NodeId × Symbol)) :
      (entries.mapM fun entry => tree.span entry.1) = (entries.map Prod.fst).mapM tree.span := by
    rw [List.mapM_map]
    rfl
  have placed (symbols : List Symbol) : symbols.filterMap Symbol.firstLocation? =
      (symbols.map Symbol.firstLocation?).filterMap id := by
    rw [List.filterMap_map]
    rfl
  unfold SemanticModel.referenceSpans
  dsimp only
  rw [spanOf, spanOf, placed, placed, nodes, places, sameTree]

end BoundUnit.Alike

/-! ### Answers -/

namespace SemanticModel

variable {model otherModel : SemanticModel} {unit other : BoundUnit}

theorem identifierAt?_eq (sameTree : model.tree = otherModel.tree) (position : Nat) :
    model.identifierAt? position = otherModel.identifierAt? position := by
  unfold identifierAt? isIdentifierAt
  rw [sameTree]

theorem symbolAt?_alike (sameTree : model.tree = otherModel.tree)
    (alike : unit.Alike types ids other) {position : Nat} {found otherFound : Option Symbol}
    (isFound : model.symbolAt? unit position = .ok found)
    (isOther : otherModel.symbolAt? other position = .ok otherFound) :
    Option.Rel (Symbol.Alike types ids) found otherFound := by
  unfold symbolAt? at isFound isOther
  rw [← identifierAt?_eq sameTree, ← sameTree] at isOther
  rcases Checked.bind_eq_ok_iff.mp isFound with ⟨identifier, isIdentifier, foundEq⟩
  rcases Checked.bind_eq_ok_iff.mp isOther with ⟨_, isSame, otherEq⟩
  cases isIdentifier.symm.trans isSame
  cases identifier with
  | none =>
      cases foundEq
      cases otherEq
      exact .none
  | some id =>
      rcases Checked.bind_eq_ok_iff.mp foundEq with ⟨token, isToken, foundEq⟩
      rcases Checked.bind_eq_ok_iff.mp otherEq with ⟨_, isSameToken, otherEq⟩
      cases isToken.symm.trans isSameToken
      cases foundEq
      cases otherEq
      exact or_related (alike.declarationAt? token.span.start) (alike.referenceAt? token.parent)

/-- Models of one file whose bound forms are alike give answers that are alike. -/
theorem answer_alike (uniqueTypes : Relator.BiUnique types) (uniqueIds : Relator.BiUnique ids)
    (sameTree : model.tree = otherModel.tree)
    (sameReports : model.parseDiagnostics = otherModel.parseDiagnostics)
    (alike : unit.Alike types ids other) {question asked : Question}
    (questions : question.Alike types ids asked) {answer otherAnswer : Answer}
    (answers : model.answer unit question = .ok answer)
    (otherAnswers : otherModel.answer other asked = .ok otherAnswer) :
    answer.Alike types ids otherAnswer := by
  cases questions with
  | boundUnit =>
      cases answers
      cases otherAnswers
      exact .boundUnit alike
  | diagnostics =>
      cases answers
      cases otherAnswers
      rw [SemanticModel.diagnostics, SemanticModel.diagnostics, sameReports, alike.diagnostics]
      exact .diagnostics _
  | conclusionLambda node =>
      cases answers
      cases otherAnswers
      exact .conclusionLambda (alike.lambdaAt? node)
  | symbolAt position =>
      rcases Checked.bind_eq_ok_iff.mp answers with ⟨found, isFound, answerEq⟩
      rcases Checked.bind_eq_ok_iff.mp otherAnswers with ⟨otherFound, isOther, otherEq⟩
      cases answerEq
      cases otherEq
      exact .symbolAt (symbolAt?_alike sameTree alike isFound isOther)
  | symbolType symbols =>
      cases answers
      cases otherAnswers
      exact .symbolType (alike.symbolType? uniqueTypes uniqueIds symbols)
  | referenceSpans symbols =>
      rcases Checked.bind_eq_ok_iff.mp answers with ⟨spans, isSpans, answerEq⟩
      rcases Checked.bind_eq_ok_iff.mp otherAnswers with ⟨otherSpans, isOther, otherEq⟩
      rw [← alike.referenceSpans uniqueTypes uniqueIds sameTree symbols] at isOther
      cases isSpans.symm.trans isOther
      cases answerEq
      cases otherEq
      exact .referenceSpans spans

/-- Every question about a bound file that can be relied on has an answer. -/
theorem answer_gives {table : TypeTable} {calm damaged : Prop}
    (wellFormed : model.tree.WellFormed damaged) (reliable : unit.Reliable model.tree table calm)
    (question : Question) : (model.answer unit question).Gives fun _ => True := by
  cases question with
  | boundUnit | diagnostics | conclusionLambda | symbolType => exact .pure trivial
  | symbolAt position =>
      exact (model.symbolAt?_gives position wellFormed reliable).bind fun _ _ => .pure trivial
  | referenceSpans symbol =>
      exact (model.referenceSpans_gives reliable symbol).bind fun _ _ => .pure trivial

end SemanticModel

end QueryLang
