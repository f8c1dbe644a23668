import QueryLang.Binding.Basic
import QueryLang.Proofs.Checked
import QueryLang.Proofs.Symbol.Matching

/-!
# Lookups that match

Scopes that declare symbols which are alike give results that are alike to the same lookup: as good
an answer, for the same reason, with as many symbols.
-/

namespace QueryLang

variable {types weaker : TypeId → TypeId → Prop} {ids weakerIds : Nat → Nat → Prop}

/-- Verdicts on symbols that are alike. -/
structure Verdict.Alike (types : TypeId → TypeId → Prop) (ids : Nat → Nat → Prop)
    (verdict other : Verdict) : Prop where
  viability : verdict.viability = other.viability
  symbol : Option.Rel (Symbol.Alike types ids) verdict.symbol other.symbol
  error : verdict.error = other.error

/-- Results with symbols that are alike. -/
structure LookupResult.Alike (types : TypeId → TypeId → Prop) (ids : Nat → Nat → Prop)
    (result other : LookupResult) : Prop where
  viability : result.viability = other.viability
  symbols : List.Forall₂ (Symbol.Alike types ids) result.symbols other.symbols
  error : result.error = other.error

/-- Scopes of conclusions that introduce variables and lambdas which are alike. -/
structure ConclusionScope.Alike (types : TypeId → TypeId → Prop) (ids : Nat → Nat → Prop)
    (scope other : ConclusionScope) : Prop where
  symbol : scope.symbol.Alike types ids other.symbol
  type : types scope.type other.type
  lambda : scope.lambda.Alike types ids other.lambda

/-- Scopes of the same sort that declare symbols which are alike. -/
inductive Scope.Alike (types : TypeId → TypeId → Prop) (ids : Nat → Nat → Prop) :
    Scope → Scope → Prop
  | global {symbols others : List Symbol}
      (symbols_alike : List.Forall₂ (Symbol.Alike types ids) symbols others) :
      Alike types ids (.global symbols) (.global others)
  | locals {symbols others : List Symbol}
      (symbols_alike : List.Forall₂ (Symbol.Alike types ids) symbols others) :
      Alike types ids (.locals symbols) (.locals others)
  | rangeVariable {symbol other : Symbol} (isVariable : symbol.kind = .rangeVariable)
      (otherIsVariable : other.kind = .rangeVariable) (alike : symbol.Alike types ids other) :
      Alike types ids (.rangeVariable symbol isVariable) (.rangeVariable other otherIsVariable)
  | conclusion {scope other : ConclusionScope} (alike : scope.Alike types ids other) :
      Alike types ids (.conclusion scope) (.conclusion other)

namespace Scope.Alike

variable {scope other : Scope}

theorem mono (implies : ∀ type other, types type other → weaker type other)
    (impliesIds : ∀ number other, ids number other → weakerIds number other)
    (alike : scope.Alike types ids other) : scope.Alike weaker weakerIds other := by
  have ofSymbols {symbols others : List Symbol}
      (symbols_alike : List.Forall₂ (Symbol.Alike types ids) symbols others) :
      List.Forall₂ (Symbol.Alike weaker weakerIds) symbols others :=
    symbols_alike.imp fun _ _ => Symbol.Alike.mono implies impliesIds
  cases alike with
  | global symbols_alike => exact .global (ofSymbols symbols_alike)
  | locals symbols_alike => exact .locals (ofSymbols symbols_alike)
  | rangeVariable isVariable otherIsVariable alike =>
      exact .rangeVariable isVariable otherIsVariable (alike.mono implies impliesIds)
  | conclusion alike =>
      exact .conclusion ⟨alike.symbol.mono implies impliesIds, implies _ _ alike.type,
        alike.lambda.mono implies impliesIds⟩

theorem symbols (alike : scope.Alike types ids other) :
    List.Forall₂ (Symbol.Alike types ids) scope.symbols other.symbols := by
  cases alike with
  | global symbols_alike | locals symbols_alike => exact symbols_alike
  | rangeVariable _ _ alike => exact .cons alike .nil
  | conclusion alike => exact .cons alike.symbol .nil

theorem answers (alike : scope.Alike types ids other) (options : LookupOptions) :
    scope.answers options = other.answers options := by
  cases alike <;> rfl

end Scope.Alike

/-- The parameters that carry the values of variables which are alike. -/
theorem ConclusionScope.Alike.parameterOf {scope other : ConclusionScope}
    (alike : scope.Alike types ids other) {symbol otherSymbol parameter otherParameter : Symbol}
    (symbols : symbol.Alike types ids otherSymbol)
    (isFound : scope.parameterOf symbol = .ok parameter)
    (isOther : other.parameterOf otherSymbol = .ok otherParameter) :
    parameter.Alike types ids otherParameter := by
  have named : List.Forall₂ (Symbol.Alike types ids)
      (scope.lambda.parameters.filter (·.name == symbol.name))
      (other.lambda.parameters.filter (·.name == otherSymbol.name)) := by
    refine List.rel_filter ?_ alike.lambda.parameters
    intro own otherOwn parameters
    dsimp only
    rw [parameters.name, symbols.name]
  rw [ConclusionScope.parameterOf] at isFound isOther
  generalize scope.lambda.parameters.filter (·.name == symbol.name) = found at named isFound
  generalize other.lambda.parameters.filter (·.name == otherSymbol.name) = otherFound
    at named isOther
  cases named with
  | nil => cases isFound
  | cons first rest =>
      cases rest with
      | nil =>
          cases isFound
          cases isOther
          exact first
      | cons _ _ => cases isFound

/-! ### Verdicts and results -/

theorem Verdict.Alike.ofSymbol {symbol other : Symbol} (alike : symbol.Alike types ids other)
    (arity : Nat) (options : LookupOptions) :
    (Verdict.ofSymbol symbol arity options).Alike types ids
      (Verdict.ofSymbol other arity options) := by
  have viable : (Verdict.viable symbol).Alike types ids (Verdict.viable other) :=
    ⟨rfl, .some alike, rfl⟩
  have empty : Verdict.empty.Alike types ids Verdict.empty := ⟨rfl, .none, rfl⟩
  have rejected (viability : Viability) (error : LookupError) :
      (Verdict.rejected viability symbol error).Alike types ids
        (Verdict.rejected viability other error) :=
    ⟨rfl, .some alike, rfl⟩
  unfold Verdict.ofSymbol
  rw [alike.kind]
  dsimp only
  split_ifs
  all_goals first
    | exact viable
    | exact empty
    | exact rejected _ _

namespace LookupResult.Alike

variable {result other outer otherOuter : LookupResult}

theorem clear : LookupResult.clear.Alike types ids LookupResult.clear := ⟨rfl, .nil, rfl⟩

theorem isClear (alike : result.Alike types ids other) : result.isClear = other.isClear := by
  have sameEmpty : result.symbols.isEmpty = other.symbols.isEmpty := by
    rw [Bool.eq_iff_iff, List.isEmpty_iff_length_eq_zero, List.isEmpty_iff_length_eq_zero,
      alike.symbols.length_eq]
  rw [LookupResult.isClear, LookupResult.isClear, alike.viability, sameEmpty, alike.error]

theorem isViable (alike : result.Alike types ids other) : result.isViable = other.isViable := by
  rw [LookupResult.isViable, LookupResult.isViable, alike.viability]

theorem single? (alike : result.Alike types ids other) :
    Option.Rel (Symbol.Alike types ids) result.single? other.single? := by
  have symbols := alike.symbols
  unfold LookupResult.single?
  generalize result.symbols = found at symbols ⊢
  generalize other.symbols = otherFound at symbols ⊢
  cases symbols with
  | nil => exact .none
  | cons first rest =>
      cases rest with
      | nil => exact .some first
      | cons _ _ => exact .none

theorem answer? (alike : result.Alike types ids other) :
    Option.Rel (Symbol.Alike types ids) result.answer? other.answer? := by
  rw [LookupResult.answer?, LookupResult.answer?, alike.isViable]
  split
  · exact alike.single?
  · exact .none

theorem mergeEqual {verdict otherVerdict : Verdict} (alike : result.Alike types ids other)
    (verdicts : verdict.Alike types ids otherVerdict) :
    (result.mergeEqual verdict).Alike types ids (other.mergeEqual otherVerdict) := by
  have symbolList :
      List.Forall₂ (Symbol.Alike types ids) verdict.symbol.toList otherVerdict.symbol.toList := by
    have symbol := verdicts.symbol
    generalize verdict.symbol = found at symbol ⊢
    generalize otherVerdict.symbol = otherFound at symbol ⊢
    cases symbol with
    | none => exact .nil
    | some symbols => exact .cons symbols .nil
  rw [LookupResult.mergeEqual, LookupResult.mergeEqual, alike.viability, verdicts.viability]
  split_ifs
  · exact ⟨rfl, symbolList, verdicts.error⟩
  · exact ⟨rfl, List.rel_append alike.symbols symbolList, alike.error⟩
  · exact alike

theorem mergePrioritized (alike : result.Alike types ids other)
    (outerAlike : outer.Alike types ids otherOuter) :
    (result.mergePrioritized outer).Alike types ids (other.mergePrioritized otherOuter) := by
  rw [LookupResult.mergePrioritized, LookupResult.mergePrioritized, alike.viability,
    outerAlike.viability]
  split_ifs
  · exact outerAlike
  · exact alike

end LookupResult.Alike

/-! ### Lookups -/

section

variable {scope other : Scope} {scopes others : List Scope}
  {result otherResult found otherFound : LookupResult} {name : String} {arity : Nat}
  {options : LookupOptions}

theorem Scope.Alike.candidates (alike : scope.Alike types ids other) (name : String) :
    List.Forall₂ (Symbol.Alike types ids) (scope.symbols.filter (·.name == name))
      (other.symbols.filter (·.name == name)) := by
  refine List.rel_filter ?_ alike.symbols
  intro symbol otherSymbol symbols
  dsimp only
  rw [symbols.name]

theorem LookupResult.Alike.mergeAll {symbols otherSymbols : List Symbol}
    (results : result.Alike types ids otherResult)
    (symbols_alike : List.Forall₂ (Symbol.Alike types ids) symbols otherSymbols) (arity : Nat)
    (options : LookupOptions) :
    (symbols.foldl (fun result symbol => result.mergeEqual (.ofSymbol symbol arity options))
      result).Alike types ids
      (otherSymbols.foldl (fun result symbol => result.mergeEqual (.ofSymbol symbol arity options))
        otherResult) := by
  induction symbols_alike generalizing result otherResult with
  | nil => exact results
  | cons first _ ih => exact ih (results.mergeEqual (.ofSymbol first arity options))

/-- A conclusion's scope is asked when nothing was found so far, on both sides. -/
theorem Scope.Alike.lookupInto (alike : scope.Alike types ids other)
    (results : result.Alike types ids otherResult)
    (isFound : scope.lookupInto result name arity options = .ok found)
    (isOther : other.lookupInto otherResult name arity options = .ok otherFound) :
    found.Alike types ids otherFound := by
  have folded := results.mergeAll (alike.candidates name) arity options
  have merged : (if scope.answers options then
      (scope.symbols.filter (·.name == name)).foldl
        (fun result symbol => result.mergeEqual (.ofSymbol symbol arity options)) result
      else result).Alike types ids
      (if other.answers options then
        (other.symbols.filter (·.name == name)).foldl
          (fun result symbol => result.mergeEqual (.ofSymbol symbol arity options)) otherResult
      else otherResult) := by
    rw [alike.answers options]
    split
    · exact folded
    · exact results
  cases alike with
  | global _ | locals _ | rangeVariable _ _ _ =>
      cases isFound
      cases isOther
      exact merged
  | conclusion _ =>
      rw [Scope.lookupInto] at isFound isOther
      rw [results.isClear] at isFound
      split at isFound
      · next isClear =>
          rw [if_pos isClear] at isOther
          cases isFound
          cases isOther
          exact merged
      · cases isFound

theorem Scope.lookupFrom_alike (scopes_alike : List.Forall₂ (Scope.Alike types ids) scopes others)
    (results : result.Alike types ids otherResult)
    (isFound : Scope.lookupFrom name arity options result scopes = .ok found)
    (isOther : Scope.lookupFrom name arity options otherResult others = .ok otherFound) :
    found.Alike types ids otherFound := by
  induction scopes_alike generalizing result otherResult with
  | nil =>
      cases isFound
      cases isOther
      exact results
  | cons scope_alike _ ih =>
      rw [Scope.lookupFrom] at isFound isOther
      rcases Checked.bind_eq_ok_iff.mp isFound with ⟨own, isOwn, restEq⟩
      rcases Checked.bind_eq_ok_iff.mp isOther with ⟨otherOwn, isOtherOwn, otherRest⟩
      have merged := results.mergePrioritized (scope_alike.lookupInto .clear isOwn isOtherOwn)
      dsimp only at restEq otherRest
      rw [← merged.isViable] at otherRest
      split at restEq
      · next isViable =>
          rw [if_pos isViable] at otherRest
          cases restEq
          cases otherRest
          exact merged
      · next notViable =>
          rw [if_neg notViable] at otherRest
          exact ih merged restEq otherRest

theorem Scope.lookupThrough_alike
    (scopes_alike : List.Forall₂ (Scope.Alike types ids) scopes others)
    (isFound : Scope.lookupThrough scopes name arity options = .ok found)
    (isOther : Scope.lookupThrough others name arity options = .ok otherFound) :
    found.Alike types ids otherFound :=
  Scope.lookupFrom_alike scopes_alike .clear isFound isOther

end

end QueryLang
