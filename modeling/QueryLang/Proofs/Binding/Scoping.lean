import QueryLang.Proofs.Binding.Yield
import QueryLang.Proofs.Lookup.Scope
import QueryLang.Proofs.Program.Visibility
import QueryLang.Compilation.Model

/-!
# Scopes and what is visible

The scopes of a binder stand for the declarations that are visible at its place, one scope for
each that has a name. So a lookup finds the innermost declaration of a name, and the symbols of
the host only when there is none.
-/

namespace QueryLang

/-! ### Declarations in bound trees -/

/-- The variable that a clause declares, with the node of the clause. -/
def BoundClause.site? : BoundClause → Option (NodeId × Symbol)
  | fromClause node symbol _ | letClause node symbol _ => symbol.map (node, ·)
  | whereClause _ _ | selectClause _ _ | groupClause _ _ _ => none

/-- The variable that a conclusion declares, with the node of the conclusion. -/
def BoundConclusion.site? : BoundConclusion → Option (NodeId × Symbol)
  | absent => none
  | present node symbol _ _ _ _ _ => some (node, symbol)

/-- The symbols that a part declares by itself, with the nodes that declare them. -/
def BoundPart.sites : BoundPart → List (NodeId × Symbol)
  | statement (.localDeclaration node symbol _) => (symbol.map (node, ·)).toList
  | expression (.query _ clauses conclusion _) =>
    clauses.filterMap BoundClause.site? ++ conclusion.site?.toList
  | _ => []

/-- The symbols that parts declare, with the nodes that declare them. -/
def declarationSites (parts : List BoundPart) : List (NodeId × Symbol) :=
  parts.flatMap BoundPart.sites

theorem BoundPart.sites_symbols (part : BoundPart) : part.sites.map Prod.snd = part.declared := by
  have ofClauses (clauses : List BoundClause) :
      (clauses.filterMap BoundClause.site?).map Prod.snd =
        clauses.filterMap BoundClause.symbol? := by
    rw [List.map_filterMap]
    congr 1
    funext clause
    cases clause <;> simp [BoundClause.site?, BoundClause.symbol?, Function.comp_def]
  cases part with
  | block node => rfl
  | statement inner =>
      cases inner with
      | localDeclaration node symbol value => cases symbol <;> rfl
      | _ => rfl
  | expression expr =>
      cases expr with
      | query node clauses conclusion type =>
          rw [sites, List.map_append, ofClauses]
          cases conclusion <;> rfl
      | _ => rfl

/-! ### Scopes that introduce a variable -/

/-- A scope introduces one variable of the file. -/
def Scope.Introduces (scope : Scope) (symbol : Symbol) : Prop :=
  match scope with
  | .global _ => False
  | .locals symbols => symbols = [symbol] ∧ symbol.kind = .localVariable
  | .rangeVariable own _ => own = symbol
  | .conclusion own => own.symbol = symbol

namespace Scope

variable {scope : Scope} {symbol : Symbol} {name : String}

theorem Introduces.symbols_eq (introduces : scope.Introduces symbol) :
    scope.symbols = [symbol] := by
  cases scope with
  | global symbols => exact introduces.elim
  | locals symbols => exact introduces.1
  | rangeVariable own kind => exact congrArg (fun symbol => [symbol]) introduces
  | conclusion own => exact congrArg (fun symbol => [symbol]) introduces

theorem Introduces.kind (introduces : scope.Introduces symbol) :
    symbol.kind = .localVariable ∨ symbol.kind = .rangeVariable ∨
      symbol.kind = .queryConclusionVariable := by
  cases scope with
  | global symbols => exact introduces.elim
  | locals symbols => exact .inl introduces.2
  | rangeVariable own kind => exact .inr (.inl (introduces ▸ kind))
  | conclusion own => exact .inr (.inr (introduces ▸ own.symbol_kind))

theorem Introduces.viable (introduces : scope.Introduces symbol) :
    Verdict.ofSymbol symbol 0 .unrestricted = .viable symbol := by
  rcases introduces.kind with isKind | isKind | isKind
  · simp [Verdict.ofSymbol, LookupOptions.unrestricted, isKind, SymbolKind.isTypeLike]
  · simp [Verdict.ofSymbol, LookupOptions.unrestricted, isKind, SymbolKind.isTypeLike]
  · simp [Verdict.ofSymbol, LookupOptions.unrestricted, isKind, SymbolKind.isTypeLike]

theorem answers_unrestricted (scope : Scope) : scope.answers .unrestricted = true := by
  cases scope <;> rfl

theorem Introduces.gathered_own (introduces : scope.Introduces symbol) :
    scope.gathered symbol.name 0 .unrestricted = ⟨.viable, [symbol], none⟩ := by
  rw [gathered, if_pos (answers_unrestricted scope), introduces.symbols_eq]
  simp [LookupResult.mergeEqual, introduces.viable, LookupResult.clear, Verdict.viable,
    Viability.rank]

theorem Introduces.gathered_other (introduces : scope.Introduces symbol)
    (other : symbol.name ≠ name) : scope.gathered name 0 .unrestricted = .clear := by
  rw [gathered, if_pos (answers_unrestricted scope), introduces.symbols_eq]
  simp [other]

end Scope

/-- Scopes stand for the declarations that are visible, innermost first, and outside of them for
the symbols of the host. A declaration without a name has no scope. -/
inductive ScopesFor (tree : SyntaxTree) (declared : List (NodeId × Symbol))
    (globals : List Symbol) : List Scope → List NodeId → Prop
  | host : ScopesFor tree declared globals [.global globals] []
  | nameless {scopes visible} {node : NodeId} (outer : ScopesFor tree declared globals scopes visible)
      (noName : ∀ name, ¬tree.Names node name) :
      ScopesFor tree declared globals scopes (node :: visible)
  | named {scopes visible} {node : NodeId} {scope : Scope} {symbol : Symbol}
      (outer : ScopesFor tree declared globals scopes visible)
      (isNamed : tree.Names node symbol.name) (isDeclared : (node, symbol) ∈ declared)
      (introduces : scope.Introduces symbol) :
      ScopesFor tree declared globals (scope :: scopes) (node :: visible)

/-- What a name stands for, where these declarations are visible: the variable of the innermost
declaration that has the name, and if none has it, whatever field of the host is the answer. -/
inductive ResolvesTo (tree : SyntaxTree) (declared : List (NodeId × Symbol))
    (globals : List Symbol) (visible : List NodeId) (name : String) : Option Symbol → Prop
  | innermost {inner outer} {declaration : NodeId} {symbol : Symbol}
      (split : visible = inner ++ declaration :: outer) (isNamed : tree.Names declaration name)
      (noneInside : ∀ other ∈ inner, ¬tree.Names other name)
      (isDeclared : (declaration, symbol) ∈ declared) :
      ResolvesTo tree declared globals visible name (some symbol)
  | host {result : LookupResult} (noneVisible : ∀ other ∈ visible, ¬tree.Names other name)
      (decides : Scope.lookupThrough [.global globals] name 0 .unrestricted = .ok result) :
      ResolvesTo tree declared globals visible name (result.answer?.filter (·.kind == .field))

section

variable {tree : SyntaxTree} {damaged : Prop} {declared : List (NodeId × Symbol)}
  {globals : List Symbol} {scopes : List Scope} {visible : List NodeId} {name : String}

/-- What a lookup finds through scopes that stand for the visible declarations. -/
theorem ScopesFor.lookup (scopesFor : ScopesFor tree declared globals scopes visible)
    {result : LookupResult} (found : Scope.lookupThrough scopes name 0 .unrestricted = .ok result) :
    (∃ inner declaration outer symbol, visible = inner ++ declaration :: outer ∧
      tree.Names declaration name ∧ (∀ other ∈ inner, ¬tree.Names other name) ∧
      (declaration, symbol) ∈ declared ∧ result.answer? = some symbol ∧
      ∃ scope ∈ scopes, scope.Introduces symbol) ∨
    (∀ other ∈ visible, ¬tree.Names other name) ∧
      Scope.lookupThrough [.global globals] name 0 .unrestricted = .ok result := by
  induction scopesFor with
  | host => exact .inr ⟨by simp, found⟩
  | @nameless scopes visible node outer noName ih =>
      rcases ih found with ⟨inner, declaration, rest, symbol, rfl, isNamed, none, isFound⟩ | host
      · refine .inl ⟨node :: inner, declaration, rest, symbol, rfl, isNamed, ?_, isFound⟩
        exact List.forall_mem_cons.mpr ⟨noName name, none⟩
      · exact .inr ⟨List.forall_mem_cons.mpr ⟨noName name, host.1⟩, host.2⟩
  | @named scopes visible node scope symbol outer isNamed isDeclared introduces ih =>
      rw [Scope.lookupThrough, Scope.lookupFrom, Scope.lookup_eq_ok, Checked.ok_bind] at found
      by_cases same : symbol.name = name
      · subst same
        rw [introduces.gathered_own] at found
        cases found
        exact .inl ⟨[], node, visible, symbol, rfl, isNamed, by simp, isDeclared, rfl, scope,
          List.mem_cons_self, introduces⟩
      · have other : ¬tree.Names node name := fun isOther => same (isNamed.unique isOther)
        rw [introduces.gathered_other same] at found
        rcases ih found with
          ⟨inner, declaration, rest, found, rfl, isInner, none, isFound, isAnswer, own, isOwn, does⟩
            | host
        · refine .inl ⟨node :: inner, declaration, rest, found, rfl, isInner, ?_, isFound,
            isAnswer, own, List.mem_cons_of_mem _ isOwn, does⟩
          exact List.forall_mem_cons.mpr ⟨other, none⟩
        · exact .inr ⟨List.forall_mem_cons.mpr ⟨other, host.1⟩, host.2⟩

end

end QueryLang
