import QueryLang.Proofs.Binding.StatementResolving
import QueryLang.Proofs.Binding.Telling
import QueryLang.Proofs.Lookup.Failing
import QueryLang.Proofs.Program.Using

/-!
# What is reported about names in scope

Binding goes along with `uses`: wherever it looks a name up, the scopes of the binder declare the
variables that are in scope there. So it says that a name does not exist for just those uses that
are undeclared, and for those where the host has several answers. A variable of a conclusion is
always found in its scope, so it is never said to be used outside its clause.
-/

namespace QueryLang

/-- What is said about names in scope: that a name does not exist, or that the variable of a
conclusion is used outside its clause. -/
def scopeCodes : List Nat :=
  [DiagnosticMessage.undeclaredName.code, DiagnosticMessage.conclusionOutOfScope.code]

/-- A report is about what is in scope. -/
def Diagnostic.isAboutScope (diagnostic : Diagnostic) : Bool :=
  scopeCodes.contains diagnostic.code

theorem filter_isAboutScope_eq_nil {reported : Diagnostics} {codes : List Nat}
    (others : ∀ code ∈ codes, code ∉ scopeCodes)
    (only : ∀ diagnostic ∈ reported, diagnostic.code ∈ codes) :
    reported.filter Diagnostic.isAboutScope = [] := by
  refine List.filter_eq_nil_iff.mpr fun diagnostic isReported isAbout => ?_
  exact others _ (only diagnostic isReported) (List.contains_iff_mem.mp isAbout)

namespace NameUse

/-- No single good answer is found for the use, and no reason for that. -/
def fails (globals : List Symbol) (use : NameUse) : Bool :=
  use.isUndeclared globals || use.isAmbiguous globals

/-- The reports on those of some uses that fail. -/
def reports (globals : List Symbol) (uses : List NameUse) : Diagnostics :=
  (uses.filter (·.fails globals)).map report

theorem reports_singleton (globals : List Symbol) (use : NameUse) :
    reports globals [use] = if use.fails globals then [use.report] else [] := by
  cases fails : use.fails globals <;> simp [reports, fails]

theorem reports_append (globals : List Symbol) (uses others : List NameUse) :
    reports globals (uses ++ others) = reports globals uses ++ reports globals others := by
  simp [reports]

end NameUse

/-- Scopes declare variables of the file that have these names, innermost first, and outside of
them the symbols of the host. -/
inductive ScopesNamed (globals : List Symbol) : List Scope → List String → Prop
  | host : ScopesNamed globals [.global globals] []
  | inside {scopes names} {scope : Scope} {symbol : Symbol}
      (outer : ScopesNamed globals scopes names) (introduces : scope.Introduces symbol) :
      ScopesNamed globals (scope :: scopes) (symbol.name :: names)

/-! ### Lookups through such scopes -/

namespace Verdict

variable {symbol : Symbol}

theorem viable_unrestricted_iff :
    (ofSymbol symbol 0 .unrestricted).viability = .viable ↔ symbol.kind.isTypeLike = false := by
  unfold ofSymbol viable rejected
  by_cases isType : symbol.kind.isTypeLike = true <;> simp [LookupOptions.unrestricted, isType]

theorem viable_invocable_iff :
    (ofSymbol symbol 0 .invocable).viability = .viable ↔ symbol.kind.isInvocable = true := by
  unfold ofSymbol viable rejected
  cases symbol.kind <;>
    simp [LookupOptions.invocable, LookupOptions.unrestricted, SymbolKind.isInvocable,
      SymbolKind.isTypeLike]

end Verdict

namespace ScopesNamed

variable {globals : List Symbol} {scopes : List Scope} {names : List String} {name : String}

theorem declares_iff (named : ScopesNamed globals scopes names) :
    (∃ scope ∈ scopes, scope.Declares name) ↔
      name ∈ names ∨ ∃ symbol ∈ globals, symbol.name = name := by
  induction named with
  | host => simp [Scope.Declares, Scope.symbols]
  | inside outer introduces ih =>
      rw [List.exists_mem_cons_iff, ih, Scope.Declares, introduces.symbols_eq, List.mem_cons,
        or_assoc]
      simp [eq_comm]

/-- A variable of the file that has the name is the only good answer. -/
theorem firstGoodAnswers_value (named : ScopesNamed globals scopes names) :
    1 < (Scope.firstGoodAnswers name .unrestricted scopes).length ↔
      name ∉ names ∧ 1 < ((Scope.global globals).goodAnswers name .unrestricted).length := by
  induction named with
  | host =>
      rw [Scope.firstGoodAnswers]
      cases (Scope.global globals).goodAnswers name .unrestricted <;>
        simp [Scope.firstGoodAnswers]
  | @inside scopes names scope symbol outer introduces ih =>
      have isViable := introduces.viable
      by_cases same : symbol.name = name
      · have own : scope.goodAnswers name .unrestricted = [symbol] := by
          simp [Scope.goodAnswers, introduces.symbols_eq, same, isViable, Verdict.viable]
        rw [Scope.firstGoodAnswers, own]
        simp [same]
      · have own : scope.goodAnswers name .unrestricted = [] := by
          simp [Scope.goodAnswers, introduces.symbols_eq, same]
        rw [Scope.firstGoodAnswers, own]
        simp [ih, Ne.symm same]

/-- Where something has to be invoked, no variable of the file is a good answer. -/
theorem firstGoodAnswers_called (named : ScopesNamed globals scopes names) :
    1 < (Scope.firstGoodAnswers name .invocable scopes).length ↔
      1 < ((Scope.global globals).goodAnswers name .invocable).length := by
  induction named with
  | host =>
      rw [Scope.firstGoodAnswers]
      cases (Scope.global globals).goodAnswers name .invocable <;> simp [Scope.firstGoodAnswers]
  | @inside scopes names scope symbol outer introduces ih =>
      have notViable : (Verdict.ofSymbol symbol 0 .invocable).viability ≠ .viable := by
        rw [ne_eq, Verdict.viable_invocable_iff]
        rcases introduces.kind with isKind | isKind | isKind <;>
          simp [isKind, SymbolKind.isInvocable]
      have own : scope.goodAnswers name .invocable = [] := by
        simp [Scope.goodAnswers, introduces.symbols_eq, notViable]
      rw [Scope.firstGoodAnswers, own]
      exact ih

/-- The good answers of the host to a use. -/
theorem goodAnswers_host (use : NameUse) : (Scope.global globals).goodAnswers use.name
    (if use.isCalled then .invocable else .unrestricted) = use.hostAnswers globals := by
  unfold Scope.goodAnswers NameUse.hostAnswers
  refine List.filter_congr fun symbol _ => congrArg (symbol.name == use.name && ·) ?_
  rw [Bool.eq_iff_iff, beq_iff_eq]
  cases use.isCalled with
  | true => exact Verdict.viable_invocable_iff
  | false => simpa using Verdict.viable_unrestricted_iff

/-- When the lookup for a use gives neither a single good answer nor a reason. -/
theorem fails_iff (use : NameUse) (named : ScopesNamed globals scopes use.inScope)
    {result : LookupResult}
    (found : Scope.lookupThrough scopes use.name 0
      (if use.isCalled then .invocable else .unrestricted) = .ok result) :
    (result.answer? = none ∧ result.error = none) ↔ use.fails globals = true := by
  have admits : LookupOptions.admitsMembers
      (if use.isCalled then .invocable else .unrestricted) = true := by
    cases use.isCalled <;> rfl
  have undeclared : (∀ scope ∈ scopes, ¬scope.Declares use.name) ↔
      use.isUndeclared globals = true := by
    have declares : (∃ scope ∈ scopes, scope.Declares use.name) ↔
        use.name ∈ use.inScope ∨ ∃ symbol ∈ globals, symbol.name = use.name := named.declares_iff
    have declaresNot := declares.not
    push Not at declaresNot
    rw [declaresNot, NameUse.isUndeclared]
    simp
  have ambiguous : 1 < (Scope.firstGoodAnswers use.name
      (if use.isCalled then .invocable else .unrestricted) scopes).length ↔
        use.isAmbiguous globals = true := by
    rw [NameUse.isAmbiguous, ← goodAnswers_host]
    cases use.isCalled with
    | true => simpa using named.firstGoodAnswers_called
    | false => simpa using named.firstGoodAnswers_value
  rw [Scope.fails_iff admits found, undeclared, ambiguous, NameUse.fails, Bool.or_eq_true]

/-- A variable of a conclusion is found in the scope that introduces it. -/
theorem introduces (kinds : HostKinds globals) (named : ScopesNamed globals scopes names)
    {symbol : Symbol} (isCandidate : Scope.IsCandidate scopes name symbol)
    (isConclusion : symbol.kind = .queryConclusionVariable) :
    ∃ scope ∈ scopes, scope.Introduces symbol := by
  rcases isCandidate.2 with ⟨scope, member, inScope⟩
  refine ⟨scope, member, ?_⟩
  induction named with
  | host =>
      rw [List.mem_singleton.mp member] at inScope
      rcases kinds symbol inScope with isKind | isKind | isKind <;>
        cases isConclusion.symm.trans isKind
  | inside outer introduces ih =>
      rcases List.mem_cons.mp member with rfl | isOuter
      · rw [introduces.symbols_eq, List.mem_singleton] at inScope
        exact inScope ▸ introduces
      · exact ih ⟨isCandidate.1, scope, isOuter, inScope⟩ isOuter

end ScopesNamed

/-! ### Steps -/

/-- About what is in scope a step reports just what these uses call for, and its result is good. -/
def Binding.TellsUses {α : Type} (globals : List Symbol) (step : Binding α) (uses : List NameUse)
    (good : α → Prop) : Prop :=
  step.Tells fun reported value =>
    reported.filter Diagnostic.isAboutScope = NameUse.reports globals uses ∧ good value

namespace Binding.TellsUses

variable {α β : Type} {globals : List Symbol} {uses others : List NameUse} {middle : α → Prop}
  {good : β → Prop}

theorem pure {value : β} (isGood : good value) : TellsUses globals (pure value) [] good :=
  Tells.pure ⟨rfl, isGood⟩

theorem bind {first : Binding α} {second : α → Binding β}
    (tells : TellsUses globals first uses middle)
    (next : ∀ value, middle value → TellsUses globals (second value) others good) :
    TellsUses globals (first >>= second) (uses ++ others) good := by
  refine Tells.bind tells fun reported value own => ?_
  refine (next value own.2).mono fun later result rest => ?_
  rw [List.filter_append, own.1, rest.1, NameUse.reports_append]
  exact ⟨rfl, rest.2⟩

/-- What comes last says nothing about what is in scope. -/
theorem bind_quiet {first : Binding α} {second : α → Binding β}
    (tells : TellsUses globals first uses middle)
    (next : ∀ value, middle value → TellsUses globals (second value) [] good) :
    TellsUses globals (first >>= second) uses good := by
  have both := tells.bind next
  rwa [List.append_nil] at both

/-- A step that does not speak of what is in scope. -/
theorem of_reportsOnly {codes : List Nat} {step : Binding β} (only : step.ReportsOnly codes)
    (yields : step.Yields good) (others : ∀ code ∈ codes, code ∉ scopeCodes) :
    TellsUses globals step [] good :=
  Tells.mono (only.tells.and_yields yields) fun _ _ own =>
    ⟨filter_isAboutScope_eq_nil others own.1, own.2⟩

/-- A step that says nothing. -/
theorem of_silent {step : Binding β} (tells : step.Tells fun reported _ => reported = []) :
    TellsUses globals step [] fun _ => True :=
  Tells.mono tells fun _ _ own => ⟨by rw [own]; rfl, trivial⟩

/-- What comes first does not speak of what is in scope. -/
theorem quiet_bind {codes : List Nat} {first : Binding α} {second : α → Binding β}
    (only : first.ReportsOnly codes) (yields : first.Yields middle)
    (others : ∀ code ∈ codes, code ∉ scopeCodes)
    (next : ∀ value, middle value → TellsUses globals (second value) uses good) :
    TellsUses globals (first >>= second) uses good :=
  (of_reportsOnly only yields others).bind next

theorem collecting {step : Binding α} (tells : TellsUses globals step uses middle) :
    TellsUses globals (Binding.collecting step) uses fun result => middle result.1 :=
  Tells.mono (Tells.collecting tells) fun _ _ own => own.1

theorem mono {step : Binding β} {better : β → Prop} (tells : TellsUses globals step uses good)
    (implies : ∀ value, good value → better value) : TellsUses globals step uses better :=
  Tells.mono tells fun _ _ own => ⟨own.1, implies _ own.2⟩

end Binding.TellsUses

open Binding

theorem LookupResult.reportFailure_tells {result : LookupResult} {name : String}
    {location : Location} :
    (result.reportFailure name location).Tells fun reported _ =>
      reported.filter Diagnostic.isAboutScope =
        if result.error = none then [.located location .undeclaredName [name]] else [] := by
  unfold reportFailure
  split <;> refine Tells.report.mono fun reported _ own => ?_
  all_goals simp_all [Diagnostic.isAboutScope, scopeCodes, Diagnostic.located, Diagnostic.ofMessage,
    DiagnosticMessage.undeclaredName, DiagnosticMessage.conclusionOutOfScope,
    DiagnosticMessage.notInvocable, DiagnosticMessage.notGeneric, DiagnosticMessage.usedLike]

/-- A variable of a conclusion that is in scope is found there. -/
theorem bindReference_found {binder : Binder} {site : Site} {name : String}
    {location : Location} {symbol : Symbol}
    (introduced : symbol.kind = .queryConclusionVariable →
      ∃ scope ∈ binder.scopes, scope.Introduces symbol) :
    (bindReference binder site name location symbol).ReportsOnly [118] := by
  refine bindReference_reports (by decide) fun isConclusion notFound => ?_
  rcases conclusionReference?_eq_ok isConclusion notFound with ⟨_, _, found⟩ | ⟨_, nowhere⟩
  · cases found
  · rcases introduced isConclusion with ⟨scope, isScope, introduces⟩
    exact absurd introduces (nowhere scope isScope)

/-- From a binder, names are looked up where variables with these names are in scope, and queries
are bound. -/
structure Binder.Sees (binder : Binder) (globals : List Symbol) (names : List String) : Prop where
  named : ScopesNamed globals binder.scopes names
  live : binder.isCancelled = false

section

variable {globals : List Symbol} {binder : Binder} {names : List String} {site : Site}
  {identifier : Identifier}

/-- What looking a name up tells: nothing if there is an answer, and otherwise that the name does
not exist if that is so. -/
theorem tellsUses_of_lookup {α : Type} {name : String} (isCalled : Bool) {location : Location}
    (sees : binder.Sees globals names) {codes : List Nat}
    (others : ∀ code ∈ codes, code ∉ scopeCodes) {answered : Symbol → Binding α} {unanswered : α}
    (only : ∀ result symbol, binder.lookup name 0
      (if isCalled then .invocable else .unrestricted) = .ok result →
        result.answer? = some symbol → (answered symbol).ReportsOnly codes) :
    TellsUses globals (do
      let result ← binder.lookup name 0 (if isCalled then .invocable else .unrestricted)
      match result.answer? with
      | some symbol => answered symbol
      | none =>
        result.reportFailure name location
        return unanswered)
      [⟨name, location, isCalled, names⟩] fun _ => True := by
  refine Tells.bind_lift fun result found => ?_
  have fails := sees.named.fails_iff ⟨name, location, isCalled, names⟩ found
  split
  · next symbol isAnswer =>
      have succeeds : NameUse.fails globals ⟨name, location, isCalled, names⟩ = false := by
        rw [← Bool.not_eq_true, ← fails, isAnswer]
        simp
      refine (only result symbol found isAnswer).tells.mono fun reported _ own => ⟨?_, trivial⟩
      rw [NameUse.reports_singleton, succeeds]
      exact filter_isAboutScope_eq_nil others own
  · next noAnswer =>
      refine Tells.bind LookupResult.reportFailure_tells fun reported _ own => ?_
      refine Tells.pure ⟨?_, trivial⟩
      rw [noAnswer] at fails
      rw [List.append_nil, own, NameUse.reports_singleton]
      simp [← fails, NameUse.report]

theorem bindName_tells (kinds : HostKinds globals) (sees : binder.Sees globals names) :
    TellsUses globals (bindName binder site identifier) (identifier.uses false names)
      fun _ => True := by
  unfold bindName
  split
  · next noName =>
      rw [Identifier.uses, noName]
      exact .pure trivial
  · next name hasName =>
      rw [Identifier.uses, hasName]
      have answered (result : LookupResult) (symbol : Symbol)
          (found : binder.lookup name 0 .unrestricted = .ok result)
          (isAnswer : result.answer? = some symbol) :
          (bindReference binder site name identifier.location symbol).ReportsOnly [118] := by
        refine bindReference_found fun isConclusion => ?_
        have gives : (binder.lookup name 0 .unrestricted).Gives fun result =>
            result.MadeOf 0 .unrestricted (Scope.IsCandidate binder.scopes name) :=
          Scope.lookupThrough_gives
        rcases gives with ⟨_, foundAgain, madeOf⟩
        cases found.symm.trans foundAgain
        exact sees.named.introduces kinds (madeOf.answer isAnswer).1 isConclusion
      exact tellsUses_of_lookup false sees (by decide) answered

theorem bindNamedCall_tells (sees : binder.Sees globals names) {arguments : List BoundExpr} :
    TellsUses globals (bindNamedCall binder site identifier arguments)
      (identifier.uses true names) fun _ => True := by
  unfold bindNamedCall
  split
  · next noName =>
      rw [Identifier.uses, noName]
      exact .pure trivial
  · next name hasName =>
      rw [Identifier.uses, hasName]
      have answered (result : LookupResult) (method : Symbol)
          (_ : binder.lookup name 0 .invocable = .ok result) (_ : result.answer? = some method) :
          (pure (.namedCall site.node method.text arguments (method.type?.getD .error)) :
            Binding BoundExpr).ReportsOnly [] :=
        .pure
      exact tellsUses_of_lookup true sees (by decide) answered

/-! ### Expressions -/

theorem Binder.Sees.pushRangeVariable (sees : binder.Sees globals names)
    {declared : Option RangeVariable} (isFound : declared.map (·.val.name) = identifier.name) :
    (binder.pushRangeVariable declared).Sees globals (identifier.name.toList ++ names) := by
  cases declared with
  | none =>
      rw [← isFound]
      exact sees
  | some own =>
      rw [← isFound]
      exact ⟨.inside sees.named rfl, sees.live⟩

mutual

/-- Binding an expression tells about the names that the expression uses. -/
theorem bindExpr_tells (kinds : HostKinds globals) {binder : Binder} {names : List String}
    (sees : binder.Sees globals names) (expr : Expr) :
    TellsUses globals (bindExpr binder expr) (expr.uses names) fun _ => True := by
  match expr with
  | .name site identifier =>
      rw [bindExpr, Expr.uses]
      exact bindName_tells kinds sees
  | .literal site value =>
      rw [bindExpr, Expr.uses]
      exact .pure trivial
  | .parenthesized site inner =>
      rw [bindExpr, Expr.uses]
      exact bindExpr_tells kinds sees inner
  | .memberAccess site receiver member =>
      rw [bindExpr, Expr.uses]
      refine (bindExpr_tells kinds sees receiver).bind_quiet fun bound _ => ?_
      exact .of_reportsOnly bindMemberAccess_reports .anyResult (by decide)
  | .memberCall site receiver member arguments =>
      rw [bindExpr, Expr.uses]
      refine (bindExpr_tells kinds sees receiver).bind fun bound _ => ?_
      refine (bindExprs_tell kinds sees arguments).bind_quiet fun others _ => ?_
      exact .of_reportsOnly bindMemberCall_reports .anyResult (by decide)
  | .namedCall site callee arguments =>
      rw [bindExpr, Expr.uses]
      refine (bindExprs_tell kinds sees arguments).bind fun bound _ => ?_
      exact bindNamedCall_tells sees
  | .valueCall site callee text arguments =>
      rw [bindExpr, Expr.uses]
      refine (bindExpr_tells kinds sees callee).bind fun bound _ => ?_
      refine (bindExprs_tell kinds sees arguments).bind_quiet fun others _ => ?_
      exact .quiet_bind .report_own .anyResult (by decide)
        fun _ _ => .pure trivial
  | .binary site operator left right =>
      rw [bindExpr, Expr.uses]
      refine (bindExpr_tells kinds sees left).bind fun boundLeft _ => ?_
      refine (bindExpr_tells kinds sees right).bind_quiet fun boundRight _ => ?_
      exact .of_reportsOnly bindOperator_reports .anyResult (by decide)
  | .query site clauses ending conclusion =>
      rw [bindExpr, sees.live, Expr.uses, List.append_assoc]
      refine (bindClauses_tell kinds sees clauses).bind ?_
      rintro ⟨inner, bound⟩ innerSees
      refine (bindEnding_tells kinds innerSees ending).bind ?_
      rintro ⟨type, last⟩ -
      exact (bindConclusion_tells kinds sees conclusion).bind_quiet fun _ _ => .pure trivial

theorem bindExprs_tell (kinds : HostKinds globals) {binder : Binder} {names : List String}
    (sees : binder.Sees globals names) (exprs : List Expr) :
    TellsUses globals (bindExprs binder exprs) (Expr.allUses names exprs) fun _ => True := by
  match exprs with
  | [] =>
      rw [bindExprs, Expr.allUses]
      exact .pure trivial
  | expr :: rest =>
      rw [bindExprs, Expr.allUses]
      refine (bindExpr_tells kinds sees expr).bind fun bound _ => ?_
      exact (bindExprs_tell kinds sees rest).bind_quiet fun others _ => .pure trivial

/-- Binding a clause tells about the names that it uses, and its variable is in scope after it. -/
theorem bindClause_tells (kinds : HostKinds globals) {binder : Binder} {names : List String}
    (sees : binder.Sees globals names) (clause : Clause) :
    TellsUses globals (bindClause binder clause) (clause.uses names) fun result =>
      result.1.Sees globals (clause.declares ++ names) := by
  match clause with
  | .fromClause site identifier source =>
      rw [bindClause, Clause.uses]
      refine (bindExpr_tells kinds sees source).bind_quiet fun bound _ => ?_
      refine .quiet_bind bindElementType_reports .anyResult (by decide) fun element _ => ?_
      refine .quiet_bind declareRangeVariable_reportsOnly declareRangeVariable_yields (by decide) ?_
      exact fun declared isFound => .pure (sees.pushRangeVariable isFound)
  | .whereClause site condition =>
      rw [bindClause, Clause.uses]
      exact (bindExpr_tells kinds sees condition).bind_quiet fun bound _ => .pure sees
  | .letClause site identifier value =>
      rw [bindClause, Clause.uses]
      refine (bindExpr_tells kinds sees value).bind_quiet fun bound _ => ?_
      refine .quiet_bind declareRangeVariable_reportsOnly declareRangeVariable_yields (by decide) ?_
      exact fun declared isFound => .pure (sees.pushRangeVariable isFound)

theorem bindClauses_tell (kinds : HostKinds globals) {binder : Binder} {names : List String}
    (sees : binder.Sees globals names) (clauses : List Clause) :
    TellsUses globals (bindClauses binder clauses) (Clause.allUses names clauses) fun result =>
      result.1.Sees globals (Clause.namesAfter names clauses) := by
  match clauses with
  | [] =>
      rw [bindClauses, Clause.allUses]
      exact .pure sees
  | clause :: rest =>
      rw [bindClauses, Clause.allUses]
      refine (bindClause_tells kinds sees clause).bind ?_
      rintro ⟨next, bound⟩ nextSees
      refine (bindClauses_tell kinds nextSees rest).bind_quiet ?_
      exact fun result innerSees => .pure innerSees

theorem bindEnding_tells (kinds : HostKinds globals) {binder : Binder} {names : List String}
    (sees : binder.Sees globals names) (ending : QueryEnding) :
    TellsUses globals (bindEnding binder ending) (ending.uses names) fun _ => True := by
  match ending with
  | .absent =>
      rw [bindEnding, QueryEnding.uses]
      exact .pure trivial
  | .selectClause site selected =>
      rw [bindEnding, QueryEnding.uses]
      refine (bindExpr_tells kinds sees selected).bind_quiet fun bound _ => ?_
      exact (TellsUses.of_silent sequenceType_tells).bind fun type _ => .pure trivial
  | .groupClause site element key =>
      rw [bindEnding, QueryEnding.uses]
      refine (bindExpr_tells kinds sees element).bind fun boundElement _ => ?_
      refine (bindExpr_tells kinds sees key).bind_quiet fun boundKey _ => ?_
      refine (TellsUses.of_silent groupingType_tells).bind fun grouping _ => ?_
      exact (TellsUses.of_silent sequenceType_tells).bind fun type _ => .pure trivial

/-- Binding a conclusion tells about the names that it uses: none without a name of its own. -/
theorem bindConclusion_tells (kinds : HostKinds globals) {binder : Binder} {names : List String}
    {type : TypeId} (sees : binder.Sees globals names) (conclusion : Conclusion) :
    TellsUses globals (bindConclusion binder type conclusion) (conclusion.uses names)
      fun _ => True := by
  match conclusion with
  | .absent =>
      rw [bindConclusion, Conclusion.uses]
      exact .pure trivial
  | .present site identifier body =>
      rw [bindConclusion, Conclusion.uses]
      cases hasName : identifier.name with
      | none => exact .pure trivial
      | some name =>
          refine .quiet_bind declareConclusionVariable_silent
            declareConclusionVariable_yields (by decide) fun own sameName => ?_
          refine .quiet_bind declareConclusionScope_silent
            declareConclusionScope_yields (by decide) fun scope isOwn => ?_
          have inside : (binder.pushConclusion scope).Sees globals (name :: names) :=
            ⟨sameName ▸ .inside sees.named isOwn, sees.live⟩
          exact (bindRoot_tells kinds inside body).collecting.bind_quiet fun _ _ => .pure trivial

theorem bindRoot_tells (kinds : HostKinds globals) {binder : Binder} {names : List String}
    (sees : binder.Sees globals names) (root : RootExpr) :
    TellsUses globals (bindRoot binder root) (root.uses names) fun _ => True := by
  match root with
  | .tooDeep site reported =>
      rw [bindRoot, RootExpr.uses]
      exact .quiet_bind .report_own .anyResult (by decide)
        fun _ _ => .pure trivial
  | .expression expr =>
      rw [bindRoot, RootExpr.uses]
      exact bindExpr_tells kinds sees expr

end

/-! ### Statements -/

theorem StatementScope.declareLocal_sees {scope : StatementScope} {type : TypeId}
    (sees : scope.binder.Sees globals names) :
    (scope.declareLocal identifier type).Yields fun result =>
      result.1.binder.Sees globals (identifier.name.toList ++ names) := by
  refine declareLocal_yields.mono ?_
  rintro ⟨inner, found⟩ isFound
  cases found with
  | none =>
      rw [isFound.1, isFound.2]
      exact sees
  | some own =>
      rw [isFound.1, isFound.2.2]
      exact ⟨.inside sees.named ⟨rfl, isFound.2.1⟩, sees.live⟩

mutual

/-- Binding a statement tells about the names that it uses, and its local is in scope after it. -/
theorem bindStatement_tells (kinds : HostKinds globals) {scope : StatementScope}
    {names : List String} (sees : scope.binder.Sees globals names) (statement : Statement) :
    TellsUses globals (bindStatement scope statement) (statement.uses names) fun result =>
      result.1.binder.Sees globals (statement.declares ++ names) := by
  match statement with
  | .localDeclaration site identifier value =>
      rw [bindStatement, Statement.uses]
      refine (bindRoot_tells kinds sees value).bind_quiet fun bound _ => ?_
      refine .quiet_bind StatementScope.declareLocal_reports
        (StatementScope.declareLocal_sees sees) (by decide) ?_
      exact fun result innerSees => .pure innerSees
  | .expression site value | .returnValue site (some value) | .yieldReturn site (some value) =>
      rw [bindStatement, Statement.uses]
      exact (bindRoot_tells kinds sees value).bind_quiet fun bound _ => .pure sees
  | .returnValue site none | .yieldReturn site none | .yieldBreak site =>
      rw [bindStatement, Statement.uses]
      exact .pure sees
  | .doWhile site bodySite body condition =>
      rw [bindStatement, Statement.uses]
      have start : (StatementScope.start scope.binder).binder.Sees globals names := sees
      refine (bindStatements_tell kinds start body).bind fun boundBody _ => ?_
      exact (bindRoot_tells kinds sees condition).bind_quiet fun bound _ => .pure sees
  | .block site statements =>
      rw [bindStatement, Statement.uses]
      have start : (StatementScope.start scope.binder).binder.Sees globals names := sees
      exact (bindStatements_tell kinds start statements).bind_quiet fun bound _ => .pure sees

theorem bindStatements_tell (kinds : HostKinds globals) {scope : StatementScope}
    {names : List String} (sees : scope.binder.Sees globals names) (statements : List Statement) :
    TellsUses globals (bindStatements scope statements) (Statement.allUses names statements)
      fun _ => True := by
  match statements with
  | [] =>
      rw [bindStatements, Statement.allUses]
      exact .pure trivial
  | statement :: rest =>
      rw [bindStatements, Statement.allUses]
      refine .quiet_bind StatementScope.enter_reports StatementScope.enter_yields (by decide) ?_
      intro entered sameBinder
      have enteredSees : entered.binder.Sees globals names := sameBinder ▸ sees
      refine (bindStatement_tells kinds enteredSees statement).bind ?_
      rintro ⟨next, bound⟩ nextSees
      have afterSees : (next.after bound).binder.Sees globals (statement.declares ++ names) := by
        rw [StatementScope.binder_after]
        exact nextSees
      exact (bindStatements_tell kinds afterSees rest).bind_quiet fun others _ => .pure trivial

end

/-- Binding a file tells about the names that its statements use. -/
theorem bindFile_tells (kinds : HostKinds globals) (root : binder.Sees globals [])
    {tree : SyntaxTree} {list : StatementList} (isRead : StatementList.ofTree tree = .ok list) :
    TellsUses globals (bindFile binder tree) list.uses fun _ => True := by
  refine Tells.bind_lift fun _ _ => Tells.bind_lift fun read readEq => ?_
  cases readEq.symm.trans isRead
  have start : (StatementScope.start binder).binder.Sees globals [] := root
  exact (bindStatements_tell kinds start list.statements).bind_quiet fun bound _ => .pure trivial

end

end QueryLang
