import QueryLang.Binding.Expression
import QueryLang.Proofs.Binding.Yield
import QueryLang.Proofs.Lookup.Deciding

/-!
# How far errors reach

An operand or a receiver that could not be bound makes the expression around it one of the error
type, and so on outwards. Nothing of this is reported: binding the outermost expression reports
what binding its pieces reports. The source of a `from` clause is treated alike.

A call of an expression that is no member and no name is different. It is reported even if the
expression could not be bound.
-/

namespace QueryLang

/-- The state with more reports. -/
def BindingState.reporting (state : BindingState) (reported : Diagnostics) : BindingState :=
  { state with diagnostics := state.diagnostics ++ reported }

theorem BindingState.reporting_nil (state : BindingState) : state.reporting [] = state := by
  simp [reporting]

namespace Binder

/-- Binding an expression leads from one state to another. -/
def Binds (binder : Binder) (state : BindingState) (expr : Expr) (bound : BoundExpr)
    (after : BindingState) : Prop :=
  ExceptT.run (bindExpr binder expr) state = (.ok bound, after)

/-- Binding expressions one after the other leads from one state to another. -/
def BindsAll (binder : Binder) (state : BindingState) (exprs : List Expr)
    (bounds : List BoundExpr) (after : BindingState) : Prop :=
  ExceptT.run (bindExprs binder exprs) state = (.ok bounds, after)

variable {binder : Binder} {state middle between after : BindingState} {expr : Expr}
  {exprs others : List Expr} {bound : BoundExpr} {bounds otherBounds : List BoundExpr}

theorem BindsAll.cons_iff : binder.BindsAll state (expr :: others) bounds after ↔
    ∃ bound otherBounds middle, bounds = bound :: otherBounds ∧
      binder.Binds state expr bound middle ∧
      binder.BindsAll middle others otherBounds after := by
  constructor
  · intro all
    rw [BindsAll, bindExprs] at all
    rcases Binding.run_bind_eq_ok all with ⟨bound, middle, first, rest⟩
    rcases Binding.run_bind_eq_ok rest with ⟨otherBounds, last, isRest, isDone⟩
    cases isDone
    exact ⟨bound, otherBounds, middle, rfl, first, isRest⟩
  · rintro ⟨bound, otherBounds, middle, rfl, first, rest⟩
    rw [BindsAll, bindExprs, Binding.run_bind_of_ok first, Binding.run_bind_of_ok rest]
    rfl

theorem BindsAll.nil_iff : binder.BindsAll state [] bounds after ↔ bounds = [] ∧ after = state := by
  constructor
  · rintro ⟨⟩
    exact ⟨rfl, rfl⟩
  · rintro ⟨rfl, rfl⟩
    rfl

theorem BindsAll.append_iff : binder.BindsAll state (exprs ++ others) bounds after ↔
    ∃ first second middle, bounds = first ++ second ∧
      binder.BindsAll state exprs first middle ∧ binder.BindsAll middle others second after := by
  induction exprs generalizing state bounds with
  | nil => simp [nil_iff]
  | cons expr rest ih =>
      rw [List.cons_append, cons_iff]
      constructor
      · rintro ⟨bound, bounds, middle, rfl, isFirst, isRest⟩
        rcases ih.mp isRest with ⟨first, second, last, rfl, areFirst, areSecond⟩
        exact ⟨bound :: first, second, last, rfl, cons_iff.mpr ⟨_, _, _, rfl, isFirst, areFirst⟩,
          areSecond⟩
      · rintro ⟨first, second, last, rfl, areFirst, areSecond⟩
        rcases cons_iff.mp areFirst with ⟨bound, bounds, middle, rfl, isFirst, isRest⟩
        exact ⟨bound, bounds ++ second, middle, rfl, isFirst,
          ih.mpr ⟨_, _, _, rfl, isRest, areSecond⟩⟩

end Binder

namespace Expr

/-- An expression is an operand, the receiver or the inside of another one. What else is bound for
that one comes before it or after it. -/
inductive Underlies : (before : List Expr) → (inner outer : Expr) → (after : List Expr) → Prop
  | leftOperand (site : Site) (operator : Operator) (left right : Expr) :
      Underlies [] left (.binary site operator left right) [right]
  | rightOperand (site : Site) (operator : Operator) (left right : Expr) :
      Underlies [left] right (.binary site operator left right) []
  | receiver (site : Site) (receiver : Expr) (member : Identifier) :
      Underlies [] receiver (.memberAccess site receiver member) []
  | calledReceiver (site : Site) (receiver : Expr) (member : Identifier) (arguments : List Expr) :
      Underlies [] receiver (.memberCall site receiver member arguments) arguments
  | inside (site : Site) (inner : Expr) : Underlies [] inner (.parenthesized site inner) []

/-- An expression is, through any number of others, an operand, the receiver or the inside of
another one. -/
inductive LiesIn : (before : List Expr) → (inner outer : Expr) → (after : List Expr) → Prop
  | refl (expr : Expr) : LiesIn [] expr expr []
  | step {before after further later : List Expr} {inner middle outer : Expr}
      (lies : LiesIn before inner middle after) (underlies : Underlies further middle outer later) :
      LiesIn (further ++ before) inner outer (after ++ later)

end Expr

section Containing

variable {binder : Binder} {state middle between after : BindingState} {inner outer : Expr}
  {before later : List Expr} {bound : BoundExpr} {bounds otherBounds : List BoundExpr}

theorem findMember_error {type : TypeId} (isError : type.isError = true) (member : Identifier)
    (wantsMethod : Bool) (misuse : String → Binding Unit) (state : BindingState) :
    ExceptT.run (findMember type member wantsMethod misuse) state = (.ok none, state) := by
  unfold findMember
  cases member.name with
  | none => rfl
  | some name =>
      simp only [isError, if_true]
      rfl

/-- One step outwards from an expression of the error type reports nothing. -/
theorem Expr.Underlies.contained (underlies : inner.Underlies before outer later)
    (first : binder.BindsAll state before bounds middle)
    (own : binder.Binds middle inner bound between) (isError : bound.type.isError = true)
    (last : binder.BindsAll between later otherBounds after) :
    ∃ whole, binder.Binds state outer whole after ∧ whole.type.isError = true := by
  cases underlies with
  | leftOperand site operator left right =>
    rcases Binder.BindsAll.nil_iff.mp first with ⟨rfl, rfl⟩
    rcases Binder.BindsAll.cons_iff.mp last with ⟨second, rest, final, rfl, isSecond, isRest⟩
    rcases Binder.BindsAll.nil_iff.mp isRest with ⟨rfl, rfl⟩
    refine ⟨.binary site.node operator.kind bound second .error, ?_, rfl⟩
    rw [Binder.Binds, bindExpr, Binding.run_bind_of_ok own, Binding.run_bind_of_ok isSecond]
    simp only [bindOperator, isError, Bool.true_or, if_true]
    rfl
  | rightOperand site operator left right =>
    rcases Binder.BindsAll.cons_iff.mp first with ⟨second, rest, final, rfl, isSecond, isRest⟩
    rcases Binder.BindsAll.nil_iff.mp isRest with ⟨rfl, rfl⟩
    rcases Binder.BindsAll.nil_iff.mp last with ⟨rfl, rfl⟩
    refine ⟨.binary site.node operator.kind second bound .error, ?_, rfl⟩
    rw [Binder.Binds, bindExpr, Binding.run_bind_of_ok isSecond, Binding.run_bind_of_ok own]
    simp only [bindOperator, isError, Bool.or_true, if_true]
    rfl
  | receiver site receiver member =>
    rcases Binder.BindsAll.nil_iff.mp first with ⟨rfl, rfl⟩
    rcases Binder.BindsAll.nil_iff.mp last with ⟨rfl, rfl⟩
    refine ⟨.bad site.node [bound], ?_, rfl⟩
    rw [Binder.Binds, bindExpr, Binding.run_bind_of_ok own, bindMemberAccess,
      Binding.run_bind_of_ok (findMember_error isError member _ _ _)]
    rfl
  | calledReceiver site receiver member arguments =>
    rcases Binder.BindsAll.nil_iff.mp first with ⟨rfl, rfl⟩
    refine ⟨.bad site.node (bound :: otherBounds), ?_, rfl⟩
    rw [Binder.Binds, bindExpr, Binding.run_bind_of_ok own, Binding.run_bind_of_ok last,
      bindMemberCall, Binding.run_bind_of_ok (findMember_error isError member _ _ _)]
    rfl
  | inside site inner =>
    rcases Binder.BindsAll.nil_iff.mp first with ⟨rfl, rfl⟩
    rcases Binder.BindsAll.nil_iff.mp last with ⟨rfl, rfl⟩
    refine ⟨bound, ?_, isError⟩
    rw [Binder.Binds, bindExpr]
    exact own

/-- No number of steps outwards from an expression of the error type reports anything. -/
theorem Expr.LiesIn.contained (lies : inner.LiesIn before outer later)
    (first : binder.BindsAll state before bounds middle)
    (own : binder.Binds middle inner bound between) (isError : bound.type.isError = true)
    (last : binder.BindsAll between later otherBounds after) :
    ∃ whole, binder.Binds state outer whole after ∧ whole.type.isError = true := by
  induction lies generalizing state after bounds otherBounds with
  | refl expr =>
    rcases Binder.BindsAll.nil_iff.mp first with ⟨rfl, rfl⟩
    rcases Binder.BindsAll.nil_iff.mp last with ⟨rfl, rfl⟩
    exact ⟨bound, own, isError⟩
  | step lies underlies ih =>
    rcases Binder.BindsAll.append_iff.mp first with
      ⟨furtherBounds, beforeBounds, start, rfl, isFurther, isBefore⟩
    rcases Binder.BindsAll.append_iff.mp last with
      ⟨afterBounds, laterBounds, stop, rfl, isAfter, isLater⟩
    rcases ih isBefore own isAfter with ⟨whole, isWhole, wholeIsError⟩
    exact underlies.contained isFurther isWhole wholeIsError isLater

/-! ### Calls -/

/-- A call of what is no member and no name is reported, whatever is called. -/
theorem valueCall_reports {site : Site} {callee : Expr} {arguments : List Expr}
    (first : binder.Binds state callee bound middle)
    (rest : binder.BindsAll middle arguments bounds after) (calleeText : String) :
    binder.Binds state (.valueCall site callee calleeText arguments)
      (.bad site.node (bound :: bounds))
      (after.reporting [.located callee.site.location .notInvocable [calleeText]]) := by
  rw [Binder.Binds, bindExpr, Binding.run_bind_of_ok first, Binding.run_bind_of_ok rest]
  rfl

theorem lookup_undeclared {name : String}
    (unknown : ∀ scope ∈ binder.scopes, ∀ symbol ∈ scope.symbols, symbol.name ≠ name)
    (arity : Nat) (options : LookupOptions) : binder.lookup name arity options = .ok .clear := by
  have nothing : ∀ scope ∈ binder.scopes, scope.gathered name arity options = .clear := by
    intro scope member
    have noneNamed : scope.symbols.filter (·.name == name) = [] := by
      apply List.filter_eq_nil_iff.mpr
      intro symbol inScope
      simpa using unknown scope member symbol inScope
    rw [Scope.gathered, noneNamed, List.foldl_nil, ite_self]
  have stays : Scope.mergedFrom name arity options .clear binder.scopes = .clear := by
    apply Scope.mergedFrom_eq_self
    intro scope member
    exact Nat.le_of_eq (congrArg (·.viability.rank) (nothing scope member))
  exact (Scope.lookupFrom_eq_ok .clear binder.scopes).trans (congrArg Except.ok stays)

/-- A name that no scope declares is reported in the same words alone and where it is called. -/
theorem undeclared_reports {site callSite : Site} {identifier : Identifier} {name : String}
    {arguments : List Expr} (isName : identifier.name = some name)
    (unknown : ∀ scope ∈ binder.scopes, ∀ symbol ∈ scope.symbols, symbol.name ≠ name)
    (rest : binder.BindsAll state arguments bounds after) :
    binder.Binds state (.name site identifier) (.bad site.node [])
        (state.reporting [.located identifier.location .undeclaredName [name]]) ∧
      binder.Binds state (.namedCall callSite identifier arguments) (.bad callSite.node bounds)
        (after.reporting [.located identifier.location .undeclaredName [name]]) := by
  constructor
  · rw [Binder.Binds, bindExpr, bindName, isName]
    dsimp only
    rw [lookup_undeclared unknown]
    rfl
  · rw [Binder.Binds, bindExpr, Binding.run_bind_of_ok rest, bindNamedCall, isName]
    dsimp only
    rw [lookup_undeclared unknown]
    rfl

/-! ### Sources of queries -/

/-- The reports say at most that the name of a range variable is taken. -/
def Identifier.IsTakenAtMost (identifier : Identifier) (reported : Diagnostics) : Prop :=
  reported = [] ∨ ∃ name, identifier.name = some name ∧
    reported = [.located identifier.location .rangeVariableConflict [name]]

/-- Declaring a variable reports at most that its name is taken. -/
theorem declareRangeVariable_reports (binder : Binder) (identifier : Identifier) (type : TypeId)
    (state : BindingState) :
    ∃ declared reported after,
      ExceptT.run (declareRangeVariable binder identifier type) state = (.ok declared, after) ∧
      after.diagnostics = state.diagnostics ++ reported ∧ after.types = state.types ∧
      identifier.IsTakenAtMost reported := by
  unfold declareRangeVariable
  cases isName : identifier.name with
  | none => exact ⟨none, [], state, rfl, (List.append_nil _).symm, rfl, .inl rfl⟩
  | some name =>
      have found : binder.lookup name 0 .unrestricted = .ok _ :=
        Scope.lookupFrom_eq_ok .clear binder.scopes
      generalize Scope.mergedFrom name 0 .unrestricted .clear binder.scopes = existing at found
      have read : ExceptT.run (liftM (Except.ok existing : Checked LookupResult) :
          Binding LookupResult) state = (.ok existing, state) := rfl
      dsimp only
      rw [found, Binding.run_bind_of_ok read]
      let declared : RangeVariable := ⟨.located state.nextSymbol name binder.container
        identifier.location (.rangeVariable type), rfl⟩
      cases isTaken : existing.isViable && existing.symbols.any
          fun symbol => symbol.kind == .localVariable || symbol.kind == .rangeVariable with
      | true =>
          let conflict := Diagnostic.located identifier.location .rangeVariableConflict [name]
          refine ⟨some declared, [conflict],
            { state.reporting [conflict] with nextSymbol := state.nextSymbol + 1 }, ?_, rfl, rfl,
            .inr ⟨name, isName, rfl⟩⟩
          rfl
      | false =>
          refine ⟨some declared, [], { state with nextSymbol := state.nextSymbol + 1 }, ?_,
            (List.append_nil _).symm, rfl, .inl rfl⟩
          rfl

/-- A `from` clause over a source of the error type reports at most that the name of its variable
is taken. -/
theorem fromClause_contained {source : Expr} (own : binder.Binds state source bound between)
    (isError : bound.type.isError = true) (site : Site) (identifier : Identifier) :
    ∃ clause reported after,
      ExceptT.run (bindClause binder (.fromClause site identifier source)) state =
        (.ok clause, after) ∧
      after.diagnostics = between.diagnostics ++ reported ∧ after.types = between.types ∧
      identifier.IsTakenAtMost reported := by
  rcases declareRangeVariable_reports binder identifier .error between with
    ⟨declared, reported, after, ran, reports, types, isTaken⟩
  have noElement : ExceptT.run (bindElementType bound source.innerSite.location) between =
      (.ok .error, between) := by
    unfold bindElementType
    rw [if_pos isError]
    rfl
  refine ⟨(binder.pushRangeVariable declared,
    .fromClause site.node (declared.map Subtype.val) bound), reported, after, ?_, reports, types,
    isTaken⟩
  rw [bindClause, Binding.run_bind_of_ok own, Binding.run_bind_of_ok noElement,
    Binding.run_bind_of_ok ran]
  rfl

/-- What a binder reports when something could not be bound. -/
structure Binder.ContainsErrors (binder : Binder) : Prop where
  /-- Around an operand, a receiver or the inside of parentheses that is of the error type nothing
  is reported but what the other pieces report. -/
  inside : ∀ {before later inner outer state middle between after bounds bound otherBounds},
    inner.LiesIn before outer later → binder.BindsAll state before bounds middle →
    binder.Binds middle inner bound between → bound.type.isError = true →
    binder.BindsAll between later otherBounds after →
    ∃ whole, binder.Binds state outer whole after ∧ whole.type.isError = true
  /-- A clause over a source of the error type reports at most that its name is taken. -/
  source : ∀ {source state bound between}, binder.Binds state source bound between →
    bound.type.isError = true → ∀ site identifier, ∃ clause reported after,
      ExceptT.run (bindClause binder (.fromClause site identifier source)) state =
        (.ok clause, after) ∧
      after.diagnostics = between.diagnostics ++ reported ∧ after.types = between.types ∧
      identifier.IsTakenAtMost reported
  /-- A call of a name that no scope declares reports what the name alone would report. -/
  undeclared : ∀ {identifier name arguments state bounds after}, identifier.name = some name →
    (∀ scope ∈ binder.scopes, ∀ symbol ∈ scope.symbols, symbol.name ≠ name) →
    binder.BindsAll state arguments bounds after → ∀ site callSite,
    binder.Binds state (.name site identifier) (.bad site.node [])
        (state.reporting [.located identifier.location .undeclaredName [name]]) ∧
      binder.Binds state (.namedCall callSite identifier arguments) (.bad callSite.node bounds)
        (after.reporting [.located identifier.location .undeclaredName [name]])
  /-- A call of what is no member and no name is reported once, also if that is of the error
  type. -/
  called : ∀ {callee arguments state middle after bound bounds},
    binder.Binds state callee bound middle → binder.BindsAll middle arguments bounds after →
    ∀ site calleeText, binder.Binds state (.valueCall site callee calleeText arguments)
      (.bad site.node (bound :: bounds))
      (after.reporting [.located callee.site.location .notInvocable [calleeText]])

/-- Errors are reported where they are, and once: only the call of an expression that is no member
and no name is reported although the expression could not be bound. -/
theorem Binder.containsErrors (binder : Binder) : binder.ContainsErrors where
  inside lies first own isError last := lies.contained first own isError last
  source own isError := fromClause_contained own isError
  undeclared isName unknown rest _ _ := undeclared_reports isName unknown rest
  called first rest _ := valueCall_reports first rest

/-- In `nope.Length + 1 * nope2` two names are reported that no scope declares, and nothing else. -/
theorem containsErrors_operands :
    let site : Site := ⟨0, ⟨0, ⟨0, 0⟩⟩⟩
    let named (name : String) : Expr := .name site ⟨some name, site.location⟩
    let product : Expr := .binary site ⟨.asteriskToken, site.location⟩ (.literal site (.int 1))
      (named "nope2")
    let sum : Expr := .binary site ⟨.plusToken, site.location⟩
      (.memberAccess site (named "nope") ⟨some "Length", site.location⟩) product
    let binder : Binder := ⟨[], default, false⟩
    let state : BindingState := ⟨default, 0, []⟩
    ∃ whole, binder.Binds state sum whole (state.reporting
      [.located site.location .undeclaredName ["nope"],
        .located site.location .undeclaredName ["nope2"]]) ∧ whole.type.isError = true := by
  intro site named product sum binder state
  let between := state.reporting [.located site.location .undeclaredName ["nope"]]
  have own : binder.Binds state (named "nope") (.bad 0 []) between := rfl
  have others : binder.BindsAll between [product]
      [.binary 0 .asteriskToken (.literal 0 (.int 1)) (.bad 0 []) .error]
      (state.reporting [.located site.location .undeclaredName ["nope"],
        .located site.location .undeclaredName ["nope2"]]) := rfl
  have lies : (named "nope").LiesIn [] sum [product] :=
    .step (.step (.refl (named "nope")) (.receiver site _ _)) (.leftOperand site _ _ product)
  exact (Binder.containsErrors binder).inside lies rfl own rfl others

/-- In `(nope)()` the name is reported, and so is the call of what could not be bound. -/
theorem called_error_reported :
    let site : Site := ⟨0, ⟨0, ⟨0, 0⟩⟩⟩
    let callee : Expr := .parenthesized site (.name site ⟨some "nope", site.location⟩)
    let binder : Binder := ⟨[], default, false⟩
    let state : BindingState := ⟨default, 0, []⟩
    ∃ bound between whole after, binder.Binds state callee bound between ∧
      bound.type.isError = true ∧
      binder.Binds state (.valueCall site callee "(nope)" []) whole after ∧
      after.diagnostics =
        between.diagnostics ++ [.located site.location .notInvocable ["(nope)"]] := by
  intro site callee binder state
  let between := state.reporting [.located site.location .undeclaredName ["nope"]]
  have own : binder.Binds state callee (.bad 0 []) between := rfl
  have noArguments : binder.BindsAll between [] [] between := rfl
  exact ⟨_, _, _, _, own, rfl, valueCall_reports own noArguments "(nope)", rfl⟩

end Containing

end QueryLang
