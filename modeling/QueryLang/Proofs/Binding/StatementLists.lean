import QueryLang.Proofs.Binding.ExpressionReports
import QueryLang.Proofs.Program.StatementLists

/-!
# What is reported about lists of statements

About lists of statements, binding reports just what each of them calls for: its locals that have
the name of an earlier one, and its first statement that control does not reach. The reports on
lists that are inside of one another are not in one row, so what is reported is known up to order.
-/

namespace QueryLang

/-- What is said about lists of statements, by codes. -/
def listCodes : List Nat :=
  [DiagnosticMessage.duplicateLocal.code, DiagnosticMessage.unreachableCode.code]

/-- A report is about a list of statements. -/
def Diagnostic.isAboutList (diagnostic : Diagnostic) : Bool :=
  listCodes.contains diagnostic.code

/-- What is reported about a list of statements by itself. -/
def StatementList.reports (list : StatementList) : Diagnostics :=
  list.duplicateReports ++ list.unreachableReports

/-! ### Steps -/

/-- About lists of statements a step reports these, up to order, and its result is good. -/
abbrev Binding.TellsLists {α : Type} (step : Binding α) (expected : Diagnostics)
    (good : α → Prop) : Prop :=
  step.TellsAbout listCodes expected good

/-- What comes first speaks of expressions, and so not of lists. -/
theorem Binding.TellsLists.speaks_bind {α β : Type} {expected : Diagnostics} {good : β → Prop}
    {first : Binding α} {second : α → Binding β} (speaks : first.Speaks expressionCodes)
    (next : ∀ value, (second value).TellsLists expected good) :
    (first >>= second).TellsLists expected good :=
  TellsAbout.speaks_bind speaks (by decide) next

open Binding

/-! ### What is known in the middle of a list -/

namespace Statement

/-- The locals of some statements that have one of these names, or that of an earlier one. -/
def repeatedAfter (names : List String) : List Statement → List Identifier
  | [] => []
  | statement :: rest =>
    (statement.local?.toList.filter fun own => own.name.any names.contains) ++
      repeatedAfter (statement.declares ++ names) rest

/-- The statement that is reported as unreachable when it is known what was before. -/
def unreachableAfter? : Reachability → List Statement → Option Statement
  | .reachable, statements => firstUnreachable? statements
  | .unreachable, statements => statements.head?
  | .reported, _ => none

/-- The names of the earlier locals are all that has to be known about them. -/
theorem repeatedAfter_eq {earlier : List Identifier} {names : List String}
    (sameNames : ∀ name, name ∈ names ↔ ∃ own ∈ earlier, own.name = some name)
    (statements : List Statement) :
    repeatedAfter names statements =
      (((statements.filterMap local?).zipIdx earlier.length).filter fun entry =>
        entry.1.name.isSome && ((earlier ++ statements.filterMap local?).take entry.2).any
          (·.name == entry.1.name)).map Prod.fst := by
  induction statements generalizing earlier names with
  | nil => rfl
  | cons statement rest ih =>
      rw [repeatedAfter]
      cases isLocal : statement.local? with
      | none =>
          have declaresNone : statement.declares = [] := by
            cases statement <;> first | rfl | cases isLocal
          rw [declaresNone, List.nil_append, List.filterMap_cons_none isLocal]
          exact ih sameNames
      | some own =>
          have declaresOwn : statement.declares = own.name.toList := by
            cases statement <;> cases isLocal
            rfl
          have isRepeated : own.name.any names.contains =
              (own.name.isSome && earlier.any (·.name == own.name)) := by
            rw [Bool.eq_iff_iff]
            cases nameEq : own.name <;> simp [sameNames]
          have laterNames (name : String) : name ∈ own.name.toList ++ names ↔
              ∃ other ∈ earlier ++ [own], other.name = some name := by
            rw [List.mem_append, sameNames, Option.mem_toList]
            simp [or_comm]
          have later := ih laterNames
          rw [List.length_append, List.length_singleton, List.append_assoc,
            List.singleton_append] at later
          rw [declaresOwn, List.filterMap_cons_some isLocal, List.zipIdx_cons, later]
          simp only [List.filter_cons, List.take_left, isRepeated, Option.toList_some]
          split <;> simp

/-- What is known after one more statement. -/
theorem unreachableAfter?_cons {before after : Reachability} (statement : Statement)
    (rest : List Statement)
    (isAfter : after = if before = .reachable then
        if statement.isTerminal then .unreachable else .reachable
      else .reported) :
    (if before = .unreachable then [statement] else []) ++ (unreachableAfter? after rest).toList =
      (unreachableAfter? before (statement :: rest)).toList := by
  subst isAfter
  cases before with
  | reachable =>
      rw [unreachableAfter?, firstUnreachable?_cons]
      cases statement.isTerminal <;> rfl
  | unreachable => rfl
  | reported => rfl

end Statement

theorem StatementList.repeatedLocals_eq (list : StatementList) :
    list.repeatedLocals = Statement.repeatedAfter [] list.statements := by
  have noneEarlier (name : String) : name ∈ [] ↔ ∃ own ∈ ([] : List Identifier),
      own.name = some name := by
    simp
  rw [Statement.repeatedAfter_eq noneEarlier]
  rfl

/-- The reports on a list itself when it is known what was before. -/
def StatementScope.reportsOn (scope : StatementScope) (statements : List Statement) :
    Diagnostics :=
  (Statement.repeatedAfter scope.declared statements).map Identifier.duplicateReport ++
    (Statement.unreachableAfter? scope.reachability statements).toList.map
      Statement.unreachableReport

theorem StatementScope.reportsOn_start (binder : Binder) (list : StatementList) :
    (start binder).reportsOn list.statements = list.reports := by
  rw [StatementList.reports, StatementList.duplicateReports, list.repeatedLocals_eq]
  rfl

/-- What is known about a list past one of its statements. The binder is that of before. -/
def StatementScope.past (scope : StatementScope) (statement : Statement) : StatementScope :=
  { scope with
    declared := statement.declares ++ scope.declared
    reachability := if scope.reachability = .reachable then
        if statement.isTerminal then .unreachable else .reachable
      else .reported }

/-- The reports on a list are those on its first statement, and those on the rest when the first
statement is known. -/
theorem StatementScope.reportsOn_cons (scope : StatementScope) (statement : Statement)
    (rest : List Statement) :
    ((if scope.reachability = .unreachable then [statement] else []).map
      Statement.unreachableReport ++
      ((statement.local?.toList.filter fun own => own.name.any scope.declared.contains).map
        Identifier.duplicateReport ++ (scope.past statement).reportsOn rest)).Perm
      (scope.reportsOn (statement :: rest)) := by
  rw [reportsOn, reportsOn, ← Statement.unreachableAfter?_cons statement rest rfl,
    Statement.repeatedAfter, List.map_append, List.map_append]
  refine List.perm_iff_count.mpr fun diagnostic => ?_
  simp only [List.count_append, past]
  omega

/-- The scope after a bound statement knows as much as the scope past the statement. -/
theorem StatementScope.reportsOn_after {scope next : StatementScope} {statement : Statement}
    {bound : BoundStatement} (isDeclared : next.declared = statement.declares ++ scope.declared)
    (isReachability : next.reachability =
      if scope.reachability = .reachable then .reachable else .reported)
    (isTerminal : bound.isTerminal = statement.isTerminal) (rest : List Statement) :
    (next.after bound).reportsOn rest = (scope.past statement).reportsOn rest := by
  have declaredEq : (next.after bound).declared = (scope.past statement).declared := by
    unfold after
    split <;> exact isDeclared
  have reachabilityEq : (next.after bound).reachability = (scope.past statement).reachability := by
    unfold after past
    rw [isReachability, isTerminal]
    by_cases isReachable : scope.reachability = .reachable
    · cases statement.isTerminal <;> simp [isReachable, isReachability]
    · simp [isReachable, isReachability]
  rw [reportsOn, reportsOn, declaredEq, reachabilityEq]

/-! ### Binding lists -/

variable {scope : StatementScope} {identifier : Identifier} {type : TypeId}

theorem StatementScope.enter_lists (statement : Statement) :
    (scope.enter statement.site.location).TellsLists
      ((if scope.reachability = .unreachable then [statement] else []).map
        Statement.unreachableReport)
      fun entered => entered.declared = scope.declared ∧ entered.reachability =
        if scope.reachability = .reachable then .reachable else .reported := by
  unfold enter
  split
  · next isUnreachable =>
      refine Tells.bind Tells.report fun reported _ own => Tells.pure ⟨?_, rfl, ?_⟩
      · rw [own, List.append_nil]
        exact .refl _
      · rw [isUnreachable]
        rfl
  · next isOther =>
      refine .pure ⟨rfl, ?_⟩
      cases isReachability : scope.reachability with
      | reachable | reported => rfl
      | unreachable => exact absurd isReachability isOther

theorem StatementScope.declareLocal_lists :
    (scope.declareLocal identifier type).TellsLists
      (([identifier].filter fun own => own.name.any scope.declared.contains).map
        Identifier.duplicateReport)
      fun result => result.1.declared = identifier.name.toList ++ scope.declared ∧
        result.1.reachability = scope.reachability := by
  unfold declareLocal
  split
  · next noName =>
      rw [noName, List.filter_cons_of_neg (by simp [noName])]
      exact .pure ⟨rfl, rfl⟩
  · next name hasName =>
      have fresh : freshId.Speaks expressionCodes := freshId_silent.tells
      rw [hasName]
      dsimp only
      split
      · next isRepeated =>
          have reported : (report identifier.location .duplicateLocal [name]).TellsLists
              [identifier.duplicateReport] fun _ => True := by
            refine Tells.report.mono fun reported _ own => ⟨?_, trivial⟩
            rw [own, Identifier.duplicateReport, hasName]
            exact .refl _
          rw [List.filter_cons_of_pos (by rw [hasName]; exact isRepeated)]
          exact reported.bind fun _ _ => TellsLists.speaks_bind fresh fun id => .pure ⟨rfl, rfl⟩
      · next isNew =>
          rw [List.filter_cons_of_neg (by rw [hasName]; exact isNew)]
          exact .speaks_bind fresh fun id => .pure ⟨rfl, rfl⟩

mutual

/-- About lists, binding a statement reports whether its local is repeated, and what the lists
inside of it call for. -/
theorem bindStatement_lists (scope : StatementScope) (statement : Statement) :
    (bindStatement scope statement).TellsLists
      ((statement.local?.toList.filter fun own => own.name.any scope.declared.contains).map
          Identifier.duplicateReport ++ statement.innerLists.flatMap StatementList.reports)
      fun result => result.1.declared = statement.declares ++ scope.declared ∧
        result.1.reachability = scope.reachability ∧
        result.2.isTerminal = statement.isTerminal := by
  match statement with
  | .localDeclaration site identifier value =>
      rw [bindStatement]
      refine .speaks_bind (bindRoot_speaks scope.binder value) fun bound => ?_
      exact StatementScope.declareLocal_lists.bind fun result own => .pure ⟨own.1, own.2, rfl⟩
  | .expression site value | .returnValue site (some value) | .yieldReturn site (some value) =>
      rw [bindStatement]
      exact .speaks_bind (bindRoot_speaks scope.binder value) fun bound => .pure ⟨rfl, rfl, rfl⟩
  | .returnValue site none | .yieldReturn site none | .yieldBreak site =>
      rw [bindStatement]
      exact .pure ⟨rfl, rfl, rfl⟩
  | .doWhile site bodySite body condition =>
      rw [bindStatement]
      have ofBody := bindStatements_lists (.start scope.binder) body
      rw [StatementScope.reportsOn_start scope.binder ⟨bodySite, body⟩] at ofBody
      exact ofBody.bind_quiet fun boundBody _ => TellsLists.speaks_bind
        (bindRoot_speaks scope.binder condition) fun bound => .pure ⟨rfl, rfl, rfl⟩
  | .block site statements =>
      rw [bindStatement]
      have inner := bindStatements_lists (.start scope.binder) statements
      rw [StatementScope.reportsOn_start scope.binder ⟨site, statements⟩] at inner
      exact inner.bind_pure fun bound _ => ⟨rfl, rfl, rfl⟩

/-- About lists, binding statements reports what they call for after what was before, and what the
lists inside of them call for. -/
theorem bindStatements_lists (scope : StatementScope) (statements : List Statement) :
    (bindStatements scope statements).TellsLists
      (scope.reportsOn statements ++
        (Statement.allInnerLists statements).flatMap StatementList.reports) fun _ => True := by
  match statements with
  | [] =>
      rw [bindStatements]
      refine .perm (.pure trivial) ?_
      cases isReachability : scope.reachability <;>
        simp [StatementScope.reportsOn, isReachability, Statement.repeatedAfter,
          Statement.unreachableAfter?, Statement.firstUnreachable?, Statement.allInnerLists]
  | statement :: rest =>
      rw [bindStatements]
      have first (entered : StatementScope) (sameNames : entered.declared = scope.declared)
          (isReachability : entered.reachability =
            if scope.reachability = .reachable then .reachable else .reported) :
          TellsLists (do
            let (next, bound) ← bindStatement entered statement
            return bound :: (← bindStatements (next.after bound) rest))
            (((statement.local?.toList.filter fun own => own.name.any scope.declared.contains).map
                Identifier.duplicateReport ++ statement.innerLists.flatMap StatementList.reports) ++
              ((scope.past statement).reportsOn rest ++
                (Statement.allInnerLists rest).flatMap StatementList.reports)) fun _ => True := by
        have ofStatement := bindStatement_lists entered statement
        rw [sameNames] at ofStatement
        refine ofStatement.bind ?_
        rintro ⟨next, bound⟩ ⟨isDeclared, sameReachability, isTerminal⟩
        have ofRest := bindStatements_lists (next.after bound) rest
        rw [StatementScope.reportsOn_after isDeclared (sameReachability.trans isReachability)
          isTerminal] at ofRest
        exact ofRest.bind_pure fun _ _ => trivial
      refine .perm ((StatementScope.enter_lists statement).bind fun entered isEntered =>
        first entered isEntered.1 isEntered.2) ?_
      have own := StatementScope.reportsOn_cons scope statement rest
      rw [Statement.allInnerLists, List.flatMap_append]
      refine List.perm_iff_count.mpr fun diagnostic => ?_
      have counted := List.perm_iff_count.mp own diagnostic
      simp only [List.count_append] at counted ⊢
      omega

end

/-- About lists, binding a block reports what it and the lists inside of it call for. -/
theorem bindBlock_lists (binder : Binder) (list : StatementList) :
    (bindBlock binder list).TellsLists (list.nested.flatMap StatementList.reports)
      fun _ => True := by
  have inner := bindStatements_lists (.start binder) list.statements
  rw [StatementScope.reportsOn_start] at inner
  exact inner.bind_pure fun _ _ => trivial

/-- About lists, binding a file reports what it and its blocks call for. -/
theorem bindFile_lists (binder : Binder) {tree : SyntaxTree} {list : StatementList}
    (isRead : StatementList.ofTree tree = .ok list) :
    (bindFile binder tree).TellsLists (list.nested.flatMap StatementList.reports)
      fun _ => True := by
  refine Tells.bind_lift fun _ _ => Tells.bind_lift fun read readEq => ?_
  cases readEq.symm.trans isRead
  exact bindBlock_lists binder list

end QueryLang
