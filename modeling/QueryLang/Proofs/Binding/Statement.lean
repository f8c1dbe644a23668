import QueryLang.Binding.Statement
import QueryLang.Proofs.Binding.Expression
import QueryLang.Proofs.Program.Reading

/-!
# Binding statements that trees have

Statements are bound well like the expressions in them, and so is a whole file whose tree is well
formed.
-/

namespace QueryLang

/-- What binding a statement has to give, with the scope for the statements after it. -/
structure Statement.Outcome (tree : SyntaxTree) (statement : Statement) (calm : Prop)
    (table : TypeTable) (result : StatementScope × BoundStatement) : Prop where
  binder : result.1.binder.Reliable table calm
  reliable : result.2.Reliable tree table calm
  concludes : calm → statement.Concludes (lambdaNodes result.2.walk)

/-- What binding statements has to give. -/
structure Statement.AllOutcome (tree : SyntaxTree) (statements : List Statement) (calm : Prop)
    (table : TypeTable) (bound : List BoundStatement) : Prop where
  reliable : BoundStatement.AllReliable tree table calm bound
  concludes : calm → Statement.AllConclude statements (lambdaNodes (walkStatements bound))

namespace StatementScope

variable {state : BindingState} {calm : Prop}

theorem enter_keeps {scope : StatementScope} {location : Location} (sound : state.types.Sound) :
    (scope.enter location).Keeps state calm fun _ _ entered => entered.binder = scope.binder := by
  unfold enter
  split
  · refine (Binding.report_advances sound).bind fun _ after calmer advance _ => ?_
    exact .pure advance.sound rfl
  · exact .pure sound rfl

theorem binder_after (scope : StatementScope) (statement : BoundStatement) :
    (scope.after statement).binder = scope.binder := by
  unfold after
  split <;> rfl

theorem declareLocal_keeps {scope : StatementScope} {identifier : Identifier} {type : Nat}
    (sound : state.types.Sound) (reliable : scope.binder.Reliable state.types calm)
    (has : state.types.Has calm type) :
    (scope.declareLocal identifier type).Keeps state calm fun calmer table result =>
      result.1.binder.Reliable table calmer ∧
        ∀ found ∈ result.2, found.Reliable table calmer := by
  unfold declareLocal
  split
  · exact .pure sound ⟨reliable, by simp⟩
  · next name isName =>
      have declare {middle : BindingState} {calmMiddle : Prop}
          (advance : state.types.Advance calm middle.types calmMiddle) : (do
            let id ← Binding.freshId
            let symbol := Symbol.located id name scope.binder.container identifier.location
              (.localVariable type)
            let binder := scope.binder.push (.locals [symbol])
            return ({ scope with binder, declared := name :: scope.declared }, some symbol) :
            Binding (StatementScope × Option Symbol)).Keeps middle calmMiddle
          fun calmer table result => result.1.binder.Reliable table calmer ∧
            ∀ found ∈ result.2, found.Reliable table calmer := by
        refine (Binding.freshId_keeps advance.sound).bind fun id after calmer advanceId _ => ?_
        have whole := advance.trans advanceId
        have symbolReliable : (Symbol.located id name scope.binder.container identifier.location
            (.localVariable type)).Reliable after.types calmer := by
          intro own member
          rw [List.mem_singleton.mp member]
          exact whole.has has
        refine .pure advanceId.sound ⟨(reliable.advance whole).push ?_, ?_⟩
        · intro symbol member
          rw [List.mem_singleton.mp member]
          exact ⟨symbolReliable, by simp [Symbol.kind, Declaration.kind, Symbol.located,
            Symbol.plain, Symbol.inside, SymbolData.kind]⟩
        · rintro _ ⟨⟩
          exact symbolReliable
      dsimp only
      split
      · refine (Binding.report_advances sound).bind fun _ after calmer advance _ => ?_
        exact declare advance
      · exact declare (.refl sound)

end StatementScope

section

variable {tree : SyntaxTree} {damaged : Prop}

mutual

/-- A statement that a tree has is bound well. -/
theorem bindStatement_keeps {state : BindingState} {calm : Prop} {scope : StatementScope}
    (footing : Footing damaged scope.binder state.types calm) {statement : Statement}
    (isAt : statement.At tree damaged) :
    (bindStatement scope statement).Keeps state calm (statement.Outcome tree) := by
  match statement with
  | .localDeclaration site identifier initializer =>
      rcases isAt with ⟨_, _, initializerAt⟩
      rw [bindStatement]
      refine (bindRoot_keeps footing initializerAt).bind ?_
      intro value between calmBetween advanceFirst outcome
      have later := footing.advance advanceFirst
      refine (StatementScope.declareLocal_keeps later.sound later.binder
        (outcome.reliable.type_has later.sound)).bind ?_
      rintro ⟨inner, symbol⟩ after calmer advance declared
      refine .pure advance.sound
        ⟨declared.1, ⟨declared.2, outcome.reliable.advance advance⟩, fun isCalm => ?_⟩
      simpa [Statement.Concludes, BoundStatement.walk, lambdaNodes, BoundPart.lambda?] using
        outcome.concludes (advance.implies isCalm)
  | .expression site value =>
      rcases isAt with ⟨_, valueAt⟩
      rw [bindStatement]
      refine (bindRoot_keeps footing valueAt).bind ?_
      intro bound after calmer advance outcome
      refine .pure advance.sound ⟨(footing.advance advance).binder, outcome.reliable, ?_⟩
      simpa [Statement.Concludes, BoundStatement.walk, lambdaNodes, BoundPart.lambda?] using
        outcome.concludes
  | .returnValue site none =>
      rw [bindStatement]
      exact .pure footing.sound ⟨footing.binder, trivial, fun _ => rfl⟩
  | .returnValue site (some value) =>
      rcases isAt with ⟨_, valueAt⟩
      rw [bindStatement]
      refine (bindRoot_keeps footing valueAt).bind ?_
      intro bound after calmer advance outcome
      refine .pure advance.sound ⟨(footing.advance advance).binder, outcome.reliable, ?_⟩
      simpa [Statement.Concludes, BoundStatement.walk, lambdaNodes, BoundPart.lambda?] using
        outcome.concludes
  | .yieldReturn site none => exact isAt.elim
  | .yieldReturn site (some value) =>
      rcases isAt with ⟨_, valueAt⟩
      rw [bindStatement]
      refine (bindRoot_keeps footing valueAt).bind ?_
      intro bound after calmer advance outcome
      refine .pure advance.sound ⟨(footing.advance advance).binder, outcome.reliable, ?_⟩
      simpa [Statement.Concludes, BoundStatement.walk, lambdaNodes, BoundPart.lambda?] using
        outcome.concludes
  | .yieldBreak site =>
      rw [bindStatement]
      exact .pure footing.sound ⟨footing.binder, trivial, fun _ => rfl⟩
  | .doWhile site bodySite body condition =>
      rcases isAt with ⟨_, _, bodyAt, conditionAt⟩
      rw [bindStatement]
      have inside : Footing damaged (StatementScope.start scope.binder).binder state.types calm :=
        footing
      refine (bindStatements_keep inside bodyAt).bind ?_
      intro boundBody between calmBetween advanceFirst bodyOutcome
      refine (bindRoot_keeps (footing.advance advanceFirst) conditionAt).bind ?_
      intro boundCondition after calmer advance outcome
      refine .pure advance.sound ⟨((footing.advance advanceFirst).advance advance).binder,
        ⟨BoundStatement.AllReliable.advance advance bodyOutcome.reliable, outcome.reliable⟩, ?_⟩
      intro isCalm
      refine ⟨_, _, ?_, bodyOutcome.concludes (advance.implies isCalm), outcome.concludes isCalm⟩
      simp [BoundStatement.walk, lambdaNodes, BoundPart.lambda?]
  | .block site statements =>
      rcases isAt with ⟨_, statementsAt⟩
      rw [bindStatement]
      have inside : Footing damaged (StatementScope.start scope.binder).binder state.types calm :=
        footing
      refine (bindStatements_keep inside statementsAt).bind ?_
      intro bound after calmer advance outcome
      refine .pure advance.sound ⟨(footing.advance advance).binder, outcome.reliable, ?_⟩
      simpa [Statement.Concludes, BoundStatement.walk, lambdaNodes, BoundPart.lambda?] using
        outcome.concludes

/-- Statements that a tree has are bound well. -/
theorem bindStatements_keep {state : BindingState} {calm : Prop} {scope : StatementScope}
    (footing : Footing damaged scope.binder state.types calm) {statements : List Statement}
    (areAt : Statement.AllAt tree damaged statements) :
    (bindStatements scope statements).Keeps state calm (Statement.AllOutcome tree statements) := by
  match statements with
  | [] =>
      rw [bindStatements]
      exact .pure footing.sound ⟨trivial, fun _ => rfl⟩
  | statement :: rest =>
      rw [bindStatements]
      refine (StatementScope.enter_keeps footing.sound).bind ?_
      intro entered afterEnter calmEnter advanceEnter sameBinder
      have inside : Footing damaged entered.binder afterEnter.types calmEnter :=
        sameBinder ▸ footing.advance advanceEnter
      refine (bindStatement_keeps inside areAt.1).bind ?_
      rintro ⟨next, bound⟩ between calmBetween advanceFirst outcome
      have nextBinder : (next.after bound).binder.Reliable between.types calmBetween := by
        rw [StatementScope.binder_after]
        exact outcome.binder
      refine (bindStatements_keep ((inside.advance advanceFirst).withBinder nextBinder)
        areAt.2).bind ?_
      intro others after calmer advance othersOutcome
      refine .pure advance.sound
        ⟨⟨BoundStatement.Reliable.advance advance outcome.reliable, othersOutcome.reliable⟩, ?_⟩
      intro isCalm
      refine ⟨_, _, ?_, outcome.concludes (advance.implies isCalm),
        othersOutcome.concludes isCalm⟩
      rw [walkStatements, lambdaNodes_append]

end

/-- What binding a whole file has to give. -/
structure BoundBlock.Outcome (tree : SyntaxTree) (damaged : Prop) (calm : Prop)
    (table : TypeTable) (block : BoundBlock) : Prop where
  reliable : BoundStatement.AllReliable tree table calm block.statements
  concludes : calm → ∃ list : StatementList, list.site.node = SyntaxTree.root ∧
    list.At tree damaged .compilationUnit ∧
      Statement.AllConclude list.statements (lambdaNodes block.walk)

/-- A file with a well-formed tree is bound well. -/
theorem bindFile_keeps {state : BindingState} {calm : Prop} {binder : Binder}
    (wellFormed : tree.WellFormed damaged)
    (footing : Footing damaged binder state.types calm) :
    (bindFile binder tree).Keeps state calm (BoundBlock.Outcome tree damaged) := by
  have live : (checkCancelled binder.isCancelled).Gives fun _ => True :=
    ⟨(), by rw [footing.binder.live]; rfl, trivial⟩
  refine .bind_lift live fun _ _ => ?_
  refine .bind_lift (StatementList.ofTree_gives wellFormed) ?_
  rintro list ⟨atRoot, listAt⟩
  have inside : Footing damaged (StatementScope.start binder).binder state.types calm := footing
  refine (bindStatements_keep inside listAt.statements).bind ?_
  intro bound after calmer advance outcome
  refine .pure advance.sound ⟨outcome.reliable, fun isCalm => ⟨list, atRoot, listAt, ?_⟩⟩
  simpa [BoundBlock.walk, lambdaNodes, BoundPart.lambda?] using outcome.concludes isCalm

end

end QueryLang
