import QueryLang.Bound.Walk
import QueryLang.Compilation.Model
import QueryLang.Proofs.Binding.Step

/-!
# Bound trees that can be relied on

All types in such a tree are in the table, and what refers to a symbol has a node in the syntax
tree. While all is calm there is nothing bad in it, and no type in it has anything to do with the
error type.
-/

namespace QueryLang

/-- The types that a symbol has by its kind. -/
def SymbolData.types : SymbolData → List TypeId
  | namedType type | field type | property type | parameter type _ _ | localVariable type
  | rangeVariable type => [type]
  | method type parameterTypes => type :: parameterTypes
  | «namespace» | lambda _ | label | queryConclusionVariable => []

/-- The types of a symbol can be relied on. -/
def Symbol.Reliable (symbol : Symbol) (table : TypeTable) (calm : Prop) : Prop :=
  ∀ type ∈ symbol.data.types, table.Has calm type

/-- A node is one of the tree. -/
def SyntaxTree.HasNode (tree : SyntaxTree) (node : NodeId) : Prop :=
  node < tree.nodes.size

/-- A reference to a parameter can be relied on. -/
structure ParameterReference.Reliable (reference : ParameterReference) (tree : SyntaxTree)
    (table : TypeTable) (calm : Prop) : Prop where
  node : tree.HasNode reference.node
  parameter : reference.parameter.Reliable table calm
  type : table.Has calm reference.type

mutual

/-- An expression can be relied on. -/
def BoundExpr.Reliable (tree : SyntaxTree) (table : TypeTable) (calm : Prop) : BoundExpr → Prop
  | .literal _ _ => True
  | .localVariable node symbol type | .field node symbol type | .rangeVariable node symbol type =>
    tree.HasNode node ∧ symbol.Reliable table calm ∧ table.Has calm type
  | .parameter reference => reference.Reliable tree table calm
  | .conclusionVariable symbol reference =>
    symbol.Reliable table calm ∧ reference.Reliable tree table calm
  | .memberAccess _ receiver _ type => receiver.Reliable tree table calm ∧ table.Has calm type
  | .memberCall _ receiver _ arguments type =>
    receiver.Reliable tree table calm ∧ BoundExpr.AllReliable tree table calm arguments ∧
      table.Has calm type
  | .namedCall _ _ arguments type =>
    BoundExpr.AllReliable tree table calm arguments ∧ table.Has calm type
  | .binary _ _ left right type =>
    left.Reliable tree table calm ∧ right.Reliable tree table calm ∧ table.Has calm type
  | .query _ clauses conclusion type =>
    BoundClause.AllReliable tree table calm clauses ∧ conclusion.Reliable tree table calm ∧
      table.Has calm type
  | .bad _ children => ¬calm ∧ BoundExpr.AllReliable tree table calm children

/-- Expressions can be relied on. -/
def BoundExpr.AllReliable (tree : SyntaxTree) (table : TypeTable) (calm : Prop) :
    List BoundExpr → Prop
  | [] => True
  | expr :: rest => expr.Reliable tree table calm ∧ BoundExpr.AllReliable tree table calm rest

/-- A clause can be relied on. -/
def BoundClause.Reliable (tree : SyntaxTree) (table : TypeTable) (calm : Prop) :
    BoundClause → Prop
  | .fromClause _ symbol expr | .letClause _ symbol expr =>
    (∀ found ∈ symbol, found.Reliable table calm) ∧ expr.Reliable tree table calm
  | .whereClause _ expr | .selectClause _ expr => expr.Reliable tree table calm
  | .groupClause _ element key =>
    element.Reliable tree table calm ∧ key.Reliable tree table calm

/-- Clauses can be relied on. -/
def BoundClause.AllReliable (tree : SyntaxTree) (table : TypeTable) (calm : Prop) :
    List BoundClause → Prop
  | [] => True
  | clause :: rest =>
    clause.Reliable tree table calm ∧ BoundClause.AllReliable tree table calm rest

/-- A conclusion can be relied on. -/
def BoundConclusion.Reliable (tree : SyntaxTree) (table : TypeTable) (calm : Prop) :
    BoundConclusion → Prop
  | .absent => True
  | .present _ symbol type _ _ value _ =>
    symbol.Reliable table calm ∧ table.Has calm type ∧ value.Reliable tree table calm

end

mutual

/-- A statement can be relied on. -/
def BoundStatement.Reliable (tree : SyntaxTree) (table : TypeTable) (calm : Prop) :
    BoundStatement → Prop
  | .localDeclaration _ symbol value =>
    (∀ found ∈ symbol, found.Reliable table calm) ∧ value.Reliable tree table calm
  | .expression _ value | .returnValue _ (some value) _ | .yieldReturn _ value =>
    value.Reliable tree table calm
  | .returnValue _ none _ | .yieldBreak _ => True
  | .doWhile _ _ body condition =>
    BoundStatement.AllReliable tree table calm body ∧ condition.Reliable tree table calm
  | .block _ statements => BoundStatement.AllReliable tree table calm statements

/-- Statements can be relied on. -/
def BoundStatement.AllReliable (tree : SyntaxTree) (table : TypeTable) (calm : Prop) :
    List BoundStatement → Prop
  | [] => True
  | statement :: rest =>
    statement.Reliable tree table calm ∧ BoundStatement.AllReliable tree table calm rest

end

/-- A part can be relied on. -/
def BoundPart.Reliable (tree : SyntaxTree) (table : TypeTable) (calm : Prop) : BoundPart → Prop
  | .block _ => True
  | .statement inner => inner.Reliable tree table calm
  | .expression inner => inner.Reliable tree table calm

section

variable {tree : SyntaxTree} {table later : TypeTable} {calm calmer : Prop}

theorem BoundExpr.Reliable.type_has {expr : BoundExpr}
    (reliable : expr.Reliable tree table calm) (sound : table.Sound) :
    table.Has calm expr.type := by
  cases expr with
  | literal node value =>
      cases value with
      | int number => exact sound.int_has
      | string text => exact sound.string_has
      | bool flag => exact sound.bool_has
  | localVariable node symbol type | field node symbol type | rangeVariable node symbol type =>
      exact reliable.2.2
  | parameter reference => exact reliable.type
  | conclusionVariable symbol reference => exact reliable.2.type
  | memberAccess node receiver member type => exact reliable.2
  | memberCall node receiver method arguments type => exact reliable.2.2
  | namedCall node method arguments type => exact reliable.2
  | binary node operator left right type => exact reliable.2.2
  | query node clauses conclusion type => exact reliable.2.2
  | bad node children => exact sound.error_has reliable.1

/-! ### As binding goes on -/

theorem Symbol.Reliable.advance {symbol : Symbol} (reliable : symbol.Reliable table calm)
    (advance : table.Advance calm later calmer) : symbol.Reliable later calmer :=
  fun type member => advance.has (reliable type member)

theorem ParameterReference.Reliable.advance {reference : ParameterReference}
    (reliable : reference.Reliable tree table calm)
    (advance : table.Advance calm later calmer) : reference.Reliable tree later calmer :=
  ⟨reliable.node, reliable.parameter.advance advance, advance.has reliable.type⟩

mutual

theorem BoundExpr.Reliable.advance (advance : table.Advance calm later calmer) {expr : BoundExpr}
    (reliable : expr.Reliable tree table calm) : expr.Reliable tree later calmer :=
  match expr with
  | .literal _ _ => trivial
  | .localVariable _ _ _ | .field _ _ _ | .rangeVariable _ _ _ =>
      ⟨reliable.1, reliable.2.1.advance advance, advance.has reliable.2.2⟩
  | .parameter _ => ParameterReference.Reliable.advance reliable advance
  | .conclusionVariable _ _ =>
      ⟨reliable.1.advance advance, ParameterReference.Reliable.advance reliable.2 advance⟩
  | .memberAccess _ _ _ _ => ⟨reliable.1.advance advance, advance.has reliable.2⟩
  | .memberCall _ _ _ _ _ =>
      ⟨reliable.1.advance advance, BoundExpr.AllReliable.advance advance reliable.2.1,
        advance.has reliable.2.2⟩
  | .namedCall _ _ _ _ =>
      ⟨BoundExpr.AllReliable.advance advance reliable.1, advance.has reliable.2⟩
  | .binary _ _ _ _ _ =>
      ⟨reliable.1.advance advance, reliable.2.1.advance advance, advance.has reliable.2.2⟩
  | .query _ _ _ _ =>
      ⟨BoundClause.AllReliable.advance advance reliable.1,
        BoundConclusion.Reliable.advance advance reliable.2.1, advance.has reliable.2.2⟩
  | .bad _ _ =>
      ⟨fun isCalm => reliable.1 (advance.implies isCalm),
        BoundExpr.AllReliable.advance advance reliable.2⟩

theorem BoundExpr.AllReliable.advance (advance : table.Advance calm later calmer)
    {exprs : List BoundExpr} (reliable : BoundExpr.AllReliable tree table calm exprs) :
    BoundExpr.AllReliable tree later calmer exprs :=
  match exprs with
  | [] => trivial
  | _ :: _ => ⟨reliable.1.advance advance, BoundExpr.AllReliable.advance advance reliable.2⟩

theorem BoundClause.Reliable.advance (advance : table.Advance calm later calmer)
    {clause : BoundClause} (reliable : clause.Reliable tree table calm) :
    clause.Reliable tree later calmer :=
  match clause with
  | .fromClause _ _ _ | .letClause _ _ _ =>
      ⟨fun found member => (reliable.1 found member).advance advance, reliable.2.advance advance⟩
  | .whereClause _ expr | .selectClause _ expr =>
      (show expr.Reliable tree table calm from reliable).advance advance
  | .groupClause _ _ _ => ⟨reliable.1.advance advance, reliable.2.advance advance⟩

theorem BoundClause.AllReliable.advance (advance : table.Advance calm later calmer)
    {clauses : List BoundClause} (reliable : BoundClause.AllReliable tree table calm clauses) :
    BoundClause.AllReliable tree later calmer clauses :=
  match clauses with
  | [] => trivial
  | _ :: _ =>
      ⟨BoundClause.Reliable.advance advance reliable.1,
        BoundClause.AllReliable.advance advance reliable.2⟩

theorem BoundConclusion.Reliable.advance (advance : table.Advance calm later calmer)
    {conclusion : BoundConclusion} (reliable : conclusion.Reliable tree table calm) :
    conclusion.Reliable tree later calmer :=
  match conclusion with
  | .absent => trivial
  | .present _ _ _ _ _ _ _ =>
      ⟨reliable.1.advance advance, advance.has reliable.2.1, reliable.2.2.advance advance⟩

end

mutual

theorem BoundStatement.Reliable.advance (advance : table.Advance calm later calmer)
    {statement : BoundStatement} (reliable : statement.Reliable tree table calm) :
    statement.Reliable tree later calmer :=
  match statement with
  | .localDeclaration _ _ _ =>
      ⟨fun found member => (reliable.1 found member).advance advance, reliable.2.advance advance⟩
  | .expression _ value | .returnValue _ (some value) _ | .yieldReturn _ value =>
      (show value.Reliable tree table calm from reliable).advance advance
  | .returnValue _ none _ | .yieldBreak _ => trivial
  | .doWhile _ _ _ _ =>
      ⟨BoundStatement.AllReliable.advance advance reliable.1, reliable.2.advance advance⟩
  | .block _ statements =>
      BoundStatement.AllReliable.advance advance
        (show BoundStatement.AllReliable tree table calm statements from reliable)

theorem BoundStatement.AllReliable.advance (advance : table.Advance calm later calmer)
    {statements : List BoundStatement}
    (reliable : BoundStatement.AllReliable tree table calm statements) :
    BoundStatement.AllReliable tree later calmer statements :=
  match statements with
  | [] => trivial
  | _ :: _ =>
      ⟨BoundStatement.Reliable.advance advance reliable.1,
        BoundStatement.AllReliable.advance advance reliable.2⟩

end

/-! ### Every part of it -/

theorem walkClauses_append (left right : List BoundClause) :
    walkClauses (left ++ right) = walkClauses left ++ walkClauses right := by
  induction left with
  | nil => rfl
  | cons clause rest ih => simp [walkClauses, ih]

mutual

theorem BoundExpr.Reliable.walk {expr : BoundExpr} (reliable : expr.Reliable tree table calm) :
    ∀ part ∈ expr.walk, part.Reliable tree table calm := by
  rw [BoundExpr.walk.eq_def, List.forall_mem_cons]
  refine ⟨reliable, ?_⟩
  match expr with
  | .literal _ _ | .localVariable _ _ _ | .field _ _ _ | .rangeVariable _ _ _ | .parameter _
  | .conclusionVariable _ _ => simp
  | .memberAccess _ _ _ _ => exact BoundExpr.Reliable.walk reliable.1
  | .memberCall _ _ _ _ _ =>
      exact List.forall_mem_append.mpr
        ⟨BoundExpr.Reliable.walk reliable.1, BoundExpr.AllReliable.walk reliable.2.1⟩
  | .namedCall _ _ _ _ => exact BoundExpr.AllReliable.walk reliable.1
  | .binary _ _ _ _ _ =>
      exact List.forall_mem_append.mpr
        ⟨BoundExpr.Reliable.walk reliable.1, BoundExpr.Reliable.walk reliable.2.1⟩
  | .query _ _ _ _ =>
      exact List.forall_mem_append.mpr
        ⟨BoundClause.AllReliable.walk reliable.1, BoundConclusion.Reliable.walk reliable.2.1⟩
  | .bad _ _ => exact BoundExpr.AllReliable.walk reliable.2

theorem BoundExpr.AllReliable.walk {exprs : List BoundExpr}
    (reliable : BoundExpr.AllReliable tree table calm exprs) :
    ∀ part ∈ walkAll exprs, part.Reliable tree table calm := by
  match exprs with
  | [] => simp [walkAll]
  | expr :: rest =>
      rw [walkAll]
      exact List.forall_mem_append.mpr
        ⟨BoundExpr.Reliable.walk reliable.1, BoundExpr.AllReliable.walk reliable.2⟩

theorem BoundClause.Reliable.walk {clause : BoundClause}
    (reliable : clause.Reliable tree table calm) :
    ∀ part ∈ clause.walk, part.Reliable tree table calm := by
  match clause with
  | .fromClause _ _ expr | .letClause _ _ expr =>
      rw [BoundClause.walk]
      exact BoundExpr.Reliable.walk reliable.2
  | .whereClause _ expr | .selectClause _ expr =>
      rw [BoundClause.walk]
      exact (show expr.Reliable tree table calm from reliable).walk
  | .groupClause _ element key =>
      rw [BoundClause.walk]
      exact List.forall_mem_append.mpr
        ⟨BoundExpr.Reliable.walk reliable.1, BoundExpr.Reliable.walk reliable.2⟩

theorem BoundClause.AllReliable.walk {clauses : List BoundClause}
    (reliable : BoundClause.AllReliable tree table calm clauses) :
    ∀ part ∈ walkClauses clauses, part.Reliable tree table calm := by
  match clauses with
  | [] => simp [walkClauses]
  | clause :: rest =>
      rw [walkClauses]
      exact List.forall_mem_append.mpr
        ⟨BoundClause.Reliable.walk reliable.1, BoundClause.AllReliable.walk reliable.2⟩

theorem BoundConclusion.Reliable.walk {conclusion : BoundConclusion}
    (reliable : conclusion.Reliable tree table calm) :
    ∀ part ∈ conclusion.walk, part.Reliable tree table calm := by
  match conclusion with
  | .absent => simp [BoundConclusion.walk]
  | .present _ _ _ _ bodyNode value _ =>
      rw [BoundConclusion.walk, List.forall_mem_cons, List.forall_mem_cons]
      exact ⟨trivial, reliable.2.2, BoundExpr.Reliable.walk reliable.2.2⟩

end

mutual

theorem BoundStatement.Reliable.walk {statement : BoundStatement}
    (reliable : statement.Reliable tree table calm) :
    ∀ part ∈ statement.walk, part.Reliable tree table calm := by
  rw [BoundStatement.walk.eq_def, List.forall_mem_cons]
  refine ⟨reliable, ?_⟩
  match statement with
  | .localDeclaration _ _ _ => exact reliable.2.walk
  | .expression _ value | .returnValue _ (some value) _ | .yieldReturn _ value =>
      exact (show value.Reliable tree table calm from reliable).walk
  | .returnValue _ none _ | .yieldBreak _ => simp
  | .doWhile _ _ _ _ =>
      refine List.forall_mem_cons.mpr ⟨trivial, ?_⟩
      exact List.forall_mem_append.mpr
        ⟨BoundStatement.AllReliable.walk reliable.1, reliable.2.walk⟩
  | .block _ statements =>
      refine List.forall_mem_cons.mpr ⟨trivial, ?_⟩
      exact BoundStatement.AllReliable.walk
        (show BoundStatement.AllReliable tree table calm statements from reliable)

theorem BoundStatement.AllReliable.walk {statements : List BoundStatement}
    (reliable : BoundStatement.AllReliable tree table calm statements) :
    ∀ part ∈ walkStatements statements, part.Reliable tree table calm := by
  match statements with
  | [] => simp [walkStatements]
  | statement :: rest =>
      rw [walkStatements]
      exact List.forall_mem_append.mpr
        ⟨BoundStatement.Reliable.walk reliable.1, BoundStatement.AllReliable.walk reliable.2⟩

end

end

end QueryLang
