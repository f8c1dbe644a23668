import QueryLang.Proofs.Lists
import QueryLang.Proofs.Type.Matching

/-!
# Histories of type tables

A table of types is asked for types again and again: object types are declared, structural types are
asked for, and names are looked up, in any order. `TypeTable.Serves` is such a history with its
answers. Whatever the history, an index keeps its type, two structural types have the same index
exactly when they are made of the same types, and a type is made of types with smaller indices.
-/

namespace QueryLang

/-- What a table of types can be asked for. -/
inductive TypeRequest
  | object (name : String) (members : Members)
  | sequence (element : TypeId)
  | grouping (key element : TypeId)
  | named (text : String)

namespace TypeRequest

/-- The types that a request speaks of. -/
def mentioned : TypeRequest → List TypeId
  | object _ members => members.map fun entry => entry.2.type
  | sequence element => [element]
  | grouping key element => [key, element]
  | named _ => []

/-- The answer of a table, and the table afterwards. -/
def serve (table : TypeTable) : TypeRequest → Option TypeId × TypeTable
  | object name members => (table.declareObject name members).map some id
  | sequence element => (table.sequence element).map some id
  | grouping key element => (table.grouping key element).map some id
  | named text => table.lookupNamed text

/-- What the type that a request asks for is, if the request says so. -/
def kind? : TypeRequest → Option TypeKind
  | object name members => some (.object name members)
  | sequence element => some (.sequence element)
  | grouping key element => some (.grouping key element)
  | named _ => none

end TypeRequest

namespace TypeTable

/-- A table serves requests one after the other. The types that a request speaks of were issued
before. -/
inductive Serves : TypeTable → List (TypeRequest × Option TypeId) → TypeTable → Prop
  | done {table} : Serves table [] table
  | next {table after last request answer history}
      (issued : ∀ type ∈ request.mentioned, type < table.size)
      (isServed : request.serve table = (answer, after)) (rest : Serves after history last) :
      Serves table ((request, answer) :: history) last

/-- The type is another one, or that one is made of it. -/
inductive Part (table : TypeTable) : TypeId → TypeId → Prop
  | itself {type} : Part table type type
  | inside {type whole : Nat} {kind component} (isKind : table.kinds[whole]? = some kind)
      (isComponent : component ∈ kind.components) (isPart : Part table type component) :
      Part table type whole

variable {table after last : TypeTable} {type other : Nat} {kind : TypeKind}
  {request : TypeRequest} {answer : Option TypeId} {history : List (TypeRequest × Option TypeId)}

theorem Part.mono (kept : ∀ {type : Nat} {kind}, table.kinds[type]? = some kind →
    after.kinds[type]? = some kind) (isPart : table.Part type other) : after.Part type other := by
  induction isPart with
  | itself => exact .itself
  | inside isKind isComponent _ ih => exact .inside (kept isKind) isComponent ih

/-! ### One request -/

/-- What holds of a table between two requests. -/
structure Regular (table : TypeTable) : Prop where
  sound : table.Sound
  interned : table.Interned

/-- What a request does to a table. All that it adds is part of its answer. -/
structure Answers (table : TypeTable) (request : TypeRequest) (answer : Option TypeId)
    (after : TypeTable) : Prop where
  regular : after.Regular
  kept : ∀ {type : Nat} {kind}, table.kinds[type]? = some kind → after.kinds[type]? = some kind
  added : ∀ {type : Nat}, type < after.size →
    type < table.size ∨ ∃ whole ∈ answer, after.Part type whole
  inRange : ∀ type ∈ answer, type < after.size
  isKind : ∀ kind ∈ request.kind?, ∃ type ∈ answer, after.kinds[type]? = some kind

/-- A type that is new in the table comes last. -/
theorem intern_added {key : StructuralKey} (inRange : type < (table.intern key).2.size) :
    type < table.size ∨ type = (table.intern key).1 := by
  unfold intern at inRange ⊢
  cases found : table.structural.lookup key with
  | some own =>
    rw [found] at inRange
    exact .inl inRange
  | none =>
    rw [found] at inRange
    have inRange : type < (table.push key.kind).2.size := inRange
    rw [size_push] at inRange
    exact Nat.lt_succ_iff_lt_or_eq.mp inRange

theorem sequences_added (sound : table.Sound) {base : Nat} (has : base < table.size) (depth : Nat)
    (inRange : type < (table.sequences depth base).2.size) :
    type < table.size ∨
      (table.sequences depth base).2.Part type (table.sequences depth base).1 := by
  have inTable : table.Has False base := ⟨has, False.elim⟩
  induction depth with
  | zero => exact .inl inRange
  | succ depth ih =>
    rcases sound.sequences inTable depth with ⟨_, innerSound, innerHas⟩
    rcases sequence_spec innerSound innerHas.1 with ⟨grows, _, isKind⟩
    rcases intern_added inRange with wasThere | rfl
    · rcases ih wasThere with wasThere | isPart
      · exact .inl wasThere
      · refine .inr (.inside isKind ?_ (isPart.mono grows.kept))
        exact List.mem_singleton_self _
    · exact .inr .itself

namespace Regular

theorem initial : TypeTable.initial.Regular := ⟨initial_sound, initial_interned⟩

variable (regular : table.Regular)

include regular

theorem intern {key : StructuralKey} (isKind : request.kind? = some key.kind)
    (within : ∀ part ∈ key.kind.components, part < table.size) :
    table.Answers request (some (table.intern key).1) (table.intern key).2 := by
  rcases intern_spec regular.sound within with ⟨grows, sound, hasKind⟩
  refine ⟨⟨sound, regular.interned.intern regular.sound key⟩, grows.kept, fun inRange => ?_, ?_, ?_⟩
  · refine (intern_added inRange).imp_right ?_
    rintro rfl
    exact ⟨_, rfl, .itself⟩
  · rintro _ ⟨⟩
    exact lt_size hasKind
  · rw [isKind]
    rintro _ ⟨⟩
    exact ⟨_, rfl, hasKind⟩

theorem declareObject (name : String) (members : Members) :
    table.Answers (.object name members) (some (table.declareObject name members).1)
      (table.declareObject name members).2 := by
  have hasKind : (table.push (.object name members)).2.kinds[table.size]? =
      some (.object name members) := push_kind
  have regularAfter : (table.declareObject name members).2.Regular :=
    ⟨regular.sound.declareObject name members, regular.interned.declareObject name members⟩
  refine ⟨regularAfter, push_kept, fun {type} inRange => ?_, ?_, ?_⟩
  · have inRange : type < (table.push (.object name members)).2.size := inRange
    rw [size_push] at inRange
    refine (Nat.lt_succ_iff_lt_or_eq.mp inRange).imp_right ?_
    rintro rfl
    exact ⟨_, rfl, .itself⟩
  · rintro _ ⟨⟩
    exact lt_size hasKind
  · rintro _ ⟨⟩
    exact ⟨_, rfl, hasKind⟩

theorem lookupNamed (text : String) :
    table.Answers (.named text) (table.lookupNamed text).1 (table.lookupNamed text).2 := by
  rcases regular.sound.lookupNamed regular.sound.named_has text with ⟨grows, sound, has⟩
  have interned := regular.interned.lookupNamed regular.sound text
  refine ⟨⟨sound, interned⟩, grows.kept, fun {type} inRange => ?_,
    fun type isAnswer => (has type isAnswer).1, by rintro _ ⟨⟩⟩
  unfold TypeTable.lookupNamed at inRange ⊢
  dsimp only at inRange ⊢
  split at inRange
  · exact .inl inRange
  · next base isBase =>
    have isNamed : (String.ofList (TypeName.ofText text.toList).base, base) ∈ table.names :=
      mem_of_lookup_eq_some isBase
    exact (sequences_added regular.sound (regular.sound.named _ isNamed) _ inRange).imp_right
      fun isPart => ⟨_, rfl, isPart⟩

/-- Every request leaves a regular table, in which its answer is what it asked for. -/
theorem answers (issued : ∀ type ∈ request.mentioned, type < table.size)
    (isServed : request.serve table = (answer, after)) :
    table.Answers request answer after := by
  cases request with
  | object name members =>
    cases isServed
    exact regular.declareObject name members
  | sequence element =>
    cases isServed
    exact regular.intern rfl issued
  | grouping key element =>
    cases isServed
    exact regular.intern rfl issued
  | named text =>
    have answers := regular.lookupNamed text
    have isServed : table.lookupNamed text = (answer, after) := isServed
    rwa [isServed] at answers

end Regular

/-! ### Many requests -/

namespace Serves

theorem append {first second : List (TypeRequest × Option TypeId)}
    (serves : table.Serves first after) (rest : after.Serves second last) :
    table.Serves (first ++ second) last := by
  induction serves with
  | done => exact rest
  | next issued isServed _ ih => exact .next issued isServed (ih rest)

variable (serves : table.Serves history last) (regular : table.Regular)

include serves regular

theorem regular_last : last.Regular := by
  induction serves with
  | done => exact regular
  | next issued isServed _ ih => exact ih (regular.answers issued isServed).regular

/-- An index keeps its type. -/
theorem kept (isKind : table.kinds[type]? = some kind) : last.kinds[type]? = some kind := by
  induction serves with
  | done => exact isKind
  | next issued isServed _ ih =>
    have answers := regular.answers issued isServed
    exact ih answers.regular (answers.kept isKind)

/-- Every answer is a type of the table from then on, and is what was asked for. -/
theorem answered {entry : TypeRequest × Option TypeId} (isEntry : entry ∈ history) :
    (∀ type ∈ entry.2, type < last.size) ∧
      ∀ kind ∈ entry.1.kind?, ∃ type ∈ entry.2, last.kinds[type]? = some kind := by
  induction serves with
  | done => cases isEntry
  | next issued isServed rest ih =>
    have answers := regular.answers issued isServed
    rcases List.mem_cons.mp isEntry with rfl | inRest
    · refine ⟨fun type isAnswer => ?_, fun kind isKind => ?_⟩
      · rcases exists_kind (answers.inRange type isAnswer) with ⟨kind, isKind⟩
        exact lt_size (rest.kept answers.regular isKind)
      · rcases answers.isKind kind isKind with ⟨type, isAnswer, isKind⟩
        exact ⟨type, isAnswer, rest.kept answers.regular isKind⟩
    · exact ih answers.regular inRest

/-- Whatever the table has was there at the start, or is part of an answer. -/
theorem added (inRange : type < last.size) :
    type < table.size ∨ ∃ entry ∈ history, ∃ whole ∈ entry.2, last.Part type whole := by
  induction serves with
  | done => exact .inl inRange
  | next issued isServed rest ih =>
    have answers := regular.answers issued isServed
    rcases ih answers.regular inRange with wasThere | ⟨entry, isEntry, isPart⟩
    · -- The type was there after the first request: that one added it, or it is older.
      refine (answers.added wasThere).imp_right ?_
      rintro ⟨whole, isAnswer, isPart⟩
      exact ⟨_, List.mem_cons_self, whole, isAnswer, isPart.mono (rest.kept answers.regular)⟩
    · exact .inr ⟨entry, List.mem_cons_of_mem _ isEntry, isPart⟩

end Serves

end TypeTable

end QueryLang
