import QueryLang.Proofs.Checked
import QueryLang.Proofs.Lists
import QueryLang.Type.Table

/-!
# What type tables keep

A table only grows: an index keeps its type, and a structural type is made of types that were
there before it. So the text of a type can always be given. Nothing that binding adds declares
members, which is why `Extends` allows structural types only.

A type is free of errors when the error type occurs nowhere in it. The members of an object type
are not part of it.
-/

namespace QueryLang

namespace TypeKind

/-- The types that a structural type is made of. -/
def components : TypeKind → List TypeId
  | intrinsic _ | object _ _ => []
  | sequence element => [element]
  | grouping key element => [key, element]

/-- Whether a type is made of other types only. -/
def IsStructural (kind : TypeKind) : Prop :=
  ∃ key : StructuralKey, kind = key.kind

theorem member?_grouping (key element : TypeId) (name : String) :
    (grouping key element).member? name =
      if name = "Key" then some (.field key) else sequenceMember? element name := by
  by_cases isKey : name = "Key"
  · subst isKey
    rfl
  · rw [member?, if_neg isKey]
    exact isKey

/-- An operator of a sequence gives a number, a truth value or an element. -/
theorem type_of_sequenceMember? {element : TypeId} {name : String} {member : Member}
    (isMember : sequenceMember? element name = some member) :
    member.type = .int ∨ member.type = .bool ∨ member.type = element := by
  unfold sequenceMember? at isMember
  split at isMember <;> cases isMember <;> simp [Member.method]

end TypeKind

namespace StructuralKey

/-- Structural types that are the same are found by the same key. -/
theorem kind_injective : Function.Injective kind := by
  rintro (element | ⟨key, element⟩) (other | ⟨otherKey, other⟩) same <;> cases same <;> rfl

end StructuralKey

namespace TypeTable

variable {table extended : TypeTable} {type : Nat} {kind : TypeKind}

/-- What holds of every table that was built from issued types. Structural types are found by
their keys exactly when the table has them. -/
structure Sound (table : TypeTable) : Prop where
  fixed : ∀ {type : Nat} {kind}, initial.kinds[type]? = some kind → table.kinds[type]? = some kind
  component : ∀ {type : Nat} {kind}, table.kinds[type]? = some kind →
    ∀ part : Nat, part ∈ kind.components → part < type
  named : ∀ entry ∈ table.names, entry.2 < table.size
  indexed : ∀ {key : StructuralKey} {type : Nat},
    table.structural.lookup key = some type ↔ table.kinds[type]? = some key.kind

/-- The types of all members of object types satisfy a condition. -/
def MemberTypes (table : TypeTable) (condition : TypeId → Prop) : Prop :=
  ∀ {type : Nat} {name members}, table.kinds[type]? = some (.object name members) →
    ∀ entry ∈ members, condition entry.2.type

/-- The error type occurs nowhere in a type. -/
inductive ErrorFree (table : TypeTable) : TypeId → Prop
  | intrinsic {type : Nat} {intrinsic} (isKind : table.kinds[type]? = some (.intrinsic intrinsic))
      (noError : intrinsic ≠ .error) : ErrorFree table type
  | object {type : Nat} {name members}
      (isKind : table.kinds[type]? = some (.object name members)) : ErrorFree table type
  | sequence {type element : Nat} (isKind : table.kinds[type]? = some (.sequence element))
      (ofElement : ErrorFree table element) : ErrorFree table type
  | grouping {type key element : Nat}
      (isKind : table.kinds[type]? = some (.grouping key element))
      (ofKey : ErrorFree table key) (ofElement : ErrorFree table element) : ErrorFree table type

/-- A table has all types of another, and besides them only structural ones. -/
structure Extends (table extended : TypeTable) : Prop where
  kept : ∀ {type : Nat} {kind}, table.kinds[type]? = some kind →
    extended.kinds[type]? = some kind
  added : ∀ {type : Nat} {kind}, extended.kinds[type]? = some kind →
    table.kinds[type]? = some kind ∨ kind.IsStructural
  names : extended.names = table.names

theorem kind_eq_ok_iff : table.kind type = .ok kind ↔ table.kinds[type]? = some kind := by
  unfold TypeTable.kind
  cases table.kinds[type]? <;> simp

theorem exists_kind (inRange : type < table.size) : ∃ kind, table.kinds[type]? = some kind :=
  ⟨table.kinds[type], Array.getElem?_eq_getElem inRange⟩

theorem lt_size (isKind : table.kinds[type]? = some kind) : type < table.size :=
  (Array.getElem?_eq_some_iff.mp isKind).1

namespace Extends

theorem refl (table : TypeTable) : table.Extends table := ⟨id, .inl, rfl⟩

theorem trans {further : TypeTable} (first : table.Extends extended)
    (second : extended.Extends further) : table.Extends further where
  kept isKind := second.kept (first.kept isKind)
  added isKind := (second.added isKind).elim first.added .inr
  names := second.names.trans first.names

theorem lt_size (extends' : table.Extends extended) (inRange : type < table.size) :
    type < extended.size := by
  rcases exists_kind inRange with ⟨kind, isKind⟩
  exact TypeTable.lt_size (extends'.kept isKind)

theorem errorFree (extends' : table.Extends extended) (errorFree : table.ErrorFree type) :
    extended.ErrorFree type := by
  induction errorFree with
  | intrinsic isKind noError => exact .intrinsic (extends'.kept isKind) noError
  | object isKind => exact .object (extends'.kept isKind)
  | sequence isKind _ ih => exact .sequence (extends'.kept isKind) ih
  | grouping isKind _ _ ihKey ihElement =>
      exact .grouping (extends'.kept isKind) ihKey ihElement

theorem memberTypes {condition : TypeId → Prop} (extends' : table.Extends extended)
    (members : table.MemberTypes condition) : extended.MemberTypes condition := by
  intro type name own isKind
  rcases extends'.added isKind with wasKind | ⟨key, isStructural⟩
  · exact members wasKind
  · cases key <;> cases isStructural

end Extends

theorem ErrorFree.lt_size (errorFree : table.ErrorFree type) : type < table.size := by
  cases errorFree with
  | intrinsic isKind | object isKind | sequence isKind | grouping isKind =>
      exact TypeTable.lt_size isKind

/-! ### Growing -/

section Growing

theorem push_kind : (table.push kind).2.kinds[(table.push kind).1]? = some kind := by
  simp [push, size]

theorem size_push : (table.push kind).2.size = table.size + 1 := by
  simp [push, size]

theorem push_kept {other : TypeKind} (isKind : table.kinds[type]? = some other) :
    (table.push kind).2.kinds[type]? = some other := by
  rcases Array.getElem?_eq_some_iff.mp isKind with ⟨inRange, rfl⟩
  exact Array.getElem?_push_lt inRange

theorem push_added {other : TypeKind} (isKind : (table.push kind).2.kinds[type]? = some other) :
    table.kinds[type]? = some other ∨ type = table.size ∧ other = kind := by
  simp only [push, Array.getElem?_push] at isKind
  split at isKind
  · next isNew => exact .inr ⟨isNew, (Option.some.inj isKind).symm⟩
  · exact .inl isKind

theorem push_kinds_iff {other : TypeKind} :
    (table.push kind).2.kinds[type]? = some other ↔
      table.kinds[type]? = some other ∨ type = table.size ∧ other = kind := by
  refine ⟨push_added, ?_⟩
  rintro (wasKind | ⟨rfl, rfl⟩)
  · exact push_kept wasKind
  · exact push_kind

section Sound

variable (sound : table.Sound)
  (within : ∀ part : Nat, part ∈ kind.components → part < table.size)

include sound

theorem Sound.push_named : ∀ entry ∈ table.names, entry.2 < (table.push kind).2.size := by
  intro entry member
  rw [size_push]
  exact Nat.lt_succ_of_lt (sound.named entry member)

include within

theorem Sound.push_component {own : TypeKind}
    (isKind : (table.push kind).2.kinds[type]? = some own) (part : Nat)
    (isPart : part ∈ own.components) : part < type := by
  rcases push_added isKind with wasKind | ⟨rfl, rfl⟩
  · exact sound.component wasKind part isPart
  · exact within part isPart

/-- A type that is not structural needs no key. -/
theorem Sound.push (notStructural : ¬kind.IsStructural) : (table.push kind).2.Sound where
  fixed isKind := push_kept (sound.fixed isKind)
  component isKind := sound.push_component within isKind
  named := sound.push_named
  indexed := by
    intro key type
    rw [push_kinds_iff]
    refine sound.indexed.trans ⟨.inl, fun isKind => ?_⟩
    rcases isKind with wasKind | ⟨_, isKey⟩
    · exact wasKind
    · exact absurd ⟨key, isKey.symm⟩ notStructural

end Sound

/-- A structural type that is not found by its key is not in the table. -/
theorem Sound.absent (sound : table.Sound) {key : StructuralKey}
    (notFound : table.structural.lookup key = none) (type : Nat) :
    table.kinds[type]? ≠ some key.kind := by
  intro isKind
  rw [sound.indexed.mpr isKind] at notFound
  cases notFound

/-- What adding a structural type keeps and gives. -/
theorem intern_spec {key : StructuralKey} (sound : table.Sound)
    (within : ∀ part : Nat, part ∈ key.kind.components → part < table.size) :
    table.Extends (table.intern key).2 ∧ (table.intern key).2.Sound ∧
      (table.intern key).2.kinds[(table.intern key).1]? = some key.kind := by
  unfold intern
  cases found : table.structural.lookup key with
  | some type => exact ⟨.refl table, sound, sound.indexed.mp found⟩
  | none =>
    have grows : table.Extends (table.push key.kind).2 :=
      ⟨push_kept, fun isKind => (push_added isKind).imp_right fun isNew => ⟨key, isNew.2⟩, rfl⟩
    refine ⟨⟨grows.kept, grows.added, rfl⟩, ?_, push_kind⟩
    refine ⟨fun isKind => push_kept (sound.fixed isKind), fun isKind =>
      sound.push_component within isKind, sound.push_named, fun {other type} => ?_⟩
    -- the new key leads to the new type, and all others lead where they led
    show List.lookup other ((key, table.size) :: table.structural) = some type ↔
      (table.push key.kind).2.kinds[type]? = some other.kind
    rw [push_kinds_iff, List.lookup_cons]
    by_cases same : other = key
    · subst same
      rw [beq_self_eq_true]
      simp [sound.absent found type, eq_comm]
    · have different : other.kind ≠ key.kind := fun sameKind =>
        same (StructuralKey.kind_injective sameKind)
      rw [beq_eq_false_iff_ne.mpr same]
      simpa [different] using sound.indexed

theorem sequence_spec (sound : table.Sound) (inRange : type < table.size) :
    table.Extends (table.sequence type).2 ∧ (table.sequence type).2.Sound ∧
      (table.sequence type).2.kinds[(table.sequence type).1]? = some (.sequence type) :=
  intern_spec sound (by simpa [StructuralKey.kind, TypeKind.components] using inRange)

theorem grouping_spec {key : Nat} (sound : table.Sound) (keyInRange : key < table.size)
    (inRange : type < table.size) :
    table.Extends (table.grouping key type).2 ∧ (table.grouping key type).2.Sound ∧
      (table.grouping key type).2.kinds[(table.grouping key type).1]? =
        some (.grouping key type) :=
  intern_spec sound
    (by simpa [StructuralKey.kind, TypeKind.components] using ⟨keyInRange, inRange⟩)

end Growing

/-! ### Types that can be relied on -/

/-- A type of the table. While all is `calm`, the error type does not occur in it. -/
def Has (table : TypeTable) (calm : Prop) (type : TypeId) : Prop :=
  type < table.size ∧ (calm → table.ErrorFree type)

/-- A table that can be relied on: it is sound, and so are the types of all members. -/
structure Ready (table : TypeTable) (calm : Prop) : Prop where
  sound : table.Sound
  members : table.MemberTypes (table.Has calm)

section Relying

variable {calm calmer : Prop}

theorem Has.mono (has : table.Has calm type) (implies : calmer → calm) : table.Has calmer type :=
  ⟨has.1, fun isCalmer => has.2 (implies isCalmer)⟩

theorem Extends.has (extends' : table.Extends extended) (has : table.Has calm type) :
    extended.Has calm type :=
  ⟨extends'.lt_size has.1, fun isCalm => extends'.errorFree (has.2 isCalm)⟩

theorem Ready.mono (ready : table.Ready calm) (implies : calmer → calm) : table.Ready calmer :=
  ⟨ready.sound, fun isKind entry member => (ready.members isKind entry member).mono implies⟩

theorem Extends.ready (extends' : table.Extends extended) (ready : table.Ready calm)
    (sound : extended.Sound) : extended.Ready calm :=
  ⟨sound, extends'.memberTypes fun isKind entry member =>
    extends'.has (ready.members isKind entry member)⟩

theorem ErrorFree.component (errorFree : table.ErrorFree type)
    (isKind : table.kinds[type]? = some kind) {part : Nat} (isPart : part ∈ kind.components) :
    table.ErrorFree part := by
  cases errorFree with
  | intrinsic isOwn | object isOwn =>
      cases isKind.symm.trans isOwn
      simp [TypeKind.components] at isPart
  | sequence isOwn ofElement =>
      cases isKind.symm.trans isOwn
      rw [List.mem_singleton.mp isPart]
      exact ofElement
  | grouping isOwn ofKey ofElement =>
      cases isKind.symm.trans isOwn
      rcases List.mem_cons.mp isPart with rfl | isElement
      · exact ofKey
      · rw [List.mem_singleton.mp isElement]
        exact ofElement

theorem Sound.component_has (sound : table.Sound) (has : table.Has calm type)
    (isKind : table.kinds[type]? = some kind) {part : Nat} (isPart : part ∈ kind.components) :
    table.Has calm part :=
  ⟨Nat.lt_trans (sound.component isKind part isPart) has.1,
    fun isCalm => (has.2 isCalm).component isKind isPart⟩

theorem Sound.intrinsic_has (sound : table.Sound) {intrinsic : IntrinsicType}
    (isKind : initial.kinds[type]? = some (.intrinsic intrinsic)) (noError : intrinsic ≠ .error) :
    table.Has calm type :=
  ⟨TypeTable.lt_size (sound.fixed isKind), fun _ => .intrinsic (sound.fixed isKind) noError⟩

theorem Sound.int_has (sound : table.Sound) : table.Has calm .int :=
  sound.intrinsic_has rfl (by decide)

theorem Sound.string_has (sound : table.Sound) : table.Has calm .string :=
  sound.intrinsic_has rfl (by decide)

theorem Sound.bool_has (sound : table.Sound) : table.Has calm .bool :=
  sound.intrinsic_has rfl (by decide)

theorem Sound.not_errorFree_error (sound : table.Sound) : ¬table.ErrorFree .error := by
  have isError : table.kinds[TypeId.error]? = some (.intrinsic .error) := sound.fixed rfl
  intro errorFree
  cases errorFree with
  | intrinsic isKind noError =>
      cases isError.symm.trans isKind
      exact noError rfl
  | object isKind | sequence isKind | grouping isKind => cases isError.symm.trans isKind

/-- The error type is fine once nothing is calm any more. -/
theorem Sound.error_has (sound : table.Sound) (notCalm : ¬calm) : table.Has calm .error :=
  ⟨TypeTable.lt_size (sound.fixed rfl), fun isCalm => absurd isCalm notCalm⟩

theorem Has.not_calm (sound : table.Sound) (has : table.Has calm type)
    (isError : TypeId.isError type = true) : ¬calm := by
  intro isCalm
  have same : type = TypeId.error := by simpa [TypeId.isError] using isError
  exact sound.not_errorFree_error (same ▸ has.2 isCalm)

/-- The type of sequences can be relied on like the type of their elements. -/
theorem sequence_has (sound : table.Sound) (has : table.Has calm type) :
    (table.sequence type).2.Has calm (table.sequence type).1 := by
  rcases sequence_spec sound has.1 with ⟨extends', _, isKind⟩
  exact ⟨TypeTable.lt_size isKind, fun isCalm =>
    .sequence isKind (extends'.errorFree (has.2 isCalm))⟩

theorem grouping_has {key : Nat} (sound : table.Sound) (keyHas : table.Has calm key)
    (has : table.Has calm type) :
    (table.grouping key type).2.Has calm (table.grouping key type).1 := by
  rcases grouping_spec sound keyHas.1 has.1 with ⟨extends', _, isKind⟩
  exact ⟨TypeTable.lt_size isKind, fun isCalm =>
    .grouping isKind (extends'.errorFree (keyHas.2 isCalm)) (extends'.errorFree (has.2 isCalm))⟩

end Relying

/-! ### Asking -/

theorem Sound.displayWithin_gives (sound : table.Sound) {depth : Nat} (shallow : type < depth)
    (inRange : type < table.size) : (table.displayWithin depth type).Gives fun _ => True := by
  induction depth generalizing type with
  | zero => omega
  | succ depth ih =>
      rcases exists_kind inRange with ⟨kind, isKind⟩
      have component := sound.component isKind
      rw [displayWithin, kind_eq_ok_iff.mpr isKind, Checked.ok_bind]
      cases kind with
      | intrinsic intrinsic => exact .pure trivial
      | object name members => exact .pure trivial
      | sequence element =>
          have earlier := component element (by simp [TypeKind.components])
          refine Checked.Gives.bind (ih (by omega) (by omega)) fun text _ => ?_
          exact .pure trivial
      | grouping key element =>
          have keyEarlier := component key (by simp [TypeKind.components])
          have earlier := component element (by simp [TypeKind.components])
          refine Checked.Gives.bind (ih (by omega) (by omega)) fun keyText _ => ?_
          refine Checked.Gives.bind (ih (by omega) (by omega)) fun text _ => ?_
          exact .pure trivial

/-- Every type of the table has a text. -/
theorem Sound.display_gives (sound : table.Sound) (inRange : type < table.size) :
    (table.display type).Gives fun _ => True :=
  sound.displayWithin_gives inRange inRange

/-- What a type ranges over can be relied on like the type itself. -/
theorem Sound.element?_gives {calm : Prop} (sound : table.Sound) (has : table.Has calm type) :
    (table.element? type).Gives fun found => ∀ element ∈ found, table.Has calm element := by
  rcases exists_kind has.1 with ⟨kind, isKind⟩
  rw [element?, kind_eq_ok_iff.mpr isKind, Checked.ok_bind]
  refine .pure fun element isElement => sound.component_has has isKind ?_
  cases kind with
  | intrinsic intrinsic => cases isElement
  | object name members => cases isElement
  | sequence own =>
      cases isElement
      simp [TypeKind.components]
  | grouping key own =>
      cases isElement
      simp [TypeKind.components]

/-- The members of a type have types that can be relied on like the type itself. -/
theorem Ready.member_has {calm : Prop} (ready : table.Ready calm) (has : table.Has calm type)
    (isKind : table.kinds[type]? = some kind) {name : String} {member : Member}
    (isMember : kind.member? name = some member) : table.Has calm member.type := by
  have ofComponent (part : Nat) (isPart : part ∈ kind.components) : table.Has calm part :=
    ready.sound.component_has has isKind isPart
  have ofSequence {element : TypeId} (elementHas : table.Has calm element)
      (isMember : TypeKind.sequenceMember? element name = some member) :
      table.Has calm member.type := by
    rcases TypeKind.type_of_sequenceMember? isMember with isInt | isBool | isElement
    · exact isInt ▸ ready.sound.int_has
    · exact isBool ▸ ready.sound.bool_has
    · exact isElement ▸ elementHas
  cases kind with
  | intrinsic intrinsic =>
      cases intrinsic with
      | string =>
          rw [TypeKind.member?, IntrinsicType.member?] at isMember
          split at isMember <;> cases isMember
          exact ready.sound.int_has
      | int | bool | error => cases isMember
  | object objectName members =>
      exact ready.members isKind (name, member) (mem_of_lookup_eq_some isMember)
  | sequence element =>
      exact ofSequence (ofComponent element (by simp [TypeKind.components])) isMember
  | grouping key element =>
      have keyHas := ofComponent key (by simp [TypeKind.components])
      have elementHas := ofComponent element (by simp [TypeKind.components])
      rw [TypeKind.member?_grouping] at isMember
      split at isMember
      · cases isMember
        exact keyHas
      · exact ofSequence elementHas isMember

theorem Ready.member?_gives {calm : Prop} (ready : table.Ready calm) (has : table.Has calm type)
    (name : String) :
    (table.member? type name).Gives fun found => ∀ member ∈ found,
      table.Has calm member.type := by
  rcases exists_kind has.1 with ⟨kind, isKind⟩
  rw [member?, kind_eq_ok_iff.mpr isKind, Checked.ok_bind]
  exact .pure fun member found => ready.member_has has isKind found

/-! ### Building up the table -/

theorem initial_sound : initial.Sound where
  fixed := id
  component := by
    intro type kind isKind part isPart
    have noParts : kind.components = [] := by
      have member := Array.mem_of_getElem? isKind
      simp only [initial, List.mem_toArray, List.mem_cons, List.not_mem_nil, or_false] at member
      rcases member with rfl | rfl | rfl | rfl <;> rfl
    rw [noParts] at isPart
    cases isPart
  named := by decide
  indexed := by
    intro key type
    refine ⟨fun isIndexed => absurd isIndexed (by simp [initial]), fun isKind => ?_⟩
    have member := Array.mem_of_getElem? isKind
    cases key <;> simp [initial, StructuralKey.kind] at member

theorem Sound.declareObject (sound : table.Sound) (name : String) (members : Members) :
    (table.declareObject name members).2.Sound := by
  have pushed : (table.push (.object name members)).2.Sound :=
    sound.push (by simp [TypeKind.components]) (by rintro ⟨_ | _, ⟨⟩⟩)
  have isKind : (table.push (.object name members)).2.kinds[table.size]? =
      some (.object name members) := push_kind
  exact ⟨pushed.fixed, pushed.component,
    List.forall_mem_cons.mpr ⟨TypeTable.lt_size isKind, pushed.named⟩, pushed.indexed⟩

theorem Sound.sequences {calm : Prop} (sound : table.Sound) {base : Nat} (has : table.Has calm base)
    (depth : Nat) :
    table.Extends (table.sequences depth base).2 ∧ (table.sequences depth base).2.Sound ∧
      (table.sequences depth base).2.Has calm (table.sequences depth base).1 := by
  induction depth with
  | zero => exact ⟨.refl table, sound, has⟩
  | succ depth ih =>
      rcases ih with ⟨extends', isSound, innerHas⟩
      rcases sequence_spec isSound innerHas.1 with ⟨further, outerSound, _⟩
      exact ⟨extends'.trans further, outerSound, sequence_has isSound innerHas⟩

/-- A name that is looked up gives a type as reliable as the types that have names. -/
theorem Sound.lookupNamed {calm : Prop} (sound : table.Sound)
    (named : ∀ entry ∈ table.names, table.Has calm entry.2) (text : String) :
    table.Extends (table.lookupNamed text).2 ∧ (table.lookupNamed text).2.Sound ∧
      ∀ type ∈ (table.lookupNamed text).1, (table.lookupNamed text).2.Has calm type := by
  unfold TypeTable.lookupNamed
  dsimp only
  split
  · exact ⟨.refl table, sound, by simp⟩
  · next base isBase =>
      have has := named (String.ofList (TypeName.ofText text.toList).base, base)
        (mem_of_lookup_eq_some isBase)
      simpa using sound.sequences has _

theorem Sound.named_has (sound : table.Sound) :
    ∀ entry ∈ table.names, table.Has False entry.2 :=
  fun entry member => ⟨sound.named entry member, False.elim⟩

end TypeTable

end QueryLang
