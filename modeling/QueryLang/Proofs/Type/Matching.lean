import Mathlib.Data.List.Forall2
import Mathlib.Logic.Relator
import QueryLang.Proofs.Lists
import QueryLang.Proofs.Type.Table

/-!
# Types that match

Two tables can have the same types under different indices, because structural types were added to
them in different orders. Which object type of one table is which of the other is given;
`TypeTable.Matches` extends this to all types that are made of such types. Tables that are `Aligned`
give the same answers about types that match, and stay aligned when matching types are added.
-/

namespace QueryLang

/-- Members of which one is like the other, of types that match. -/
structure Member.Alike (types : TypeId → TypeId → Prop) (member other : Member) : Prop where
  type : types member.type other.type
  isMethod : member.isMethod = other.isMethod

/-- Members with the same names, of types that match. -/
def Members.Alike (types : TypeId → TypeId → Prop) : Members → Members → Prop :=
  List.Forall₂ fun entry other => entry.1 = other.1 ∧ entry.2.Alike types other.2

/-- Types of the same kind, made of types that match. -/
inductive TypeKind.Alike (types : TypeId → TypeId → Prop) : TypeKind → TypeKind → Prop
  | intrinsic (type : IntrinsicType) : Alike types (.intrinsic type) (.intrinsic type)
  | object (name : String) {members others : Members} (alike : members.Alike types others) :
      Alike types (.object name members) (.object name others)
  | sequence {element other : TypeId} (elements : types element other) :
      Alike types (.sequence element) (.sequence other)
  | grouping {key otherKey element other : TypeId} (keys : types key otherKey)
      (elements : types element other) :
      Alike types (.grouping key element) (.grouping otherKey other)

/-- The kind is that of an object type. -/
def TypeKind.IsObject (kind : TypeKind) : Prop := ∃ name members, kind = .object name members

namespace TypeTable

/-- No type but the object types can have two indices. -/
structure Interned (table : TypeTable) : Prop where
  index_eq : ∀ {type other : Nat} {kind}, table.kinds[type]? = some kind →
    table.kinds[other]? = some kind → ¬kind.IsObject → type = other

/-- The type of one table and that of another are the same, as far as the given object types are. -/
inductive Matches (left right : TypeTable) (objects : TypeId → TypeId → Prop) :
    TypeId → TypeId → Prop
  | intrinsic {type : Nat} {intrinsic}
      (isFixed : initial.kinds[type]? = some (.intrinsic intrinsic)) :
      Matches left right objects type type
  | object {type other : Nat} (pair : objects type other) : Matches left right objects type other
  | sequence {type other element otherElement : Nat}
      (isKind : left.kinds[type]? = some (.sequence element))
      (isOther : right.kinds[other]? = some (.sequence otherElement))
      (elements : Matches left right objects element otherElement) :
      Matches left right objects type other
  | grouping {type other key otherKey element otherElement : Nat}
      (isKind : left.kinds[type]? = some (.grouping key element))
      (isOther : right.kinds[other]? = some (.grouping otherKey otherElement))
      (keys : Matches left right objects key otherKey)
      (elements : Matches left right objects element otherElement) :
      Matches left right objects type other

/-- Two tables agree on the given object types, and neither has any other type twice. -/
structure Aligned (left right : TypeTable) (objects : TypeId → TypeId → Prop) : Prop where
  leftSound : left.Sound
  rightSound : right.Sound
  leftInterned : left.Interned
  rightInterned : right.Interned
  unique : Relator.BiUnique objects
  object : ∀ {type other : Nat}, objects type other → ∃ name members others,
    left.kinds[type]? = some (.object name members) ∧
      right.kinds[other]? = some (.object name others) ∧
      Members.Alike (left.Matches right objects) members others

variable {table left right furtherLeft furtherRight : TypeTable}
  {objects : TypeId → TypeId → Prop} {type other key otherKey : Nat} {kind : TypeKind}

/-! ### Types have one index -/

theorem initial_interned : initial.Interned := by
  refine ⟨fun {type other kind} isKind isOther _ => ?_⟩
  have distinct : initial.kinds.toList.Nodup := by decide
  rw [← Array.getElem?_toList] at isKind isOther
  exact (List.getElem?_inj (List.getElem?_eq_some_iff.mp isKind).1 distinct).mp
    (isKind.trans isOther.symm)

theorem Interned.intern (interned : table.Interned) (sound : table.Sound)
    (key : StructuralKey) : (table.intern key).2.Interned := by
  unfold TypeTable.intern
  cases found : table.structural.lookup key with
  | some type => exact interned
  | none =>
      refine ⟨fun {type other own} isOwn isOther notObject => ?_⟩
      rcases push_added isOwn with wasOwn | ⟨rfl, rfl⟩
      · rcases push_added isOther with wasOther | ⟨rfl, rfl⟩
        · exact interned.index_eq wasOwn wasOther notObject
        · exact absurd wasOwn (sound.absent found _)
      · rcases push_added isOther with wasOther | ⟨rfl, _⟩
        · exact absurd wasOther (sound.absent found _)
        · rfl

theorem Interned.declareObject (interned : table.Interned) (name : String) (members : Members) :
    (table.declareObject name members).2.Interned := by
  refine ⟨fun {type other kind} isKind isOther notObject => ?_⟩
  have wasKind {index : Nat} (isKind : (table.push (.object name members)).2.kinds[index]? =
      some kind) : table.kinds[index]? = some kind := by
    rcases push_added isKind with wasKind | ⟨_, rfl⟩
    · exact wasKind
    · exact absurd ⟨name, members, rfl⟩ notObject
  exact interned.index_eq (wasKind isKind) (wasKind isOther) notObject

theorem Interned.sequences (interned : table.Interned) (sound : table.Sound) {base : Nat}
    (inRange : base < table.size) (depth : Nat) : (table.sequences depth base).2.Interned := by
  have has : table.Has False base := ⟨inRange, False.elim⟩
  induction depth with
  | zero => exact interned
  | succ depth ih => exact ih.intern (sound.sequences has depth).2.1 _

theorem Interned.lookupNamed (interned : table.Interned) (sound : table.Sound) (text : String) :
    (table.lookupNamed text).2.Interned := by
  unfold TypeTable.lookupNamed
  dsimp only
  split
  · exact interned
  · next base isBase =>
      have isNamed : (String.ofList (TypeName.ofText text.toList).base, base) ∈ table.names :=
        mem_of_lookup_eq_some isBase
      exact interned.sequences sound (sound.named _ isNamed) _

/-! ### Matching and growing -/

theorem Matches.mono (leftGrows : left.Extends furtherLeft)
    (rightGrows : right.Extends furtherRight) (matching : left.Matches right objects type other) :
    furtherLeft.Matches furtherRight objects type other := by
  induction matching with
  | intrinsic isFixed => exact .intrinsic isFixed
  | object pair => exact .object pair
  | sequence isKind isOther _ ih =>
      exact .sequence (leftGrows.kept isKind) (rightGrows.kept isOther) ih
  | grouping isKind isOther _ _ ihKey ih =>
      exact .grouping (leftGrows.kept isKind) (rightGrows.kept isOther) ihKey ih

theorem Matches.swap (matching : left.Matches right objects type other) :
    right.Matches left (flip objects) other type := by
  induction matching with
  | intrinsic isFixed => exact .intrinsic isFixed
  | object pair => exact .object pair
  | sequence isKind isOther _ ih => exact .sequence isOther isKind ih
  | grouping isKind isOther _ _ ihKey ih => exact .grouping isOther isKind ihKey ih

end TypeTable

theorem Members.Alike.mono {types weaker : TypeId → TypeId → Prop} {members others : Members}
    (alike : members.Alike types others)
    (implies : ∀ type other, types type other → weaker type other) :
    members.Alike weaker others :=
  List.Forall₂.imp (fun _ _ entries =>
    ⟨entries.1, implies _ _ entries.2.type, entries.2.isMethod⟩) alike

/-- What members with the same names have under a name. -/
theorem Members.Alike.lookup {types : TypeId → TypeId → Prop} {members others : Members}
    (alike : members.Alike types others) (name : String) :
    Option.Rel (Member.Alike types) (List.lookup name members) (List.lookup name others) := by
  induction alike with
  | nil => exact .none
  | @cons entry other rest otherRest entries _ ih =>
      rw [List.lookup_cons, List.lookup_cons, ← entries.1]
      split
      · exact .some entries.2
      · exact ih

namespace TypeTable

variable {left right furtherLeft furtherRight : TypeTable}
  {objects : TypeId → TypeId → Prop} {type other key otherKey : Nat}

namespace Aligned

theorem swap (aligned : left.Aligned right objects) : right.Aligned left (flip objects) where
  leftSound := aligned.rightSound
  rightSound := aligned.leftSound
  leftInterned := aligned.rightInterned
  rightInterned := aligned.leftInterned
  unique := ⟨fun _ _ _ first second => aligned.unique.2 first second,
    fun _ _ _ first second => aligned.unique.1 first second⟩
  object pair := by
    rcases aligned.object pair with ⟨name, members, others, isKind, isOther, alike⟩
    refine ⟨name, others, members, isOther, isKind, List.Forall₂.flip ?_⟩
    exact List.Forall₂.imp (fun _ _ entries =>
      ⟨entries.1.symm, entries.2.type.swap, entries.2.isMethod.symm⟩) alike

/-- Tables that grow by structural types, and have none twice, stay aligned. -/
theorem grow (aligned : left.Aligned right objects) (leftGrows : left.Extends furtherLeft)
    (rightGrows : right.Extends furtherRight) (leftSound : furtherLeft.Sound)
    (rightSound : furtherRight.Sound) (leftInterned : furtherLeft.Interned)
    (rightInterned : furtherRight.Interned) : furtherLeft.Aligned furtherRight objects where
  leftSound := leftSound
  rightSound := rightSound
  leftInterned := leftInterned
  rightInterned := rightInterned
  unique := aligned.unique
  object pair := by
    rcases aligned.object pair with ⟨name, members, others, isKind, isOther, alike⟩
    exact ⟨name, members, others, leftGrows.kept isKind, rightGrows.kept isOther,
      alike.mono fun _ _ => Matches.mono leftGrows rightGrows⟩

variable (aligned : left.Aligned right objects)

include aligned

theorem kinds (matching : left.Matches right objects type other) :
    ∃ kind otherKind, left.kinds[type]? = some kind ∧ right.kinds[other]? = some otherKind ∧
      kind.Alike (left.Matches right objects) otherKind := by
  cases matching with
  | intrinsic isFixed =>
      exact ⟨_, _, aligned.leftSound.fixed isFixed, aligned.rightSound.fixed isFixed,
        .intrinsic _⟩
  | object pair =>
      rcases aligned.object pair with ⟨name, members, others, isKind, isOther, alike⟩
      exact ⟨_, _, isKind, isOther, .object name alike⟩
  | sequence isKind isOther elements => exact ⟨_, _, isKind, isOther, .sequence elements⟩
  | grouping isKind isOther keys elements =>
      exact ⟨_, _, isKind, isOther, .grouping keys elements⟩

theorem lt_size (matching : left.Matches right objects type other) :
    type < left.size ∧ other < right.size := by
  rcases aligned.kinds matching with ⟨_, _, isKind, isOther, _⟩
  exact ⟨TypeTable.lt_size isKind, TypeTable.lt_size isOther⟩

/-- A type matches at most one type of the left table. -/
theorem leftUnique : Relator.LeftUnique (left.Matches right objects) := by
  intro type second other matching matchingSecond
  induction matching generalizing second with
  | intrinsic isFixed =>
      have isKind := aligned.rightSound.fixed isFixed
      cases matchingSecond with
      | intrinsic _ => rfl
      | object pair =>
          rcases aligned.object pair with ⟨_, _, _, _, isOther, _⟩
          cases isKind.symm.trans isOther
      | sequence _ isOther _ => cases isKind.symm.trans isOther
      | grouping _ isOther _ _ => cases isKind.symm.trans isOther
  | object pair =>
      rcases aligned.object pair with ⟨_, _, _, _, isKind, _⟩
      cases matchingSecond with
      | intrinsic isFixed => cases isKind.symm.trans (aligned.rightSound.fixed isFixed)
      | object secondPair => exact aligned.unique.1 pair secondPair
      | sequence _ isOther _ => cases isKind.symm.trans isOther
      | grouping _ isOther _ _ => cases isKind.symm.trans isOther
  | sequence isType isKind _ ih =>
      cases matchingSecond with
      | intrinsic isFixed => cases isKind.symm.trans (aligned.rightSound.fixed isFixed)
      | object pair =>
          rcases aligned.object pair with ⟨_, _, _, _, isOther, _⟩
          cases isKind.symm.trans isOther
      | sequence isSecond isOther elements =>
          cases isKind.symm.trans isOther
          cases ih elements
          exact aligned.leftInterned.index_eq isType isSecond (by rintro ⟨_, _, ⟨⟩⟩)
      | grouping _ isOther _ _ => cases isKind.symm.trans isOther
  | grouping isType isKind _ _ ihKey ih =>
      cases matchingSecond with
      | intrinsic isFixed => cases isKind.symm.trans (aligned.rightSound.fixed isFixed)
      | object pair =>
          rcases aligned.object pair with ⟨_, _, _, _, isOther, _⟩
          cases isKind.symm.trans isOther
      | sequence _ isOther _ => cases isKind.symm.trans isOther
      | grouping isSecond isOther keys elements =>
          cases isKind.symm.trans isOther
          cases ihKey keys
          cases ih elements
          exact aligned.leftInterned.index_eq isType isSecond (by rintro ⟨_, _, ⟨⟩⟩)

theorem biUnique : Relator.BiUnique (left.Matches right objects) :=
  ⟨aligned.leftUnique, fun _ _ _ first second => aligned.swap.leftUnique first.swap second.swap⟩

/-! ### Answers about matching types -/

theorem displayWithin_eq {depth otherDepth : Nat} {text otherText : String}
    (matching : left.Matches right objects type other)
    (isText : left.displayWithin depth type = .ok text)
    (isOther : right.displayWithin otherDepth other = .ok otherText) : text = otherText := by
  induction depth generalizing type other otherDepth text otherText with
  | zero => cases isText
  | succ depth ih =>
      cases otherDepth with
      | zero => cases isOther
      | succ otherDepth =>
          rcases aligned.kinds matching with ⟨kind, otherKind, isKind, isOtherKind, alike⟩
          rw [displayWithin, kind_eq_ok_iff.mpr isKind, Checked.ok_bind] at isText
          rw [displayWithin, kind_eq_ok_iff.mpr isOtherKind, Checked.ok_bind] at isOther
          cases alike with
          | intrinsic | object =>
              cases isText
              cases isOther
              rfl
          | sequence elements =>
              rcases Checked.bind_eq_ok_iff.mp isText with ⟨element, isElement, textEq⟩
              rcases Checked.bind_eq_ok_iff.mp isOther with
                ⟨otherElement, isOtherElement, otherEq⟩
              cases ih elements isElement isOtherElement
              exact Except.ok.inj (textEq.symm.trans otherEq)
          | grouping keys elements =>
              rcases Checked.bind_eq_ok_iff.mp isText with ⟨keyText, isKey, restEq⟩
              rcases Checked.bind_eq_ok_iff.mp restEq with ⟨element, isElement, textEq⟩
              rcases Checked.bind_eq_ok_iff.mp isOther with ⟨otherKeyText, isOtherKey, otherRest⟩
              rcases Checked.bind_eq_ok_iff.mp otherRest with
                ⟨otherElement, isOtherElement, otherEq⟩
              cases ih keys isKey isOtherKey
              cases ih elements isElement isOtherElement
              exact Except.ok.inj (textEq.symm.trans otherEq)

theorem display_eq {text otherText : String} (matching : left.Matches right objects type other)
    (isText : left.display type = .ok text) (isOther : right.display other = .ok otherText) :
    text = otherText :=
  aligned.displayWithin_eq matching isText isOther

theorem element?_alike {found otherFound : Option TypeId}
    (matching : left.Matches right objects type other) (isFound : left.element? type = .ok found)
    (isOther : right.element? other = .ok otherFound) :
    Option.Rel (left.Matches right objects) found otherFound := by
  rcases aligned.kinds matching with ⟨kind, otherKind, isKind, isOtherKind, alike⟩
  rw [element?, kind_eq_ok_iff.mpr isKind] at isFound
  rw [element?, kind_eq_ok_iff.mpr isOtherKind] at isOther
  cases isFound
  cases isOther
  cases alike with
  | intrinsic | object => exact .none
  | sequence elements => exact .some elements
  | grouping keys elements => exact .some elements

theorem member?_alike {name : String} {found otherFound : Option Member}
    (matching : left.Matches right objects type other)
    (isFound : left.member? type name = .ok found)
    (isOther : right.member? other name = .ok otherFound) :
    Option.Rel (Member.Alike (left.Matches right objects)) found otherFound := by
  rcases aligned.kinds matching with ⟨kind, otherKind, isKind, isOtherKind, alike⟩
  rw [member?, kind_eq_ok_iff.mpr isKind] at isFound
  rw [member?, kind_eq_ok_iff.mpr isOtherKind] at isOther
  cases isFound
  cases isOther
  have isInt : left.Matches right objects .int .int := .intrinsic rfl
  have isBool : left.Matches right objects .bool .bool := .intrinsic rfl
  have ofSequence {element otherElement : TypeId}
      (elements : left.Matches right objects element otherElement) :
      Option.Rel (Member.Alike (left.Matches right objects))
        (TypeKind.sequenceMember? element name) (TypeKind.sequenceMember? otherElement name) := by
    unfold TypeKind.sequenceMember?
    split
    · exact .some ⟨isInt, rfl⟩
    · exact .some ⟨isInt, rfl⟩
    · exact .some ⟨elements, rfl⟩
    · exact .some ⟨isBool, rfl⟩
    · exact .none
  cases alike with
  | intrinsic type =>
      cases type with
      | string =>
          simp only [TypeKind.member?, IntrinsicType.member?]
          split
          · exact .some ⟨isInt, rfl⟩
          · exact .none
      | int | bool | error => exact .none
  | object objectName alike => exact alike.lookup name
  | sequence elements => exact ofSequence elements
  | grouping keys elements =>
      simp only [TypeKind.member?_grouping]
      split
      · exact .some ⟨keys, rfl⟩
      · exact ofSequence elements

/-! ### Adding matching types -/

theorem sequence (matching : left.Matches right objects type other) :
    (left.sequence type).2.Aligned (right.sequence other).2 objects ∧
      (left.sequence type).2.Matches (right.sequence other).2 objects (left.sequence type).1
        (right.sequence other).1 := by
  rcases aligned.lt_size matching with ⟨inLeft, inRight⟩
  rcases sequence_spec aligned.leftSound inLeft with ⟨leftGrows, leftSound, isKind⟩
  rcases sequence_spec aligned.rightSound inRight with ⟨rightGrows, rightSound, isOther⟩
  exact ⟨aligned.grow leftGrows rightGrows leftSound rightSound
    (aligned.leftInterned.intern aligned.leftSound _)
    (aligned.rightInterned.intern aligned.rightSound _),
    .sequence isKind isOther (matching.mono leftGrows rightGrows)⟩

theorem grouping (keys : left.Matches right objects key otherKey)
    (matching : left.Matches right objects type other) :
    (left.grouping key type).2.Aligned (right.grouping otherKey other).2 objects ∧
      (left.grouping key type).2.Matches (right.grouping otherKey other).2 objects
        (left.grouping key type).1 (right.grouping otherKey other).1 := by
  rcases aligned.lt_size keys with ⟨keyInLeft, keyInRight⟩
  rcases aligned.lt_size matching with ⟨inLeft, inRight⟩
  rcases grouping_spec aligned.leftSound keyInLeft inLeft with ⟨leftGrows, leftSound, isKind⟩
  rcases grouping_spec aligned.rightSound keyInRight inRight with
    ⟨rightGrows, rightSound, isOther⟩
  exact ⟨aligned.grow leftGrows rightGrows leftSound rightSound
    (aligned.leftInterned.intern aligned.leftSound _)
    (aligned.rightInterned.intern aligned.rightSound _),
    .grouping isKind isOther (keys.mono leftGrows rightGrows)
      (matching.mono leftGrows rightGrows)⟩

end Aligned

/-! ### Tables that come from one table -/

/-- The types are the same object type of a table. -/
def SameObject (table : TypeTable) (type other : TypeId) : Prop :=
  type = other ∧ ∃ kind, table.kinds[type]? = some kind ∧ kind.IsObject

section Common

variable {base : TypeTable} (sound : base.Sound) (interned : base.Interned)
  (leftGrows : base.Extends left) (rightGrows : base.Extends right)

include sound interned leftGrows rightGrows

/-- A type of the table matches itself in whatever the table grows into. -/
theorem matches_self {type : Nat} (inRange : type < base.size) :
    left.Matches right base.SameObject type type := by
  induction type using Nat.strongRecOn with
  | ind type ih =>
      have isKind := Array.getElem?_eq_getElem inRange
      cases kindEq : base.kinds[type] with
      | intrinsic own =>
          rw [kindEq] at isKind
          have isFixed : ∃ fixed : Nat, initial.kinds[fixed]? = some (.intrinsic own) := by
            cases own with
            | int => exact ⟨0, rfl⟩
            | string => exact ⟨1, rfl⟩
            | bool => exact ⟨2, rfl⟩
            | error => exact ⟨3, rfl⟩
          rcases isFixed with ⟨fixed, isFixed⟩
          have same := interned.index_eq isKind (sound.fixed isFixed) (by rintro ⟨_, _, ⟨⟩⟩)
          exact .intrinsic (same ▸ isFixed)
      | object name members =>
          rw [kindEq] at isKind
          exact .object ⟨rfl, _, isKind, name, members, rfl⟩
      | sequence element =>
          rw [kindEq] at isKind
          have isBefore := sound.component isKind element (by simp [TypeKind.components])
          exact .sequence (leftGrows.kept isKind) (rightGrows.kept isKind)
            (ih element isBefore (Nat.lt_trans isBefore inRange))
      | grouping key element =>
          rw [kindEq] at isKind
          have keyBefore := sound.component isKind key (by simp [TypeKind.components])
          have isBefore := sound.component isKind element (by simp [TypeKind.components])
          exact .grouping (leftGrows.kept isKind) (rightGrows.kept isKind)
            (ih key keyBefore (Nat.lt_trans keyBefore inRange))
            (ih element isBefore (Nat.lt_trans isBefore inRange))

/-- What a table grows into stays aligned. -/
theorem aligned_self (members : base.MemberTypes (· < base.size)) (leftSound : left.Sound)
    (rightSound : right.Sound) (leftInterned : left.Interned) (rightInterned : right.Interned) :
    left.Aligned right base.SameObject where
  leftSound := leftSound
  rightSound := rightSound
  leftInterned := leftInterned
  rightInterned := rightInterned
  unique := by
    constructor
    · rintro _ _ _ ⟨rfl, _⟩ ⟨rfl, _⟩
      rfl
    · rintro _ _ _ ⟨rfl, _⟩ ⟨rfl, _⟩
      rfl
  object := by
    rintro type _ ⟨rfl, _, isKind, name, own, rfl⟩
    refine ⟨name, own, own, leftGrows.kept isKind, rightGrows.kept isKind, ?_⟩
    refine List.forall₂_same.mpr fun entry member => ⟨rfl, ?_, rfl⟩
    exact matches_self sound interned leftGrows rightGrows (members isKind entry member)

end Common

/-- A type of a table that matches one of what the table grew into is that type. -/
theorem Matches.eq_of_extends {base : TypeTable} (grows : left.Extends right)
    (interned : right.Interned) (matching : left.Matches right base.SameObject type other) :
    type = other := by
  induction matching with
  | intrinsic _ => rfl
  | object pair => exact pair.1
  | sequence isKind isOther _ ih =>
      cases ih
      exact interned.index_eq (grows.kept isKind) isOther (by rintro ⟨_, _, ⟨⟩⟩)
  | grouping isKind isOther _ _ ihKey ih =>
      cases ihKey
      cases ih
      exact interned.index_eq (grows.kept isKind) isOther (by rintro ⟨_, _, ⟨⟩⟩)

end TypeTable

end QueryLang
