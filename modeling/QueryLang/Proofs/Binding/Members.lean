import QueryLang.Proofs.Binding.Containing
import QueryLang.Proofs.Type.History

/-!
# Members that are offered and members that are bound

The names of the members of a type are asked for where a member can be typed, and a member is
looked up by its name where an access or a call of it is bound. The two agree: a name that is
offered can be used in exactly one of the two ways, and any other name in neither.
-/

namespace QueryLang

/-- No member is found by a name that none of them has. -/
theorem Members.lookup_eq_none_iff {members : Members} {name : String} :
    List.lookup name members = none ↔ name ∉ members.map Prod.fst := by
  rw [List.lookup_eq_none_iff, List.mem_map, not_exists]
  refine forall_congr' fun entry => ?_
  rw [not_and, bne_iff_ne, ne_comm]

/-! ### The names that find a member -/

namespace TypeKind

/-- An operator is found by the names in the list of a sequence. -/
theorem sequenceMember?_isSome_iff {element : TypeId} {name : String} :
    (sequenceMember? element name).isSome ↔ name ∈ (sequence element).memberNames := by
  unfold sequenceMember? memberNames
  split
  · simp
  · simp
  · simp
  · simp
  · next notCount notSum notFirst notAny =>
      exact iff_of_false Bool.false_ne_true
        (by simpa using And.intro notAny ⟨notCount, notFirst, notSum⟩)

/-- The names in the list of a type are those by which it finds a member. -/
theorem mem_memberNames_iff {kind : TypeKind} {name : String} :
    name ∈ kind.memberNames ↔ (kind.member? name).isSome := by
  cases kind with
  | intrinsic type =>
      cases type with
      | string =>
          by_cases isLength : name = "Length" <;>
            simp [memberNames, member?, IntrinsicType.memberNames, IntrinsicType.member?, isLength]
      | int | bool | error => exact iff_of_false List.not_mem_nil Bool.false_ne_true
  | object objectName members =>
      rw [← not_iff_not, memberNames, ← Members.lookup_eq_none_iff, member?,
        Bool.not_eq_true, Option.isSome_eq_false_iff, Option.isNone_iff_eq_none]
  | sequence element => exact sequenceMember?_isSome_iff.symm
  | grouping key element =>
      rw [member?_grouping]
      split
      · next isKey => simp [memberNames, isKey]
      · next notKey =>
          rw [sequenceMember?_isSome_iff]
          simp [memberNames, notKey]

end TypeKind

namespace TypeTable

variable {table : TypeTable} {type : TypeId} {kind : TypeKind}

theorem memberNames_of_kind (isKind : table.kind type = .ok kind) :
    table.memberNames type = .ok kind.memberNames := by
  rw [memberNames, isKind]
  rfl

theorem member?_of_kind (isKind : table.kind type = .ok kind) (name : String) :
    table.member? type name = .ok (kind.member? name) := by
  rw [member?, isKind]
  rfl

end TypeTable

/-! ### Finding a member -/

section Finding

variable {state : BindingState} {type : TypeId} {identifier : Identifier} {name text : String}
  {wantsMethod : Bool} {misuse : String → Binding Unit} {member : Member}

theorem run_member? {found : Option Member} (isFound : state.types.member? type name = .ok found) :
    ExceptT.run (Binding.member? type name) state = (.ok found, state) := by
  show (state.types.member? type name, state) = _
  rw [isFound]

theorem run_displayType (isText : state.types.display type = .ok text) :
    ExceptT.run (Binding.displayType type) state = (.ok text, state) := by
  show (state.types.display type, state) = _
  rw [isText]

section

variable (isName : identifier.name = some name) (notError : type.isError = false)

include isName notError

/-- A member of the sort that is wanted is found. -/
theorem run_findMember_found (isFound : state.types.member? type name = .ok (some member))
    (isWanted : member.isMethod = wantsMethod) :
    ExceptT.run (findMember type identifier wantsMethod misuse) state =
      (.ok (some (name, member.type)), state) := by
  rw [findMember, isName]
  simp only [notError, Bool.false_eq_true, if_false]
  rw [Binding.run_bind_of_ok (run_member? isFound)]
  simp only [isWanted, if_true]
  rfl

/-- A member of the other sort is reported as misused. -/
theorem run_findMember_misused (isFound : state.types.member? type name = .ok (some member))
    (notWanted : member.isMethod ≠ wantsMethod) {after : BindingState}
    (isMisuse : ExceptT.run (misuse name) state = (.ok (), after)) :
    ExceptT.run (findMember type identifier wantsMethod misuse) state = (.ok none, after) := by
  rw [findMember, isName]
  simp only [notError, Bool.false_eq_true, if_false]
  rw [Binding.run_bind_of_ok (run_member? isFound)]
  simp only [notWanted, if_false]
  rw [Binding.run_bind_of_ok isMisuse]
  rfl

/-- A name that no member has is reported, with the text of the type. -/
theorem run_findMember_absent (isFound : state.types.member? type name = .ok none)
    (isText : state.types.display type = .ok text) :
    ExceptT.run (findMember type identifier wantsMethod misuse) state =
      (.ok none, state.reporting [.located identifier.location .noSuchMember [text, name]]) := by
  rw [findMember, isName]
  simp only [notError, Bool.false_eq_true, if_false]
  rw [Binding.run_bind_of_ok (run_member? isFound)]
  dsimp only
  rw [Binding.run_bind_of_ok (run_displayType isText)]
  rfl

end

end Finding

/-! ### Accesses and calls -/

namespace Binder

/-- What is bound for `receiver.name` and for `receiver.name()`, and what is reported about the two
beyond what is reported about the receiver. -/
structure BindsMember (binder : Binder) (state : BindingState) (receiver : Expr)
    (identifier : Identifier) (after : BindingState) (site callSite : Site)
    (access call : BoundExpr) (ofAccess ofCall : Diagnostics) : Prop where
  access : binder.Binds state (.memberAccess site receiver identifier) access
    (after.reporting ofAccess)
  call : binder.Binds state (.memberCall callSite receiver identifier []) call
    (after.reporting ofCall)

section

variable {binder : Binder} {state after last : BindingState} {receiver : Expr} {bound : BoundExpr}
  {identifier : Identifier} {found : Option (String × TypeId)}

theorem binds_memberAccess (isBound : binder.Binds state receiver bound after) (site : Site)
    (isFound : ExceptT.run (findMember bound.type identifier false fun name =>
      Binding.report identifier.location .usedLike [name, "method", "property"]) after =
        (.ok found, last)) :
    binder.Binds state (.memberAccess site receiver identifier)
      (found.elim (.bad site.node [bound]) fun member =>
        .memberAccess site.node bound member.1 member.2) last := by
  rw [Binds, bindExpr, Binding.run_bind_of_ok isBound, bindMemberAccess,
    Binding.run_bind_of_ok isFound]
  cases found <;> rfl

theorem binds_memberCall (isBound : binder.Binds state receiver bound after) (site : Site)
    (isFound : ExceptT.run (findMember bound.type identifier true fun name =>
      Binding.report identifier.location .notInvocable [name]) after = (.ok found, last)) :
    binder.Binds state (.memberCall site receiver identifier [])
      (found.elim (.bad site.node [bound]) fun member =>
        .memberCall site.node bound member.1 [] member.2) last := by
  have noArguments : ExceptT.run (bindExprs binder []) after = (.ok [], after) := by
    rw [bindExprs]
    rfl
  rw [Binds, bindExpr, Binding.run_bind_of_ok isBound, Binding.run_bind_of_ok noArguments,
    bindMemberCall, Binding.run_bind_of_ok isFound]
  cases found <;> rfl

end

variable {binder : Binder} {state after : BindingState} {receiver : Expr} {bound : BoundExpr}
  {identifier : Identifier} {name text : String} {member : Member}
  (isBound : binder.Binds state receiver bound after) (notError : bound.type.isError = false)
  (isName : identifier.name = some name) (site callSite : Site)

include isBound notError isName

/-- A field can be accessed and not called. -/
theorem bindsMember_field (isFound : after.types.member? bound.type name = .ok (some member))
    (isField : member.isMethod = false) :
    binder.BindsMember state receiver identifier after site callSite
      (.memberAccess site.node bound name member.type) (.bad callSite.node [bound]) []
      [.located identifier.location .notInvocable [name]] where
  access := by
    rw [BindingState.reporting_nil]
    exact binds_memberAccess isBound site (run_findMember_found isName notError isFound isField)
  call := binds_memberCall isBound callSite
    (run_findMember_misused isName notError isFound (by simp [isField]) rfl)

/-- A method can be called and not accessed. -/
theorem bindsMember_method (isFound : after.types.member? bound.type name = .ok (some member))
    (isMethod : member.isMethod = true) :
    binder.BindsMember state receiver identifier after site callSite (.bad site.node [bound])
      (.memberCall callSite.node bound name [] member.type)
      [.located identifier.location .usedLike [name, "method", "property"]] [] where
  access := binds_memberAccess isBound site
    (run_findMember_misused isName notError isFound (by simp [isMethod]) rfl)
  call := by
    rw [BindingState.reporting_nil]
    exact binds_memberCall isBound callSite (run_findMember_found isName notError isFound isMethod)

/-- A name that no member has can be neither accessed nor called. -/
theorem bindsMember_absent (isFound : after.types.member? bound.type name = .ok none)
    (isText : after.types.display bound.type = .ok text) :
    binder.BindsMember state receiver identifier after site callSite (.bad site.node [bound])
      (.bad callSite.node [bound])
      [.located identifier.location .noSuchMember [text, name]]
      [.located identifier.location .noSuchMember [text, name]] where
  access := binds_memberAccess isBound site (run_findMember_absent isName notError isFound isText)
  call := binds_memberCall isBound callSite (run_findMember_absent isName notError isFound isText)

end Binder

/-- Whatever the table of types was asked for, the binding of a receiver included: if the receiver
has a type other than the error type, that type has a list of member names, and for every name one
of these holds. (1) The name is in the list, and exactly one of the access to it and the call of it
is bound without a report beyond those about the receiver: the call if the member is a method, and
else the access. Its type is that of the member. (2) The name is not in the list, and both report
that the type has no such member. -/
theorem Binder.members_agree {binder : Binder} {state after : BindingState} {receiver : Expr}
    {bound : BoundExpr} {past : List (TypeRequest × Option TypeId)}
    (served : TypeTable.initial.Serves past after.types)
    (isBound : binder.Binds state receiver bound after) (isType : bound.type < after.types.size)
    (notError : bound.type ≠ .error) :
    ∃ names, after.types.memberNames bound.type = .ok names ∧
      ∀ identifier name, identifier.name = some name → ∀ site callSite,
        ∃ access call ofAccess ofCall,
          binder.BindsMember state receiver identifier after site callSite access call ofAccess
            ofCall ∧
          (name ∈ names ↔ (ofAccess = [] ∧ ofCall ≠ []) ∨ (ofAccess ≠ [] ∧ ofCall = [])) ∧
          (name ∉ names ↔ ∃ text, after.types.display bound.type = .ok text ∧
            ofAccess = [.located identifier.location .noSuchMember [text, name]] ∧
            ofCall = [.located identifier.location .noSuchMember [text, name]]) ∧
          (name ∈ names → ∃ member, after.types.member? bound.type name = .ok (some member) ∧
            (member.isMethod = true → ofCall = [] ∧ call.type = member.type) ∧
            (member.isMethod = false → ofAccess = [] ∧ access.type = member.type)) := by
  have sound := (served.regular_last .initial).sound
  have notError : bound.type.isError = false := by simpa [TypeId.isError] using notError
  rcases TypeTable.exists_kind isType with ⟨kind, isKind⟩
  rcases sound.display_gives isType with ⟨text, isText, _⟩
  have isKind := TypeTable.kind_eq_ok_iff.mpr isKind
  refine ⟨_, TypeTable.memberNames_of_kind isKind, fun identifier name isName site callSite => ?_⟩
  have asked := TypeTable.member?_of_kind isKind name
  rw [asked]
  have listed : name ∈ kind.memberNames ↔ (kind.member? name).isSome := TypeKind.mem_memberNames_iff
  cases found : kind.member? name with
  | none =>
    have absent : name ∉ kind.memberNames := by simp [listed, found]
    rw [found] at asked
    refine ⟨_, _, _, _, bindsMember_absent isBound notError isName site callSite asked isText, ?_⟩
    simp [absent, isText]
  | some member =>
    have present : name ∈ kind.memberNames := by simp [listed, found]
    rw [found] at asked
    cases sort : member.isMethod with
    | false =>
      refine ⟨_, _, _, _, bindsMember_field isBound notError isName site callSite asked sort, ?_⟩
      simp [present, sort, BoundExpr.type]
    | true =>
      refine ⟨_, _, _, _, bindsMember_method isBound notError isName site callSite asked sort, ?_⟩
      simp [present, sort, BoundExpr.type]

/-- A grouping of people by number has a key that is a field and a method that counts; what people
have is no member of it. -/
theorem Binder.members_agree_grouping :
    let site : Site := ⟨0, ⟨0, ⟨0, 0⟩⟩⟩
    let named (name : String) : Identifier := ⟨some name, site.location⟩
    let past := [(.object "Person" [("Age", .field .int)], some 4), (.grouping .int 4, some 5)]
    let types := past.foldl (fun table entry => (entry.1.serve table).2) TypeTable.initial
    let group : Symbol := .located 0 "g" default site.location (.rangeVariable 5)
    let binder : Binder := ⟨[.rangeVariable group rfl], default, false⟩
    let state : BindingState := ⟨types, 1, []⟩
    TypeTable.initial.Serves past types ∧
      binder.Binds state (.name site (named "g")) (.rangeVariable 0 group 5) state ∧
      ∃ names, types.memberNames 5 = .ok names ∧ "Key" ∈ names ∧ "Count" ∈ names ∧
        "Age" ∉ names ∧
        ∃ access call ofCall, binder.BindsMember state (.name site (named "g")) (named "Key") state
          site site access call [] ofCall ∧ access.type = .int := by
  intro site named past types group binder state
  have served : TypeTable.initial.Serves past types :=
    .next (by decide) (Prod.ext (by decide +kernel) rfl)
      (.next (by decide +kernel) (Prod.ext (by decide +kernel) rfl) .done)
  have isBound : binder.Binds state (.name site (named "g")) (.rangeVariable 0 group 5) state := rfl
  rcases Binder.members_agree served isBound (by decide +kernel) (by decide) with
    ⟨names, areNames, agree⟩
  have namesEq : names = ["Any", "Count", "First", "Key", "Sum"] := by
    cases areNames
    rfl
  rcases agree (named "Key") "Key" rfl site site with
    ⟨access, call, ofAccess, ofCall, binds, _, _, isMember⟩
  rcases isMember (by simp [namesEq]) with ⟨member, isFound, _, ofField⟩
  cases isFound
  rcases ofField rfl with ⟨rfl, isType⟩
  exact ⟨served, isBound, names, areNames, by simp [namesEq], by simp [namesEq], by simp [namesEq],
    access, call, ofCall, binds, isType⟩

end QueryLang
