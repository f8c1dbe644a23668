import QueryLang.Fault
import QueryLang.Type.Name

/-!
# The type table

Types are kept in a table and referred to by index. The first four are fixed: `int`, `string`,
`bool` and the error type, which stands for the type of whatever could not be bound. Sequences
and groupings are structural: asking twice for the sequence of a type gives the same index.
Object types are declared with a name, and a later declaration of a name hides an earlier one.
-/

namespace QueryLang

/-- The index of a type in the table. -/
abbrev TypeId := Nat

namespace TypeId

/-- The type of whole numbers. -/
def int : TypeId := 0

/-- The type of texts. -/
def string : TypeId := 1

/-- The type of truth values. -/
def bool : TypeId := 2

/-- The type of expressions that failed to bind. -/
def error : TypeId := 3

/-- Whether a type stands for a failure to bind, about which nothing more is reported. -/
def isError (type : TypeId) : Bool := type == error

end TypeId

/-- A member of a type: a field of a type, or a method that returns one. -/
structure Member where
  type : TypeId
  isMethod : Bool
deriving DecidableEq, Inhabited

namespace Member

/-- A field of a type. -/
def field (type : TypeId) : Member := ⟨type, false⟩

/-- A method that returns a type. -/
def method (type : TypeId) : Member := ⟨type, true⟩

end Member

/-- The members of an object type, in the order in which their names were first declared. -/
abbrev Members := List (String × Member)

namespace Members

/-- Declares a member. A name that is already there keeps its place and takes the new member. -/
def declare (name : String) (member : Member) : Members → Members
  | [] => [(name, member)]
  | (first, old) :: rest =>
    if first = name then (name, member) :: rest else (first, old) :: declare name member rest

end Members

/-- The types that the language itself has. -/
inductive IntrinsicType
  | int
  | string
  | bool
  | error
deriving DecidableEq, Inhabited

namespace IntrinsicType

/-- The text of a type of the language. -/
def name : IntrinsicType → String
  | int => "int"
  | string => "string"
  | bool => "bool"
  | error => "?"

/-- The member of a type of the language with a name. -/
def member? : IntrinsicType → String → Option Member
  | string, name => if name = "Length" then some (.field .int) else none
  | int, _ | bool, _ | error, _ => none

/-- The names of the members of a type of the language. -/
def memberNames : IntrinsicType → List String
  | string => ["Length"]
  | int | bool | error => []

end IntrinsicType

/-- What a type is. -/
inductive TypeKind
  /-- A type that the language itself has. -/
  | intrinsic (type : IntrinsicType)
  /-- A declared type with its members. -/
  | object (name : String) (members : Members)
  /-- What a query ranges over. -/
  | sequence (element : TypeId)
  /-- A sequence that also has a key: the result of a `group` clause is made of these. -/
  | grouping (key element : TypeId)
deriving DecidableEq, Inhabited

namespace TypeKind

/-- The operator with a name that every sequence has as a member. -/
def sequenceMember? (element : TypeId) : String → Option Member
  | "Count" | "Sum" => some (.method .int)
  | "First" => some (.method element)
  | "Any" => some (.method .bool)
  | _ => none

/-- The member of a type with a name. -/
def member? : TypeKind → String → Option Member
  | intrinsic type, name => type.member? name
  | object _ members, name => members.lookup name
  | sequence element, name => sequenceMember? element name
  | grouping key _, "Key" => some (.field key)
  | grouping _ element, name => sequenceMember? element name

/-- The names of the members of a type: those of an object type as they were declared, all others
in alphabetical order. -/
def memberNames : TypeKind → List String
  | intrinsic type => type.memberNames
  | object _ members => members.map Prod.fst
  | sequence _ => ["Any", "Count", "First", "Sum"]
  | grouping _ _ => ["Any", "Count", "First", "Key", "Sum"]

/-- What a query over a type ranges over, if it can be queried. -/
def element? : TypeKind → Option TypeId
  | sequence element | grouping _ element => some element
  | intrinsic _ | object _ _ => none

end TypeKind

/-- What a structural type is found by: how it is made of other types. -/
inductive StructuralKey
  | sequence (element : TypeId)
  | grouping (key element : TypeId)
deriving DecidableEq, Inhabited

namespace StructuralKey

/-- The type that is made that way. -/
def kind : StructuralKey → TypeKind
  | sequence element => .sequence element
  | grouping key element => .grouping key element

end StructuralKey

/-- The types of a compilation, where its structural types are, and the names that can be looked
up. The latest declaration of a name comes first. -/
structure TypeTable where
  kinds : Array TypeKind
  structural : List (StructuralKey × TypeId)
  names : List (String × TypeId)
deriving DecidableEq, Inhabited

namespace TypeTable

/-- The table with the four types of the language. The error type has no name. -/
def initial : TypeTable where
  kinds := #[.intrinsic .int, .intrinsic .string, .intrinsic .bool, .intrinsic .error]
  structural := []
  names := [("int", .int), ("string", .string), ("bool", .bool)]

/-- How many types there are. -/
def size (table : TypeTable) : Nat := table.kinds.size

/-- What the type with an index is. -/
def kind (table : TypeTable) (type : TypeId) : Checked TypeKind :=
  match table.kinds[type]? with
  | some kind => .ok kind
  | none => .error .outOfRange

/-- Adds a type at the end of the table. -/
def push (table : TypeTable) (kind : TypeKind) : TypeId × TypeTable :=
  (table.size, { table with kinds := table.kinds.push kind })

/-- The index of a structural type, which is added if the table does not have it. -/
def intern (table : TypeTable) (key : StructuralKey) : TypeId × TypeTable :=
  match table.structural.lookup key with
  | some type => (type, table)
  | none =>
    let (type, extended) := table.push key.kind
    (type, { extended with structural := (key, type) :: table.structural })

/-- The type of sequences of a type. -/
def sequence (table : TypeTable) (element : TypeId) : TypeId × TypeTable :=
  table.intern (.sequence element)

/-- The type of sequences of a type that have a key. -/
def grouping (table : TypeTable) (key element : TypeId) : TypeId × TypeTable :=
  table.intern (.grouping key element)

/-- The type of sequences of sequences and so on, `depth` times around a type. -/
def sequences (table : TypeTable) : (depth : Nat) → TypeId → TypeId × TypeTable
  | 0, base => (base, table)
  | depth + 1, base =>
    let (inner, table) := table.sequences depth base
    table.sequence inner

/-- Declares an object type. Earlier uses of the name keep the type they were given. -/
def declareObject (table : TypeTable) (name : String) (members : Members) :
    TypeId × TypeTable :=
  let (type, extended) := table.push (.object name members)
  (type, { extended with names := (name, type) :: table.names })

/-- The type that a name stands for. -/
def named? (table : TypeTable) (name : String) : Option TypeId :=
  table.names.lookup name

/-- The type that a text writes. Sequence types are added as needed, once the name inside is
known. -/
def lookupNamed (table : TypeTable) (text : String) : Option TypeId × TypeTable :=
  let written := TypeName.ofText text.toList
  match table.named? (String.ofList written.base) with
  | none => (none, table)
  | some base =>
    let (type, table) := table.sequences written.depth base
    (some type, table)

/-- What a query over the type ranges over, if it can be queried. -/
def element? (table : TypeTable) (type : TypeId) : Checked (Option TypeId) := do
  return (← table.kind type).element?

/-- The member of a type with a name. -/
def member? (table : TypeTable) (type : TypeId) (name : String) : Checked (Option Member) := do
  return (← table.kind type).member? name

/-- The names of the members of a type, in order. -/
def memberNames (table : TypeTable) (type : TypeId) : Checked (List String) := do
  return (← table.kind type).memberNames

/-- The text of a type, looking at most `depth` types deep. -/
def displayWithin (table : TypeTable) : (depth : Nat) → TypeId → Checked String
  | 0, _ => .error .outOfRange
  | depth + 1, type => do
    match ← table.kind type with
    | .intrinsic intrinsic => return intrinsic.name
    | .object name _ => return name
    | .sequence element => return s!"seq<{← table.displayWithin depth element}>"
    | .grouping key element =>
      let keyText ← table.displayWithin depth key
      return s!"grouping<{keyText}, {← table.displayWithin depth element}>"

/-- The text of a type. A type is nested less deep than the table has types. -/
def display (table : TypeTable) (type : TypeId) : Checked String :=
  table.displayWithin table.size type

end TypeTable

end QueryLang
