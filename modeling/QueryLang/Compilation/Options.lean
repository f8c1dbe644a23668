import QueryLang.Syntax.Features
import QueryLang.Text.JsonText
import QueryLang.Type.Table

/-!
# Compiler options

Options come from a JSON text: the language features that are on, how many diagnostics to report
at most, and the globals of the host with the names of their types. The text is an object with
these fields, or an array of them in this order. What is left out has its default; fields of
other names do not count.
-/

namespace QueryLang

/-- Whether no two globals have one name. -/
def NamedOnce (globals : List (String × String)) : Prop :=
  (globals.map Prod.fst).Nodup

instance (globals : List (String × String)) : Decidable (NamedOnce globals) :=
  inferInstanceAs (Decidable (globals.map Prod.fst).Nodup)

/-- The options of a compilation. -/
structure CompilerOptions where
  features : List String
  maxDiagnostics : Option Nat
  globals : List (String × String)
  named_once : NamedOnce globals := by decide
deriving DecidableEq

/-- What is wrong with options. -/
inductive OptionsError
  | malformed
  | unknownFeature (name : String)
  | unknownType (name typeName : String)
deriving DecidableEq

namespace OptionsError

/-- The message of an error, for those whose message is fixed. -/
def message? : OptionsError → Option String
  | malformed => none
  | unknownFeature name => some s!"unknown feature '{name}'"
  | unknownType name typeName => some s!"global '{name}' has unknown type '{typeName}'"

end OptionsError

namespace CompilerOptions

/-- The options that an empty text object gives. -/
def default : CompilerOptions := ⟨["queryConclusions", "doStatements"], none, [], .nil⟩

instance : Inhabited CompilerOptions := ⟨default⟩

/-- The text of a string value. -/
def readText : JsonValue → Option String
  | .string text => text
  | _ => none

/-- The features in a value: an array of names. -/
def readFeatures : JsonValue → Option (List String)
  | .array items => items.mapM readText
  | _ => none

/-- The diagnostics limit in a value: a number of 64 bits, or nothing. -/
def readLimit : JsonValue → Option (Option Nat)
  | .null => some none
  | .number (some limit) => if limit < UInt64.size then some (some limit) else none
  | _ => none

/-- Adds a global. One whose name is there keeps its place and takes the new type. -/
def addGlobal (name typeName : String) : List (String × String) → List (String × String)
  | [] => [(name, typeName)]
  | (first, old) :: rest =>
    if first = name then (name, typeName) :: rest
    else (first, old) :: addGlobal name typeName rest

theorem mem_names_addGlobal {name other typeName : String} {globals : List (String × String)} :
    other ∈ (addGlobal name typeName globals).map Prod.fst ↔
      other = name ∨ other ∈ globals.map Prod.fst := by
  induction globals with
  | nil => simp [addGlobal]
  | cons first rest ih =>
      rw [addGlobal]
      split
      · next same => simp [← same]
      · rw [List.map_cons, List.map_cons, List.mem_cons, ih, List.mem_cons]
        exact or_left_comm

theorem namedOnce_addGlobal {globals : List (String × String)} (once : NamedOnce globals)
    (name typeName : String) : NamedOnce (addGlobal name typeName globals) := by
  induction globals with
  | nil => exact List.nodup_cons.mpr ⟨List.not_mem_nil, .nil⟩
  | cons first rest ih =>
      obtain ⟨notInRest, restOnce⟩ := List.nodup_cons.mp once
      rw [addGlobal]
      split
      · next same => exact List.nodup_cons.mpr ⟨same ▸ notInRest, restOnce⟩
      · next differs =>
        refine List.nodup_cons.mpr ⟨fun isThere => ?_, ih restOnce⟩
        exact (mem_names_addGlobal.mp isThere).elim differs notInRest

/-- The globals in a value: an object of type names. -/
def readGlobals : JsonValue → Option { globals : List (String × String) // NamedOnce globals }
  | .object fields =>
    fields.foldlM (fun globals (name, value) => do
      let name ← name
      let typeName ← readText value
      return ⟨addGlobal name typeName globals,
        namedOnce_addGlobal globals.property name typeName⟩) ⟨[], .nil⟩
  | _ => none

/-- The fields of options that were read so far. -/
structure Fields where
  features : Option (List String)
  maxDiagnostics : Option (Option Nat)
  globals : Option { globals : List (String × String) // NamedOnce globals }

/-- The options in which missing fields have their defaults. -/
def Fields.complete (fields : Fields) : CompilerOptions :=
  let globals := fields.globals.getD ⟨default.globals, default.named_once⟩
  ⟨fields.features.getD default.features, fields.maxDiagnostics.getD default.maxDiagnostics,
    globals, globals.property⟩

/-- Reads one field. Each field may be there once. -/
def Fields.read (fields : Fields) (name : Option String) (value : JsonValue) : Option Fields := do
  match ← name with
  | "features" =>
    if fields.features.isSome then none
    else return { fields with features := some (← readFeatures value) }
  | "maxDiagnostics" =>
    if fields.maxDiagnostics.isSome then none
    else return { fields with maxDiagnostics := some (← readLimit value) }
  | "globals" =>
    if fields.globals.isSome then none
    else return { fields with globals := some (← readGlobals value) }
  | _ => return fields

/-- The names of the fields, in order. -/
def fieldNames : List String := ["features", "maxDiagnostics", "globals"]

/-- The options in a value. -/
def ofValue : JsonValue → Option CompilerOptions
  | .object values => do
    let fields ← values.foldlM (fun fields (name, value) => fields.read name value)
      (⟨none, none, none⟩ : Fields)
    return fields.complete
  | .array values =>
    if values.length ≤ fieldNames.length then do
      let fields ← (fieldNames.zip values).foldlM
        (fun fields (name, value) => fields.read (some name) value)
        (⟨none, none, none⟩ : Fields)
      return fields.complete
    else
      none
  | _ => none

/-- The options that a text writes. -/
def ofText (text : String) : Except OptionsError CompilerOptions :=
  match (JsonText.read text.toList).bind ofValue with
  | some options => .ok options
  | none => .error .malformed

/-- The options as JSON. -/
def toText (options : CompilerOptions) : String :=
  let field (name value : String) := JsonText.writeString name ++ ":" ++ value
  JsonText.writeGroup '{' '}'
    [field "features" (JsonText.writeGroup '[' ']' (options.features.map JsonText.writeString)),
      field "maxDiagnostics" (match options.maxDiagnostics with
        | some limit => toString limit
        | none => "null"),
      field "globals" (JsonText.writeGroup '{' '}'
        (options.globals.map fun (name, typeName) =>
          field name (JsonText.writeString typeName)))]

/-- The language features that are on. -/
def languageFeatures (options : CompilerOptions) : Except OptionsError Features :=
  options.features.foldlM (fun set name =>
    match Features.ofOptionName? name with
    | some feature => .ok (set.union feature)
    | none => .error (.unknownFeature name)) .none

/-- The types of globals, as far as a table has them. The types needed are added to the table up
to the first global whose type is unknown. -/
def resolve (types : TypeTable) :
    List (String × String) → Except OptionsError (List (String × TypeId)) × TypeTable
  | [] => (.ok [], types)
  | (name, typeName) :: rest =>
    match types.lookupNamed typeName with
    | (none, types) => (.error (.unknownType name typeName), types)
    | (some type, types) =>
      let (resolved, types) := resolve types rest
      (resolved.map ((name, type) :: ·), types)

/-- The globals with their types. -/
def resolveGlobals (options : CompilerOptions) (types : TypeTable) :
    Except OptionsError (List (String × TypeId)) × TypeTable :=
  resolve types options.globals

end CompilerOptions

end QueryLang
