import QueryLang.Compilation.Model
import QueryLang.Compilation.Options
import QueryLang.Syntax.Parser.Statement

/-!
# Compilations

A compilation is a set of source files that see the same types and globals of the host. A file is
the body of the method `Main` of the type `Program`; the globals are static fields of that type.
Compiling gathers what is reported about each file, by file and place, up to the limit that the
options set.
-/

namespace QueryLang

/-- A source file. -/
structure SourceFile where
  name : String
  text : SourceText
deriving Inhabited

/-- Source files, and what the host gives them. -/
structure Compilation where
  options : CompilerOptions
  features : Features
  types : TypeTable
  nextSymbol : Nat
  program : Symbol
  entryPoint : Symbol
  /-- The symbols that every file sees, in the order in which they were declared. -/
  globals : List Symbol
  sources : List SourceFile
deriving Inhabited

namespace Compilation

/-- Declares a field of the program type. -/
def declareGlobal (compilation : Compilation) (name : String) (type : TypeId) : Compilation :=
  let field := Symbol.inside (some compilation.program)
    { id := compilation.nextSymbol, name, locations := [], accessibility := .public
      modifiers := [.static], data := .field type }
  { compilation with
    nextSymbol := compilation.nextSymbol + 1
    globals := compilation.globals ++ [field] }

/-- Declares an object type of the host, whose name the source files see. -/
def declareType (compilation : Compilation) (name : String) (members : Members) :
    TypeId × Compilation :=
  let (type, types) := compilation.types.declareObject name members
  let symbol := Symbol.ofType compilation.nextSymbol name (some compilation.program) type
  (type, { compilation with
    types
    nextSymbol := compilation.nextSymbol + 1
    globals := compilation.globals ++ [symbol] })

/-- The compilation with these options, and the globals that they name. -/
def ofOptions (options : CompilerOptions) : Except OptionsError Compilation := do
  let features ← options.languageFeatures
  let (programType, types) := TypeTable.initial.declareObject "Program" []
  let program := Symbol.ofType 0 "Program" none programType
  let entryPoint := Symbol.inside (some program)
    { id := 1, name := "Main", locations := [], accessibility := .public
      modifiers := [.static], data := .method .int [] }
  let (resolved, types) := options.resolveGlobals types
  let compilation : Compilation :=
    { options, features, types, nextSymbol := 2, program, entryPoint
      globals := [entryPoint], sources := [] }
  return (← resolved).foldl (fun compilation (name, type) => compilation.declareGlobal name type)
    compilation

/-- Adds a source file. -/
def addSource (compilation : Compilation) (name : String) (text : SourceText) : Compilation :=
  { compilation with sources := compilation.sources ++ [⟨name, text⟩] }

/-- The place from which the names of a file's statements are looked up. -/
def rootBinder (compilation : Compilation) : Binder where
  scopes := [.global compilation.globals]
  container := compilation.entryPoint
  isCancelled := false

/-- The model of a source file under its number. -/
def modelOf (compilation : Compilation) (file : FileId) (source : SourceFile) :
    Checked SemanticModel := do
  let parsed ← parseText file source.name source.text compilation.features
  return ⟨parsed.tree, parsed.diagnostics, compilation.rootBinder, none⟩

/-- The model of the file with a number, if there is one. -/
def model? (compilation : Compilation) (file : FileId) : Checked (Option SemanticModel) :=
  match compilation.sources[file]? with
  | some source => some <$> compilation.modelOf file source
  | none => .ok none

/-- Runs a step of binding on the types of a compilation. The reports of the step come with its
value. The types that the step added stay, also when a fault stops it. -/
def run (compilation : Compilation) (step : Binding α) :
    Checked (α × Diagnostics) × Compilation :=
  let (result, state) := ExceptT.run step ⟨compilation.types, compilation.nextSymbol, []⟩
  (result.map (·, state.diagnostics),
    { compilation with types := state.types, nextSymbol := state.nextSymbol })

/-- What is reported about each of the source files, which are numbered from `first` on. -/
def diagnosticsFrom (compilation : Compilation) (isCancelled : Bool) :
    (first : FileId) → List SourceFile → Checked Diagnostics
  | _, [] => .ok []
  | first, source :: rest => do
    let model ← compilation.modelOf first source
    let (result, compilation) := compilation.run (model.bind isCancelled)
    let ((unit, model), _) ← result
    return model.diagnostics unit ++ (← compilation.diagnosticsFrom isCancelled (first + 1) rest)

/-- Everything that is reported about the files, up to the limit. -/
def compile (compilation : Compilation) (isCancelled : Bool) : Checked Diagnostics := do
  let all := Diagnostics.sorted
    (← compilation.diagnosticsFrom isCancelled 0 compilation.sources)
  match compilation.options.maxDiagnostics with
  | some limit => return all.take limit
  | none => return all

/-- The line that shows a report to the user, with the name of its file if it has a place. -/
def render (compilation : Compilation) (diagnostic : Diagnostic) : Checked String :=
  match diagnostic.location.bind fun location => compilation.sources[location.file]? with
  | some source => diagnostic.render source.name (LineMap.ofText source.text.toString)
  | none => return diagnostic.summary

end Compilation

end QueryLang
