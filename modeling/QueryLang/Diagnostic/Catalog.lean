import QueryLang.Diagnostic.Basic

/-!
# The catalog of messages

Every diagnostic that scanning, parsing and binding can report.
-/

namespace QueryLang

namespace DiagnosticMessage

/-! ### Binding -/

/-- A name that no scope declares. -/
def undeclaredName : DiagnosticMessage :=
  ⟨103, .error, "The name '\x7b0\x7d' does not exist in the current context."⟩

/-- Type arguments given to something that takes none. -/
def notGeneric : DiagnosticMessage :=
  ⟨308, .error, "The non-generic \x7b1\x7d '\x7b0\x7d' cannot be used with type arguments."⟩

/-- A name used as something it is not. -/
def usedLike : DiagnosticMessage :=
  ⟨118, .error, "'\x7b0\x7d' is a \x7b1\x7d but is used like a \x7b2\x7d."⟩

/-- A second local of a name in one statement list. -/
def duplicateLocal : DiagnosticMessage :=
  ⟨128, .error, "A local variable named '\x7b0\x7d' is already defined in this scope."⟩

/-- A call of something that cannot be called. -/
def notInvocable : DiagnosticMessage :=
  ⟨1955, .error, "Non-invocable member '\x7b0\x7d' cannot be used like a method."⟩

/-- A member that a type does not have. -/
def noSuchMember : DiagnosticMessage :=
  ⟨1061, .error, "'\x7b0\x7d' does not contain a definition for '\x7b1\x7d'."⟩

/-- A query over something that is no sequence. -/
def notQueryable : DiagnosticMessage :=
  ⟨1936, .error, "Could not find an implementation of the query pattern for source type '\x7b0\x7d'."⟩

/-- An operator between types it does not take. -/
def badOperands : DiagnosticMessage :=
  ⟨19, .error,
    "Operator '\x7b0\x7d' cannot be applied to operands of type '\x7b1\x7d' and '\x7b2\x7d'."⟩

/-- A range variable whose name is already a variable's. -/
def rangeVariableConflict : DiagnosticMessage :=
  ⟨1930, .error,
    "The range variable '\x7b0\x7d' conflicts with a previous declaration of '\x7b0\x7d'."⟩

/-- A conclusion variable outside its conclusion. -/
def conclusionOutOfScope : DiagnosticMessage :=
  ⟨1938, .error, "The query conclusion variable '\x7b0\x7d' cannot be used outside its clause."⟩

/-! ### Syntax -/

/-- A token that should be here. -/
def expected : DiagnosticMessage :=
  ⟨1003, .error, "'\x7b0\x7d' expected."⟩

/-- An identifier that should be here. -/
def identifierExpected : DiagnosticMessage :=
  ⟨1001, .error, "Identifier expected."⟩

/-- A token that cannot start an expression. -/
def invalidTerm : DiagnosticMessage :=
  ⟨1525, .error, "Invalid expression term '\x7b0\x7d'."⟩

/-- A character that starts no token. -/
def unexpectedCharacter : DiagnosticMessage :=
  ⟨1056, .error, "Unexpected character '\x7b0\x7d'."⟩

/-- A string that its line ends. -/
def newlineInConstant : DiagnosticMessage :=
  ⟨1010, .error, "Newline in constant."⟩

/-- A query body without its last clause. -/
def queryBodyEnd : DiagnosticMessage :=
  ⟨742, .error, "A query body must end with a select clause or a group clause."⟩

/-- Nesting beyond what is compiled. -/
def tooDeeplyNested : DiagnosticMessage :=
  ⟨8078, .error, "An expression is too long or complex to compile."⟩

/-- A language feature that is switched off. -/
def featureDisabled : DiagnosticMessage :=
  ⟨8107, .error, "Feature '\x7b0\x7d' is not available. Enable it in the compiler options."⟩

/-! ### Warnings -/

/-- A statement that control never reaches. -/
def unreachableCode : DiagnosticMessage :=
  ⟨162, .warning, "Unreachable code detected."⟩

/-! ### All messages -/

/-- The messages under the short names by which tools refer to them. -/
def catalog : List (String × DiagnosticMessage) :=
  [("name", undeclaredName), ("non_generic", notGeneric), ("used_like", usedLike),
   ("duplicate_local", duplicateLocal), ("non_invocable", notInvocable),
   ("no_member", noSuchMember), ("query_pattern", notQueryable), ("operator", badOperands),
   ("range_conflict", rangeVariableConflict), ("conclusion_scope", conclusionOutOfScope),
   ("expected", expected), ("identifier", identifierExpected), ("term", invalidTerm),
   ("character", unexpectedCharacter), ("newline", newlineInConstant),
   ("query_end", queryBodyEnd), ("too_deep", tooDeeplyNested), ("feature", featureDisabled),
   ("unreachable", unreachableCode)]

/-- The message with a short name. -/
def ofName? (name : String) : Option DiagnosticMessage := catalog.lookup name

end DiagnosticMessage

end QueryLang
