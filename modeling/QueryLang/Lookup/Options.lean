import QueryLang.Symbol.Basic

/-!
# Lookup options

What a lookup may find. Without any restriction it finds variables and members.
-/

namespace QueryLang

/-- Restrictions on what a lookup may find. -/
structure LookupOptions where
  namespaceAliasesOnly : Bool
  namespacesOrTypesOnly : Bool
  labelsOnly : Bool
  mustBeInvocable : Bool
  mustNotBeMethod : Bool
deriving DecidableEq, Inhabited

namespace LookupOptions

/-- No restriction. -/
def unrestricted : LookupOptions := ⟨false, false, false, false, false⟩

/-- Only what can be called. -/
def invocable : LookupOptions := { unrestricted with mustBeInvocable := true }

/-- The options with one more restriction, given by its name. -/
def restrict? (options : LookupOptions) : String → Option LookupOptions
  | "DEFAULT" => some options
  | "NAMESPACE_ALIASES_ONLY" => some { options with namespaceAliasesOnly := true }
  | "NAMESPACES_OR_TYPES_ONLY" => some { options with namespacesOrTypesOnly := true }
  | "LABELS_ONLY" => some { options with labelsOnly := true }
  | "MUST_BE_INVOCABLE" => some { options with mustBeInvocable := true }
  | "MUST_NOT_BE_METHOD" => some { options with mustNotBeMethod := true }
  | _ => none

/-- Whether variables and members may be found at all. -/
def admitsMembers (options : LookupOptions) : Bool :=
  !(options.namespaceAliasesOnly || options.namespacesOrTypesOnly || options.labelsOnly)

/-- Whether a symbol is among those that completion should list. -/
def lists (options : LookupOptions) (symbol : Symbol) : Bool :=
  options.admitsMembers
    || (options.namespacesOrTypesOnly && symbol.kind.isTypeLike)
    || (options.labelsOnly && symbol.kind == .label)

end LookupOptions

end QueryLang
