import QueryLang.Bound.Outline
import QueryLang.Dump.Syntax
import QueryLang.Lookup.Result
import QueryLang.Lookup.VisibleNames
import QueryLang.Symbol.Display

/-!
# Dumps of symbols and of what is bound

A symbol is shown by its label wherever it is only referred to. A bound tree is shown as the rows
of its outline, with types as texts.
-/

namespace QueryLang

/-! ### Types, symbols and lookups -/

instance : Dumpable Symbol := ⟨fun symbol => symbol.label⟩

instance : Dumpable RefKind := ⟨fun refKind => refKind.name⟩

instance : Dumpable Modifier := ⟨fun modifier => modifier.name⟩

instance : Dumpable Member := ⟨fun member => (member.type, member.isMethod)⟩

instance : Dumpable TypeKind where
  dump
    | .intrinsic type => .list ["Intrinsic", type.name]
    | .object name members =>
      let rows := members.map fun (member, declared) =>
        Dump.list [member, declared.type, declared.isMethod]
      .list ["Object", name, rows]
    | .sequence element => .list ["Sequence", element]
    | .grouping key element => .list ["Grouping", key, element]

instance : Dumpable LookupError where
  dump
    | .notInvocable => .list ["NotInvocable"]
    | .wrongArity kind => .list ["WrongArity", kind.name]
    | .wrongKind found needed => .list ["WrongKind", found.name, needed]

instance : Dumpable VisibleNames := ⟨fun names =>
  .record [("names", names.toList), ("len", names.size), ("empty", names.toList.isEmpty)]⟩

/-- All that is known about a symbol. -/
def Symbol.facts (symbol : Symbol) (types : TypeTable) : Checked Dump := do
  let type ← symbol.type?.mapM types.display
  return .record [("kind", symbol.kind.name), ("word", symbol.kind.displayName),
    ("name", symbol.text), ("locations", symbol.locations), ("containing", symbol.container?),
    ("access", symbol.accessibility.name), ("mods", symbol.modifiers), ("type", type),
    ("invocable", symbol.isInvocable), ("identity", symbol.kind.usesIdentity),
    ("params", symbol.parameters), ("ordinal", symbol.ordinal?), ("ref", symbol.refKind?)]

/-- A result with its symbols as `write` writes them. -/
def LookupResult.dump (result : LookupResult) (write : Symbol → String) : Dump :=
  .record [("kind", result.viability.name), ("symbols", result.symbols.map write),
    ("error", result.error), ("viable", result.isViable), ("clear", result.isClear),
    ("single", result.single?.map write)]

/-- A verdict with its symbol as `write` writes it. -/
def Verdict.dump (verdict : Verdict) (write : Symbol → String) : Dump :=
  .list [verdict.viability.name, verdict.symbol.map write, verdict.error]

/-! ### Outlines -/

instance : Dumpable Constant where
  dump
    | .int value => .record [("int", toString value)]
    | .string value => .record [("str", value)]
    | .bool value => .record [("bool", value)]

namespace Detail

/-- What a detail says. -/
def dump (types : TypeTable) : Detail → Checked Dump
  | .symbol found => return found
  | .type known => return ← known.mapM types.display
  | .constant value => return value
  | .text value => return value
  | .flag value => return value
  | .reference target => do
    let shown ← types.display target.type
    return .list [target.node, target.parameter, shown, target.isGenerated]

end Detail

namespace OutlineRow

/-- The row with its details as further fields. -/
def dump (types : TypeTable) (row : OutlineRow) : Checked Dump := do
  let details ← row.details.mapM fun (key, detail) => do return (key, ← detail.dump types)
  return .record ([("d", (row.depth : Dump)), ("k", row.label), ("n", row.node)] ++ details)

/-- The rows of an outline. -/
def dumpAll (types : TypeTable) (rows : List OutlineRow) : Checked Dump :=
  return ← rows.mapM (dump types)

end OutlineRow

namespace BoundLambda

/-- The body of a lambda, and what binding it reported. -/
def facts (lambda : BoundLambda) (types : TypeTable) : Checked (List (String × Dump)) := do
  let body ← OutlineRow.dumpAll types lambda.body.outline
  return [("body", body), ("diagnostics", lambda.diagnostics)]

end BoundLambda

end QueryLang
