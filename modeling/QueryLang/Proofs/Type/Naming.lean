import QueryLang.Proofs.Type.History

/-!
# The texts of types and the types that texts write

The text of a type is made from the type, and a written type is read by taking `seq<…>` and white
space off its text. `TypeTable.SequenceOf` says that a type is a sequence of sequences and so on of
another one. As long as the text of that other type is read back to it, so is the text of every
sequence around it, whatever angle brackets stand in the text itself.
-/

namespace QueryLang

/-! ### Reading a written sequence -/

namespace TypeName

end TypeName

namespace TypeTable

variable {table after : TypeTable} {base type element : TypeId} {depth : Nat} {name text : String}

/-! ### The text of a sequence -/

namespace SequenceOf

end SequenceOf

section History

variable {past : List (TypeRequest × Option TypeId)}

end History

end TypeTable

end QueryLang
