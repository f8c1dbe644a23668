import Mathlib.Data.List.Basic
import QueryLang.Diagnostic.Basic

/-!
# Reports in order

Reports are ordered by file and by place. Reports that are sorted file by file are in order when the
files are put one after the other.
-/

namespace QueryLang

namespace Diagnostic

/-- The diagnostic has one of the places. -/
def Placed (diagnostic : Diagnostic) (places : Location → Prop) : Prop :=
  ∃ location, diagnostic.location = some location ∧ places location

/-- The diagnostic has a place in the file. -/
def InFile (diagnostic : Diagnostic) (file : FileId) : Prop :=
  ∃ location, diagnostic.location = some location ∧ location.file = file

variable {diagnostic other last : Diagnostic} {file otherFile : FileId}
  {places others : Location → Prop}

theorem Placed.located {location : Location} (isPlace : places location)
    (message : DiagnosticMessage) (arguments : List String) :
    (Diagnostic.located location message arguments).Placed places :=
  ⟨location, rfl, isPlace⟩

theorem Placed.mono (placed : diagnostic.Placed places)
    (implies : ∀ location, places location → others location) : diagnostic.Placed others := by
  rcases placed with ⟨location, isLocation, isPlace⟩
  exact ⟨location, isLocation, implies location isPlace⟩

theorem InFile.place (inFile : diagnostic.InFile file) : diagnostic.place.1 = file := by
  rcases inFile with ⟨location, isLocation, rfl⟩
  rw [Diagnostic.place, isLocation]

theorem precedes_iff : diagnostic.precedes other = true ↔
    diagnostic.place.1 < other.place.1 ∨
      diagnostic.place.1 = other.place.1 ∧ diagnostic.place.2 ≤ other.place.2 := by
  simp [precedes]

theorem precedes_trans (first : diagnostic.precedes other = true)
    (second : other.precedes last = true) : diagnostic.precedes last = true := by
  rw [precedes_iff] at *
  omega

theorem precedes_total (diagnostic other : Diagnostic) :
    (diagnostic.precedes other || other.precedes diagnostic) = true := by
  rw [Bool.or_eq_true, precedes_iff, precedes_iff]
  omega

theorem InFile.precedes (inFile : diagnostic.InFile file) (otherIn : other.InFile otherFile)
    (isBefore : file < otherFile) : diagnostic.precedes other = true := by
  rw [precedes_iff, inFile.place, otherIn.place]
  exact .inl isBefore

end Diagnostic

namespace Diagnostics

variable {diagnostics : Diagnostics}

theorem mem_sorted {diagnostic : Diagnostic} :
    diagnostic ∈ diagnostics.sorted ↔ diagnostic ∈ diagnostics :=
  List.mem_mergeSort

theorem hasErrors_sorted (diagnostics : Diagnostics) :
    diagnostics.sorted.hasErrors = diagnostics.hasErrors := by
  rw [Bool.eq_iff_iff]
  simp [hasErrors, sorted]

theorem sorted_pairwise (diagnostics : Diagnostics) :
    diagnostics.sorted.Pairwise fun first second => first.precedes second = true :=
  by
  refine List.pairwise_mergeSort (fun first second third => ?_) Diagnostic.precedes_total _
  exact Diagnostic.precedes_trans

/-- Reports of some sort that are in order already stay as they are. -/
theorem filter_sorted {isOf : Diagnostic → Bool}
    (inOrder : (diagnostics.filter isOf).Pairwise (·.precedes · = true)) :
    diagnostics.sorted.filter isOf = diagnostics.filter isOf := by
  have kept : (diagnostics.filter isOf).Sublist diagnostics.sorted := by
    apply List.sublist_mergeSort
    · intro first second third
      exact Diagnostic.precedes_trans
    · exact Diagnostic.precedes_total
    · exact inOrder
    · exact List.filter_sublist
  have again : (diagnostics.filter isOf).Sublist (diagnostics.sorted.filter isOf) := by
    simpa using kept.filter isOf
  have sameLength : (diagnostics.sorted.filter isOf).length = (diagnostics.filter isOf).length :=
    ((List.mergeSort_perm diagnostics Diagnostic.precedes).filter isOf).length_eq
  exact (again.eq_of_length sameLength.symm).symm

/-- What is sorted file by file is sorted. -/
theorem sorted_flatten {perFile : List Diagnostics}
    (areSorted : ∀ reported ∈ perFile, reported.Pairwise (·.precedes · = true))
    (inFile : ∀ (file : Nat) reported, perFile[file]? = some reported →
      ∀ diagnostic ∈ reported, diagnostic.InFile file) :
    sorted perFile.flatten = perFile.flatten := by
  refine List.mergeSort_of_pairwise (List.pairwise_flatten.mpr ⟨areSorted, ?_⟩)
  rw [List.pairwise_iff_getElem]
  intro file otherFile isFile isOther isBefore diagnostic member other otherMember
  have here := inFile file _ (List.getElem?_eq_getElem isFile) diagnostic member
  have there := inFile otherFile _ (List.getElem?_eq_getElem isOther) other otherMember
  exact here.precedes there isBefore

end Diagnostics

end QueryLang
