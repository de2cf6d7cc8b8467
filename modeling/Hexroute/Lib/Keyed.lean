import Mathlib

/-!
# Lists with distinct keys

A list whose keys do not repeat is a finite map: looking a key up finds the
one element that carries it.
-/

namespace Hexroute.Lib

universe u v

variable {α : Type u} {κ : Type v} [DecidableEq κ]

theorem find?_of_keys_nodup
    (key : α → κ) {entries : List α} {entry : α}
    (distinct : (entries.map key).Nodup) (member : entry ∈ entries) :
    entries.find? (fun other => key other = key entry) = some entry := by
  cases found : entries.find? (fun other => key other = key entry) with
  | none =>
      have absent := List.find?_eq_none.mp found entry member
      simp at absent
  | some other =>
      have same : key other = key entry := by
        simpa using List.find?_some found
      have otherMember := List.mem_of_find?_eq_some found
      rw [List.inj_on_of_nodup_map distinct otherMember member same]

/-- A lookup finds exactly the members with the key. -/
theorem find?_eq_some_iff_of_keys_nodup
    (key : α → κ) {entries : List α} {entry : α} {wanted : κ}
    (distinct : (entries.map key).Nodup) :
    entries.find? (fun other => key other = wanted) = some entry ↔
      entry ∈ entries ∧ key entry = wanted := by
  constructor
  · intro found
    exact ⟨List.mem_of_find?_eq_some found, by simpa using List.find?_some found⟩
  · rintro ⟨member, rfl⟩
    exact find?_of_keys_nodup key distinct member

end Hexroute.Lib
