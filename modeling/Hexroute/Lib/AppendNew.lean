import Mathlib

/-!
# Lists used as sets

`appendNew present additions` appends, in order, the additions that are not
there yet.  A list kept by `appendNew` and `filter` alone never repeats a
value, and up to reordering it depends only on the members it started from.
-/

namespace Hexroute.Lib

universe u

variable {α : Type u} [DecidableEq α]

/-- Append the additions that are not yet present. -/
def appendNew (present additions : List α) : List α :=
  additions.foldl
    (fun current value =>
      if value ∈ current then current else current ++ [value])
    present

@[simp]
theorem appendNew_nil (present : List α) : appendNew present [] = present :=
  rfl

theorem appendNew_cons (present additions : List α) (value : α) :
    appendNew present (value :: additions) =
      appendNew (if value ∈ present then present else present ++ [value])
        additions :=
  rfl

@[simp]
theorem mem_appendNew {present additions : List α} {value : α} :
    value ∈ appendNew present additions ↔
      value ∈ present ∨ value ∈ additions := by
  induction additions generalizing present with
  | nil =>
      simp
  | cons head tail inductionHypothesis =>
      rw [appendNew_cons, inductionHypothesis]
      by_cases known : head ∈ present
      · rw [if_pos known, List.mem_cons]
        constructor
        · rintro (old | new)
          · exact Or.inl old
          · exact Or.inr (Or.inr new)
        · rintro (old | rfl | new)
          · exact Or.inl old
          · exact Or.inl known
          · exact Or.inr new
      · rw [if_neg known]
        simp [or_assoc]

theorem appendNew_nodup
    {present additions : List α} (nodup : present.Nodup) :
    (appendNew present additions).Nodup := by
  induction additions generalizing present with
  | nil =>
      exact nodup
  | cons head tail inductionHypothesis =>
      rw [appendNew_cons]
      apply inductionHypothesis
      by_cases known : head ∈ present
      · rw [if_pos known]
        exact nodup
      · rw [if_neg known]
        exact List.Nodup.append nodup (List.nodup_singleton head)
          (by simpa [List.disjoint_singleton] using known)

/-- Reordering what is present reorders the result. -/
theorem appendNew_perm
    {left right additions : List α} (same : left.Perm right) :
    (appendNew left additions).Perm (appendNew right additions) := by
  induction additions generalizing left right with
  | nil =>
      exact same
  | cons head tail inductionHypothesis =>
      rw [appendNew_cons, appendNew_cons]
      apply inductionHypothesis
      by_cases known : head ∈ left
      · rw [if_pos known, if_pos (same.mem_iff.mp known)]
        exact same
      · rw [if_neg known, if_neg (fun member => known (same.mem_iff.mpr member))]
        exact same.append_right [head]

end Hexroute.Lib
