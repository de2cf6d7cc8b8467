import Mathlib

/-!
# The shortest prefix that frees enough

Going through a list and stopping as soon as the sizes passed add up to what
is required takes the shortest prefix of it that is large enough.
-/

namespace Hexroute.Lib

universe u v

variable {α : Type u} {β : Type v}

def totalSize (size : α → Nat) (entries : List α) : Nat :=
  (entries.map size).sum

@[simp]
theorem totalSize_nil (size : α → Nat) : totalSize size [] = 0 :=
  rfl

@[simp]
theorem totalSize_cons (size : α → Nat) (entry : α) (later : List α) :
    totalSize size (entry :: later) = size entry + totalSize size later := by
  simp [totalSize]

/-- The entries up to the one that makes the sum large enough, and whether
there is such a one. -/
def reclaim (size : α → Nat) (required : Nat) :
    (reclaimed : Nat) → List α → List α × Bool
  | _, [] => ([], false)
  | reclaimed, entry :: later =>
      if required ≤ reclaimed + size entry then ([entry], true)
      else
        let rest := reclaim size required (reclaimed + size entry) later
        (entry :: rest.1, rest.2)

theorem reclaim_isPrefix
    (size : α → Nat) (required reclaimed : Nat) (entries : List α) :
    (reclaim size required reclaimed entries).1 <+: entries := by
  induction entries generalizing reclaimed with
  | nil => exact List.nil_prefix
  | cons entry later induction =>
      rw [reclaim]
      split
      · exact List.prefix_append [entry] later
      · exact List.cons_prefix_cons.mpr ⟨rfl, induction _⟩

theorem reclaim_enough
    {size : α → Nat} {required reclaimed : Nat} {entries : List α}
    (covered : (reclaim size required reclaimed entries).2 = true) :
    required ≤
      reclaimed +
        totalSize size (reclaim size required reclaimed entries).1 := by
  induction entries generalizing reclaimed with
  | nil => cases covered
  | cons entry later induction =>
      rw [reclaim] at covered ⊢
      split at covered
      · rename_i enough
        simp [enough]
      · rename_i more
        have bound := induction covered
        simp only [more, if_false, totalSize_cons]
        omega

/-- A shorter prefix is not large enough. -/
theorem reclaim_shortest
    {size : α → Nat} {required reclaimed : Nat} {entries shorter : List α}
    (missing : reclaimed < required) (isPrefix : shorter <+: entries)
    (less :
      shorter.length < (reclaim size required reclaimed entries).1.length) :
    reclaimed + totalSize size shorter < required := by
  induction entries generalizing reclaimed shorter with
  | nil => cases less
  | cons entry later induction =>
      cases shorter with
      | nil => simpa using missing
      | cons first rest =>
          obtain ⟨rfl, inside⟩ := List.cons_prefix_cons.mp isPrefix
          rw [reclaim] at less
          split at less
          · simp at less
          · rename_i more
            have bound :=
              induction (by omega) inside (Nat.lt_of_succ_lt_succ less)
            rw [totalSize_cons]
            omega

theorem reclaim_map
    (size : β → Nat) (change : α → β) (required reclaimed : Nat)
    (entries : List α) :
    reclaim size required reclaimed (entries.map change) =
      Prod.map (List.map change) id
        (reclaim (size ∘ change) required reclaimed entries) := by
  induction entries generalizing reclaimed with
  | nil => rfl
  | cons entry later induction =>
      rw [List.map_cons, reclaim, reclaim]
      simp only [Function.comp_apply, induction]
      split <;> rfl

end Hexroute.Lib
