import Mathlib

/-!
# Lists of separate intervals

Intervals of numbers that stand in order, each with a gap before the next one,
are determined by the numbers they cover.
-/

namespace Hexroute.Lib

variable {ρ : Type} (first last : ρ → Nat)

/-- Some interval holds the number. -/
def Covered (intervals : List ρ) (number : Nat) : Prop :=
  ∃ interval ∈ intervals, first interval ≤ number ∧ number ≤ last interval

/-- No interval is empty, and between two of them numbers are left out. -/
structure Separate (intervals : List ρ) : Prop where
  proper : ∀ interval ∈ intervals, first interval ≤ last interval
  gaps :
    intervals.Pairwise fun earlier later => last earlier + 1 < first later

variable {first last} {intervals others : List ρ} {interval other : ρ}

theorem covered_cons {number : Nat} :
    Covered first last (interval :: intervals) number ↔
      (first interval ≤ number ∧ number ≤ last interval) ∨
        Covered first last intervals number :=
  List.exists_mem_cons_iff _ _ _

theorem Separate.tail
    (separate : Separate first last (interval :: intervals)) :
    Separate first last intervals :=
  ⟨(List.forall_mem_cons.mp separate.proper).2,
    (List.pairwise_cons.mp separate.gaps).2⟩

/-- The later intervals cover what is covered beyond the first one. -/
theorem Separate.covered_tail_iff
    (separate : Separate first last (interval :: intervals))
    {number : Nat} :
    Covered first last intervals number ↔
      Covered first last (interval :: intervals) number ∧
        last interval < number := by
  constructor
  · intro covered
    refine ⟨covered_cons.mpr (Or.inr covered), ?_⟩
    obtain ⟨later, member, low, _⟩ := covered
    have gap := (List.pairwise_cons.mp separate.gaps).1 later member
    omega
  · rintro ⟨covered, above⟩
    rcases covered_cons.mp covered with ⟨_, below⟩ | inTail
    · omega
    · exact inTail

theorem Separate.covered_first
    (separate : Separate first last (interval :: intervals)) :
    Covered first last (interval :: intervals) (first interval) :=
  covered_cons.mpr
    (Or.inl ⟨Nat.le_refl _, separate.proper interval List.mem_cons_self⟩)

theorem Separate.first_le
    (separate : Separate first last (interval :: intervals)) {number : Nat}
    (covered : Covered first last (interval :: intervals) number) :
    first interval ≤ number := by
  rcases covered_cons.mp covered with ⟨low, _⟩ | inTail
  · exact low
  · have proper := separate.proper interval List.mem_cons_self
    have above := (separate.covered_tail_iff.mp inTail).2
    omega

/-- The number after the first interval is left out. -/
theorem Separate.not_covered_after
    (separate : Separate first last (interval :: intervals)) :
    ¬ Covered first last (interval :: intervals) (last interval + 1) := by
  intro covered
  rcases covered_cons.mp covered with ⟨_, below⟩ | ⟨later, member, low, _⟩
  · omega
  · have gap := (List.pairwise_cons.mp separate.gaps).1 later member
    omega

theorem Separate.last_le
    (separate : Separate first last (interval :: intervals))
    (same : first interval = first other)
    (covers :
      ∀ number, first other ≤ number → number ≤ last other →
        Covered first last (interval :: intervals) number) :
    last other ≤ last interval := by
  by_contra longer
  have proper := separate.proper interval List.mem_cons_self
  exact
    separate.not_covered_after
      (covers (last interval + 1) (by omega) (by omega))

/-- Separate intervals that cover the same numbers are the same. -/
theorem Separate.eq_of_covered_iff
    (determined :
      ∀ one another : ρ, first one = first another →
        last one = last another → one = another)
    (left : Separate first last intervals)
    (right : Separate first last others)
    (same :
      ∀ number, Covered first last intervals number ↔
        Covered first last others number) :
    intervals = others := by
  induction intervals generalizing others with
  | nil =>
      cases others with
      | nil => rfl
      | cons other rest =>
          obtain ⟨_, member, _⟩ := (same _).mpr right.covered_first
          cases member
  | cons interval later inductionHypothesis =>
      cases others with
      | nil =>
          obtain ⟨_, member, _⟩ := (same _).mp left.covered_first
          cases member
      | cons other rest =>
          have starts : first interval = first other :=
            Nat.le_antisymm
              (left.first_le ((same _).mpr right.covered_first))
              (right.first_le ((same _).mp left.covered_first))
          have ends : last interval = last other := by
            apply Nat.le_antisymm
            · refine right.last_le starts.symm fun number low high => ?_
              exact (same number).mp (covered_cons.mpr (Or.inl ⟨low, high⟩))
            · refine left.last_le starts fun number low high => ?_
              exact (same number).mpr (covered_cons.mpr (Or.inl ⟨low, high⟩))
          cases determined interval other starts ends
          have tails := inductionHypothesis left.tail right.tail ?_
          · rw [tails]
          · intro number
            rw [left.covered_tail_iff, right.covered_tail_iff, same]

end Hexroute.Lib
