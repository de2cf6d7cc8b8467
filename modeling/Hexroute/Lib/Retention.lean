import Mathlib

/-!
# Keeping the newest of every group

Each group of a finite set keeps its newest members up to a bound.  A set
that lost some members keeps the same ones as the whole set exactly when it
still holds everything the whole set would keep.
-/

namespace Hexroute.Lib

universe u v w

section Lists

variable {α : Type u} {σ : Type w} [LinearOrder σ] {age : α → σ}

/-- In an ordered list the last entries are the ones with few newer ones. -/
theorem mem_drop_iff_of_ordered
    {entries : List α} {entry : α} (bound : Nat)
    (ordered : entries.Pairwise fun left right => age left < age right) :
    entry ∈ entries.drop (entries.length - bound) ↔
      entry ∈ entries ∧
        entries.countP (fun other => age entry < age other) < bound := by
  induction entries with
  | nil =>
      simp
  | cons head tail inductionHypothesis =>
      obtain ⟨headLeast, tailOrdered⟩ := List.pairwise_cons.mp ordered
      have newerThanHead :
          tail.countP (fun other => age head < age other) = tail.length := by
        rw [List.countP_eq_length]
        intro other member
        simpa using headLeast other member
      have newer :
          ∀ other ∈ tail,
            (head :: tail).countP (fun third => age other < age third) =
              tail.countP fun third => age other < age third := by
        intro other member
        rw [List.countP_cons_of_neg]
        simpa using le_of_lt (headLeast other member)
      rcases Nat.lt_or_ge tail.length bound with fits | crowded
      · have whole : (head :: tail).length - bound = 0 := by
          simp only [List.length_cons]
          omega
        rw [whole, List.drop_zero, List.mem_cons]
        constructor
        · rintro (rfl | member)
          · refine ⟨Or.inl rfl, ?_⟩
            rw [List.countP_cons_of_neg (by simp), newerThanHead]
            exact fits
          · refine ⟨Or.inr member, ?_⟩
            rw [newer entry member]
            exact Nat.lt_of_le_of_lt List.countP_le_length fits
        · exact fun held => held.1
      · have shifted :
            (head :: tail).length - bound = tail.length - bound + 1 := by
          simp only [List.length_cons]
          omega
        rw [shifted, List.drop_succ_cons, inductionHypothesis tailOrdered,
          List.mem_cons]
        constructor
        · rintro ⟨member, few⟩
          exact ⟨Or.inr member, (newer entry member).symm ▸ few⟩
        · rintro ⟨rfl | member, few⟩
          · rw [List.countP_cons_of_neg (by simp), newerThanHead] at few
            omega
          · exact ⟨member, newer entry member ▸ few⟩

end Lists

/-- Counting in a list without repetition is counting in its set. -/
theorem card_filter_toFinset_of_nodup
    {κ : Type u} [DecidableEq κ] {entries : List κ}
    (distinct : entries.Nodup) (test : κ → Prop) [DecidablePred test] :
    (entries.toFinset.filter test).card =
      entries.countP fun entry => test entry := by
  have listed :
      entries.toFinset.filter test =
        (entries.filter fun entry => test entry).toFinset := by
    ext entry
    simp
  rw [listed, List.toFinset_card_of_nodup (distinct.filter _),
    List.countP_eq_length_filter]

section Sets

variable {κ : Type u} {γ : Type v} {σ : Type w} [DecidableEq γ]
  [LinearOrder σ] (group : κ → γ) (age : κ → σ)

/-- The members of one group that are newer than a given one. -/
def newer (members : Finset κ) (member : κ) : Finset κ :=
  members.filter fun other =>
    group other = group member ∧ age member < age other

/-- The members with fewer than `bound` newer ones in their group. -/
def retained (bound : Nat) (members : Finset κ) : Finset κ :=
  members.filter fun member => (newer group age members member).card < bound

variable {group age} {bound : Nat} {kept whole : Finset κ}

theorem newer_subset_newer (inside : kept ⊆ whole) (member : κ) :
    newer group age kept member ⊆ newer group age whole member :=
  Finset.filter_subset_filter _ inside

/-- If a member is not retained, `bound` retained ones are newer. -/
theorem le_card_newer_retained [DecidableEq κ] {member : κ}
    (crowded : bound ≤ (newer group age whole member).card) :
    bound ≤
      (newer group age (retained group age bound whole) member).card := by
  by_contra few
  rw [not_le] at few
  have lost :
      (newer group age whole member \
        newer group age (retained group age bound whole) member).Nonempty := by
    rw [← Finset.card_pos]
    have cards :=
      Finset.le_card_sdiff
        (newer group age (retained group age bound whole) member)
        (newer group age whole member)
    omega
  obtain ⟨newest, newestLost, maximal⟩ :=
    Finset.exists_max_image _ age lost
  simp only [newer, Finset.mem_sdiff, Finset.mem_filter, not_and] at newestLost
  obtain ⟨⟨present, sameGroup, above⟩, dropped⟩ := newestLost
  have notRetained : newest ∉ retained group age bound whole := fun held =>
    dropped held sameGroup above
  have crowdedNewest : bound ≤ (newer group age whole newest).card := by
    by_contra room
    exact notRetained
      (Finset.mem_filter.mpr ⟨present, not_le.mp room⟩)
  have inside :
      newer group age whole newest ⊆
        newer group age (retained group age bound whole) member := by
    intro other otherNewer
    simp only [newer, Finset.mem_filter] at otherNewer ⊢
    obtain ⟨otherPresent, otherGroup, otherAbove⟩ := otherNewer
    have otherSame : group other = group member := otherGroup.trans sameGroup
    have otherOver : age member < age other := above.trans otherAbove
    refine ⟨?_, otherSame, otherOver⟩
    by_contra otherLost
    have below :=
      maximal other (by
        simp only [newer, Finset.mem_sdiff, Finset.mem_filter, not_and]
        exact ⟨⟨otherPresent, otherSame, otherOver⟩,
          fun held => absurd held otherLost⟩)
    exact absurd otherAbove (not_lt.mpr below)
  exact absurd (crowdedNewest.trans (Finset.card_le_card inside))
    (not_le.mpr few)

/-- Losing only what the whole set would not keep changes nothing. -/
theorem retained_eq_iff [DecidableEq κ] (inside : kept ⊆ whole) :
    retained group age bound kept = retained group age bound whole ↔
      retained group age bound whole ⊆ kept := by
  constructor
  · intro same
    rw [← same]
    exact Finset.filter_subset _ _
  · intro held
    apply Finset.Subset.antisymm
    · intro member memberKept
      obtain ⟨present, few⟩ := Finset.mem_filter.mp memberKept
      refine Finset.mem_filter.mpr ⟨inside present, ?_⟩
      by_contra crowded
      have many := le_card_newer_retained (not_lt.mp crowded)
      exact absurd
        (many.trans (Finset.card_le_card (newer_subset_newer held member)))
        (not_le.mpr few)
    · intro member memberKept
      obtain ⟨_, few⟩ := Finset.mem_filter.mp memberKept
      refine Finset.mem_filter.mpr ⟨held memberKept, ?_⟩
      exact
        lt_of_le_of_lt (Finset.card_le_card (newer_subset_newer inside member))
          few

end Sets

end Hexroute.Lib
