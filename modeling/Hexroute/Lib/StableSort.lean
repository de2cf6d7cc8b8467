import Mathlib

/-!
# Stable sorting by a key

Sorting by a key keeps the order of the entries that share one.  So the
sorted list is determined by what the list held under each key, and it
determines that in turn.
-/

namespace Hexroute.Lib

universe u v

variable {α : Type u} {κ : Type v} [LinearOrder κ] (key : α → κ)

/-- The entries under one key, in the order of the list. -/
def under (wanted : κ) (entries : List α) : List α :=
  entries.filter fun entry => key entry = wanted

/-- Sort by the key, leaving entries with equal keys as they are. -/
def sortBy (entries : List α) : List α :=
  entries.insertionSort fun left right => key left ≤ key right

variable {key}

instance keyTotal : Std.Total fun left right : α => key left ≤ key right :=
  ⟨fun left right => le_total (key left) (key right)⟩

instance keyTrans : IsTrans α fun left right => key left ≤ key right :=
  ⟨fun _ _ _ => le_trans⟩

theorem sortBy_ordered (entries : List α) :
    (sortBy key entries).Pairwise fun left right => key left ≤ key right :=
  List.pairwise_insertionSort _ entries

theorem sortBy_perm (entries : List α) :
    (sortBy key entries).Perm entries :=
  List.perm_insertionSort _ entries

theorem sortBy_eq_self
    {entries : List α}
    (ordered : entries.Pairwise fun left right => key left ≤ key right) :
    sortBy key entries = entries :=
  List.Pairwise.insertionSort_eq ordered

/-- Where no two entries share a key there is only one ordered list. -/
theorem eq_of_perm_of_rising
    {left right : List α} (same : left.Perm right)
    (ordered : left.Pairwise fun earlier later => key earlier ≤ key later)
    (rising : right.Pairwise fun earlier later => key earlier < key later) :
    left = right := by
  have distinct : (right.map key).Nodup :=
    List.pairwise_map.mpr (rising.imp fun lower => lower.ne)
  refine
    List.Perm.eq_of_pairwise ?_ ordered (rising.imp fun lower => lower.le)
      same
  intro first second firstMember secondMember below above
  exact
    List.inj_on_of_nodup_map distinct (same.mem_iff.mp firstMember)
      secondMember (le_antisymm below above)

@[simp]
theorem sortBy_sortBy (entries : List α) :
    sortBy key (sortBy key entries) = sortBy key entries :=
  sortBy_eq_self (sortBy_ordered entries)

@[simp]
theorem under_sortBy (wanted : κ) (entries : List α) :
    under key wanted (sortBy key entries) = under key wanted entries := by
  have equalKeys :
      (under key wanted entries).Pairwise fun left right =>
        key left ≤ key right := by
    apply List.pairwise_of_forall_mem_list
    intro left leftMember right rightMember
    simp only [under, List.mem_filter, decide_eq_true_eq] at *
    rw [leftMember.2, rightMember.2]
  have kept :
      (under key wanted entries).Sublist (sortBy key entries) :=
    List.sublist_insertionSort equalKeys List.filter_sublist
  have inside :
      (under key wanted entries).Sublist
        (under key wanted (sortBy key entries)) := by
    have filtered := kept.filter fun entry => decide (key entry = wanted)
    simpa [under, List.filter_filter] using filtered
  have sameLength :
      (under key wanted entries).length =
        (under key wanted (sortBy key entries)).length :=
    ((sortBy_perm entries).filter _).length_eq.symm
  exact (inside.eq_of_length sameLength).symm

/-- An ordered list is determined by what it holds under each key. -/
theorem eq_of_under_eq
    {left right : List α}
    (leftOrdered : left.Pairwise fun first second => key first ≤ key second)
    (rightOrdered :
      right.Pairwise fun first second => key first ≤ key second)
    (same : ∀ wanted, under key wanted left = under key wanted right) :
    left = right := by
  induction left generalizing right with
  | nil =>
      cases right with
      | nil =>
          rfl
      | cons head tail =>
          have empty := same (key head)
          simp [under] at empty
  | cons head tail inductionHypothesis =>
      cases right with
      | nil =>
          have empty := same (key head)
          simp [under] at empty
      | cons other rest =>
          obtain ⟨headLeast, tailOrdered⟩ := List.pairwise_cons.mp leftOrdered
          obtain ⟨otherLeast, restOrdered⟩ :=
            List.pairwise_cons.mp rightOrdered
          have headListed : head ∈ under key (key head) (other :: rest) := by
            rw [← same]
            simp [under]
          have otherListed : other ∈ under key (key other) (head :: tail) := by
            rw [same]
            simp [under]
          have sameKey : key head = key other := by
            apply le_antisymm
            · rcases List.mem_cons.mp (List.mem_of_mem_filter otherListed) with
                rfl | member
              · exact le_rfl
              · exact headLeast other member
            · rcases List.mem_cons.mp (List.mem_of_mem_filter headListed) with
                rfl | member
              · exact le_rfl
              · exact otherLeast head member
          have heads := same (key head)
          simp only [under, List.filter_cons, decide_true, if_true, ← sameKey]
            at heads
          obtain ⟨rfl, _⟩ := List.cons.inj heads
          congr 1
          apply inductionHypothesis tailOrdered restOrdered
          intro wanted
          have whole := same wanted
          simp only [under, List.filter_cons] at whole
          split at whole
          · exact (List.cons.inj whole).2
          · exact whole

/-- Sorting agrees exactly when every key holds the same entries in the same
order. -/
theorem sortBy_eq_iff {left right : List α} :
    sortBy key left = sortBy key right ↔
      ∀ wanted, under key wanted left = under key wanted right := by
  constructor
  · intro same wanted
    rw [← under_sortBy wanted left, same, under_sortBy]
  · intro same
    apply eq_of_under_eq (sortBy_ordered left) (sortBy_ordered right)
    intro wanted
    rw [under_sortBy, under_sortBy, same]

/-- What is left of a list is sorted as it was. -/
theorem sortBy_filter (keeps : α → Bool) (entries : List α) :
    sortBy key (entries.filter keeps) =
      (sortBy key entries).filter keeps := by
  apply eq_of_under_eq (sortBy_ordered _)
    ((sortBy_ordered entries).sublist List.filter_sublist)
  intro wanted
  have commute :
      ∀ list : List α, under key wanted (list.filter keeps) =
        (under key wanted list).filter keeps := by
    intro list
    simp only [under, List.filter_filter, Bool.and_comm]
  rw [under_sortBy, commute, commute, under_sortBy]

/-- The first entry under the least key stays first. -/
theorem sortBy_head
    {entries : List α} {least : κ}
    (bound : ∀ entry ∈ entries, least ≤ key entry)
    {first : α} {rest : List α}
    (found : under key least entries = first :: rest) :
    ∃ more, sortBy key entries = first :: more := by
  have member : first ∈ under key least entries := by
    rw [found]
    exact List.mem_cons_self
  simp only [under, List.mem_filter, decide_eq_true_eq] at member
  have kept :
      under key least (sortBy key entries) = first :: rest :=
    (under_sortBy least entries).trans found
  have same : (sortBy key entries).Perm entries := sortBy_perm entries
  have ordered :
      (sortBy key entries).Pairwise fun left right => key left ≤ key right :=
    sortBy_ordered entries
  cases run : sortBy key entries with
  | nil =>
      rw [run] at same
      exact absurd (same.mem_iff.mpr member.1) List.not_mem_nil
  | cons head tail =>
      rw [run] at kept ordered same
      have below : key head ≤ least := by
        have listed := same.mem_iff.mpr member.1
        rcases List.mem_cons.mp listed with own | later
        · rw [← own, member.2]
        · have lower := (List.pairwise_cons.mp ordered).1 first later
          rwa [member.2] at lower
      have atLeast : key head = least :=
        le_antisymm below (bound head (same.mem_iff.mp (by simp)))
      rw [under, List.filter_cons_of_pos (by simpa using atLeast)] at kept
      exact ⟨tail, by rw [(List.cons.inj kept).1]⟩

/-- A sort that may put entries with equal keys in any order. -/
structure Arrangement (key : α → κ) where
  sort : List α → List α
  perm : ∀ entries, (sort entries).Perm entries
  ordered :
    ∀ entries,
      (sort entries).Pairwise fun left right => key left ≤ key right

/-- The one that keeps their order. -/
def Arrangement.stable (key : α → κ) : Arrangement key where
  sort := sortBy key
  perm := sortBy_perm
  ordered := sortBy_ordered

end Hexroute.Lib
