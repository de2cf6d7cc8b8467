import Mathlib

/-!
# Pairings of two lists

A pairing puts entries of one list together with entries of another one that
fit them, and uses no entry twice.  It is largest if some entries of the left
list, all those without a partner among them, fit only partners of each other.
It is not if partners can be passed on along a chain that begins with a free
entry of the right list.
-/

namespace Hexroute.Lib

variable {α β : Type} (fits : α → β → Prop)

structure Pairing (left : List α) (right : List β) (pairs : List (α × β)) :
    Prop where
  fit : ∀ pair ∈ pairs, fits pair.1 pair.2
  left : (pairs.map Prod.fst).Subperm left
  right : (pairs.map Prod.snd).Subperm right

/-- The size of the largest pairings. -/
def LargestPairing (left : List α) (right : List β) (size : Nat) : Prop :=
  IsGreatest {size | ∃ pairs, Pairing fits left right pairs ∧
    pairs.length = size} size

variable {fits} {left : List α} {right : List β}

/-- What is paired does not depend on the order of the right list. -/
theorem LargestPairing.perm {other : List β} {size : Nat}
    (same : right.Perm other) :
    LargestPairing fits left right size ↔
      LargestPairing fits left other size := by
  have pairings (pairs : List (α × β)) :
      Pairing fits left right pairs ↔ Pairing fits left other pairs :=
    ⟨fun pairing =>
        ⟨pairing.fit, pairing.left, pairing.right.trans same.subperm⟩,
      fun pairing =>
        ⟨pairing.fit, pairing.left, pairing.right.trans same.symm.subperm⟩⟩
  unfold LargestPairing
  simp only [pairings]

section Closed

variable {pairs other : List (α × β)} {unpaired : List α} {free : List β}

/-- Entries that fit only partners of each other bound every pairing. -/
theorem Pairing.length_le
    (leftSplit : left.Perm (pairs.map Prod.fst ++ unpaired))
    (rightSplit : right.Perm (pairs.map Prod.snd ++ free))
    (reached : α → Prop) (starts : ∀ entry ∈ unpaired, reached entry)
    (taken : ∀ entry, reached entry → ∀ partner ∈ free, ¬ fits entry partner)
    (closed :
      ∀ entry, reached entry → ∀ pair ∈ pairs, fits entry pair.2 →
        reached pair.1)
    (pairing : Pairing fits left right other) :
    other.length ≤ pairs.length := by
  classical
  let fitting (partner : β) : Prop :=
    ∃ entry, reached entry ∧ fits entry partner
  -- The pairs of a reached entry use partners that fit one.
  have inside :
      other.countP (fun pair => reached pair.1) ≤
        pairs.countP (fun pair => reached pair.1) := by
    calc
      other.countP (fun pair => reached pair.1)
        ≤ other.countP (fun pair => fitting pair.2) := by
          refine List.countP_mono_left ?_
          intro pair member holds
          exact
            decide_eq_true
              ⟨pair.1, of_decide_eq_true holds, pairing.fit pair member⟩
      _ = (other.map Prod.snd).countP fun partner => fitting partner := by
          rw [List.countP_map]
          rfl
      _ ≤ right.countP fun partner => fitting partner :=
          pairing.right.countP_le _
      _ = (pairs.map Prod.snd).countP (fun partner => fitting partner) +
            free.countP (fun partner => fitting partner) := by
          rw [rightSplit.countP_eq, List.countP_append]
      _ = pairs.countP fun pair => fitting pair.2 := by
          rw [List.countP_map]
          have none : free.countP (fun partner => fitting partner) = 0 := by
            rw [List.countP_eq_zero]
            intro partner member holds
            obtain ⟨entry, reach, fit⟩ := of_decide_eq_true holds
            exact taken entry reach partner member fit
          rw [none, Nat.add_zero]
          rfl
      _ ≤ pairs.countP fun pair => reached pair.1 := by
          refine List.countP_mono_left ?_
          intro pair member holds
          obtain ⟨entry, reach, fit⟩ := of_decide_eq_true holds
          exact decide_eq_true (closed entry reach pair member fit)
  -- Every other entry has a partner already.
  have outside :
      other.countP (fun pair => ¬ reached pair.1) ≤
        pairs.countP (fun pair => ¬ reached pair.1) := by
    calc
      other.countP (fun pair => ¬ reached pair.1)
        = (other.map Prod.fst).countP fun entry => ¬ reached entry := by
          rw [List.countP_map]
          rfl
      _ ≤ left.countP fun entry => ¬ reached entry :=
          pairing.left.countP_le _
      _ = (pairs.map Prod.fst).countP (fun entry => ¬ reached entry) +
            unpaired.countP (fun entry => ¬ reached entry) := by
          rw [leftSplit.countP_eq, List.countP_append]
      _ = pairs.countP fun pair => ¬ reached pair.1 := by
          rw [List.countP_map]
          have none :
              unpaired.countP (fun entry => ¬ reached entry) = 0 := by
            rw [List.countP_eq_zero]
            intro entry member holds
            exact of_decide_eq_true holds (starts entry member)
          rw [none, Nat.add_zero]
          rfl
  have whole (list : List (α × β)) :
      list.length =
        list.countP (fun pair => reached pair.1) +
          list.countP (fun pair => ¬ reached pair.1) := by
    have parts :=
      @List.length_eq_countP_add_countP _ (fun pair => reached pair.1) list
    simpa using parts
  rw [whole other, whole pairs]
  omega

end Closed

/-- Each row passes its partner on to the next one. -/
def Passes (fits : α → β → Prop) (row next : α × Option β) : Prop :=
  ∃ partner, row.2 = some partner ∧ fits next.1 partner

/-- A free entry that fits the first row of a chain gives every row of it a
partner, the last one too. -/
theorem exists_passed
    {rows : List (α × Option β)} {last : α} {partner : β}
    (chain : (rows ++ [(last, none)]).IsChain (Passes fits))
    (first : ∀ row ∈ (rows ++ [(last, none)]).head?, fits row.1 partner) :
    ∃ pairs : List (α × β),
      pairs.map Prod.fst = rows.map Prod.fst ++ [last] ∧
      pairs.map Prod.snd = partner :: rows.filterMap Prod.snd ∧
      ∀ pair ∈ pairs, fits pair.1 pair.2 := by
  induction rows generalizing partner with
  | nil =>
      refine ⟨[(last, partner)], rfl, rfl, ?_⟩
      intro pair member
      rw [List.mem_singleton.mp member]
      exact first (last, none) rfl
  | cons row rows inductionHypothesis =>
      rw [List.cons_append, List.isChain_cons] at chain
      obtain ⟨passes, rest⟩ := chain
      have some : ∃ next, next ∈ (rows ++ [(last, none)]).head? := by
        cases rows with
        | nil => exact ⟨(last, none), rfl⟩
        | cons next _ => exact ⟨next, rfl⟩
      obtain ⟨next, isNext⟩ := some
      obtain ⟨passed, held, _⟩ := passes next isNext
      have fitsNext :
          ∀ row ∈ (rows ++ [(last, none)]).head?, fits row.1 passed := by
        intro other isOther
        obtain ⟨partner, holds, fit⟩ := passes other isOther
        rw [held] at holds
        cases holds
        exact fit
      obtain ⟨pairs, lefts, rights, fit⟩ := inductionHypothesis rest fitsNext
      refine ⟨(row.1, partner) :: pairs, ?_, ?_, ?_⟩
      · rw [List.map_cons, lefts]
        rfl
      · rw [List.map_cons, rights, List.filterMap_cons_some held]
      · intro pair member
        rcases List.mem_cons.mp member with rfl | inner
        · exact first row rfl
        · exact fit pair inner

/-! ## Rows with their partners -/

def pairsOf (rows : List (α × Option β)) : List (α × β) :=
  rows.filterMap fun row => row.2.map (row.1, ·)

def unpairedOf (rows : List (α × Option β)) : List α :=
  (rows.filter (·.2.isNone)).map Prod.fst

theorem mem_pairsOf {rows : List (α × Option β)} {pair : α × β} :
    pair ∈ pairsOf rows ↔ (pair.1, some pair.2) ∈ rows := by
  unfold pairsOf
  rw [List.mem_filterMap]
  constructor
  · rintro ⟨⟨entry, partner⟩, member, held⟩
    cases partner with
    | none => cases held
    | some partner =>
        cases held
        exact member
  · intro member
    exact ⟨_, member, rfl⟩

theorem pairsOf_append (rows more : List (α × Option β)) :
    pairsOf (rows ++ more) = pairsOf rows ++ pairsOf more :=
  List.filterMap_append

theorem map_snd_pairsOf (rows : List (α × Option β)) :
    (pairsOf rows).map Prod.snd = rows.filterMap Prod.snd := by
  unfold pairsOf
  rw [List.map_filterMap]
  congr 1
  funext row
  cases row.2 <;> rfl

theorem perm_pairsOf (rows : List (α × Option β)) :
    (rows.map Prod.fst).Perm
      ((pairsOf rows).map Prod.fst ++ unpairedOf rows) := by
  induction rows with
  | nil => exact List.Perm.nil
  | cons row rows inductionHypothesis =>
      obtain ⟨entry, partner⟩ := row
      cases partner with
      | none => exact (inductionHypothesis.cons entry).trans List.perm_middle.symm
      | some partner => exact inductionHypothesis.cons entry

/-- Some chain of rows ends with one that has no partner and could begin with
a free one. -/
def Displaced (fits : α → β → Prop) (rows : List (α × Option β))
    (free : List β) : Prop :=
  ∃ before chain last after, ∃ partner ∈ free,
    rows = before ++ (chain ++ (last, none) :: after) ∧
      (chain ++ [(last, none)]).IsChain (Passes fits) ∧
      ∀ row ∈ (chain ++ [(last, none)]).head?, fits row.1 partner

/-- Passing partners on along such a chain gives a larger pairing. -/
theorem Displaced.exists_larger
    {rows : List (α × Option β)} {free : List β}
    (displaced : Displaced fits rows free)
    (fit : ∀ pair ∈ pairsOf rows, fits pair.1 pair.2) :
    ∃ pairs,
      Pairing fits (rows.map Prod.fst) (rows.filterMap Prod.snd ++ free)
        pairs ∧
      pairs.length = (pairsOf rows).length + 1 := by
  obtain ⟨before, chain, last, after, partner, isFree, rfl, passes, first⟩ :=
    displaced
  obtain ⟨passed, lefts, rights, fitPassed⟩ := exists_passed passes first
  have tail : pairsOf ((last, (none : Option β)) :: after) = pairsOf after :=
    rfl
  have size : passed.length = (pairsOf chain).length + 1 := by
    have counted := congrArg List.length rights
    rw [← map_snd_pairsOf] at counted
    simpa using counted
  refine ⟨pairsOf before ++ (passed ++ pairsOf after), ⟨?_, ?_, ?_⟩, ?_⟩
  · intro pair member
    rw [pairsOf_append, pairsOf_append, tail] at fit
    rcases List.mem_append.mp member with old | inner
    · exact fit pair (List.mem_append_left _ old)
    rcases List.mem_append.mp inner with new | old
    · exact fitPassed pair new
    · exact
        fit pair (List.mem_append_right _ (List.mem_append_right _ old))
  · have within (list : List (α × Option β)) :
        ((pairsOf list).map Prod.fst).Subperm (list.map Prod.fst) :=
      (List.sublist_append_left _ _).subperm.trans
        (perm_pairsOf list).symm.subperm
    rw [List.map_append, List.map_append, lefts, List.map_append,
      List.map_append, List.append_assoc]
    exact
      (within before).append
        ((List.Subperm.refl _).append
          ((List.subperm_cons last).mpr (within after)))
  · rw [List.map_append, List.map_append, rights, map_snd_pairsOf,
      map_snd_pairsOf, List.filterMap_append, List.filterMap_append]
    have moved := @List.perm_middle _ partner
      (before.filterMap Prod.snd)
      (chain.filterMap Prod.snd ++ after.filterMap Prod.snd)
    refine (moved.trans (List.perm_append_singleton _ _).symm).subperm.trans ?_
    exact
      (List.Subperm.refl _).append
        (List.singleton_subperm_iff.mpr isFree)
  · rw [pairsOf_append, pairsOf_append, tail, List.length_append,
      List.length_append, List.length_append, List.length_append, size]
    omega

/-- The first entry of a chain that ends with a row without a partner. -/
def Reaches (fits : α → β → Prop) (rows : List (α × Option β)) (entry : α) :
    Prop :=
  ∃ before chain last after,
    rows = before ++ (chain ++ (last, none) :: after) ∧
      (chain ++ [(last, none)]).IsChain (Passes fits) ∧
      ∃ row ∈ (chain ++ [(last, none)]).head?, row.1 = entry

section Rows

variable {rows : List (α × Option β)} {free : List β}
  (fit : ∀ pair ∈ pairsOf rows, fits pair.1 pair.2)
  (greedy :
    ∀ before last after, rows = before ++ (last, none) :: after →
      ∀ pair ∈ pairsOf after, ¬ fits last pair.2)
  (apart :
    ∀ first second third, [first, second, third].Sublist rows →
      ∀ partner, fits first.1 partner → ¬ fits third.1 partner)

include fit greedy apart

/-- Where rows share partners with their neighbours only, and a row without a
partner fits none of a later row, reached rows fit partners of reached
ones. -/
theorem reaches_of_fits
    {entry : α} (reaches : Reaches fits rows entry) {pair : α × β}
    (member : pair ∈ pairsOf rows) (fitsToo : fits entry pair.2) :
    Reaches fits rows pair.1 := by
  have own := fit pair member
  obtain ⟨before, chain, last, after, rfl, passes, row, isHead, rfl⟩ :=
    reaches
  have held := mem_pairsOf.mp member
  rcases List.mem_append.mp held with inBefore | inner
  · obtain ⟨start, between, rfl⟩ := List.append_of_mem inBefore
    cases between with
    | nil =>
        refine
          ⟨start, (pair.1, some pair.2) :: chain, last, after, ?_, ?_,
            (pair.1, some pair.2), rfl, rfl⟩
        · rw [List.append_assoc]
          rfl
        · rw [List.cons_append, List.isChain_cons]
          refine ⟨?_, passes⟩
          intro next isNext
          rw [Option.mem_def.mp isHead] at isNext
          cases isNext
          exact ⟨pair.2, rfl, fitsToo⟩
    | cons second between =>
        refine absurd fitsToo (apart (pair.1, some pair.2) second row ?_ _ own)
        have ends : row ∈ chain ++ (last, none) :: after := by
          rw [← List.singleton_append, ← List.append_assoc]
          exact List.mem_append_left _ (List.mem_of_mem_head? isHead)
        have tail : [row].Sublist (between ++ (chain ++ (last, none) :: after)) :=
          List.singleton_sublist.mpr (List.mem_append_right _ ends)
        rw [List.append_assoc]
        exact
          ((tail.cons_cons second).cons_cons _).trans
            (List.sublist_append_right _ _)
  rcases List.mem_append.mp inner with inChain | inRest
  · obtain ⟨start, rest, rfl⟩ := List.append_of_mem inChain
    refine
      ⟨before ++ start, (pair.1, some pair.2) :: rest, last, after, ?_, ?_,
        (pair.1, some pair.2), rfl, rfl⟩
    · simp [List.append_assoc]
    · rw [List.append_assoc] at passes
      exact passes.right_of_append
  rcases List.mem_cons.mp inRest with isLast | inAfter
  · cases isLast
  cases chain with
  | nil =>
      cases isHead
      exact
        absurd fitsToo
          (greedy before last after rfl pair (mem_pairsOf.mpr inAfter))
  | cons first rest =>
      have same : first = row := Option.some.inj isHead
      subst same
      refine
        absurd own (apart first (last, none) (pair.1, some pair.2) ?_ _ fitsToo)
      have tail : [(pair.1, some pair.2)].Sublist after :=
        List.singleton_sublist.mpr inAfter
      have middle :
          [(last, none), (pair.1, some pair.2)].Sublist
            (rest ++ (last, none) :: after) :=
        (tail.cons_cons _).trans (List.sublist_append_right _ _)
      exact (middle.cons_cons first).trans (List.sublist_append_right _ _)

/-- The rows are a largest pairing exactly when no partners can be passed
on. -/
theorem largestPairing_iff_not_displaced :
    LargestPairing fits (rows.map Prod.fst)
        (rows.filterMap Prod.snd ++ free) (pairsOf rows).length ↔
      ¬ Displaced fits rows free := by
  constructor
  · intro largest displaced
    obtain ⟨pairs, pairing, size⟩ := displaced.exists_larger fit
    have bound := largest.2 ⟨pairs, pairing, rfl⟩
    omega
  intro steady
  have leftSplit := perm_pairsOf rows
  have rightSplit :
      (rows.filterMap Prod.snd ++ free).Perm
        ((pairsOf rows).map Prod.snd ++ free) := by
    rw [map_snd_pairsOf]
  refine ⟨⟨pairsOf rows, ⟨fit, ?_, ?_⟩, rfl⟩, ?_⟩
  · exact
      (List.sublist_append_left _ _).subperm.trans leftSplit.symm.subperm
  · exact
      (List.sublist_append_left _ _).subperm.trans rightSplit.symm.subperm
  rintro size ⟨pairs, pairing, rfl⟩
  refine
    Pairing.length_le leftSplit rightSplit (Reaches fits rows) ?_ ?_ ?_
      pairing
  · intro entry unpaired
    obtain ⟨⟨_, partner⟩, member, rfl⟩ := List.mem_map.mp unpaired
    obtain ⟨listed, none⟩ := List.mem_filter.mp member
    cases partner with
    | some partner => cases none
    | none =>
        obtain ⟨before, after, split⟩ := List.append_of_mem listed
        exact
          ⟨before, [], _, after, split, List.isChain_singleton _, _, rfl, rfl⟩
  · rintro entry ⟨before, chain, last, after, split, passes, row, isHead, rfl⟩
      partner isFree fitsFree
    refine steady ⟨before, chain, last, after, partner, isFree, split,
      passes, ?_⟩
    intro head isAlso
    rw [Option.mem_def.mp isHead] at isAlso
    cases isAlso
    exact fitsFree
  · intro entry reaches pair member fitsToo
    exact reaches_of_fits fit greedy apart reaches member fitsToo

end Rows

end Hexroute.Lib
