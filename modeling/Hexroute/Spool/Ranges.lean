import Hexroute.Telemetry.Repair

/-!
# Reading ranges of the spool

The reader goes through the sequences of each range and opens the file of each
one.  Its counter is a word, and the exit at the greatest sequence stands
behind the branch that is taken if there is no file.
-/

namespace Hexroute.Spool

open Hexroute.Telemetry (SequenceRange maxSequence named Proper)

variable {α ε : Type}

/-- What opening the file of a sequence gives. -/
inductive Reading (α ε : Type) where
  | absent
  | damaged (error : ε)
  | stored (entry : α)

/-- The record under a sequence, if there is a sound one. -/
def Reading.entry : Reading α ε → Option α
  | .stored entry => some entry
  | _ => none

def Reading.isDamaged : Reading α ε → Bool
  | .damaged _ => true
  | _ => false

inductive SpoolError (ε : Type) where
  | corruptSpool
  | unreadable (error : ε)

/-- The sequences that were opened so far, the entries they held and whether
none was missing. -/
structure Progress (α : Type) where
  examined : List Nat
  entries : List α
  complete : Bool

section Reader

variable (contents : Nat → Reading α ε) (maxEntries : Nat)

/-- What opening a file leaves. -/
def Progress.open (progress : Progress α) (sequence : Nat)
    (reading : Reading α ε) : Progress α where
  examined := progress.examined ++ [sequence]
  entries := progress.entries ++ reading.entry.toList
  complete :=
    match reading with
    | .absent => false
    | _ => progress.complete

/-- The loop over one range; nothing is returned if the fuel runs out. -/
def scanRange (last : Nat) :
    (fuel sequence : Nat) → Progress α →
      Option (Progress α × Option (SpoolError ε))
  | 0, _, _ => none
  | fuel + 1, sequence, progress =>
      if last < sequence then some (progress, none)
      else if progress.entries.length = maxEntries then
        some (progress, some .corruptSpool)
      else
        let next := progress.open sequence (contents sequence)
        match contents sequence with
        | .absent => scanRange last fuel ((sequence + 1) % 2 ^ 64) next
        | .damaged error => some (next, some (.unreadable error))
        | .stored _ =>
            if sequence = maxSequence then some (next, none)
            else scanRange last fuel ((sequence + 1) % 2 ^ 64) next

/-- The loop over the ranges. -/
def scanRanges (fuel : Nat) :
    List SequenceRange → Progress α →
      Option (Progress α × Option (SpoolError ε))
  | [], progress => some (progress, none)
  | item :: later, progress =>
      if item.first = 0 ∨ item.last < item.first then
        some (progress, some .corruptSpool)
      else
        match scanRange contents maxEntries item.last fuel item.first
            progress with
        | some (next, none) => scanRanges fuel later next
        | stopped => stopped

/-- A negative bound is refused as zero is. -/
def entriesBySequenceRanges (ranges : List SequenceRange) (fuel : Nat) :
    Option (Progress α × Option (SpoolError ε)) :=
  if ranges.length = 0 ∨ maxEntries < 1 then
    some (⟨[], [], true⟩, some .corruptSpool)
  else scanRanges contents maxEntries fuel ranges ⟨[], [], true⟩

/-- The reader comes to an end after opening no more than the sequences the
ranges name, each in its turn, and without an error it returns all their
records and says whether any was missing. -/
def ReadsExactly (ranges : List SequenceRange) : Prop :=
  ∃ fuel progress stopped,
    entriesBySequenceRanges contents maxEntries ranges fuel =
        some (progress, stopped) ∧
      progress.examined <+: named ranges ∧
        (stopped = none →
          progress.entries =
              (named ranges).filterMap (fun name => (contents name).entry) ∧
            (progress.complete = true ↔
              ∀ name ∈ named ranges, (contents name).entry.isSome = true))

/-- If the ranges name the greatest sequence and it has no file, a damaged
file or as many records as may be returned come before it. -/
def StopsInTime (ranges : List SequenceRange) : Prop :=
  let before := (named ranges).takeWhile (· ≠ maxSequence)
  maxSequence ∈ named ranges → contents maxSequence = .absent →
    (∃ name ∈ before, (contents name).isDamaged = true) ∨
      maxEntries ≤ (before.filterMap fun name => (contents name).entry).length

/-! ## Reading a list of sequences -/

/-- How reading a list of sequences ends. -/
inductive Ending (ε : Type) where
  | done
  | failed (error : SpoolError ε)
  | wraps

/-- Read sequences one after another, up to a greatest one without a file. -/
def walk : List Nat → Progress α → Progress α × Ending ε
  | [], progress => (progress, .done)
  | sequence :: later, progress =>
      if progress.entries.length = maxEntries then
        (progress, .failed .corruptSpool)
      else
        let next := progress.open sequence (contents sequence)
        match contents sequence with
        | .absent =>
            if sequence = maxSequence then (next, .wraps)
            else walk later next
        | .damaged error => (next, .failed (.unreadable error))
        | .stored _ => walk later next

/-- What the loop does once it has read its range. -/
def resume (last fuel : Nat) :
    Progress α × Ending ε → Option (Progress α × Option (SpoolError ε))
  | (progress, .done) => some (progress, none)
  | (progress, .failed error) => some (progress, some error)
  | (progress, .wraps) =>
      scanRange contents maxEntries last fuel 0 progress

end Reader

variable {contents : Nat → Reading α ε} {maxEntries : Nat}

/-- With fuel for its sequences the loop reads them. -/
theorem scanRange_eq_walk
    {last : Nat} (bounded : last ≤ maxSequence) (spare : Nat) :
    ∀ count sequence, sequence + count = last + 1 → ∀ progress,
      scanRange contents maxEntries last (count + (spare + 1)) sequence
          progress =
        resume contents maxEntries last (spare + 1)
          (walk contents maxEntries (List.range' sequence count)
            progress) := by
  intro count
  induction count with
  | zero =>
      intro sequence reaches progress
      rw [Nat.zero_add, scanRange, if_pos (by omega)]
      rfl
  | succ count inductionHypothesis =>
      intro sequence reaches progress
      rw [Nat.succ_add, List.range'_succ, scanRange, walk,
        if_neg (by omega)]
      by_cases full : progress.entries.length = maxEntries
      · rw [if_pos full, if_pos full]
        rfl
      rw [if_neg full, if_neg full]
      have wraps :
          sequence = maxSequence →
            count = 0 ∧ (sequence + 1) % 2 ^ 64 = 0 := by
        rintro rfl
        exact ⟨by omega, rfl⟩
      have goesOn :
          sequence ≠ maxSequence →
            (sequence + 1) % 2 ^ 64 = sequence + 1 := by
        intro smaller
        unfold maxSequence at bounded smaller
        exact Nat.mod_eq_of_lt (by omega)
      cases reading : contents sequence with
      | absent =>
          dsimp only
          by_cases greatest : sequence = maxSequence
          · obtain ⟨rfl, zero⟩ := wraps greatest
            rw [if_pos greatest, zero, Nat.zero_add]
            rfl
          · rw [if_neg greatest, goesOn greatest,
              inductionHypothesis (sequence + 1) (by omega)]
      | damaged error => rfl
      | stored entry =>
          dsimp only
          by_cases greatest : sequence = maxSequence
          · obtain ⟨rfl, -⟩ := wraps greatest
            rw [if_pos greatest]
            rfl
          · rw [if_neg greatest, goesOn greatest,
              inductionHypothesis (sequence + 1) (by omega)]

/-- More fuel does not change what the loop returned. -/
theorem scanRange_mono
    {last fuel : Nat} {result : Progress α × Option (SpoolError ε)}
    (more : Nat) :
    ∀ {sequence progress},
      scanRange contents maxEntries last fuel sequence progress =
          some result →
        scanRange contents maxEntries last (fuel + more) sequence progress =
          some result := by
  induction fuel with
  | zero => exact nofun
  | succ fuel inductionHypothesis =>
      intro sequence progress ran
      rw [Nat.succ_add, scanRange]
      rw [scanRange] at ran
      split at ran
      · rename_i past
        rwa [if_pos past]
      rename_i past
      rw [if_neg past]
      split at ran
      · rename_i full
        rwa [if_pos full]
      rename_i full
      rw [if_neg full]
      cases reading : contents sequence with
      | absent =>
          rw [reading] at ran
          exact inductionHypothesis ran
      | damaged error =>
          rw [reading] at ran
          exact ran
      | stored entry =>
          rw [reading] at ran
          dsimp only at ran ⊢
          split at ran
          · rename_i greatest
            rwa [if_pos greatest]
          · rename_i smaller
            rw [if_neg smaller]
            exact inductionHypothesis ran

/-- What was examined stays examined. -/
theorem examined_scanRange
    {last fuel sequence : Nat} {progress : Progress α}
    {result : Progress α × Option (SpoolError ε)}
    (ran :
      scanRange contents maxEntries last fuel sequence progress =
        some result) :
    progress.examined ⊆ result.1.examined := by
  induction fuel generalizing sequence progress with
  | zero => cases ran
  | succ fuel inductionHypothesis =>
      have kept :
          progress.examined ⊆
            (progress.open sequence (contents sequence)).examined :=
        List.subset_append_left _ _
      rw [scanRange] at ran
      split at ran
      · cases ran
        exact List.Subset.refl _
      split at ran
      · cases ran
        exact List.Subset.refl _
      dsimp only at ran
      split at ran
      · exact List.Subset.trans kept (inductionHypothesis ran)
      · cases ran
        exact kept
      split at ran
      · cases ran
        exact kept
      · exact List.Subset.trans kept (inductionHypothesis ran)

theorem walk_append {first second : List Nat} {progress : Progress α} :
    walk contents maxEntries (first ++ second) progress =
      match walk contents maxEntries first progress with
      | (next, .done) => walk contents maxEntries second next
      | stopped => stopped := by
  induction first generalizing progress with
  | nil => rfl
  | cons sequence later inductionHypothesis =>
      rw [List.cons_append, walk, walk]
      split
      · rfl
      dsimp only
      split
      · split
        · rfl
        · exact inductionHypothesis
      · rfl
      · exact inductionHypothesis

/-- A walk opens the first of its sequences, and if it goes through, all of
them. -/
theorem walk_spec {names : List Nat} {progress : Progress α} :
    (∃ opened,
      (walk contents maxEntries names progress).1.examined =
          progress.examined ++ opened ∧
        opened <+: names) ∧
      ((walk contents maxEntries names progress).2 = .done →
        (walk contents maxEntries names progress).1.entries =
            progress.entries ++
              names.filterMap (fun name => (contents name).entry) ∧
          ((walk contents maxEntries names progress).1.complete = true ↔
            progress.complete = true ∧
              ∀ name ∈ names, (contents name).entry.isSome = true)) := by
  induction names generalizing progress with
  | nil => exact ⟨⟨[], by simp [walk]⟩, fun _ => by simp [walk]⟩
  | cons sequence later inductionHypothesis =>
      rw [walk]
      by_cases full : progress.entries.length = maxEntries
      · rw [if_pos full]
        exact ⟨⟨[], by simp⟩, nofun⟩
      rw [if_neg full]
      obtain ⟨⟨opened, examined, initial⟩, exact⟩ :=
        @inductionHypothesis (progress.open sequence (contents sequence))
      have opens :
          ∃ opened,
            (walk contents maxEntries later
                (progress.open sequence (contents sequence))).1.examined =
                progress.examined ++ opened ∧
              opened <+: sequence :: later := by
        refine ⟨sequence :: opened, ?_, ?_⟩
        · rw [examined]
          exact List.append_assoc _ [sequence] opened
        · exact (List.prefix_cons_inj sequence).mpr initial
      have single : [sequence] <+: sequence :: later :=
        ⟨later, rfl⟩
      cases reading : contents sequence with
      | absent =>
          rw [reading] at opens exact
          dsimp only
          split
          · exact ⟨⟨[sequence], rfl, single⟩, nofun⟩
          · refine ⟨opens, fun done => ?_⟩
            obtain ⟨entries, complete⟩ := exact done
            rw [entries, complete]
            simp [Progress.open, Reading.entry, reading]
      | damaged error => exact ⟨⟨[sequence], rfl, single⟩, nofun⟩
      | stored entry =>
          rw [reading] at opens exact
          refine ⟨opens, fun done => ?_⟩
          obtain ⟨entries, complete⟩ := exact done
          rw [entries, complete]
          simp [Progress.open, Reading.entry, reading]

/-- A walk wraps round exactly if it comes to a greatest sequence without a
file. -/
theorem walk_wraps_iff
    {names : List Nat} {progress : Progress α}
    (few : progress.entries.length ≤ maxEntries) :
    (walk contents maxEntries names progress).2 = .wraps ↔
      maxSequence ∈ names ∧ contents maxSequence = .absent ∧
        (∀ name ∈ names.takeWhile (· ≠ maxSequence),
          (contents name).isDamaged = false) ∧
          progress.entries.length +
              ((names.takeWhile (· ≠ maxSequence)).filterMap fun name =>
                (contents name).entry).length <
            maxEntries := by
  induction names generalizing progress with
  | nil => simp [walk]
  | cons sequence later inductionHypothesis =>
      rw [walk]
      by_cases full : progress.entries.length = maxEntries
      · rw [if_pos full]
        simp [full]
      rw [if_neg full]
      have room : progress.entries.length < maxEntries := by omega
      by_cases greatest : sequence = maxSequence
      · subst greatest
        cases reading : contents maxSequence with
        | absent => simp [room]
        | damaged error => simp
        | stored entry =>
            dsimp only
            rw [inductionHypothesis (by simpa [Progress.open, Reading.entry])]
            simp [reading]
      · have next :=
          @inductionHypothesis (progress.open sequence (contents sequence))
        cases reading : contents sequence with
        | absent =>
            rw [reading] at next
            dsimp only
            rw [if_neg greatest, next (by simpa [Progress.open, Reading.entry])]
            simp [greatest, Ne.symm greatest, reading, Progress.open,
              Reading.entry, Reading.isDamaged]
        | damaged error =>
            simp [greatest, reading, Reading.isDamaged]
        | stored entry =>
            rw [reading] at next
            dsimp only
            rw [next (by simpa [Progress.open, Reading.entry])]
            simp [greatest, Ne.symm greatest, reading, Progress.open,
              Reading.entry, Reading.isDamaged, Nat.add_assoc,
              Nat.add_comm 1]

/-- Where a walk wraps round there is room for more. -/
theorem room_of_wraps
    {names : List Nat} {progress next : Progress α}
    (wraps : walk contents maxEntries names progress = (next, .wraps)) :
    next.entries.length ≠ maxEntries := by
  induction names generalizing progress with
  | nil => cases wraps
  | cons sequence later inductionHypothesis =>
      rw [walk] at wraps
      split at wraps
      · cases wraps
      rename_i room
      dsimp only at wraps
      split at wraps
      · rename_i reading
        split at wraps
        · cases wraps
          simpa [Progress.open, Reading.entry, reading] using room
        · exact inductionHypothesis wraps
      · cases wraps
      · exact inductionHypothesis wraps

/-! ## Reading the ranges -/

theorem scanRanges_mono
    {ranges : List SequenceRange} {fuel : Nat} {progress : Progress α}
    {result : Progress α × Option (SpoolError ε)} (more : Nat)
    (ran :
      scanRanges contents maxEntries fuel ranges progress = some result) :
    scanRanges contents maxEntries (fuel + more) ranges progress =
      some result := by
  induction ranges generalizing progress with
  | nil => exact ran
  | cons item later inductionHypothesis =>
      rw [scanRanges] at ran ⊢
      split at ran
      · rename_i invalid
        rwa [if_pos invalid]
      rename_i valid
      rw [if_neg valid]
      cases first :
          scanRange contents maxEntries item.last fuel item.first
            progress with
      | none =>
          rw [first] at ran
          cases ran
      | some reached =>
          rw [scanRange_mono more first]
          rw [first] at ran
          obtain ⟨next, stopped⟩ := reached
          cases stopped with
          | none => exact inductionHypothesis ran
          | some error => exact ran

theorem examined_scanRanges
    {ranges : List SequenceRange} {fuel : Nat} {progress : Progress α}
    {result : Progress α × Option (SpoolError ε)}
    (ran :
      scanRanges contents maxEntries fuel ranges progress = some result) :
    progress.examined ⊆ result.1.examined := by
  induction ranges generalizing progress with
  | nil =>
      cases ran
      exact List.Subset.refl _
  | cons item later inductionHypothesis =>
      rw [scanRanges] at ran
      split at ran
      · cases ran
        exact List.Subset.refl _
      split at ran
      · rename_i next first
        exact
          List.Subset.trans (examined_scanRange first)
            (inductionHypothesis ran)
      · exact examined_scanRange ran

/-- What the loops make of how reading the named sequences ends.  If the
counter wraps round, they go on to zero. -/
def Leaves
    (contents : Nat → Reading α ε) (maxEntries fuel : Nat)
    (ranges : List SequenceRange) (progress next : Progress α) :
    Ending ε → Prop
  | .done =>
      scanRanges contents maxEntries fuel ranges progress =
        some (next, none)
  | .failed error =>
      scanRanges contents maxEntries fuel ranges progress =
        some (next, some error)
  | .wraps =>
      ∀ result,
        scanRanges contents maxEntries fuel ranges progress =
          some result → 0 ∈ result.1.examined

theorem scanRanges_cons
    {item : SequenceRange} {later : List SequenceRange} {fuel : Nat}
    {progress : Progress α} (proper : Proper (item :: later)) :
    scanRanges contents maxEntries fuel (item :: later) progress =
      match scanRange contents maxEntries item.last fuel item.first
          progress with
      | some (next, none) => scanRanges contents maxEntries fuel later next
      | stopped => stopped := by
  obtain ⟨positive, ordered, _⟩ := proper item (List.mem_cons_self ..)
  rw [scanRanges, if_neg (by omega)]

/-- A loop that is at zero again opens its file. -/
theorem zero_mem_examined
    {last fuel : Nat} {progress : Progress α}
    {result : Progress α × Option (SpoolError ε)}
    (room : progress.entries.length ≠ maxEntries)
    (ran :
      scanRange contents maxEntries last (fuel + 1) 0 progress =
        some result) :
    0 ∈ result.1.examined := by
  have here : 0 ∈ (progress.open 0 (contents 0)).examined := by
    simp [Progress.open]
  rw [scanRange, if_neg (by omega), if_neg room] at ran
  dsimp only at ran
  split at ran
  · exact examined_scanRange ran here
  · cases ran
    exact here
  split at ran
  · cases ran
    exact here
  · exact examined_scanRange ran here

/-- With fuel for a whole round, the loops read the sequences the ranges name
one after another. -/
theorem scanRanges_eq_walk
    {ranges : List SequenceRange} (proper : Proper ranges) {fuel : Nat}
    (enough : maxSequence < fuel) {progress next : Progress α}
    {ending : Ending ε}
    (walked :
      walk contents maxEntries (named ranges) progress = (next, ending)) :
    Leaves contents maxEntries fuel ranges progress next ending := by
  induction ranges generalizing progress with
  | nil =>
      cases walked
      rfl
  | cons item later inductionHypothesis =>
      obtain ⟨⟨positive, ordered, bounded⟩, laterProper⟩ :=
        List.forall_mem_cons.mp proper
      have scanned :=
        @scanRange_eq_walk α ε contents maxEntries item.last bounded
          (fuel - (item.last + 1 - item.first) - 1)
          (item.last + 1 - item.first) item.first (by omega) progress
      rw [show
        item.last + 1 - item.first +
            (fuel - (item.last + 1 - item.first) - 1 + 1) = fuel by omega]
        at scanned
      have sequences :
          named (item :: later) =
            List.range' item.first (item.last + 1 - item.first) ++
              named later :=
        rfl
      rw [sequences, walk_append] at walked
      have loops :=
        @scanRanges_cons α ε contents maxEntries item later fuel progress
          proper
      cases own :
          walk contents maxEntries
            (List.range' item.first (item.last + 1 - item.first))
            progress with
      | mk reached how =>
          rw [own] at walked scanned
          rw [scanned] at loops
          cases how with
          | done =>
              have rest := inductionHypothesis laterProper walked
              cases ending with
              | done => exact loops.trans rest
              | failed error => exact loops.trans rest
              | wraps =>
                  exact fun result ran => rest result (loops.symm.trans ran)
          | failed error =>
              cases walked
              exact loops
          | wraps =>
              cases walked
              have room := room_of_wraps own
              intro result ran
              rw [loops] at ran
              dsimp only [resume] at ran
              split at ran
              · rename_i after again
                exact examined_scanRanges ran (zero_mem_examined room again)
              · exact zero_mem_examined room ran

theorem zero_not_named
    {ranges : List SequenceRange} (proper : Proper ranges) :
    0 ∉ named ranges := by
  intro listed
  obtain ⟨range, member, inside⟩ := List.mem_flatMap.mp listed
  have := (proper range member).1
  rw [List.mem_range'_1] at inside
  omega

/-- Where the counter wraps round, the reader opens a sequence it was not
asked for, or never ends. -/
theorem not_readsExactly_of_wraps
    {ranges : List SequenceRange} (proper : Proper ranges)
    (wraps :
      (walk contents maxEntries (named ranges) ⟨[], [], true⟩).2 = .wraps) :
    ¬ ReadsExactly contents maxEntries ranges := by
  rintro ⟨fuel, progress, stopped, ran, once, -⟩
  obtain ⟨listed, -, -, few⟩ := (walk_wraps_iff (Nat.zero_le _)).mp wraps
  have nonempty : ranges.length ≠ 0 := by
    rintro empty
    rw [List.length_eq_zero_iff.mp empty] at listed
    cases listed
  rw [entriesBySequenceRanges,
    if_neg (not_or.mpr ⟨nonempty, by omega⟩)] at ran
  have longer := scanRanges_mono (maxSequence + 1) ran
  have leaves :
      Leaves contents maxEntries (fuel + (maxSequence + 1)) ranges
        ⟨[], [], true⟩
        (walk contents maxEntries (named ranges) ⟨[], [], true⟩).1 .wraps :=
    scanRanges_eq_walk proper (by omega) (Prod.ext rfl wraps)
  exact zero_not_named proper (once.subset (leaves _ longer))

/-- An empty spool. -/
def emptySpool (_ : Nat) : Reading String String := .absent

end Hexroute.Spool
