import Hexroute.Lib.Refusal

/-!
# Ranges of missing sequences

The server names the sequences it misses as a bounded list of ranges, and the
node checks the list before it serves it.
-/

namespace Hexroute.Telemetry

open Hexroute.Lib

def maxBatchEvents : Nat := 256

def maxMissingRanges : Nat := 8

def maxMissingRangeWidth : Nat := 512

/-- The greatest sequence, all bits of a word set. -/
def maxSequence : Nat := 2 ^ 64 - 1

structure SequenceRange where
  first : Nat
  last : Nat
  deriving DecidableEq, Repr

/-- Some range holds the sequence. -/
def Covers (ranges : List SequenceRange) (sequence : Nat) : Prop :=
  ∃ range ∈ ranges, range.first ≤ sequence ∧ sequence ≤ range.last

inductive RangeError where
  | invalidAcknowledgement
  deriving DecidableEq, Repr

/-- The loop over the ranges, with the last sequence of the one before. -/
def checkRanges (highWatermark : Nat) :
    Option Nat → List SequenceRange → Except RangeError Unit
  | _, [] => pure ()
  | previousLast, item :: later => do
      refuse
        (item.first = 0 ∨ item.last < item.first ∨
          maxMissingRangeWidth < item.last - item.first + 1 ∨
          highWatermark < item.last)
        .invalidAcknowledgement
      refuse (∃ last ∈ previousLast, item.first ≤ last)
        .invalidAcknowledgement
      checkRanges highWatermark (some item.last) later

def validateMissingRanges
    (ranges : List SequenceRange) (highWatermark : Nat) :
    Except RangeError Unit := do
  refuse (ranges.length = 0 ∨ maxMissingRanges < ranges.length)
    .invalidAcknowledgement
  checkRanges highWatermark none ranges

/-- A range that may be asked for. -/
structure SequenceRange.Fits (range : SequenceRange) (highWatermark : Nat) :
    Prop where
  positive : 1 ≤ range.first
  ordered : range.first ≤ range.last
  narrow : range.last - range.first + 1 ≤ maxMissingRangeWidth
  below : range.last ≤ highWatermark

/-- The ranges stand in order and apart. -/
def Apart (ranges : List SequenceRange) : Prop :=
  ranges.Pairwise fun earlier later => earlier.last < later.first

section Checks

variable {highWatermark : Nat}

theorem checkRanges_eq_ok_iff
    {ranges : List SequenceRange} {previous : Option Nat} :
    checkRanges highWatermark previous ranges = .ok () ↔
      (∀ range ∈ ranges, range.Fits highWatermark) ∧
        Apart ranges ∧
          ∀ last ∈ previous, ∀ range ∈ ranges, last < range.first := by
  induction ranges generalizing previous with
  | nil => simp [checkRanges, Apart]
  | cons item later inductionHypothesis =>
      simp only [checkRanges, bind_eq_ok_iff, refuse_eq_ok_iff,
        inductionHypothesis, Option.mem_def, Option.some.injEq,
        forall_eq']
      constructor
      · rintro ⟨_, fits, _, apart, rest, apartRest, above⟩
        have own : item.Fits highWatermark :=
          ⟨by omega, by omega, by omega, by omega⟩
        refine ⟨?_, List.pairwise_cons.mpr ⟨above, apartRest⟩, ?_⟩
        · exact List.forall_mem_cons.mpr ⟨own, rest⟩
        · intro last is
          have first : last < item.first :=
            not_le.mp fun low => apart ⟨last, is, low⟩
          refine List.forall_mem_cons.mpr ⟨first, fun range member => ?_⟩
          have ordered := own.ordered
          exact (first.trans_le ordered).trans (above range member)
      · rintro ⟨fits, apartRest, above⟩
        obtain ⟨own, rest⟩ := List.forall_mem_cons.mp fits
        obtain ⟨apart, apartRest⟩ := List.pairwise_cons.mp apartRest
        obtain ⟨positive, ordered, narrow, below⟩ := own
        refine ⟨⟨⟩, by omega, ⟨⟩, ?_, rest, apartRest, apart⟩
        rintro ⟨last, is, low⟩
        exact absurd (above last is item (by simp)) (not_lt.mpr low)

theorem validateMissingRanges_eq_ok_iff {ranges : List SequenceRange} :
    validateMissingRanges ranges highWatermark = .ok () ↔
      ranges ≠ [] ∧ ranges.length ≤ maxMissingRanges ∧
        (∀ range ∈ ranges, range.Fits highWatermark) ∧
          Apart ranges := by
  unfold validateMissingRanges
  simp only [bind_eq_ok_iff, refuse_eq_ok_iff, checkRanges_eq_ok_iff,
    not_or, not_lt, List.length_eq_zero_iff]
  constructor
  · rintro ⟨_, ⟨some, few⟩, fits, apartRest, -⟩
    exact ⟨some, few, fits, apartRest⟩
  · rintro ⟨some, few, fits, apartRest⟩
    exact ⟨⟨⟩, ⟨some, few⟩, fits, apartRest, by simp⟩

end Checks

end Hexroute.Telemetry
