import Hexroute.Telemetry.Ranges

/-!
# The missing ranges of an acknowledgement

The server reads the open gaps of a node, joins those that touch, and cuts
them into ranges of a bounded width until it has a bounded number of them.
-/

namespace Hexroute.Telemetry

open Hexroute.Lib

/-! ## The server -/

/-- The loop over the rows; `current` is the range that is merged last. -/
def mergeInto (current : SequenceRange) :
    List SequenceRange → List SequenceRange
  | [] => [current]
  | item :: later =>
      if (current.last + 1) % 2 ^ 64 < item.first then
        current :: mergeInto item later
      else if current.last < item.last then
        mergeInto { current with last := item.last } later
      else mergeInto current later

def mergeMissingRanges : List SequenceRange → List SequenceRange
  | [] => []
  | item :: later => mergeInto item later

/-- The pieces of one range, as long as there is room for them. -/
def boundRange (last : Nat) : (room first : Nat) → List SequenceRange
  | 0, _ => []
  | room + 1, first =>
      if last < first then []
      else
        let full := (first + maxMissingRangeWidth - 1) % 2 ^ 64
        let stop := if full < first ∨ last < full then last else full
        ⟨first, stop⟩ ::
          if stop = last ∨ stop = maxSequence then []
          else boundRange last room (stop + 1)

def boundRanges (room : Nat) : List SequenceRange → List SequenceRange
  | [] => []
  | item :: later =>
      let pieces := boundRange item.last room item.first
      pieces ++ boundRanges (room - pieces.length) later

def boundedMissingRanges (ranges : List SequenceRange) :
    List SequenceRange :=
  boundRanges maxMissingRanges ranges

inductive IngestError where
  | invalidRequest
  deriving DecidableEq, Repr

structure AcceptResult where
  highWatermark : Nat
  missingSequences : List SequenceRange
  deriving DecidableEq, Repr

/-- An open gap as the database holds it. -/
structure GapRow where
  firstSequence : Int
  lastSequence : Int
  deriving DecidableEq, Repr

def scanRows : List GapRow → Except IngestError (List SequenceRange)
  | [] => pure []
  | row :: later => do
      refuse (row.firstSequence < 1 ∨ row.lastSequence < row.firstSequence)
        .invalidRequest
      let ranges ← scanRows later
      pure (⟨row.firstSequence.toNat, row.lastSequence.toNat⟩ :: ranges)

/-- The query lists the first open gaps of the node. -/
def readAcceptResult (highest : Nat) (rows : List GapRow) :
    Except IngestError AcceptResult := do
  let ranges ← scanRows (rows.take maxMissingRanges)
  pure ⟨highest, boundedMissingRanges (mergeMissingRanges ranges)⟩

/-! ## The acknowledgement -/

structure Batch where
  batchID : String
  nodeID : String
  lastSequence : Nat
  eventIDs : List String

structure Acknowledgement where
  batchID : String
  nodeID : String
  requestID : String
  highWatermark : Nat
  acceptedEventIDs : List String
  missingSequences : List SequenceRange
  deriving DecidableEq, Repr

/-- The acknowledgement the service builds. -/
def acknowledge (batch : Batch) (requestID : String) (result : AcceptResult) :
    Acknowledgement where
  batchID := batch.batchID
  nodeID := batch.nodeID
  requestID := requestID
  highWatermark :=
    if result.highWatermark = 0 ∨ result.highWatermark < batch.lastSequence
    then batch.lastSequence
    else result.highWatermark
  acceptedEventIDs := batch.eventIDs
  missingSequences := result.missingSequences

/-- What the node checks of an acknowledgement; `parses` recognises an
identifier. -/
def validateAcknowledgement
    (parses : String → Bool) (acknowledgement : Acknowledgement) :
    Except RangeError Unit := do
  refuse
    (maxBatchEvents < acknowledgement.acceptedEventIDs.length ∨
      acknowledgement.highWatermark = 0 ∨
      maxMissingRanges < acknowledgement.missingSequences.length)
    .invalidAcknowledgement
  refuse
    (∃ id ∈
        [acknowledgement.batchID, acknowledgement.nodeID,
          acknowledgement.requestID],
      parses id = false)
    .invalidAcknowledgement
  refuse
    ((∃ id ∈ acknowledgement.acceptedEventIDs, parses id = false) ∨
      ¬ acknowledgement.acceptedEventIDs.Nodup)
    .invalidAcknowledgement
  if acknowledgement.missingSequences.length > 0 then
    validateMissingRanges acknowledgement.missingSequences
      acknowledgement.highWatermark

/-! ## Merging -/

/-- A range of sequences up to a greatest one. -/
def SequenceRange.Within (range : SequenceRange) (highest : Nat) : Prop :=
  1 ≤ range.first ∧ range.first ≤ range.last ∧ range.last ≤ highest

/-- The ranges stand in the order of their first sequences. -/
def Rising (ranges : List SequenceRange) : Prop :=
  ranges.Pairwise fun earlier later => earlier.first ≤ later.first

theorem covers_cons
    {range : SequenceRange} {ranges : List SequenceRange} {sequence : Nat} :
    Covers (range :: ranges) sequence ↔
      (range.first ≤ sequence ∧ sequence ≤ range.last) ∨
        Covers ranges sequence := by
  simp [Covers]

theorem covers_append
    {first second : List SequenceRange} {sequence : Nat} :
    Covers (first ++ second) sequence ↔
      Covers first sequence ∨ Covers second sequence := by
  simp [Covers, or_and_right, exists_or]

section Merging

variable {highest : Nat}

/-- What the merged ranges are: inside the same bounds, apart, and over the
same sequences. -/
structure Merged
    (highest : Nat) (current : SequenceRange)
    (later merged : List SequenceRange) : Prop where
  within : ∀ range ∈ merged, range.Within highest
  above : ∀ range ∈ merged, current.first ≤ range.first
  apart : Apart merged
  covers :
    ∀ sequence, Covers merged sequence ↔ Covers (current :: later) sequence

theorem mergeInto_merged
    (small : highest < 2 ^ 63) {later : List SequenceRange}
    {current : SequenceRange} (own : current.Within highest)
    (within : ∀ range ∈ later, range.Within highest)
    (above : ∀ range ∈ later, current.first ≤ range.first)
    (rising : Rising later) :
    Merged highest current later (mergeInto current later) := by
  induction later generalizing current with
  | nil =>
      refine ⟨?_, ?_, List.pairwise_singleton _ _, fun _ => Iff.rfl⟩
      · exact fun range member => List.mem_singleton.mp member ▸ own
      · exact fun range member => (List.mem_singleton.mp member ▸ le_rfl)
  | cons item rest inductionHypothesis =>
      obtain ⟨itemWithin, restWithin⟩ := List.forall_mem_cons.mp within
      obtain ⟨itemAbove, restAbove⟩ := List.forall_mem_cons.mp above
      obtain ⟨itemFirst, restRising⟩ := List.pairwise_cons.mp rising
      obtain ⟨positive, ordered, below⟩ := own
      have next : (current.last + 1) % 2 ^ 64 = current.last + 1 :=
        Nat.mod_eq_of_lt (by omega)
      unfold mergeInto
      rw [next]
      split
      · rename_i beyond
        obtain ⟨inside, higher, apart, covers⟩ :=
          inductionHypothesis itemWithin restWithin itemFirst restRising
        refine ⟨?_, ?_, ?_, fun sequence => ?_⟩
        · exact
            List.forall_mem_cons.mpr ⟨⟨positive, ordered, below⟩, inside⟩
        · refine List.forall_mem_cons.mpr ⟨le_rfl, fun range member => ?_⟩
          exact itemAbove.trans (higher range member)
        · refine List.pairwise_cons.mpr ⟨fun range member => ?_, apart⟩
          have low := higher range member
          omega
        · rw [covers_cons, covers]
          exact covers_cons.symm
      · rename_i touches
        split
        · rename_i longer
          obtain ⟨inside, higher, apart, covers⟩ :=
            @inductionHypothesis { current with last := item.last }
              ⟨positive, ordered.trans longer.le, itemWithin.2.2⟩
              restWithin restAbove restRising
          refine ⟨inside, higher, apart, fun sequence => ?_⟩
          rw [covers, covers_cons, covers_cons, covers_cons, ← or_assoc]
          refine or_congr_left ?_
          dsimp only
          omega
        · rename_i shorter
          obtain ⟨inside, higher, apart, covers⟩ :=
            inductionHypothesis ⟨positive, ordered, below⟩ restWithin
              restAbove restRising
          refine ⟨inside, higher, apart, fun sequence => ?_⟩
          rw [covers, covers_cons, covers_cons, covers_cons, ← or_assoc]
          refine or_congr_left ?_
          omega

theorem mergeMissingRanges_merged
    (small : highest < 2 ^ 63) {ranges : List SequenceRange}
    (within : ∀ range ∈ ranges, range.Within highest)
    (rising : Rising ranges) :
    (∀ range ∈ mergeMissingRanges ranges, range.Within highest) ∧
      Apart (mergeMissingRanges ranges) ∧
        ∀ sequence,
          Covers (mergeMissingRanges ranges) sequence ↔
            Covers ranges sequence := by
  cases ranges with
  | nil => exact ⟨by simp [mergeMissingRanges], .nil, fun _ => Iff.rfl⟩
  | cons item later =>
      obtain ⟨own, rest⟩ := List.forall_mem_cons.mp within
      obtain ⟨first, rest_⟩ := List.pairwise_cons.mp rising
      have merged := mergeInto_merged small own rest first rest_
      exact ⟨merged.within, merged.apart, merged.covers⟩

end Merging

/-! ## Bounding -/

/-- What the pieces are: narrow ranges between two bounds, apart, and over
everything except what is beyond them when the room is used up. -/
structure Pieces
    (room first last : Nat) (whole : Nat → Prop)
    (pieces : List SequenceRange) : Prop where
  few : pieces.length ≤ room
  narrow :
    ∀ piece ∈ pieces,
      first ≤ piece.first ∧ piece.first ≤ piece.last ∧ piece.last ≤ last ∧
        piece.last - piece.first + 1 ≤ maxMissingRangeWidth
  apart : Apart pieces
  inside : ∀ sequence, Covers pieces sequence → whole sequence
  rest :
    ∀ sequence, whole sequence →
      Covers pieces sequence ∨
        pieces.length = room ∧ ∀ piece ∈ pieces, piece.last < sequence

/-- Pieces of what stands below, and then pieces of what stands above. -/
theorem Pieces.append
    {room first middle next last : Nat} {below above : Nat → Prop}
    {lower upper : List SequenceRange}
    (low : Pieces room first middle below lower)
    (high : Pieces (room - lower.length) next last above upper)
    (split : middle < next) (starts : first ≤ next) (ends : middle ≤ last)
    (beyond : ∀ sequence, above sequence → middle < sequence) :
    Pieces room first last (fun sequence => below sequence ∨ above sequence)
      (lower ++ upper) := by
  have lowFew := low.few
  have highFew := high.few
  refine ⟨?_, ?_, ?_, ?_, ?_⟩
  · rw [List.length_append]
    omega
  · intro piece member
    rcases List.mem_append.mp member with inLower | inUpper
    · obtain ⟨from_, ordered, until_, narrow⟩ := low.narrow piece inLower
      exact ⟨from_, ordered, until_.trans ends, narrow⟩
    · obtain ⟨from_, ordered, until_, narrow⟩ := high.narrow piece inUpper
      exact ⟨starts.trans from_, ordered, until_, narrow⟩
  · refine List.pairwise_append.mpr ⟨low.apart, high.apart, ?_⟩
    intro earlier inLower later inUpper
    have until_ := (low.narrow earlier inLower).2.2.1
    have from_ := (high.narrow later inUpper).1
    omega
  · intro sequence covers
    rw [covers_append] at covers
    exact covers.imp (low.inside sequence) (high.inside sequence)
  · intro sequence whole
    rw [covers_append, List.length_append]
    rcases whole with inBelow | inAbove
    · rcases low.rest sequence inBelow with covered | ⟨used, past⟩
      · exact Or.inl (Or.inl covered)
      · have none : upper = [] := List.eq_nil_of_length_eq_zero (by omega)
        subst none
        exact Or.inr ⟨by simpa using used, by simpa using past⟩
    · rcases high.rest sequence inAbove with covered | ⟨used, past⟩
      · exact Or.inl (Or.inr covered)
      · refine Or.inr ⟨by omega, fun piece member => ?_⟩
        rcases List.mem_append.mp member with inLower | inUpper
        · have until_ := (low.narrow piece inLower).2.2.1
          have past := beyond sequence inAbove
          omega
        · exact past piece inUpper

/-- One piece that is all there is. -/
theorem pieces_singleton
    {room first last : Nat} (ordered : first ≤ last)
    (narrow : last - first + 1 ≤ maxMissingRangeWidth) :
    Pieces (room + 1) first last
      (fun sequence => first ≤ sequence ∧ sequence ≤ last)
      [⟨first, last⟩] := by
  refine ⟨by simp, ?_, List.pairwise_singleton _ _, ?_, ?_⟩
  · intro piece member
    rw [List.mem_singleton.mp member]
    exact ⟨le_rfl, ordered, le_rfl, narrow⟩
  · intro sequence covers
    simpa [Covers] using covers
  · intro sequence whole
    exact Or.inl (by simpa [Covers] using whole)

theorem Pieces.congr
    {room first last : Nat} {whole other : Nat → Prop}
    {pieces : List SequenceRange} (held : Pieces room first last whole pieces)
    (same : ∀ sequence, whole sequence ↔ other sequence) :
    Pieces room first last other pieces :=
  ⟨held.few, held.narrow, held.apart,
    fun sequence covers => (same sequence).mp (held.inside sequence covers),
    fun sequence whole => held.rest sequence ((same sequence).mpr whole)⟩

theorem Pieces.lower
    {room first lower last : Nat} {whole : Nat → Prop}
    {pieces : List SequenceRange} (held : Pieces room first last whole pieces)
    (low : lower ≤ first) : Pieces room lower last whole pieces := by
  refine ⟨held.few, fun piece member => ?_, held.apart, held.inside, held.rest⟩
  obtain ⟨from_, others⟩ := held.narrow piece member
  exact ⟨low.trans from_, others⟩

theorem pieces_of_no_room {first last : Nat} (whole : Nat → Prop) :
    Pieces 0 first last whole [] :=
  ⟨le_rfl, by simp, .nil, by simp [Covers], fun _ _ => Or.inr ⟨rfl, by simp⟩⟩

theorem boundRange_pieces
    {last : Nat} (small : last < 2 ^ 63) (room : Nat) {first : Nat}
    (ordered : first ≤ last) :
    Pieces room first last
      (fun sequence => first ≤ sequence ∧ sequence ≤ last)
      (boundRange last room first) := by
  induction room generalizing first with
  | zero => exact pieces_of_no_room _
  | succ room inductionHypothesis =>
      have full :
          (first + maxMissingRangeWidth - 1) % 2 ^ 64 = first + 511 := by
        unfold maxMissingRangeWidth
        exact Nat.mod_eq_of_lt (by omega)
      unfold boundRange
      rw [if_neg (not_lt.mpr ordered), full]
      dsimp only
      by_cases short : last ≤ first + 511
      · have stop :
            (if first + 511 < first ∨ last < first + 511 then last
              else first + 511) = last := by
          split <;> omega
        rw [stop, if_pos (Or.inl rfl)]
        refine pieces_singleton ordered ?_
        unfold maxMissingRangeWidth
        omega
      · rw [if_neg (show ¬ (first + 511 < first ∨ last < first + 511) by omega),
          if_neg (by unfold maxSequence; omega)]
        have one : Pieces (room + 1) first (first + 511)
            (fun sequence => first ≤ sequence ∧ sequence ≤ first + 511)
            [⟨first, first + 511⟩] := by
          refine pieces_singleton (by omega) ?_
          unfold maxMissingRangeWidth
          omega
        have rest := @inductionHypothesis (first + 511 + 1) (by omega)
        refine
          (one.append rest (by omega) (by omega) (by omega) ?_).congr
            fun sequence => ?_
        · intro sequence inside
          omega
        · omega

theorem boundRanges_pieces
    {highest : Nat} (small : highest < 2 ^ 63)
    {ranges : List SequenceRange} (room low : Nat)
    (within : ∀ range ∈ ranges, range.Within highest)
    (above : ∀ range ∈ ranges, low ≤ range.first) (apart : Apart ranges) :
    Pieces room low highest (Covers ranges) (boundRanges room ranges) := by
  induction ranges generalizing room low with
  | nil =>
      exact
        ⟨Nat.zero_le _, by simp [boundRanges], .nil, fun _ => id,
          fun _ => Or.inl⟩
  | cons item later inductionHypothesis =>
      obtain ⟨⟨_, ordered, below⟩, laterWithin⟩ :=
        List.forall_mem_cons.mp within
      obtain ⟨beyond, laterApart⟩ := List.pairwise_cons.mp apart
      have own := boundRange_pieces (below.trans_lt small) room ordered
      have rest :=
        inductionHypothesis
          (room - (boundRange item.last room item.first).length)
          (item.last + 1) laterWithin beyond laterApart
      refine
        ((own.append rest (Nat.lt_succ_self _) (by omega) below ?_).congr
          fun sequence => covers_cons.symm).lower (above item (by simp))
      rintro sequence ⟨range, member, from_, -⟩
      exact (beyond range member).trans_le from_

/-! ## The list the node is given -/

/-- The row is a gap below the highest sequence of its node. -/
def GapRow.Within (row : GapRow) (highest : Nat) : Prop :=
  1 ≤ row.firstSequence ∧ row.firstSequence ≤ row.lastSequence ∧
    row.lastSequence ≤ highest

/-- The rows are sorted by their first and then by their last sequence. -/
def Sorted (rows : List GapRow) : Prop :=
  rows.Pairwise fun earlier later =>
    earlier.firstSequence < later.firstSequence ∨
      earlier.firstSequence = later.firstSequence ∧
        earlier.lastSequence ≤ later.lastSequence

/-- Some row holds the sequence. -/
def Misses (rows : List GapRow) (sequence : Nat) : Prop :=
  ∃ row ∈ rows,
    row.firstSequence ≤ (sequence : Int) ∧ (sequence : Int) ≤ row.lastSequence

def GapRow.range (row : GapRow) : SequenceRange :=
  ⟨row.firstSequence.toNat, row.lastSequence.toNat⟩

section Rows

variable {highest : Nat} {rows : List GapRow}

theorem scanRows_eq_ok (within : ∀ row ∈ rows, row.Within highest) :
    scanRows rows = .ok (rows.map GapRow.range) := by
  induction rows with
  | nil => rfl
  | cons row later inductionHypothesis =>
      obtain ⟨own, rest⟩ := List.forall_mem_cons.mp within
      unfold scanRows
      rw [refuse, if_neg (by unfold GapRow.Within at own; omega),
        inductionHypothesis rest]
      rfl

theorem covers_map_range (within : ∀ row ∈ rows, row.Within highest)
    (sequence : Nat) :
    Covers (rows.map GapRow.range) sequence ↔ Misses rows sequence := by
  simp only [Covers, Misses, List.mem_map, exists_exists_and_eq_and]
  refine exists_congr fun row => and_congr_right fun member => ?_
  have own := within row member
  unfold GapRow.Within at own
  simp only [GapRow.range]
  omega

/-- The first rows hold the first missing sequences. -/
theorem misses_of_take
    (sorted : Sorted rows) (count : Nat) {sequence later : Nat}
    (taken : Misses (rows.take count) later)
    (before : sequence ≤ later) (missed : Misses rows sequence) :
    Misses (rows.take count) sequence := by
  obtain ⟨row, member, from_, until_⟩ := missed
  rw [← List.take_append_drop count rows] at member
  rcases List.mem_append.mp member with early | late
  · exact ⟨row, early, from_, until_⟩
  · obtain ⟨other, listed, starts, ends⟩ := taken
    have order :
        other.firstSequence < row.firstSequence ∨
          other.firstSequence = row.firstSequence ∧
            other.lastSequence ≤ row.lastSequence := by
      have whole := sorted
      unfold Sorted at whole
      rw [← List.take_append_drop count rows] at whole
      exact (List.pairwise_append.mp whole).2.2 other listed row late
    exact ⟨other, listed, by omega, by omega⟩

end Rows

/-- A batch the service has validated. -/
structure Batch.Valid (batch : Batch) (parses : String → Bool) : Prop where
  ids : parses batch.batchID = true ∧ parses batch.nodeID = true
  events : ∀ id ∈ batch.eventIDs, parses id = true
  distinct : batch.eventIDs.Nodup
  few : batch.eventIDs.length ≤ maxBatchEvents
  positive : 0 < batch.lastSequence

/-- The missing list: few narrow ranges in order and apart, over the first
missing sequences. -/
structure Acceptable
    (rows : List GapRow) (highest : Nat) (missing : List SequenceRange) :
    Prop where
  few : missing.length ≤ maxMissingRanges
  fits : ∀ range ∈ missing, range.Fits highest
  apart : Apart missing
  inside : ∀ sequence, Covers missing sequence → Misses rows sequence
  initial :
    ∀ sequence later, Covers missing later → sequence ≤ later →
      Misses rows sequence → Covers missing sequence

/-- The list that is built from the rows. -/
def missingOf (rows : List GapRow) : List SequenceRange :=
  boundedMissingRanges
    (mergeMissingRanges ((rows.take maxMissingRanges).map GapRow.range))

theorem missingOf_acceptable
    {highest : Nat} {rows : List GapRow} (small : highest < 2 ^ 63)
    (sorted : Sorted rows) (within : ∀ row ∈ rows, row.Within highest) :
    Acceptable rows highest (missingOf rows) := by
  have takenWithin :
      ∀ row ∈ rows.take maxMissingRanges, row.Within highest :=
    fun row member => within row (List.mem_of_mem_take member)
  have rangesWithin :
      ∀ range ∈ (rows.take maxMissingRanges).map GapRow.range,
        range.Within highest := by
    intro range member
    obtain ⟨row, listed, rfl⟩ := List.mem_map.mp member
    have own := takenWithin row listed
    unfold GapRow.Within at own
    simp only [SequenceRange.Within, GapRow.range]
    omega
  have rising : Rising ((rows.take maxMissingRanges).map GapRow.range) := by
    refine List.pairwise_map.mpr ?_
    refine (sorted.sublist (List.take_sublist _ _)).imp ?_
    intro earlier later order
    simp only [GapRow.range]
    omega
  obtain ⟨mergedWithin, mergedApart, mergedCovers⟩ :=
    mergeMissingRanges_merged small rangesWithin rising
  have pieces :=
    boundRanges_pieces small maxMissingRanges 1 mergedWithin
      (fun range member => (mergedWithin range member).1) mergedApart
  have same :
      ∀ sequence,
        Covers
            (mergeMissingRanges
              ((rows.take maxMissingRanges).map GapRow.range)) sequence ↔
          Misses (rows.take maxMissingRanges) sequence :=
    fun sequence =>
      (mergedCovers sequence).trans (covers_map_range takenWithin sequence)
  refine ⟨pieces.few, ?_, pieces.apart, ?_, ?_⟩
  · intro range member
    obtain ⟨positive, ordered, below, narrow⟩ := pieces.narrow range member
    exact ⟨positive, ordered, narrow, below⟩
  · intro sequence covers
    obtain ⟨row, member, holds⟩ :=
      (same sequence).mp (pieces.inside sequence covers)
    exact ⟨row, List.mem_of_mem_take member, holds⟩
  · intro sequence later covers before missed
    have taken := (same later).mp (pieces.inside later covers)
    have early := misses_of_take sorted maxMissingRanges taken before missed
    rcases pieces.rest sequence ((same sequence).mpr early) with
      covered | ⟨-, past⟩
    · exact covered
    · obtain ⟨piece, member, -, until_⟩ := covers
      have ends := past piece member
      omega
/-- The node accepts an acknowledgement with an acceptable list. -/
theorem validateAcknowledgement_acknowledge
    {parses : String → Bool} {batch : Batch} {requestID : String}
    {rows : List GapRow} {result : AcceptResult} (valid : batch.Valid parses)
    (request : parses requestID = true)
    (acceptable :
      Acceptable rows result.highWatermark result.missingSequences) :
    validateAcknowledgement parses (acknowledge batch requestID result) =
      .ok () := by
  have positive := valid.positive
  have high :
      0 < (acknowledge batch requestID result).highWatermark ∧
        result.highWatermark ≤
          (acknowledge batch requestID result).highWatermark := by
    simp only [acknowledge]
    split <;> omega
  have few :
      ¬ (maxBatchEvents < batch.eventIDs.length ∨
        (acknowledge batch requestID result).highWatermark = 0 ∨
          maxMissingRanges < result.missingSequences.length) := by
    have events := valid.few
    have ranges := acceptable.few
    omega
  have ids :
      ¬ ∃ id ∈ [batch.batchID, batch.nodeID, requestID],
        parses id = false := by
    simp [valid.ids.1, valid.ids.2, request]
  have events :
      ¬ ((∃ id ∈ batch.eventIDs, parses id = false) ∨
        ¬ batch.eventIDs.Nodup) := by
    rintro (⟨id, listed, refused⟩ | repeated)
    · rw [valid.events id listed] at refused
      cases refused
    · exact repeated valid.distinct
  unfold validateAcknowledgement
  simp only [bind_eq_ok_iff, refuse_eq_ok_iff]
  refine ⟨⟨⟩, few, ⟨⟩, ids, ⟨⟩, events, ?_⟩
  split
  · rename_i some
    refine
      validateMissingRanges_eq_ok_iff.mpr
        ⟨List.length_pos_iff.mp some, acceptable.few, ?_, acceptable.apart⟩
    intro range member
    obtain ⟨starts, ordered, narrow, below⟩ := acceptable.fits range member
    exact ⟨starts, ordered, narrow, below.trans high.2⟩
  · rfl

/-- For all gaps of a node the missing list is built, is acceptable, and is
accepted by the node. -/
theorem missing_list_acceptable
    (highest : Nat) (rows : List GapRow) (small : highest < 2 ^ 63)
    (sorted : Sorted rows) (within : ∀ row ∈ rows, row.Within highest) :
    ∃ result,
      readAcceptResult highest rows = .ok result ∧
        Acceptable rows highest result.missingSequences ∧
          ∀ (parses : String → Bool) (batch : Batch) (requestID : String),
            batch.Valid parses → parses requestID = true →
              validateAcknowledgement parses
                  (acknowledge batch requestID result) = .ok () := by
  have acceptable := missingOf_acceptable small sorted within
  refine ⟨⟨highest, missingOf rows⟩, ?_, acceptable, ?_⟩
  · have takenWithin :
        ∀ row ∈ rows.take maxMissingRanges, row.Within highest :=
      fun row member => within row (List.mem_of_mem_take member)
    unfold readAcceptResult
    rw [scanRows_eq_ok takenWithin]
    rfl
  · intro parses batch requestID valid request
    exact validateAcknowledgement_acknowledge valid request acceptable

/-- Two gaps that touch, over more than one width. -/
def touchingRows : List GapRow := [⟨3, 10⟩, ⟨11, 600⟩]

theorem touchingRows_acceptable :
    ∃ result,
      readAcceptResult 900 touchingRows = .ok result ∧
        result.missingSequences = [⟨3, 514⟩, ⟨515, 600⟩] ∧
          Acceptable touchingRows 900 result.missingSequences := by
  have sorted : Sorted touchingRows := by
    simp [Sorted, touchingRows]
  obtain ⟨result, read, acceptable, -⟩ :=
    missing_list_acceptable 900 touchingRows (by decide) sorted
      (by simp [touchingRows, GapRow.Within])
  refine ⟨result, read, ?_, acceptable⟩
  have is :
      readAcceptResult 900 touchingRows =
        .ok ⟨900, [⟨3, 514⟩, ⟨515, 600⟩]⟩ := by
    decide +kernel
  rw [is] at read
  cases read
  rfl

end Hexroute.Telemetry
