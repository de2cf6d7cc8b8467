import Hexroute.Telemetry.Ranges

/-!
# Serving the missing ranges

After an upload the node resends the records of the ranges its acknowledgement
names, or records once that they are gone.  The reader of the ranges stops at
the size of a batch, which is smaller than what an acknowledgement may name.
-/

namespace Hexroute.Telemetry

open Hexroute.Lib

/-! ## The spool -/

/-- A stored record. -/
structure Entry where
  sequence : Nat
  eventID : String
  event : String
  deriving DecidableEq, Repr

/-- The stable record under a sequence. -/
def readEntry (spool : List Entry) (sequence : Nat) : Option Entry :=
  spool.find? (·.sequence = sequence)

inductive RepairError where
  | corruptSpool
  | invalidBatch
  | invalidAcknowledgement
  | gapRepairRejected
  deriving DecidableEq, Repr

/-- What the loops have collected, and whether nothing was absent. -/
abbrev Collected := Except RepairError (List Entry × Bool)

/-- The loop over one range.  It returns nothing if the fuel runs out: the
sequence wraps round at a greatest one that is absent. -/
def scanRange (spool : List Entry) (last : Nat) :
    (fuel sequence : Nat) → List Entry → Bool → Option Collected
  | 0, _, _, _ => none
  | fuel + 1, sequence, entries, complete =>
      if last < sequence then some (.ok (entries, complete))
      else if entries.length = maxBatchEvents then
        some (.error .corruptSpool)
      else
        match readEntry spool sequence with
        | none =>
            scanRange spool last fuel ((sequence + 1) % 2 ^ 64) entries false
        | some entry =>
            if sequence = maxSequence then
              some (.ok (entries ++ [entry], complete))
            else
              scanRange spool last fuel ((sequence + 1) % 2 ^ 64)
                (entries ++ [entry]) complete

/-- The loop over the ranges. -/
def scanRanges (spool : List Entry) (fuel : Nat) :
    List SequenceRange → List Entry → Bool → Option Collected
  | [], entries, complete => some (.ok (entries, complete))
  | item :: later, entries, complete =>
      if item.first = 0 ∨ item.last < item.first then
        some (.error .corruptSpool)
      else
        match scanRange spool item.last fuel item.first entries complete with
        | some (.ok (entries, complete)) =>
            scanRanges spool fuel later entries complete
        | other => other

/-! ## The uploader -/

/-- The spool, the ranges that were reported, and what was done: the batches
that were sent and the diagnostics that were recorded. -/
structure Uploader where
  spool : List Entry
  seen : List (List SequenceRange)
  sent : List (List Entry)
  diagnostics : List (List SequenceRange)
  deriving DecidableEq, Repr

/-- The answer of the server to a batch. -/
structure Reply where
  highWatermark : Nat
  acceptedEventIDs : List String
  missingSequences : List SequenceRange

/-- Send a batch and drop what the server accepted. -/
def Uploader.upload (uploader : Uploader) (batch : List Entry)
    (reply : Reply) : Uploader :=
  { uploader with
    sent := uploader.sent ++ [batch]
    spool :=
      uploader.spool.filter fun entry =>
        entry.eventID ∉ reply.acceptedEventIDs }

def Uploader.emitOnce (uploader : Uploader) (ranges : List SequenceRange) :
    Uploader :=
  if ranges ∈ uploader.seen then uploader
  else
    { uploader with
      seen := ranges :: uploader.seen
      diagnostics := uploader.diagnostics ++ [ranges] }

/-- `encodes` says whether the records make a batch. -/
def Uploader.replayMissingSequences
    (encodes : List Entry → Bool) (fuel : Nat) (uploader : Uploader)
    (ranges : List SequenceRange) (reply : Reply) :
    Option (Except RepairError Uploader) :=
  if ranges.length = 0 then some (.ok uploader)
  else
    match scanRanges uploader.spool fuel ranges [] true with
    | none => none
    | some (.error _) => some (.error .gapRepairRejected)
    | some (.ok (_, false)) => some (.ok (uploader.emitOnce ranges))
    | some (.ok (entries, true)) =>
        if entries.length = 0 then some (.error .gapRepairRejected)
        else if encodes entries then some (.ok (uploader.upload entries reply))
        else some (.error .invalidBatch)

def Uploader.runOnce
    (encodes : List Entry → Bool) (fuel : Nat) (uploader : Uploader)
    (reply replayReply : Reply) : Option (Except RepairError Uploader) :=
  if uploader.spool.length = 0 then some (.ok uploader)
  else
    let batch := uploader.spool.take maxBatchEvents
    if encodes batch then
      if
        reply.missingSequences ≠ [] ∧
          validateMissingRanges reply.missingSequences reply.highWatermark ≠
            .ok ()
      then some (.error .invalidAcknowledgement)
      else
        (uploader.upload batch reply).replayMissingSequences encodes fuel
          reply.missingSequences replayReply
    else some (.error .invalidBatch)

/-! ## Reading the ranges -/

/-- The sequences a list of ranges names, in order. -/
def named (ranges : List SequenceRange) : List Nat :=
  ranges.flatMap fun range =>
    List.range' range.first (range.last + 1 - range.first)

/-- Reading sequences one after the other. -/
def collect (spool : List Entry) : List Nat → List Entry → Bool → Collected
  | [], entries, complete => .ok (entries, complete)
  | sequence :: later, entries, complete =>
      if entries.length = maxBatchEvents then .error .corruptSpool
      else
        match readEntry spool sequence with
        | none => collect spool later entries false
        | some entry => collect spool later (entries ++ [entry]) complete

/-- The loop over the range does not wrap round. -/
def Terminates (spool : List Entry) (last : Nat) : Prop :=
  last = maxSequence → (readEntry spool maxSequence).isSome = true

section Scans

variable {spool : List Entry} {last : Nat}

/-- At an absent greatest sequence the loop never ends well. -/
theorem scanRange_wraps
    (absent : readEntry spool maxSequence = none) (fuel : Nat) :
    ∀ sequence, sequence ≤ maxSequence → ∀ entries complete result,
      scanRange spool maxSequence fuel sequence entries complete ≠
        some (.ok result) := by
  induction fuel with
  | zero =>
      intro sequence _ entries complete result ran
      cases ran
  | succ fuel inductionHypothesis =>
      intro sequence bounded entries complete result ran
      have next : (sequence + 1) % 2 ^ 64 ≤ maxSequence :=
        Nat.le_sub_one_of_lt (Nat.mod_lt _ (by decide))
      unfold scanRange at ran
      rw [if_neg (not_lt.mpr bounded)] at ran
      split at ran
      · cases ran
      cases read : readEntry spool sequence with
      | none =>
          rw [read] at ran
          exact inductionHypothesis _ next _ _ _ ran
      | some entry =>
          rw [read] at ran
          dsimp only at ran
          split at ran
          · rename_i greatest
            rw [greatest, absent] at read
            cases read
          · exact inductionHypothesis _ next _ _ _ ran

/-- A loop that does not wrap round reads the sequences of its range, if the
fuel lasts. -/
theorem scanRange_eq_collect
    (ends : Terminates spool last) (bounded : last ≤ maxSequence)
    (fuel : Nat) :
    ∀ sequence, sequence ≤ last + 1 → sequence ≤ maxSequence →
      ∀ entries complete,
        (scanRange spool last fuel sequence entries complete = none ∧
            fuel ≤ last + 1 - sequence) ∨
          scanRange spool last fuel sequence entries complete =
            some
              (collect spool (List.range' sequence (last + 1 - sequence))
                entries complete) := by
  induction fuel with
  | zero => exact fun _ _ _ _ _ => Or.inl ⟨rfl, Nat.zero_le _⟩
  | succ fuel inductionHypothesis =>
      intro sequence upTo small entries complete
      unfold scanRange
      by_cases past : last < sequence
      · rw [if_pos past, show last + 1 - sequence = 0 by omega]
        exact Or.inr rfl
      rw [if_neg past,
        show last + 1 - sequence = (last - sequence) + 1 by omega,
        List.range'_succ]
      unfold collect
      by_cases full : entries.length = maxBatchEvents
      · rw [if_pos full, if_pos full]
        exact Or.inr rfl
      rw [if_neg full, if_neg full]
      have step :
          sequence ≠ maxSequence → ∀ entries complete,
            (scanRange spool last fuel ((sequence + 1) % 2 ^ 64) entries
                  complete = none ∧ fuel + 1 ≤ last - sequence + 1) ∨
              scanRange spool last fuel ((sequence + 1) % 2 ^ 64) entries
                  complete =
                some
                  (collect spool
                    (List.range' (sequence + 1) (last - sequence)) entries
                    complete) := by
        intro other entries complete
        have next : (sequence + 1) % 2 ^ 64 = sequence + 1 := by
          unfold maxSequence at small other
          exact Nat.mod_eq_of_lt (by omega)
        have rest :=
          inductionHypothesis (sequence + 1) (by omega) (by omega) entries
            complete
        rw [show last + 1 - (sequence + 1) = last - sequence by omega] at rest
        rw [next]
        exact rest.imp_left fun none => ⟨none.1, by omega⟩
      cases read : readEntry spool sequence with
      | none =>
          refine step (fun greatest => ?_) entries false
          have present := ends (by omega)
          rw [← greatest, read] at present
          cases present
      | some entry =>
          dsimp only
          by_cases greatest : sequence = maxSequence
          · rw [if_pos greatest, show last - sequence = 0 by omega]
            exact Or.inr rfl
          · rw [if_neg greatest]
            exact step greatest _ complete

theorem collect_append
    {first second : List Nat} {entries : List Entry} {complete : Bool} :
    collect spool (first ++ second) entries complete =
      (collect spool first entries complete).bind fun collected =>
        collect spool second collected.1 collected.2 := by
  induction first generalizing entries complete with
  | nil => rfl
  | cons sequence later inductionHypothesis =>
      simp only [List.cons_append, collect]
      split
      · rfl
      split
      · exact inductionHypothesis
      · exact inductionHypothesis

/-- Reading fails exactly if a sequence follows a full batch. -/
theorem collect_eq
    {names : List Nat} {entries : List Entry} {complete : Bool}
    (few : entries.length ≤ maxBatchEvents) :
    collect spool names entries complete =
      if
        names = [] ∨
          entries.length +
              (names.dropLast.filterMap (readEntry spool)).length <
            maxBatchEvents
      then
        .ok
          (entries ++ names.filterMap (readEntry spool),
            complete && names.all fun name => (readEntry spool name).isSome)
      else .error .corruptSpool := by
  induction names generalizing entries complete with
  | nil => simp [collect]
  | cons name later inductionHypothesis =>
      unfold collect
      by_cases full : entries.length = maxBatchEvents
      · rw [if_pos full, if_neg (by simp [full])]
      rw [if_neg full]
      have room : entries.length < maxBatchEvents := by omega
      cases read : readEntry spool name with
      | none =>
          dsimp only
          rw [inductionHypothesis few]
          cases later with
          | nil => simp [read, room]
          | cons next rest => simp [read]
      | some entry =>
          dsimp only
          rw [inductionHypothesis (by simpa using room)]
          cases later with
          | nil => simp [read, room]
          | cons next rest => simp [read, Nat.add_assoc, Nat.add_comm 1]

/-- Every range that names the greatest sequence ends. -/
def AllTerminate (spool : List Entry) (ranges : List SequenceRange) : Prop :=
  ∀ range ∈ ranges, Terminates spool range.last

/-- The ranges of an acknowledgement, as far as the loops need them. -/
def Proper (ranges : List SequenceRange) : Prop :=
  ∀ range ∈ ranges,
    1 ≤ range.first ∧ range.first ≤ range.last ∧ range.last ≤ maxSequence

theorem scanRanges_eq_collect
    {ranges : List SequenceRange} (proper : Proper ranges)
    (ends : AllTerminate spool ranges) (fuel : Nat) (entries : List Entry)
    (complete : Bool) :
    (scanRanges spool fuel ranges entries complete = none ∧
        fuel ≤ maxSequence) ∨
      scanRanges spool fuel ranges entries complete =
        some (collect spool (named ranges) entries complete) := by
  induction ranges generalizing entries complete with
  | nil => exact Or.inr rfl
  | cons item later inductionHypothesis =>
      obtain ⟨⟨positive, ordered, small⟩, laterProper⟩ :=
        List.forall_mem_cons.mp proper
      obtain ⟨itemEnds, laterEnds⟩ := List.forall_mem_cons.mp ends
      unfold scanRanges named
      rw [if_neg (by omega), List.flatMap_cons, collect_append]
      rcases
          scanRange_eq_collect itemEnds small fuel item.first (by omega)
            (ordered.trans small) entries complete with
        ⟨none, few⟩ | scanned
      · rw [none]
        exact Or.inl ⟨rfl, by omega⟩
      · rw [scanned]
        cases
            collect spool
              (List.range' item.first (item.last + 1 - item.first)) entries
              complete with
        | error error => exact Or.inr rfl
        | ok collected =>
            exact
              inductionHypothesis laterProper laterEnds collected.1
                collected.2

theorem scanRanges_eq_ok
    {ranges : List SequenceRange} (proper : Proper ranges) {fuel : Nat}
    {entries : List Entry} {complete : Bool} {result : List Entry × Bool}
    (ran :
      scanRanges spool fuel ranges entries complete = some (.ok result)) :
    AllTerminate spool ranges := by
  induction ranges generalizing entries complete with
  | nil => exact fun _ member => absurd member (by simp)
  | cons item later inductionHypothesis =>
      obtain ⟨⟨positive, ordered, small⟩, laterProper⟩ :=
        List.forall_mem_cons.mp proper
      unfold scanRanges at ran
      rw [if_neg (by omega)] at ran
      cases first :
          scanRange spool item.last fuel item.first entries complete with
      | none =>
          rw [first] at ran
          cases ran
      | some collected =>
          rw [first] at ran
          cases collected with
          | error error => cases ran
          | ok collected =>
              refine
                List.forall_mem_cons.mpr
                  ⟨?_, inductionHypothesis laterProper ran⟩
              intro greatest
              by_contra absent
              rw [Option.not_isSome_iff_eq_none] at absent
              rw [greatest] at first
              exact
                scanRange_wraps absent fuel item.first
                  (greatest ▸ ordered) entries complete collected first

end Scans

/-! ## Answering a request -/

section Requests

variable {encodes : List Entry → Bool} {uploader : Uploader}

/-- What was reported is recorded once. -/
def Uploader.Once (uploader : Uploader) : Prop :=
  ∀ ranges,
    uploader.diagnostics.count ranges =
      if ranges ∈ uploader.seen then 1 else 0

/-- The records the spool still has of the ranges, in order. -/
def retained (spool : List Entry) (ranges : List SequenceRange) :
    List Entry :=
  (named ranges).filterMap (readEntry spool)

/-- Every named record is still there. -/
def AllRetained (spool : List Entry) (ranges : List SequenceRange) : Prop :=
  ∀ sequence ∈ named ranges, (readEntry spool sequence).isSome = true

instance (spool : List Entry) (ranges : List SequenceRange) :
    Decidable (AllRetained spool ranges) :=
  inferInstanceAs (Decidable (∀ sequence ∈ named ranges, _))

/-- The named records were resent after the batch, or are gone and this was
recorded once. -/
def Answered
    (before : Uploader) (batch : List Entry) (spool : List Entry)
    (ranges : List SequenceRange) (after : Uploader) : Prop :=
  if AllRetained spool ranges then
    after.sent = before.sent ++ [batch, retained spool ranges] ∧
      after.diagnostics = before.diagnostics
  else
    after.sent = before.sent ++ [batch] ∧
      after.diagnostics.count ranges = 1

/-- The request can be served: the reader comes to an end before it holds more
than a batch, and what it then holds makes one. -/
structure Servable
    (encodes : List Entry → Bool) (spool : List Entry)
    (ranges : List SequenceRange) : Prop where
  ends : AllTerminate spool ranges
  few :
    ((named ranges).dropLast.filterMap (readEntry spool)).length <
      maxBatchEvents
  encodes :
    AllRetained spool ranges → encodes (retained spool ranges) = true

theorem Uploader.Once.emitOnce
    (once : uploader.Once) (ranges : List SequenceRange) :
    (uploader.emitOnce ranges).diagnostics.count ranges = 1 := by
  have count := once ranges
  unfold Uploader.emitOnce
  split
  · rename_i seen
    rwa [if_pos seen] at count
  · rename_i fresh
    rw [if_neg fresh] at count
    simp [count]

theorem named_ne_nil
    {ranges : List SequenceRange} (nonempty : ranges ≠ [])
    (proper : Proper ranges) : named ranges ≠ [] := by
  cases ranges with
  | nil => exact absurd rfl nonempty
  | cons item later =>
      have own := proper item (by simp)
      unfold named
      rw [List.flatMap_cons,
        show item.last + 1 - item.first = (item.last - item.first) + 1 by
          omega,
        List.range'_succ]
      exact List.cons_ne_nil _ _

/-- What the reader of the ranges returns once it ends. -/
theorem scanned_eq
    {spool : List Entry} {ranges : List SequenceRange} (nonempty : ranges ≠ [])
    (proper : Proper ranges) :
    collect spool (named ranges) [] true =
      if
        ((named ranges).dropLast.filterMap (readEntry spool)).length <
          maxBatchEvents
      then
        .ok (retained spool ranges, decide (AllRetained spool ranges))
      else .error .corruptSpool := by
  rw [collect_eq (Nat.zero_le _)]
  have every :
      ((named ranges).all fun name => (readEntry spool name).isSome) =
        decide (AllRetained spool ranges) := by
    rw [Bool.eq_iff_iff, List.all_eq_true, decide_eq_true_iff]
    rfl
  simp only [named_ne_nil nonempty proper, false_or, List.length_nil, Nat.zero_add,
    List.nil_append, Bool.true_and, every]
  rfl

theorem retained_ne_nil
    {spool : List Entry} {ranges : List SequenceRange} (nonempty : ranges ≠ [])
    (proper : Proper ranges) (all : AllRetained spool ranges) :
    retained spool ranges ≠ [] := by
  obtain ⟨name, listed⟩ :=
    List.exists_mem_of_ne_nil _ (named_ne_nil nonempty proper)
  obtain ⟨entry, read⟩ := Option.isSome_iff_exists.mp (all name listed)
  exact
    List.ne_nil_of_mem (List.mem_filterMap.mpr ⟨name, listed, read⟩)

/-- A replay that ends well. -/
def Replayed
    (before : Uploader) (ranges : List SequenceRange) (after : Uploader) :
    Prop :=
  if AllRetained before.spool ranges then
    after.sent = before.sent ++ [retained before.spool ranges] ∧
      after.diagnostics = before.diagnostics
  else
    after.sent = before.sent ∧ after.diagnostics.count ranges = 1

/-- With enough fuel a servable request is replayed. -/
theorem replayed_of_servable
    {ranges : List SequenceRange} {reply : Reply} (once : uploader.Once)
    (nonempty : ranges ≠ []) (proper : Proper ranges)
    (servable : Servable encodes uploader.spool ranges) :
    ∃ fuel after,
      uploader.replayMissingSequences encodes fuel ranges reply =
          some (.ok after) ∧
        Replayed uploader ranges after := by
  have scan :=
    (scanRanges_eq_collect proper servable.ends (maxSequence + 1) []
      true).resolve_left fun none => absurd none.2 (by omega)
  rw [scanned_eq nonempty proper, if_pos servable.few] at scan
  refine ⟨maxSequence + 1, ?_⟩
  unfold Uploader.replayMissingSequences Replayed
  rw [if_neg (by simpa using nonempty), scan]
  by_cases all : AllRetained uploader.spool ranges
  · simp only [all, decide_true, if_true]
    rw [if_neg (by simpa using retained_ne_nil nonempty proper all),
      if_pos (servable.encodes all)]
    exact ⟨_, rfl, rfl, rfl⟩
  · simp only [all, decide_false, if_false]
    refine ⟨_, rfl, ?_, once.emitOnce ranges⟩
    unfold Uploader.emitOnce
    split
    · rfl
    · rfl

/-- A replay that ends well was of a servable request. -/
theorem servable_of_replayed
    {ranges : List SequenceRange} {reply : Reply} {fuel : Nat}
    {after : Uploader} (nonempty : ranges ≠ []) (proper : Proper ranges)
    (ran :
      uploader.replayMissingSequences encodes fuel ranges reply =
        some (.ok after)) :
    Servable encodes uploader.spool ranges := by
  unfold Uploader.replayMissingSequences at ran
  rw [if_neg (by simpa using nonempty)] at ran
  cases scan : scanRanges uploader.spool fuel ranges [] true with
  | none =>
      rw [scan] at ran
      cases ran
  | some collected =>
      rw [scan] at ran
      cases collected with
      | error error => cases ran
      | ok collected =>
          have ends := scanRanges_eq_ok proper scan
          have value :=
            (scanRanges_eq_collect proper ends fuel [] true).resolve_left
              fun none => absurd (scan.symm.trans none.1) (by simp)
          rw [scan, scanned_eq nonempty proper] at value
          by_cases few :
              ((named ranges).dropLast.filterMap
                (readEntry uploader.spool)).length < maxBatchEvents
          · rw [if_pos few] at value
            cases value
            refine ⟨ends, few, fun all => ?_⟩
            simp only [all, decide_true] at ran
            rw [if_neg (by simpa using retained_ne_nil nonempty proper all)] at ran
            by_contra refused
            rw [if_neg refused] at ran
            cases ran
          · rw [if_neg few] at value
            cases value

theorem proper_of_valid
    {ranges : List SequenceRange} {highWatermark : Nat}
    (word : highWatermark ≤ maxSequence)
    (valid : validateMissingRanges ranges highWatermark = .ok ()) :
    ranges ≠ [] ∧ Proper ranges := by
  obtain ⟨nonempty, -, fits, -⟩ := validateMissingRanges_eq_ok_iff.mp valid
  refine ⟨nonempty, fun range member => ?_⟩
  obtain ⟨positive, ordered, -, below⟩ := fits range member
  exact ⟨positive, ordered, below.trans word⟩

end Requests

/-- A spool of so many records. -/
def stored (count : Nat) : Uploader where
  spool :=
    (List.range' 1 count).map fun sequence => ⟨sequence, "", "event"⟩
  seen := []
  sent := []
  diagnostics := []

/-- A batch of one to 256 records. -/
def encodesAny (entries : List Entry) : Bool :=
  decide (0 < entries.length ∧ entries.length ≤ maxBatchEvents)

/-- A request for 257 records that are all there. -/
def wideReply : Reply := ⟨257, [], [⟨1, 257⟩]⟩

/-- A request for two records of three. -/
def narrowReply : Reply := ⟨3, [], [⟨1, 2⟩]⟩

end Hexroute.Telemetry
