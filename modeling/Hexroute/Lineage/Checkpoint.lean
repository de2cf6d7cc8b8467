import Hexroute.Reduce.Reduce

/-!
# Checkpoints

A checkpoint is a link in a chain: it names its parent, carries the snapshot
it produced and the digests of everything that came out of the reduction, and
is addressed by the digest of its own content.
-/

namespace Hexroute.Lineage

open Hexroute.Connectivity (Tick)
open Hexroute.Lib
open Hexroute.Reduce (Snapshot SourceWatermark PolicyDescriptor Wake Proposal
  Output)

def checkpointSchema : String := "hexroute.connectivity-checkpoint.v1"

def checkpointSchemaVersion : Nat := 1

def indexSchema : String := "hexroute.connectivity-checkpoint-index.v1"

def pointerSchema : String := "hexroute.connectivity-checkpoint-pointer.v1"

/-- The bound on one persisted record. -/
def maxCheckpointBytes : Nat := 192 * 1024

/-- The bound on the retained lineage. -/
def maxIndexEntries : Nat := 64

/-- How far startup walks backwards unless told otherwise. -/
def defaultMaxRecoveryDepth : Nat := 8

/-- The bounded explanation of a resume. -/
inductive ResumeReason where
  | none
  | noPointer
  | pointerInvalid
  | recordMissing
  | recordInvalid
  | parentBroken
  | digestMismatch
  | depthExhausted
  | lineageEvicted
  deriving DecidableEq, Repr

/-- A lineage that was abandoned rather than continued. -/
structure LineageBreak where
  afterID : String
  reason : ResumeReason
  deriving DecidableEq, Repr

/-- One durable link in the read-model lineage.  An empty parent means that
there is none. -/
structure Checkpoint where
  schema : String
  version : Nat
  id : String
  parent : String
  parentDigest : String
  lineageBreak : Option LineageBreak
  priorSnapshotDigest : String
  wake : Option Wake
  consumedFrom : Nat
  consumedTo : Nat
  sourceWatermarks : List SourceWatermark
  policy : PolicyDescriptor
  reducerID : String
  reducerVersion : Nat
  snapshotGeneration : Nat
  snapshotDigest : String
  snapshot : Snapshot
  diffDigest : String
  proposalsDigest : String
  digest : String
  deriving DecidableEq, Repr

/-- Why the generation guard refuses a write. -/
inductive GuardRefusal where
  | parent (claimed latest : String)
  | breakNames (named latest : String)
  | continuedWithBreak
  | parentDigest
  | behind (generation latest : Nat)
  | firstWithParent
  | firstWithBreak
  deriving DecidableEq, Repr

inductive CheckpointError where
  | invalidCheckpoint (detail : String)
  | generationGuard (refusal : GuardRefusal)
  | storeUnavailable (detail : String)
  | notFound
  | injectedFault
  deriving DecidableEq, Repr

/-- The SHA-256 of canonical encodings.  An encoding over the size limit has
none. -/
structure Digests extends Reduce.Hashes where
  record : Checkpoint → Option String
  snapshot : Snapshot → Option String
  proposals : List Proposal → Option String

/-- Lowercase letters, digits and dashes, at most sixty-four of them. -/
def validIdentifier (value : String) : Bool :=
  value ≠ "" && decide (value.utf8ByteSize ≤ 64) &&
    value.toList.all fun rune =>
      ('a' ≤ rune && rune ≤ 'z') || ('0' ≤ rune && rune ≤ '9') ||
        rune == '-'

/-- A break has to explain something. -/
def LineageBreak.validate (broken : LineageBreak) :
    Except CheckpointError Unit := do
  refuse (!validIdentifier broken.afterID)
    (.invalidCheckpoint "lineage break names no checkpoint")
  match broken.reason with
  | .pointerInvalid | .recordMissing | .recordInvalid | .parentBroken
  | .digestMismatch | .depthExhausted | .lineageEvicted => pure ()
  | .none | .noPointer =>
      throw (.invalidCheckpoint "lineage break gives no reason")

/-- The record without its own address. -/
def checkpointBody (checkpoint : Checkpoint) : Checkpoint :=
  { checkpoint with digest := "" }

/-- A record either continues a lineage or starts one. -/
def validateParent (checkpoint : Checkpoint) :
    Except CheckpointError Unit :=
  if checkpoint.parent = "" then do
    refuse (checkpoint.parentDigest ≠ "")
      (.invalidCheckpoint "genesis carries a parent digest")
    match checkpoint.lineageBreak with
    | none => pure ()
    | some broken => do
        broken.validate
        refuse (broken.afterID = checkpoint.id)
          (.invalidCheckpoint "checkpoint breaks from itself")
  else do
    refuse (checkpoint.lineageBreak.isSome = true)
      (.invalidCheckpoint "a continued lineage carries a break")
    refuse
      (validIdentifier checkpoint.parent = false ∨
        checkpoint.parentDigest.utf8ByteSize ≠ 64)
      (.invalidCheckpoint "parent binding")
    refuse (checkpoint.parent = checkpoint.id)
      (.invalidCheckpoint "checkpoint is its own parent")

/-- The top-level watermark says something other than the snapshot's. -/
def disagrees (watermark carried : SourceWatermark) : Bool :=
  decide (watermark.source ≠ carried.source) ||
    decide (watermark.bootID ≠ carried.bootID) ||
    decide (watermark.lastSequence ≠ carried.lastSequence) ||
    decide (watermark.conflicts ≠ carried.conflicts) ||
    decide (watermark.awaitingBaseline ≠ carried.awaitingBaseline) ||
    decide
      (watermark.pendingBaseline.length ≠ carried.pendingBaseline.length) ||
    decide (watermark.gaps.length ≠ carried.gaps.length)

/-- The carried snapshot must be the one the record names. -/
def validateSnapshot (digests : Digests) (checkpoint : Checkpoint) :
    Except CheckpointError Unit := do
  checkpoint.snapshot.validate.mapError fun _ =>
    .invalidCheckpoint "snapshot"
  match digests.snapshot checkpoint.snapshot with
  | none => throw (.invalidCheckpoint "snapshot digest")
  | some digest =>
      refuse (digest ≠ checkpoint.snapshotDigest)
        (.invalidCheckpoint "snapshot does not match its digest")
  refuse (checkpoint.snapshot.generation ≠ checkpoint.snapshotGeneration)
    (.invalidCheckpoint "snapshot generation")
  refuse
    (checkpoint.snapshot.consumedFoldPosition ≠ checkpoint.consumedTo)
    (.invalidCheckpoint "consumed watermark")
  refuse
    (checkpoint.sourceWatermarks.length ≠ checkpoint.snapshot.sources.length)
    (.invalidCheckpoint "watermark count")
  (checkpoint.sourceWatermarks.zip checkpoint.snapshot.sources).forM
    fun (watermark, carried) =>
      refuse (disagrees watermark carried)
        (.invalidCheckpoint
          ("watermark " ++ watermark.source ++
            " disagrees with the snapshot"))

/-- Reject a record that is internally inconsistent or whose address does not
match its content. -/
def Checkpoint.validate (digests : Digests) (checkpoint : Checkpoint) :
    Except CheckpointError Unit := do
  refuse
    (checkpoint.schema ≠ checkpointSchema ∨
      checkpoint.version ≠ checkpointSchemaVersion)
    (.invalidCheckpoint "schema")
  refuse (!validIdentifier checkpoint.id) (.invalidCheckpoint "id")
  validateParent checkpoint
  refuse
    (checkpoint.snapshotGeneration = 0 ∨
      checkpoint.snapshotDigest.utf8ByteSize ≠ 64 ∨
        checkpoint.diffDigest.utf8ByteSize ≠ 64 ∨
          checkpoint.proposalsDigest.utf8ByteSize ≠ 64)
    (.invalidCheckpoint "output digests")
  refuse
    (checkpoint.reducerID ≠ Reduce.reducerID ∨
      checkpoint.reducerVersion ≠ Reduce.reducerVersion)
    (.invalidCheckpoint "reducer identity")
  refuse
    (checkpoint.consumedFrom ≠ 0 ∧
      checkpoint.consumedTo < checkpoint.consumedFrom)
    (.invalidCheckpoint "consumed range")
  validateSnapshot digests checkpoint
  match digests.record (checkpointBody checkpoint) with
  | none => throw (.invalidCheckpoint "encoding")
  | some expected =>
      refuse (expected ≠ checkpoint.digest) (.invalidCheckpoint "digest")

/-- Compute and attach the record's own address. -/
def sealCheckpoint (digests : Digests) (checkpoint : Checkpoint) :
    Except CheckpointError Checkpoint :=
  let body :=
    { checkpoint with
      schema := checkpointSchema
      version := checkpointSchemaVersion }
  match digests.record (checkpointBody body) with
  | none => throw (.invalidCheckpoint "encoding")
  | some digest => do
      let sealed := { body with digest := digest }
      sealed.validate digests
      pure sealed

/-- Build the checkpoint one reduction produced.  A parent and a break
exclude each other; neither is genesis. -/
def sealFrom
    (digests : Digests) (parent : Option Checkpoint)
    (broken : Option LineageBreak) (id : String) (output : Output)
    (consumedFrom : Nat) (wake : Option Wake) :
    Except CheckpointError Checkpoint :=
  match digests.snapshot output.snapshot, digests.diff output.diff,
      digests.proposals output.proposals with
  | some snapshotDigest, some diffDigest, some proposalsDigest =>
      sealCheckpoint digests
        { schema := ""
          version := 0
          id := id
          parent := (parent.map (·.id)).getD ""
          parentDigest := (parent.map (·.digest)).getD ""
          lineageBreak := if parent.isSome then none else broken
          priorSnapshotDigest := (parent.map (·.snapshotDigest)).getD ""
          wake := wake
          consumedFrom := consumedFrom
          consumedTo := output.snapshot.consumedFoldPosition
          sourceWatermarks := output.snapshot.sources
          policy := output.snapshot.policy
          reducerID := Reduce.reducerID
          reducerVersion := Reduce.reducerVersion
          snapshotGeneration := output.snapshot.generation
          snapshotDigest := snapshotDigest
          snapshot := output.snapshot
          diffDigest := diffDigest
          proposalsDigest := proposalsDigest
          digest := "" }
  | _, _, _ => throw (.invalidCheckpoint "encoding")

end Hexroute.Lineage
