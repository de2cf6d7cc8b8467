import Hexroute.Lib.Directory
import Hexroute.Lib.StableSort
import Hexroute.Lib.Table
import Hexroute.Lineage.Checkpoint

/-!
# The checkpoint store

Appending a checkpoint makes three durable writes: the record, the lineage
entry that names it, and the pointer to the newest entry.  JSON is read back
as it was written, so a directory holds the values themselves; what remains
of the encoding is its length, the parameter `size`.
-/

namespace Hexroute.Lineage

open Hexroute.Lib

/-- Which of the three durable writes is in progress. -/
inductive Operation where
  | checkpoint
  | index
  | pointer
  deriving DecidableEq, Repr

/-- One append-only lineage record. -/
structure IndexEntry where
  schema : String
  sequence : Nat
  id : String
  parent : String
  digest : String
  generation : Nat
  consumedTo : Nat
  deriving DecidableEq, Repr

/-- The newest checkpoint the store believes in. -/
structure Pointer where
  schema : String
  id : String
  digest : String
  generation : Nat
  sequence : Nat
  overflow : Bool
  deriving DecidableEq, Repr

def pointerName : String := "latest.json"

/-- The file of a lineage entry, as `%020d.json` prints its sequence. -/
def indexName (sequence : Nat) : String :=
  let digits := Nat.toDigits 10 sequence
  String.ofList (List.replicate (20 - digits.length) '0' ++ digits) ++ ".json"

/-- The durable read-model lineage on disk: records by identity, entries by
sequence, and the pointer. -/
structure Store where
  checkpoints : Directory String Checkpoint
  index : Directory Nat IndexEntry
  root : Directory String Pointer

def Store.empty : Store :=
  ⟨Directory.empty, Directory.empty, Directory.empty⟩

/-- A lineage entry is usable on its own terms. -/
def IndexEntry.readable (entry : IndexEntry) : Bool :=
  decide (entry.schema = indexSchema) && validIdentifier entry.id &&
    decide (entry.digest.utf8ByteSize = 64)

/-- The retained lineage entries, oldest first. -/
def Store.indexLocked (store : Store) :
    Except CheckpointError (List IndexEntry) := do
  (values store.index.published).forM fun entry =>
    refuse (entry.readable = false) (.invalidCheckpoint "index entry")
  pure (sortBy IndexEntry.sequence (values store.index.published))

def Pointer.readable (pointer : Pointer) : Bool :=
  decide (pointer.schema = pointerSchema) && validIdentifier pointer.id &&
    decide (pointer.digest.utf8ByteSize = 64) &&
    decide (pointer.generation ≠ 0) && decide (pointer.sequence ≠ 0)

def Store.pointerLocked (store : Store) : Except CheckpointError Pointer :=
  match store.root.published[pointerName]? with
  | none => throw .notFound
  | some pointer => do
      refuse (pointer.readable = false) (.invalidCheckpoint "pointer")
      pure pointer

/-- One checkpoint by identity, with its own address verified.  Go also
refuses an empty file, which no write publishes. -/
def Store.load
    (digests : Digests) (size : Checkpoint → Nat) (store : Store)
    (id : String) : Except CheckpointError Checkpoint := do
  refuse (!validIdentifier id) (.invalidCheckpoint "id")
  match store.checkpoints.published[id]? with
  | none => throw .notFound
  | some checkpoint => do
      refuse (maxCheckpointBytes < size checkpoint)
        (.invalidCheckpoint "size")
      checkpoint.validate digests
      refuse (checkpoint.id ≠ id)
        (.invalidCheckpoint
          ("record " ++ checkpoint.id ++ " is filed as " ++ id))
      pure checkpoint

/-- What the store has to append onto. -/
structure Latest where
  id : String
  digest : String
  generation : Nat
  sequence : Nat
  overflow : Bool
  deriving DecidableEq, Repr

/-- Prefer the pointer and fall back to the lineage. -/
def Store.latestLocked (store : Store) :
    Except CheckpointError (Option Latest) :=
  match store.pointerLocked with
  | .ok pointer =>
      pure
        (some
          { id := pointer.id
            digest := pointer.digest
            generation := pointer.generation
            sequence := pointer.sequence
            overflow := pointer.overflow })
  | .error _ => do
      let entries ← store.indexLocked
      pure
        (entries.getLast?.map fun newest =>
          { id := newest.id
            digest := newest.digest
            generation := newest.generation
            sequence := newest.sequence
            -- A retained lineage that no longer starts at one was trimmed.
            overflow :=
              entries.head?.any fun oldest => decide (oldest.sequence > 1) })

/-- A checkpoint continues what is stored, breaks from it by name, or is the
first. -/
def generationGuard (latest : Option Latest) (checkpoint : Checkpoint) :
    Except GuardRefusal Unit :=
  match latest with
  | some latest =>
      if checkpoint.parent = "" then
        match checkpoint.lineageBreak with
        | none => throw (.parent checkpoint.parent latest.id)
        | some broken =>
            refuse (broken.afterID ≠ latest.id)
              (.breakNames broken.afterID latest.id)
      else do
        refuse (checkpoint.lineageBreak.isSome = true) .continuedWithBreak
        refuse (checkpoint.parent ≠ latest.id)
          (.parent checkpoint.parent latest.id)
        refuse (checkpoint.parentDigest ≠ latest.digest) .parentDigest
        refuse (checkpoint.snapshotGeneration < latest.generation)
          (.behind checkpoint.snapshotGeneration latest.generation)
  | none => do
      refuse (checkpoint.parent ≠ "") .firstWithParent
      refuse (checkpoint.lineageBreak.isSome = true) .firstWithBreak

/-- Everything checked before the first write; the result is what the
checkpoint is appended onto. -/
def Store.prepare
    (digests : Digests) (size : Checkpoint → Nat) (store : Store)
    (checkpoint : Checkpoint) :
    Except CheckpointError (Option Latest) := do
  checkpoint.validate digests
  let latest ← store.latestLocked
  (generationGuard latest checkpoint).mapError .generationGuard
  refuse (maxCheckpointBytes < size checkpoint)
    (.invalidCheckpoint "record too large")
  pure latest

/-- The lineage entry that names a checkpoint. -/
def entryFor (sequence : Nat) (checkpoint : Checkpoint) : IndexEntry :=
  { schema := indexSchema
    sequence := sequence
    id := checkpoint.id
    parent := checkpoint.parent
    digest := checkpoint.digest
    generation := checkpoint.snapshotGeneration
    consumedTo := checkpoint.consumedTo }

def pointerFor (sequence : Nat) (overflow : Bool) (checkpoint : Checkpoint) :
    Pointer :=
  { schema := pointerSchema
    id := checkpoint.id
    digest := checkpoint.digest
    generation := checkpoint.snapshotGeneration
    sequence := sequence
    overflow := overflow }

/-- Keep the lineage bounded; the flag says that something was dropped. -/
def Store.evictIndexLocked (store : Store) :
    Except CheckpointError (Bool × Store) := do
  let entries ← store.indexLocked
  let evicted := entries.take (entries.length - maxIndexEntries)
  pure
    (!evicted.isEmpty,
      { store with
        index :=
          { store.index with
            published :=
              eraseAll IndexEntry.sequence store.index.published
                evicted } })

/-- The error a write ended in, if any. -/
def wrote (written : Written) (name : String) :
    Except CheckpointError Unit :=
  match written with
  | .done => pure ()
  | .interrupted => throw .injectedFault
  | .nameTaken => throw (.storeUnavailable ("publish " ++ name))

/-- Move the pointer. -/
def Store.writePointer
    (fires : Operation → Boundary → Bool) (store : Store) (next : Pointer) :
    Except CheckpointError Unit × Store :=
  let (written, root) :=
    store.root.write (fires .pointer) true pointerName next
  (wrote written pointerName, { store with root := root })

/-- Add the lineage entry, trim the lineage, then move the pointer. -/
def Store.writeEntry
    (fires : Operation → Boundary → Bool) (store : Store)
    (latest : Option Latest) (checkpoint : Checkpoint) :
    Except CheckpointError Unit × Store :=
  let sequence := (latest.map (·.sequence)).getD 0 + 1
  let (written, index) :=
    store.index.write (fires .index) false sequence
      (entryFor sequence checkpoint)
  let entered := { store with index := index }
  match wrote written (indexName sequence) with
  | .error error => (.error error, entered)
  | .ok () =>
      match entered.evictIndexLocked with
      | .error error => (.error error, entered)
      | .ok (overflow, trimmed) =>
          trimmed.writePointer fires
            (pointerFor sequence
              ((latest.map (·.overflow)).getD false || overflow) checkpoint)

/-- The record first, then the lineage entry, then the pointer. -/
def Store.publish
    (fires : Operation → Boundary → Bool) (store : Store)
    (latest : Option Latest) (checkpoint : Checkpoint) :
    Except CheckpointError Unit × Store :=
  let (written, checkpoints) :=
    store.checkpoints.write (fires .checkpoint) false checkpoint.id
      checkpoint
  let recorded := { store with checkpoints := checkpoints }
  match wrote written (checkpoint.id ++ ".json") with
  | .error error => (.error error, recorded)
  | .ok () => recorded.writeEntry fires latest checkpoint

/-- Add a checkpoint to the lineage. -/
def Store.append
    (digests : Digests) (size : Checkpoint → Nat)
    (fires : Operation → Boundary → Bool) (store : Store)
    (checkpoint : Checkpoint) : Except CheckpointError Unit × Store :=
  match store.prepare digests size checkpoint with
  | .error error => (.error error, store)
  | .ok latest => store.publish fires latest checkpoint

/-- Production leaves the faults empty. -/
def noFaults (_ : Operation) : Boundary → Bool :=
  unfaulted

end Hexroute.Lineage
