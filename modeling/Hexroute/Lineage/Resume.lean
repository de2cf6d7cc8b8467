import Hexroute.Lineage.Store

/-!
# Resuming from the stored lineage

Startup walks backwards from the pointer, or from the newest lineage entry
when there is no pointer, to the first checkpoint whose record and retained
ancestry it can prove.
-/

namespace Hexroute.Lineage

open Hexroute.Lib

inductive ResumeStatus where
  | genesis
  | latest
  | recoveredAncestor
  | unrecoverable
  deriving DecidableEq, Repr

/-- What startup concluded about the stored lineage. -/
structure Resume where
  status : ResumeStatus
  reason : ResumeReason
  checkpoint : Option Checkpoint := none
  depth : Nat := 0
  lineageOverflow : Bool := false
  deriving DecidableEq, Repr

/-- Whether a checkpoint may be resumed from. -/
def Resume.usable (resume : Resume) : Bool :=
  resume.checkpoint.isSome &&
    (decide (resume.status = .latest) ||
      decide (resume.status = .recoveredAncestor))

section Search

variable (digests : Digests) (size : Checkpoint → Nat) (store : Store)

/-- Walk the retained ancestry of a record, at most `steps` links. -/
def Store.proveAncestry (overflow : Bool) :
    (steps : Nat) → Checkpoint → ResumeReason
  | 0, _ => .none
  | steps + 1, current =>
      if current.parent = "" then
        .none
      else
        match store.load digests size current.parent with
        | .error .notFound => if overflow then .none else .parentBroken
        | .error _ => .recordInvalid
        | .ok parent =>
            if parent.digest ≠ current.parentDigest then .parentBroken
            else Store.proveAncestry overflow steps parent

/-- The entry and the record name the same thing. -/
def IndexEntry.matches (entry : IndexEntry) (checkpoint : Checkpoint) :
    Bool :=
  decide (checkpoint.digest = entry.digest) &&
    decide (checkpoint.parent = entry.parent) &&
    decide (checkpoint.snapshotGeneration = entry.generation) &&
    decide (checkpoint.consumedTo = entry.consumedTo)

/-- Verify one candidate and its retained ancestry. -/
def Store.proveLocked
    (depth : Nat) (overflow : Bool) (entry : IndexEntry) :
    Except ResumeReason Checkpoint :=
  match store.load digests size entry.id with
  | .error .notFound => throw .recordMissing
  | .error _ => throw .recordInvalid
  | .ok checkpoint =>
      if !entry.matches checkpoint then
        throw .digestMismatch
      else
        match store.proveAncestry digests size overflow depth checkpoint with
        | .none => pure checkpoint
        | failure => throw failure

/-- Walk backwards over the candidates, newest first.  `tried` counts the
candidates already refused. -/
def Store.searchLocked
    (depth : Nat) (overflow : Bool) (initial : ResumeReason) :
    (tried : Nat) → (reason firstFailure : ResumeReason) →
      List IndexEntry → Resume
  | tried, reason, firstFailure, candidates =>
      if depth < tried then
        { status := .unrecoverable
          reason := .depthExhausted
          depth := depth
          lineageOverflow := overflow }
      else
        match candidates with
        | [] =>
            { status := .unrecoverable
              reason :=
                if overflow then .lineageEvicted
                else if reason = .none then .recordMissing
                else reason
              depth := tried
              lineageOverflow := overflow }
        | entry :: rest =>
            match store.proveLocked digests size depth overflow entry with
            | .ok candidate =>
                { status :=
                    if tried = 0 ∧ initial = .none then .latest
                    else .recoveredAncestor
                  reason :=
                    if initial = .none then firstFailure else initial
                  checkpoint := some candidate
                  depth := tried
                  lineageOverflow := overflow }
            | .error failure =>
                Store.searchLocked depth overflow initial (tried + 1)
                  (if reason = .none ∨ 0 < tried then failure else reason)
                  (if firstFailure = .none then failure else firstFailure)
                  rest

/-- The candidates from the pointer's entry backwards; without one, all of
them. -/
def candidatesFrom (entries : List IndexEntry) (id : String) :
    List IndexEntry :=
  if entries.any (·.id = id) then
    entries.reverse.dropWhile (·.id ≠ id)
  else
    entries.reverse

/-- Validate the stored lineage and return the newest checkpoint it can
prove. -/
def Store.resume (depth : Nat) : Except CheckpointError Resume :=
  match store.pointerLocked with
  | .error error => do
      let entries ← store.indexLocked
      let reason : ResumeReason :=
        if error = .notFound then .noPointer else .pointerInvalid
      pure
        (if entries = [] then
          if error = .notFound then
            { status := .genesis, reason := .none }
          else
            { status := .unrecoverable, reason := .pointerInvalid }
        else
          store.searchLocked digests size depth false reason 0 reason .none
            entries.reverse)
  | .ok pointer => do
      let entries ← store.indexLocked
      pure
        (store.searchLocked digests size depth pointer.overflow .none 0
          .none .none (candidatesFrom entries pointer.id))

end Search

end Hexroute.Lineage
