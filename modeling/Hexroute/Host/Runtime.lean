import Hexroute.Lineage.Resume
import Hexroute.Reduce.Agreement
import Hexroute.Host.Journal

/-!
# The connectivity runtime

The runtime joins acceptance, reduction, journalling and checkpointing.  A
publication accepts facts, writes each decision to the journal of its domain
and queues it; a tick folds the queue and checkpoints what changed; startup
resumes from the stored lineage and accepts again what the journals hold
beyond it.
-/

namespace Hexroute.Host

open Hexroute.Connectivity
open Hexroute.Lib
open Hexroute.Accept (Acceptance Event Outcome Rejection State StateError)
open Hexroute.Lineage (Checkpoint CheckpointError Digests LineageBreak
  Operation ResumeReason Store)
open Hexroute.Reduce (ComponentPolicy Output PolicyDescriptor ReduceError
  Snapshot Wake)

/-- The policy contracts the read model depends on. -/
structure Preconditions where
  atomicPolicyStartup : Bool
  domainMismatch : Bool
  suspension : Bool
  redactedStatus : Bool
  deriving DecidableEq, Repr

/-- The first unmet precondition, or an empty string. -/
def Preconditions.missing (preconditions : Preconditions) : String :=
  if !preconditions.atomicPolicyStartup then
    "atomic policy startup revalidation"
  else if !preconditions.domainMismatch then
    "domain mismatch handling"
  else if !preconditions.suspension then
    "authorization suspension handling"
  else if !preconditions.redactedStatus then
    "redacted local status"
  else
    ""

inductive RuntimeError where
  | disabled
  | misconfigured (detail : String)
  | retainedRecord (hostSequence : Nat) (rejection : Option Rejection)
  | unknownDomain (domain : Domain)
  | precondition (missing : String)
  | journal (error : JournalError)
  | acceptor (error : StateError)
  | reduction (error : ReduceError)
  | checkpoint (error : CheckpointError)
  deriving DecidableEq, Repr

/-- What the runtime takes from outside: the digests and lengths of
encodings, and how far the store walks back at startup. -/
structure Environment where
  digest : Fact → Option String
  digests : Digests
  size : Checkpoint → Nat
  depth : Nat

structure Options where
  enabled : Bool
  preconditions : Preconditions
  bootID : String
  checkpoints : Option Store
  rootJournal : Option Journal
  userJournal : Option Journal
  /-- Whether a source of randomness was given. -/
  random : Bool

/-- The host's read model.  `consumed` is the folded watermark and `accepted`
the host one. -/
structure Runtime where
  enabled : Bool
  bootID : String
  store : Store
  journals : Domain → Option Journal
  acceptor : State
  snapshot : Option Snapshot := none
  parent : Option Checkpoint := none
  broken : Option LineageBreak := none
  pending : List Event := []
  consumed : Nat := 0
  accepted : Nat := 0

/-- The order in which startup accepts records again.  Go gathers the
journals in map order and sorts with an unstable sort, so all it promises is
a permutation that rises with the host sequence. -/
structure Arrangement where
  arrange : List Record → List Record
  perm : ∀ records, (arrange records).Perm records
  ordered :
    ∀ records,
      (arrange records).Pairwise fun earlier later =>
        earlier.hostSequence ≤ later.hostSequence

section Startup

/-- The last host sequence and fold position the journals show as handed
out, read off the newest record of each. -/
def highestIssued (journals : Domain → Option Journal) : Nat × Nat :=
  let newest :=
    [Domain.root, Domain.user].filterMap fun domain =>
      (journals domain).bind Journal.newest
  ((newest.map Record.hostSequence).foldl max 0,
    (newest.map Record.foldPosition).foldl max 0)

/-- The records one domain's journal holds beyond a watermark. -/
def heldAfter
    (journals : Domain → Option Journal) (watermark : Nat)
    (domain : Domain) : List Record :=
  match journals domain with
  | none => []
  | some journal => (journal.recordsAfter watermark).1

/-- The records of all journals beyond a watermark. -/
def recordsBeyond (journals : Domain → Option Journal) (watermark : Nat) :
    List Record :=
  [Domain.root, Domain.user].flatMap (heldAfter journals watermark)

/-- Decide about retained records again, in the given order. -/
def reaccept (digest : Fact → Option String) :
    State → List Record → Except RuntimeError (List Event × State)
  | acceptor, [] => pure ([], acceptor)
  | acceptor, record :: rest =>
      match Accept.accept digest acceptor record.fact record.fact.domain with
      | .error rejection =>
          throw (.retainedRecord record.hostSequence (some rejection))
      | .ok (acceptance, next) => do
          refuse (acceptance.outcome = .rejected)
            (.retainedRecord record.hostSequence none)
          let (events, final) ← reaccept digest next rest
          pure (⟨acceptance, record.fact⟩ :: events, final)

/-- Accept again the facts the journals hold beyond the checkpoint. -/
def Runtime.resumeUnfolded
    (environment : Environment) (arrangement : Arrangement)
    (runtime : Runtime) (checkpoint : Checkpoint) :
    Except RuntimeError Runtime := do
  let records :=
    arrangement.arrange
      (recordsBeyond runtime.journals checkpoint.consumedTo)
  let (events, acceptor) ←
    reaccept environment.digest runtime.acceptor records
  pure
    { runtime with
      acceptor := acceptor
      pending := runtime.pending ++ events }

/-- Continue from a checkpoint the store could prove. -/
def Runtime.resumeFrom
    (environment : Environment) (arrangement : Arrangement)
    (runtime : Runtime) (checkpoint : Checkpoint) :
    Except RuntimeError Runtime := do
  let acceptor ←
    (Reduce.restoreAcceptor checkpoint.snapshot
      checkpoint.sourceWatermarks).mapError .acceptor
  Runtime.resumeUnfolded environment arrangement
    { runtime with
      snapshot := some checkpoint.snapshot
      parent := some checkpoint
      consumed := checkpoint.snapshot.consumedFoldPosition
      accepted := checkpoint.snapshot.consumedHostSequence
      acceptor := acceptor }
    checkpoint

/-- Which lineage the next checkpoint has to say it abandons. -/
def abandoned (store : Store) (reason : ResumeReason) :
    Except RuntimeError (Option LineageBreak) :=
  match store.pointerLocked with
  | .error .notFound => pure none
  | .error error => throw (.checkpoint error)
  | .ok pointer =>
      pure
        (some
          { afterID := pointer.id
            reason := if reason = .none then .recordInvalid else reason })

/-- Start from an empty read model, above everything already written. -/
def Runtime.startOver (runtime : Runtime) (reason : ResumeReason) :
    Except RuntimeError Runtime := do
  let (issued, folded) := highestIssued runtime.journals
  let acceptor ←
    (Accept.restore
      { hostSequence := issued
        foldPosition := folded
        sources := ∅ }).mapError .acceptor
  let broken ← abandoned runtime.store reason
  pure
    { runtime with
      acceptor := acceptor
      consumed := folded
      accepted := issued
      broken := broken }

/-- Resume from the stored lineage, or start over when nothing in it can be
proved. -/
def Runtime.start
    (environment : Environment) (arrangement : Arrangement)
    (runtime : Runtime) : Except RuntimeError Runtime := do
  let resume ←
    (runtime.store.resume environment.digests environment.size
      environment.depth).mapError .checkpoint
  match resume.checkpoint.filter fun _ => resume.usable with
  | some checkpoint =>
      runtime.resumeFrom environment arrangement checkpoint
  | none => runtime.startOver resume.reason

/-- The journals of an enabled runtime. -/
def Options.journals (options : Options) : Domain → Option Journal
  | .root => options.rootJournal
  | .user => options.userJournal

/-- Prepare the runtime.  A disabled one touches no store and holds no
state. -/
def Runtime.new
    (environment : Environment) (arrangement : Arrangement)
    (options : Options) : Except RuntimeError Runtime :=
  if !options.enabled then
    pure
      { enabled := false
        bootID := options.bootID
        store := options.checkpoints.getD Store.empty
        journals := fun _ => none
        acceptor := State.new }
  else do
    refuse (options.preconditions.missing ≠ "")
      (.precondition options.preconditions.missing)
    match options.checkpoints with
    | none =>
        throw
          (.misconfigured
            "boot identity, checkpoints, root journal and randomness are required")
    | some store => do
        refuse
          (options.bootID = "" ∨ options.rootJournal = none ∨
            options.random = false)
          (.misconfigured
            "boot identity, checkpoints, root journal and randomness are required")
        Runtime.start environment arrangement
          { enabled := true
            bootID := options.bootID
            store := store
            journals := options.journals
            acceptor := State.new }

end Startup

section Publication

/-- What one publication turned into. -/
structure Report where
  accepted : UInt16 := 0
  duplicates : UInt16 := 0
  conflicts : UInt16 := 0
  stale : UInt16 := 0
  rejected : UInt16 := 0
  watermark : Nat := 0
  deriving DecidableEq, Repr

def Report.count (report : Report) : Outcome → Report
  | .accepted => { report with accepted := report.accepted + 1 }
  | .duplicate => { report with duplicates := report.duplicates + 1 }
  | .conflict => { report with conflicts := report.conflicts + 1 }
  | .stale => { report with stale := report.stale + 1 }
  | .rejected => { report with rejected := report.rejected + 1 }

/-- How far a publication has come. -/
structure Publication where
  report : Report := {}
  acceptor : State
  journal : Journal
  pending : List Event

/-- A fact offered for publication, and whether the spool takes its
record. -/
abbrev Offer := Fact × Bool

/-- The publication loop.  The acceptor is advanced before the journal is
written and the event is queued after it, so a failed write leaves an
acceptor that has moved and a queue that has not. -/
def publishFacts (digest : Fact → Option String) (domain : Domain) :
    Publication → List Offer → Option JournalError × Publication
  | publication, [] => (none, publication)
  | publication, (fact, writes) :: rest =>
      match Accept.accept digest publication.acceptor fact domain with
      | .error _ =>
          publishFacts digest domain
            { publication with report := publication.report.count .rejected }
            rest
      | .ok (acceptance, acceptor) =>
          if acceptance.outcome = .rejected then
            publishFacts digest domain
              { publication with
                report := publication.report.count .rejected
                acceptor := acceptor }
              rest
          else
            match
              publication.journal.append digest writes fact
                acceptance.hostSequence acceptance.foldPosition
                acceptance.outcome acceptance.role with
            | .error error =>
                (some error, { publication with acceptor := acceptor })
            | .ok journal =>
                publishFacts digest domain
                  { report := publication.report.count acceptance.outcome
                    acceptor := acceptor
                    journal := journal
                    pending := publication.pending ++ [⟨acceptance, fact⟩] }
                  rest

/-- Offer facts from one authenticated domain. -/
def Runtime.publish
    (environment : Environment) (runtime : Runtime) (offers : List Offer)
    (authenticatedDomain : Domain) :
    Report × Option RuntimeError × Runtime :=
  if !runtime.enabled then
    ({}, some .disabled, runtime)
  else
    match runtime.journals authenticatedDomain with
    | none => ({}, some (.unknownDomain authenticatedDomain), runtime)
    | some journal =>
        let (failure, publication) :=
          publishFacts environment.digest authenticatedDomain
            { acceptor := runtime.acceptor
              journal := journal
              pending := runtime.pending }
            offers
        let published :=
          { runtime with
            acceptor := publication.acceptor
            journals :=
              Function.update runtime.journals authenticatedDomain
                (some publication.journal)
            pending := publication.pending }
        match failure with
        | some error => (publication.report, some (.journal error), published)
        | none =>
            ({ publication.report with
                watermark := publication.acceptor.hostSequence },
              none, published)

end Publication

section Ticks

/-- The time and policy context for one reduction. -/
structure TickInput where
  policy : PolicyDescriptor
  policyComponents : List ComponentPolicy
  evaluationTick : Tick
  wake : Option Wake := none
  deriving DecidableEq, Repr

/-- What a tick gives the reduction. -/
def Runtime.reduction (runtime : Runtime) (input : TickInput) :
    Reduce.Input :=
  { prior := runtime.snapshot
    events := runtime.pending
    policy := input.policy
    policyComponents := input.policyComponents
    bootID := runtime.bootID
    priorFolded := runtime.consumed
    priorConsumed := runtime.accepted
    evaluationTick := input.evaluationTick
    wake := input.wake }

/-- The runtime after its queue has been folded. -/
def Runtime.folded (runtime : Runtime) (output : Output) : Runtime :=
  { runtime with
    pending := []
    snapshot := some output.snapshot
    consumed := output.snapshot.consumedFoldPosition
    accepted := output.snapshot.consumedHostSequence }

/-- Checkpoint an effective reduction.  `before` is the folded watermark it
started from, and `id` the fresh identity, if randomness gave one. -/
def Runtime.checkpoint
    (environment : Environment) (fires : Operation → Boundary → Bool)
    (id : Option String) (runtime : Runtime) (before : Nat)
    (output : Output) (wake : Option Wake) :
    Option RuntimeError × Runtime :=
  match id with
  | none => (some (.misconfigured "identity"), runtime)
  | some id =>
      match
        Lineage.sealFrom environment.digests runtime.parent runtime.broken id
          output
          (if output.snapshot.consumedFoldPosition > before then before + 1
            else 0)
          wake with
      | .error error => (some (.checkpoint error), runtime)
      | .ok checkpoint =>
          match
            runtime.store.append environment.digests environment.size fires
              checkpoint with
          | (.error error, store) =>
              (some (.checkpoint error), { runtime with store := store })
          | (.ok (), store) =>
              (none,
                { runtime with
                  store := store
                  parent := some checkpoint
                  broken := none })

/-- Fold everything published since the last reduction. -/
def Runtime.tick
    (environment : Environment) (fires : Operation → Boundary → Bool)
    (id : Option String) (runtime : Runtime) (input : TickInput) :
    Option Output × Option RuntimeError × Runtime :=
  if !runtime.enabled then
    (none, some .disabled, runtime)
  else
    match
      Reduce.reduce environment.digests.toHashes (runtime.reduction input) with
    | .error error => (none, some (.reduction error), runtime)
    | .ok output =>
        if !output.changed then
          (some output, none, runtime.folded output)
        else
          let (failure, checkpointed) :=
            Runtime.checkpoint environment fires id (runtime.folded output)
              runtime.consumed output input.wake
          (some output, failure, checkpointed)

end Ticks

/-- One call of a run, with what its environment does: which records the
spool takes, the identity randomness gives, and the faults of the store. -/
inductive Step where
  | publish (offers : List Offer) (domain : Domain)
  | tick (input : TickInput) (id : Option String)
      (fires : Operation → Boundary → Bool)

def Runtime.step (environment : Environment) (runtime : Runtime) :
    Step → Runtime
  | .publish offers domain =>
      (runtime.publish environment offers domain).2.2
  | .tick input id fires =>
      (runtime.tick environment fires id input).2.2

/-- A sequence of calls. -/
def Runtime.run (environment : Environment) (runtime : Runtime)
    (steps : List Step) : Runtime :=
  steps.foldl (Runtime.step environment) runtime

end Hexroute.Host
