import Hexroute.Reduce.Tables

/-!
# Reduction

`reduce` folds an ordered batch of arrivals into a new snapshot, derives the
desired state, compares the two and states the proposals the comparison
implies.  It reads no clock and no file: the boot identity, the evaluation
tick and the policy are inputs.
-/

namespace Hexroute.Reduce

open Hexroute.Connectivity
open Hexroute.Safety
open Hexroute.Lib
open Hexroute.Accept (Event GapRange)

/-- A full-wake transition. -/
structure Wake where
  tick : Tick
  deriving DecidableEq, Repr

/-- Everything a reduction is allowed to see. -/
structure Input where
  prior : Option Snapshot
  events : List Event
  policy : PolicyDescriptor
  policyComponents : List ComponentPolicy
  bootID : String
  priorFolded : Nat := 0
  priorConsumed : Nat := 0
  evaluationTick : Tick
  wake : Option Wake := none
  deriving DecidableEq, Repr

structure Output where
  snapshot : Snapshot
  desired : DesiredState
  diff : Diff
  proposals : List Proposal
  changed : Bool
  deriving DecidableEq, Repr

/-- The events of a batch are checked in order. -/
def validateEvents : List Event → Except ReduceError Unit
  | [] => pure ()
  | event :: rest => do
      (validate event.fact).mapError ReduceError.invalidFact
      refuse (event.acceptance.outcome = .rejected)
        (.invalidInput "a rejected arrival was offered for reduction")
      validateEvents rest

/-- A caller may repeat the watermarks its prior snapshot states and may not
contradict them. -/
def validateWatermarks (input : Input) : Except ReduceError Unit :=
  match input.prior with
  | none => pure ()
  | some prior => do
      refuse
        (input.priorConsumed ≠ 0 ∧
          input.priorConsumed ≠ prior.consumedHostSequence)
        (.invalidInput
          "prior consumed watermark contradicts the snapshot")
      refuse
        (input.priorFolded ≠ 0 ∧
          input.priorFolded ≠ prior.consumedFoldPosition)
        (.invalidInput "prior folded watermark contradicts the snapshot")

/-- Monotonic time may not run backwards inside one boot. -/
def validatePrior (input : Input) : Except ReduceError Unit :=
  match input.prior with
  | none => pure ()
  | some prior => do
      prior.validate.mapError fun _ => .invalidInput "prior snapshot"
      refuse
        (prior.bootID = input.bootID ∧
          input.evaluationTick < prior.evaluationTick)
        (.invalidInput "monotonic tick moved backwards within one boot")

def validateInput (input : Input) : Except ReduceError Unit := do
  validateWatermarks input
  refuse (input.bootID = "" ∨ input.evaluationTick ≤ 0)
    (.invalidInput "time context")
  refuse (∃ wake ∈ input.wake, wake.tick ≤ 0) (.invalidInput "wake tick")
  validatePrior input
  validateEvents input.events

/-- The boot identity changed since the prior reduction. -/
def rebooted (input : Input) : Bool :=
  match input.prior with
  | some prior => decide (prior.bootID ≠ input.bootID)
  | none => false

/-- Withdraw the assumption that time-sensitive observations survived a sleep
or a reboot. -/
def markRebaseline
    (components : ComponentTable) (input : Input) : ComponentTable :=
  if input.wake.isNone && !rebooted input then
    components
  else
    fun component =>
      let record := components component
      if !component.timeSensitive then
        record
      else if record.hostSequence = 0 then
        record
      else
        { record with rebaselineRequired := true }

/-- The tables a reduction starts from. -/
def start (input : Input) : Tables :=
  { components := markRebaseline (newComponentTable input.prior) input
    sources := newSourceTable input.prior
    conflicts := newConflictTable input.prior
    consumed :=
      match input.prior with
      | some prior => prior.consumedHostSequence
      | none => input.priorConsumed
    folded :=
      match input.prior with
      | some prior => prior.consumedFoldPosition
      | none => input.priorFolded }

/-- Some generation of the descriptor is older than the earlier one's. -/
def PolicyDescriptor.movedBackFrom
    (descriptor earlier : PolicyDescriptor) : Bool :=
  decide (descriptor.bundleGeneration < earlier.bundleGeneration) ||
    decide (descriptor.rootGeneration < earlier.rootGeneration) ||
    decide (descriptor.userGeneration < earlier.userGeneration)

/-- Decide whether desired state may be derived at all. -/
def authorize
    (descriptor : PolicyDescriptor) (prior : Option Snapshot) :
    Authorization × AuthorizationReason :=
  if !descriptor.present then
    (.unauthorized, .absent)
  else if !descriptor.valid then
    (.unauthorized, .invalid)
  else if descriptor.suspended then
    (.unauthorized, .suspended)
  else if !descriptor.authorized then
    (.unauthorized, .invalid)
  else
    match prior with
    | some prior =>
        if prior.policy.present && descriptor.movedBackFrom prior.policy then
          (.unauthorized, .generationGap)
        else
          (.authorized, .none)
    | none => (.authorized, .none)

/-- The operator projection.  Counters are sixteen bits wide. -/
def summarize
    (records : List ComponentRecord) (watermarks : List SourceWatermark)
    (authorization : Authorization) (reason : AuthorizationReason)
    (conflictOverflow : Bool) : Summary :=
  let counted (state : ComponentState) :=
    UInt16.ofNat (records.countP (·.state = state))
  let openGaps :=
    UInt16.ofNat (watermarks.map fun watermark => watermark.gaps.length).sum
  let gapOverflow := watermarks.any (·.gapOverflow)
  let sourceConflicts :=
    UInt16.ofNat (watermarks.countP fun watermark => watermark.conflicts > 0)
  let awaitingBaseline :=
    UInt16.ofNat
      (watermarks.countP fun watermark => watermark.awaitingBaseline)
  let integrity :=
    decide (openGaps > 0) || gapOverflow || decide (awaitingBaseline > 0) ||
      decide (sourceConflicts > 0)
  { state :=
      if counted .failed > 0 then
        .failed
      else if counted .degraded > 0 ∨ counted .stale > 0 ∨
          counted .conflict > 0 ∨ integrity then
        .degraded
      else if counted .unknown > 0 then
        .unknown
      else
        .ready
    authorization := authorization
    reason := reason
    ready := counted .ready
    degraded := counted .degraded
    failed := counted .failed
    stale := counted .stale
    unknown := counted .unknown
    conflicted := counted .conflict
    notApplicable := counted .notApplicable
    openGaps := openGaps
    gapOverflow := gapOverflow
    sourceConflicts := sourceConflicts
    awaitingBaseline := awaitingBaseline
    conflictOverflow := conflictOverflow }

structure SemanticCorroboration where
  source : SourceID
  lifecycle : Lifecycle
  agrees : Bool
  deriving DecidableEq, Repr

structure SemanticComponent where
  component : Component
  state : ComponentState
  observed : Lifecycle
  reason : Connectivity.Reason
  payload : Payload
  hasBaseline : Bool
  rebaselineRequired : Bool
  conflicts : UInt32
  corroborations : List SemanticCorroboration
  deriving DecidableEq, Repr

structure SemanticSource where
  source : SourceID
  bootID : String
  gaps : List GapRange
  gapOverflow : Bool
  pendingBaseline : List Component
  conflicts : UInt32
  deriving DecidableEq, Repr

/-- The projection that decides whether a reduction changed anything.  It
omits the bookkeeping that moves on every batch. -/
structure Semantic where
  bootID : String
  policy : PolicyDescriptor
  authorization : Authorization
  reason : AuthorizationReason
  components : List SemanticComponent
  sources : List SemanticSource
  conflicts : List ConflictRecord
  summary : Summary
  deriving DecidableEq, Repr

def projectComponent (record : ComponentRecord) : SemanticComponent :=
  { component := record.component
    state := record.state
    observed := record.observed
    reason := record.reason
    payload := record.payload
    hasBaseline := record.hasBaseline
    rebaselineRequired := record.rebaselineRequired
    conflicts := record.conflicts
    corroborations :=
      record.corroborations.map fun entry =>
        ⟨entry.source, entry.lifecycle, entry.agrees⟩ }

def projectSource (watermark : SourceWatermark) : SemanticSource :=
  { source := watermark.source
    bootID := watermark.bootID
    gaps := watermark.gaps
    gapOverflow := watermark.gapOverflow
    pendingBaseline := watermark.pendingBaseline
    conflicts := watermark.conflicts }

def project (snapshot : Snapshot) : Semantic :=
  { bootID := snapshot.bootID
    policy := snapshot.policy
    authorization := snapshot.authorization
    reason := snapshot.reason
    components := snapshot.components.map projectComponent
    sources := snapshot.sources.map projectSource
    conflicts := snapshot.conflicts
    summary := snapshot.summary }

/-- The SHA-256 of canonical encodings.  An encoding over the size limit has
none. -/
structure Hashes where
  semantic : Semantic → Option String
  diff : Diff → Option String
  proposal : Proposal → Option String

/-- Whether the reduction was semantically effective. -/
def effective
    (hashes : Hashes) (prior : Option Snapshot) (next : Snapshot) :
    Except ReduceError Bool :=
  match prior with
  | none => pure true
  | some prior =>
      match hashes.semantic (project prior),
          hashes.semantic (project next) with
      | some before, some after => pure (decide (before ≠ after))
      | _, _ => throw .invalidSnapshot

/-- The snapshot a batch leaves, before its generation is known. -/
def render (input : Input) (tables : Tables) : Snapshot :=
  let records :=
    renderComponents tables.components tables.sources input.bootID
      input.evaluationTick
  let watermarks := renderSources tables.sources
  let (conflicts, conflictOverflow) := renderConflicts tables.conflicts
  let (authorization, reason) := authorize input.policy input.prior
  { schema := snapshotSchema
    version := snapshotSchemaVersion
    generation := 0
    reducerID := Reduce.reducerID
    reducerVersion := Reduce.reducerVersion
    bootID := input.bootID
    evaluationTick := input.evaluationTick
    policy := input.policy
    authorization := authorization
    reason := reason
    consumedHostSequence := tables.consumed
    consumedFoldPosition := tables.folded
    components := records
    sources := watermarks
    conflicts := conflicts
    summary :=
      summarize records watermarks authorization reason conflictOverflow }

/-- The generation of the prior snapshot, zero on a new host. -/
def priorGeneration (input : Input) : Nat :=
  match input.prior with
  | some prior => prior.generation
  | none => 0

/-- Fold an ordered batch of arrivals into a new snapshot. -/
def reduce (hashes : Hashes) (input : Input) :
    Except ReduceError Output := do
  validateInput input
  let tables ← foldEvents (start input) input.events
  let rendered := render input tables
  let changed ← effective hashes input.prior rendered
  let snapshot :=
    { rendered with
      generation :=
        if changed then priorGeneration input + 1
        else priorGeneration input }
  snapshot.validate
  let desired ← desire ⟨input.policy, input.policyComponents⟩
  let diff := snapshot.compare desired input.prior
  let proposals ← propose hashes.diff hashes.proposal snapshot diff
  pure
    { snapshot := snapshot
      desired := desired
      diff := diff
      proposals := proposals
      changed := changed }

end Hexroute.Reduce
