import Hexroute.Accept.Run

/-!
# Connectivity snapshots

A snapshot keeps every configured component separately inspectable and a
summary beside them.  Fields keep the order and the words of the Go
structures; a source watermark is the acceptor's integrity record together
with the identity of its source.
-/

namespace Hexroute.Reduce

open Hexroute.Connectivity
open Hexroute.Safety
open Hexroute.Lib
open Hexroute.Accept (SourceIntegrity maxGapRanges)

def snapshotSchema : String := "hexroute.connectivity-snapshot.v1"

def snapshotSchemaVersion : Nat := 3

def reducerID : String := "hexroute.connectivity-reducer"

def reducerVersion : Nat := 4

/-- How much evidence one component retains. -/
def maxCorroborations : Nat := 8

/-- How many refusals one source retains. -/
def maxConflictRecords : Nat := 8

/-- What the aggregate concludes about a component. -/
inductive ComponentState where
  | unknown
  | ready
  | degraded
  | failed
  | stale
  | conflict
  | notApplicable
  deriving DecidableEq, Repr

/-- One non-owning source's opinion about a component. -/
structure Corroboration where
  source : SourceID
  lifecycle : Lifecycle
  reason : Connectivity.Reason
  agrees : Bool
  monotonicTick : Tick
  deriving DecidableEq, Repr

/-- The normalized view of one component. -/
structure ComponentRecord where
  component : Component
  state : ComponentState
  domain : Domain
  source : SourceID
  observed : Lifecycle
  reason : Connectivity.Reason
  payload : Payload
  bootID : String
  monotonicTick : Tick
  freshnessDeadline : Tick
  hostSequence : Nat
  hasBaseline : Bool
  rebaselineRequired : Bool
  conflicts : UInt32
  corroborations : List Corroboration
  deriving DecidableEq, Repr

/-- One source's position and integrity as the snapshot sees it. -/
structure SourceWatermark extends SourceIntegrity where
  source : SourceID
  domain : Domain
  role : SourceRole
  deriving DecidableEq, Repr

/-- One refusal to resolve a disagreement by overwriting. -/
structure ConflictRecord where
  source : SourceID
  component : Component
  sequence : Nat
  reason : Accept.Reason
  count : UInt32
  deriving DecidableEq, Repr

/-- The exact active policy a reduction was bound to. -/
structure PolicyDescriptor where
  present : Bool
  valid : Bool
  suspended : Bool
  bundleGeneration : Nat
  rootGeneration : Nat
  userGeneration : Nat
  manifestDigest : String
  deriving DecidableEq, Repr

/-- Whether this policy may back a desired state at all. -/
def PolicyDescriptor.authorized (descriptor : PolicyDescriptor) : Bool :=
  descriptor.present && descriptor.valid && !descriptor.suspended &&
    decide (descriptor.bundleGeneration > 0) &&
    decide (descriptor.manifestDigest ≠ "")

inductive Authorization where
  | authorized
  | unauthorized
  deriving DecidableEq, Repr

inductive AuthorizationReason where
  | none
  | absent
  | invalid
  | suspended
  | generationGap
  deriving DecidableEq, Repr

/-- The operator-facing summary of the whole host. -/
inductive AggregateState where
  | unknown
  | ready
  | degraded
  | failed
  deriving DecidableEq, Repr

structure Summary where
  state : AggregateState
  authorization : Authorization
  reason : AuthorizationReason
  ready : UInt16
  degraded : UInt16
  failed : UInt16
  stale : UInt16
  unknown : UInt16
  conflicted : UInt16
  notApplicable : UInt16
  openGaps : UInt16
  gapOverflow : Bool
  sourceConflicts : UInt16
  awaitingBaseline : UInt16
  conflictOverflow : Bool
  deriving DecidableEq, Repr

/-- The whole normalized read model at one generation. -/
structure Snapshot where
  schema : String
  version : Nat
  generation : Nat
  reducerID : String
  reducerVersion : Nat
  bootID : String
  evaluationTick : Tick
  policy : PolicyDescriptor
  authorization : Authorization
  reason : AuthorizationReason
  consumedHostSequence : Nat
  consumedFoldPosition : Nat
  components : List ComponentRecord
  sources : List SourceWatermark
  conflicts : List ConflictRecord
  summary : Summary
  deriving DecidableEq, Repr

/-- Why a reduction is refused, with the text the Go error wraps. -/
inductive ReduceError where
  | invalidInput (detail : String)
  | invalidFact (error : FactError)
  | pin (component : Component) (name : String)
  | cannotRequire (lifecycle : Lifecycle)
  | declaredTwice (component : Component)
  | noOwner (component : Component)
  | foldOutOfOrder (expected got : Nat)
  | hostOutOfOrder (expected got : Nat)
  | invalidSnapshot
  | invalidProposal (detail : String)
  | staleProposal (detail : String)
  deriving DecidableEq, Repr

/-- Reject a snapshot that this reducer could not have produced.  Go also
refuses a component state outside its closed set. -/
def Snapshot.validate (snapshot : Snapshot) : Except ReduceError Unit := do
  refuse
    (snapshot.schema ≠ snapshotSchema ∨
      snapshot.version ≠ snapshotSchemaVersion)
    .invalidSnapshot
  refuse
    (snapshot.reducerID ≠ Reduce.reducerID ∨
      snapshot.reducerVersion ≠ Reduce.reducerVersion)
    .invalidSnapshot
  refuse (snapshot.generation = 0) .invalidSnapshot
  refuse
    (snapshot.components.map (·.component) ≠ Connectivity.components)
    .invalidSnapshot
  refuse
    (∃ record ∈ snapshot.conflicts,
      snapshot.conflicts.countP (·.source = record.source) >
        maxConflictRecords)
    .invalidSnapshot
  refuse
    (∃ watermark ∈ snapshot.sources,
      watermark.gaps.length > maxGapRanges ∨
        watermark.gaps ≠ [] ∧ watermark.awaitingBaseline = false ∨
          watermark.pendingBaseline.length >
            (connectivitySourceComponents watermark.source).length)
    .invalidSnapshot
  refuse
    (∃ record ∈ snapshot.components,
      record.corroborations.length > maxCorroborations)
    .invalidSnapshot
  refuse
    (snapshot.authorization = .authorized ∧ snapshot.reason ≠ .none)
    .invalidSnapshot
  refuse
    (snapshot.authorization = .unauthorized ∧ snapshot.reason = .none)
    .invalidSnapshot

/-- What the checks of a snapshot establish. -/
structure Snapshot.Valid (snapshot : Snapshot) : Prop where
  schema :
    snapshot.schema = snapshotSchema ∧
      snapshot.version = snapshotSchemaVersion
  reducer :
    snapshot.reducerID = Reduce.reducerID ∧
      snapshot.reducerVersion = Reduce.reducerVersion
  generation : snapshot.generation ≠ 0
  components :
    snapshot.components.map (·.component) = Connectivity.components
  conflicts :
    ∀ record ∈ snapshot.conflicts,
      snapshot.conflicts.countP (·.source = record.source) ≤
        maxConflictRecords
  sources :
    ∀ watermark ∈ snapshot.sources,
      watermark.gaps.length ≤ maxGapRanges ∧
        (watermark.gaps ≠ [] → watermark.pendingBaseline ≠ []) ∧
          watermark.pendingBaseline.length ≤
            (connectivitySourceComponents watermark.source).length
  corroborations :
    ∀ record ∈ snapshot.components,
      record.corroborations.length ≤ maxCorroborations
  authorization :
    snapshot.authorization = .authorized ↔ snapshot.reason = .none

theorem Snapshot.validate_eq_ok_iff {snapshot : Snapshot} :
    snapshot.validate = .ok () ↔ snapshot.Valid := by
  have owes :
      ∀ watermark : SourceWatermark,
        watermark.awaitingBaseline = false ↔
          watermark.pendingBaseline = [] := by
    simp [Accept.SourceIntegrity.awaitingBaseline]
  have refused : snapshot.authorization = .unauthorized ↔
      snapshot.authorization ≠ .authorized := by
    cases snapshot.authorization <;> simp
  simp only [Snapshot.validate, bind_eq_ok_iff, refuse_eq_ok_iff, owes,
    refused, not_or, not_not, not_exists, not_and, not_lt, gt_iff_lt]
  constructor
  · rintro ⟨_, schema, _, reducer, _, generation, _, complete, _, conflicts,
      _, sources, _, corroborations, _, granted, denied⟩
    exact
      ⟨schema, reducer, generation, complete, conflicts, sources,
        corroborations, granted, fun unreasoned => by
          by_contra withheld
          exact denied withheld unreasoned⟩
  · rintro ⟨schema, reducer, generation, complete, conflicts, sources,
      corroborations, authorization⟩
    exact
      ⟨⟨⟩, schema, ⟨⟩, reducer, ⟨⟩, generation, ⟨⟩, complete, ⟨⟩, conflicts,
        ⟨⟩, sources, ⟨⟩, corroborations, ⟨⟩, authorization.mp,
        fun withheld unreasoned => withheld (authorization.mpr unreasoned)⟩

theorem components_of_validate
    {snapshot : Snapshot} (valid : snapshot.validate = .ok ()) :
    snapshot.components.map (·.component) = Connectivity.components :=
  (Snapshot.validate_eq_ok_iff.mp valid).components

end Hexroute.Reduce
