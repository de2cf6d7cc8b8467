import Hexroute.Reduce.Desired

/-!
# The diff

`Snapshot.compare` describes how every component stands against the desired state.
The prior snapshot is consulted only to tell a state policy has just stopped
permitting from one that was never permitted.
-/

namespace Hexroute.Reduce

open Hexroute.Connectivity

inductive Classification where
  | converged
  | missing
  | unexpected
  | divergent
  | stale
  | unknown
  | conflict
  | grandfathered
  deriving DecidableEq, Repr

inductive DiffReason where
  | none
  | notObserved
  | staleObservation
  | ownerConflict
  | nothingPresent
  | belowExpected
  | classMismatch
  | failed
  | degraded
  | notManaged
  | policyExcluded
  | unauthorized
  deriving DecidableEq, Repr

structure ComponentDiff where
  component : Component
  domain : Domain
  classification : Classification
  reason : DiffReason
  deriving DecidableEq, Repr

/-- The whole comparison at one snapshot generation. -/
structure Diff where
  schema : String
  version : Nat
  snapshotGeneration : Nat
  policy : PolicyDescriptor
  authorized : Bool
  components : List ComponentDiff
  deriving DecidableEq, Repr

def diffSchema : String := "hexroute.connectivity-diff.v1"

def diffSchemaVersion : Nat := 1

/-- The component's own payload says nothing is there. -/
def absent (record : ComponentRecord) : Bool :=
  match record.payload.physicalNetwork, record.payload.defaultPath,
      record.payload.dns, record.payload.scopedRoutes,
      record.payload.transports, record.payload.relays,
      record.payload.userAccess, record.payload.sessionExpiry with
  | some member, _, _, _, _, _, _, _ => member.linkClass = .none
  | .none, some member, _, _, _, _, _, _ => member.pathClass = .none
  | .none, .none, some member, _, _, _, _, _ => member.resolverClass = .none
  | .none, .none, .none, some member, _, _, _, _ => member.installed = 0
  | .none, .none, .none, .none, some member, _, _, _ => member.ready = 0
  | .none, .none, .none, .none, .none, some member, _, _ =>
      member.reachable = 0
  | .none, .none, .none, .none, .none, .none, some member, _ =>
      member.profileClass = .none
  | .none, .none, .none, .none, .none, .none, .none, some member =>
      member.expiryClass = .none
  | .none, .none, .none, .none, .none, .none, .none, .none => true

/-- A class the payload states and policy pins otherwise. -/
def classMismatch {α β : Type} [DecidableEq β]
    (pin : Option β) (payload : Option α) (observed : α → β) :
    Option (Classification × DiffReason) :=
  match pin, payload with
  | some wanted, some member =>
      if observed member ≠ wanted then some (.divergent, .classMismatch)
      else .none
  | _, _ => .none

/-- A count below the pinned minimum; nothing at all is a different finding
from too little. -/
def countMismatch {α : Type}
    (pin : Option Nat) (payload : Option α) (observed : α → Nat) :
    Option (Classification × DiffReason) :=
  match pin, payload with
  | some wanted, some member =>
      if observed member < wanted then
        if observed member = 0 then some (.missing, .nothingPresent)
        else some (.divergent, .belowExpected)
      else
        .none
  | _, _ => .none

/-- Compare a ready component against the pins policy set; the first
mismatch decides. -/
def pinMismatch (record : ComponentRecord) (expect : Expectation) :
    Option (Classification × DiffReason) :=
  let payload := record.payload
  classMismatch expect.pathClass payload.defaultPath (·.pathClass)
    <|> classMismatch expect.resolverClass payload.dns (·.resolverClass)
    <|> classMismatch expect.selectedClass payload.relays (·.selectedClass)
    <|> classMismatch expect.profileClass payload.userAccess (·.profileClass)
    <|> countMismatch expect.minInstalledRoutes payload.scopedRoutes
      (·.installed)
    <|> countMismatch expect.minReadyTransports payload.transports (·.ready)
    <|> countMismatch expect.minReachableRelays payload.relays (·.reachable)

/-- Whether this component was already established before the policy that
now excludes it took effect. -/
def establishedUnderEarlierPolicy
    (record : ComponentRecord) (prior : Option Snapshot)
    (snapshot : Snapshot) : Bool :=
  match prior with
  | .none => false
  | some prior =>
      if !prior.policy.present then
        false
      else if prior.policy.bundleGeneration ≥
          snapshot.policy.bundleGeneration then
        false
      else
        match prior.components.find? (·.component = record.component) with
        | some before => before.state = .ready || before.state = .degraded
        | .none => false

def classify
    (record : ComponentRecord) (want : DesiredComponent)
    (prior : Option Snapshot) (snapshot : Snapshot) :
    Classification × DiffReason :=
  match record.state with
  | .conflict => (.conflict, .ownerConflict)
  | .stale => (.stale, .staleObservation)
  | .unknown => (.unknown, .notObserved)
  | observed =>
      if !want.managed then
        if observed = .notApplicable then
          (.converged, .notManaged)
        else if establishedUnderEarlierPolicy record prior snapshot then
          (.grandfathered, .policyExcluded)
        else
          (.unexpected, .notManaged)
      else if want.expect.lifecycle = .notApplicable then
        if observed = .notApplicable then
          (.converged, .none)
        else if establishedUnderEarlierPolicy record prior snapshot then
          (.grandfathered, .policyExcluded)
        else
          (.unexpected, .none)
      else
        match observed with
        | .failed =>
            if absent record then (.missing, .nothingPresent)
            else (.divergent, .failed)
        | .degraded => (.divergent, .degraded)
        | .notApplicable => (.missing, .nothingPresent)
        | _ => (pinMismatch record want.expect).getD (.converged, .none)

/-- The zero desire, which is what a missing map entry reads as. -/
def unwanted (component : Component) (domain : Domain) : DesiredComponent :=
  ⟨component, domain, false, { lifecycle := .unknown }⟩

/-- Classify every component against the desired state. -/
def Snapshot.compare
    (snapshot : Snapshot) (desired : DesiredState)
    (prior : Option Snapshot) : Diff :=
  let authorized :=
    decide (snapshot.authorization = .authorized) && desired.authorized
  { schema := diffSchema
    version := diffSchemaVersion
    snapshotGeneration := snapshot.generation
    policy := snapshot.policy
    authorized := authorized
    components :=
      snapshot.components.map fun record =>
        if !authorized then
          ⟨record.component, record.domain, .unknown, .unauthorized⟩
        else
          let want :=
            (desired.components.find? (·.component = record.component)).getD
              (unwanted record.component record.domain)
          let (classification, reason) :=
            classify record want prior snapshot
          ⟨record.component, record.domain, classification, reason⟩ }

end Hexroute.Reduce
