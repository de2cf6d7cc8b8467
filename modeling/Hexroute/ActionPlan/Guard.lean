import Hexroute.Connectivity.Model
import Hexroute.Lib.Refusal
import Hexroute.Policy.Model
import Hexroute.Policy.Stamp
import Hexroute.Policy.Text

/-!
# Action leases

A lease authorizes one action, once.  The store of a domain keeps the lease,
the claim of the one attempt that executes it, and the outcome that ends it;
none of them is ever replaced.  A guard rereads the lease before every step
and ends it itself where it no longer covers the action.
-/

namespace Hexroute.ActionPlan

open Hexroute.Connectivity (Domain)
open Hexroute.Lib
open Hexroute.Policy (Capability Cause Digest Instant Stamp UUID endOfYears
  nanosecondsPerSecond validSHA256 validTarget validUUID)

def actionLeaseSchema : String := "hexroute.action-lease.v1"

def actionLeaseExecutionSchema : String :=
  "hexroute.action-lease-execution.v1"

def actionLeaseOutcomeSchema : String := "hexroute.action-lease-outcome.v1"

def actionNonceClaimSchema : String := "hexroute.action-nonce-claim.v1"

/-- Five minutes. -/
def maxActionLeaseTTL : Nat := 5 * 60 * nanosecondsPerSecond

inductive LeaseStatus where
  | pending
  | committed
  | aborted
  | expired
  deriving DecidableEq, Repr

inductive LeaseOutcomeReason where
  | completed
  | canceled
  | ttlExpired
  | bootMismatch
  | staleGeneration
  | bindingMismatch
  | clockAnomaly
  deriving DecidableEq, Repr

structure ActionLease where
  schema : String
  actionID : UUID
  domain : Domain
  capability : Capability
  bundleGeneration : Nat
  domainPolicyGeneration : Nat
  controlStateGeneration : Nat
  target : String
  planSHA256 : Digest
  issuedAt : Stamp
  expiresAt : Stamp
  issuedMonotonicNS : Int
  expiresMonotonicNS : Int
  bootID : UUID
  nonce : UUID
  status : LeaseStatus
  deriving DecidableEq, Repr

structure ActionLeaseOutcome where
  schema : String
  actionID : UUID
  domain : Domain
  nonce : UUID
  status : LeaseStatus
  reason : LeaseOutcomeReason
  resolvedAt : Stamp
  deriving DecidableEq, Repr

structure ActionLeaseExecutionClaim where
  schema : String
  actionID : UUID
  domain : Domain
  nonce : UUID
  attemptID : UUID
  bootID : UUID
  claimedAt : Stamp
  deriving DecidableEq, Repr

structure ActionNonceClaim where
  schema : String
  domain : Domain
  actionID : UUID
  nonce : UUID
  claimedAt : Stamp
  deriving DecidableEq, Repr

def ActionLease.valid (lease : ActionLease) : Bool :=
  decide (lease.schema = actionLeaseSchema) && validUUID lease.actionID &&
    decide (lease.bundleGeneration ≠ 0) &&
    decide (lease.domainPolicyGeneration ≠ 0) &&
    decide (lease.controlStateGeneration ≠ 0) && validTarget lease.target &&
    validSHA256 lease.planSHA256 &&
    (lease.issuedAt.compares
      (fun issued expires =>
        decide (issued < expires) &&
          decide (expires - issued ≤ maxActionLeaseTTL) &&
          decide (((expires - issued : Nat) : Int) =
            lease.expiresMonotonicNS - lease.issuedMonotonicNS))
      lease.expiresAt) &&
    decide (0 ≤ lease.issuedMonotonicNS) &&
    decide (lease.issuedMonotonicNS < lease.expiresMonotonicNS) &&
    validUUID lease.bootID && validUUID lease.nonce &&
    decide (lease.nonce ≠ lease.actionID)

/-- The reasons an outcome of each kind may give. -/
def validReason : LeaseStatus → LeaseOutcomeReason → Bool
  | .pending, _ => false
  | .committed, reason => decide (reason = .completed)
  | .aborted, reason =>
      decide (reason ∈
        [.canceled, .staleGeneration, .bindingMismatch, .clockAnomaly])
  | .expired, reason => decide (reason ∈ [.ttlExpired, .bootMismatch])

def ActionLeaseOutcome.valid (outcome : ActionLeaseOutcome) : Bool :=
  decide (outcome.schema = actionLeaseOutcomeSchema) &&
    validUUID outcome.actionID && validUUID outcome.nonce &&
    decide (outcome.actionID ≠ outcome.nonce) &&
    outcome.resolvedAt.validCanonicalUTC &&
    validReason outcome.status outcome.reason

def ActionLeaseExecutionClaim.valid (claim : ActionLeaseExecutionClaim) :
    Bool :=
  decide (claim.schema = actionLeaseExecutionSchema) &&
    validUUID claim.actionID && validUUID claim.nonce &&
    validUUID claim.attemptID && validUUID claim.bootID &&
    decide (claim.actionID ≠ claim.nonce) &&
    decide (claim.attemptID ≠ claim.actionID) &&
    decide (claim.attemptID ≠ claim.nonce) &&
    claim.claimedAt.validCanonicalUTC

def ActionNonceClaim.valid (claim : ActionNonceClaim) : Bool :=
  decide (claim.schema = actionNonceClaimSchema) &&
    validUUID claim.actionID && validUUID claim.nonce &&
    claim.claimedAt.validCanonicalUTC

/-! ## The store -/

/-- The records of one domain, each under the id its file name has. -/
structure Store where
  domain : Domain
  leases : UUID → Option ActionLease
  nonces : UUID → Option ActionNonceClaim
  executions : UUID → Option ActionLeaseExecutionClaim
  outcomes : UUID → Option ActionLeaseOutcome

/-- What a well-formed, confirmed active pointer says. -/
structure ActivePointer where
  domain : Domain
  bundleGeneration : Nat
  policyGeneration : Nat
  deriving DecidableEq, Repr

def notBefore (later earlier : Stamp) : Bool :=
  earlier.compares (fun first second => decide (first ≤ second)) later

def outcomeMatchesLease
    (outcome : ActionLeaseOutcome) (lease : ActionLease) : Bool :=
  notBefore outcome.resolvedAt lease.issuedAt &&
    decide (outcome.actionID = lease.actionID) &&
    decide (outcome.domain = lease.domain) &&
    decide (outcome.nonce = lease.nonce)

def executionMatchesLease
    (claim : ActionLeaseExecutionClaim) (lease : ActionLease) : Bool :=
  notBefore claim.claimedAt lease.issuedAt &&
    decide (claim.actionID = lease.actionID) &&
    decide (claim.domain = lease.domain) &&
    decide (claim.nonce = lease.nonce) && decide (claim.bootID = lease.bootID)

def pointerMatchesLease
    (pointer : Option ActivePointer) (lease : ActionLease) : Bool :=
  decide (pointer =
    some
      ⟨lease.domain, lease.bundleGeneration, lease.domainPolicyGeneration⟩)

/-- The record under an id. -/
def record {α : Type} (found : Option α) : Except Cause α :=
  match found with
  | some value => pure value
  | none => throw .recordNotFound

def Store.readActionLease (store : Store) (actionID : UUID) :
    Except Cause ActionLease := do
  refuse (validUUID actionID = false) .invalidRecord
  let lease ← record (store.leases actionID)
  refuse
    (lease.valid = false ∨ lease.status ≠ .pending ∨
      lease.domain ≠ store.domain ∨ lease.actionID ≠ actionID)
    .invalidRecord
  let claim ← record (store.nonces lease.nonce)
  refuse
    (claim.valid = false ∨ claim.domain ≠ lease.domain ∨
      claim.actionID ≠ lease.actionID ∨ claim.nonce ≠ lease.nonce ∨
      claim.claimedAt ≠ lease.issuedAt)
    .recordConflict
  pure lease

def Store.readActionLeaseState (store : Store) (actionID : UUID) :
    Except Cause (ActionLease × Option ActionLeaseOutcome) := do
  let lease ← store.readActionLease actionID
  match store.outcomes actionID with
  | none => pure (lease, none)
  | some outcome => do
      refuse
        (outcome.valid = false ∨ outcomeMatchesLease outcome lease = false)
        .recordConflict
      pure (lease, some outcome)

def Store.readActionLeaseExecutionClaim (store : Store) (actionID : UUID) :
    Except Cause ActionLeaseExecutionClaim := do
  let lease ← store.readActionLease actionID
  let claim ← record (store.executions actionID)
  refuse (claim.valid = false ∨ executionMatchesLease claim lease = false)
    .recordConflict
  pure claim

def Store.persistActionLeaseExecutionClaim
    (store : Store) (pointer : Option ActivePointer)
    (claim : ActionLeaseExecutionClaim) : Except Cause Store := do
  refuse (claim.valid = false ∨ store.domain ≠ claim.domain) .invalidRecord
  let lease ← store.readActionLease claim.actionID
  refuse (executionMatchesLease claim lease = false) .recordConflict
  refuse ((store.outcomes claim.actionID).isSome = true) .actionLeaseResolved
  refuse (pointerMatchesLease pointer lease = false) .recordConflict
  match store.executions claim.actionID with
  | some existing => do
      refuse (existing.valid = false ∨ existing ≠ claim) .recordConflict
      pure store
  | none =>
      pure
        { store with
          executions :=
            Function.update store.executions claim.actionID (some claim) }

/-- Only what was claimed under the active pointer is committed. -/
def Store.checkCommit
    (store : Store) (pointer : Option ActivePointer) (lease : ActionLease)
    (outcome : ActionLeaseOutcome) : Except Cause Unit :=
  if outcome.status = .committed then do
    let execution ← record (store.executions outcome.actionID)
    refuse
      (execution.valid = false ∨ executionMatchesLease execution lease = false)
      .recordConflict
    refuse (pointerMatchesLease pointer lease = false) .recordConflict
  else pure ()

def Store.persistActionLeaseOutcome
    (store : Store) (pointer : Option ActivePointer)
    (outcome : ActionLeaseOutcome) : Except Cause Store := do
  refuse (outcome.valid = false ∨ store.domain ≠ outcome.domain)
    .invalidRecord
  let lease ← store.readActionLease outcome.actionID
  refuse (outcomeMatchesLease outcome lease = false) .recordConflict
  refuse ((store.outcomes outcome.actionID).isSome = true)
    .actionLeaseResolved
  store.checkCommit pointer lease outcome
  pure
    { store with
      outcomes :=
        Function.update store.outcomes outcome.actionID (some outcome) }

/-- The lease is over, and how is on disk. -/
def Store.Resolved (store : Store) (actionID : UUID) : Prop :=
  ∃ lease outcome,
    store.readActionLeaseState actionID = .ok (lease, some outcome) ∧
      outcome.status ∈
        ([.committed, .aborted, .expired] : List LeaseStatus)

theorem Store.readActionLease_actionID
    {store : Store} {actionID : UUID} {lease : ActionLease}
    (found : store.readActionLease actionID = .ok lease) :
    lease.actionID = actionID := by
  simp only [Store.readActionLease, bind_eq_ok_iff, refuse_eq_ok_iff,
    pure_eq_ok_iff, not_or, not_not] at found
  obtain ⟨_, _, other, _, _, checks, _, _, _, _, rfl⟩ := found
  exact checks.2.2.2

/-- An outcome that can be read ends the lease. -/
theorem Store.resolved_of_read
    {store : Store} {actionID : UUID} {lease : ActionLease}
    {outcome : ActionLeaseOutcome}
    (found :
      store.readActionLeaseState actionID = .ok (lease, some outcome)) :
    store.Resolved actionID := by
  refine ⟨lease, outcome, found, ?_⟩
  simp only [Store.readActionLeaseState, bind_eq_ok_iff] at found
  obtain ⟨_, _, found⟩ := found
  cases stored : store.outcomes actionID with
  | none => simp [stored] at found
  | some other =>
      simp only [stored, bind_eq_ok_iff, refuse_eq_ok_iff, pure_eq_ok_iff,
        not_or, Bool.not_eq_false, Prod.mk.injEq, Option.some.injEq] at found
      obtain ⟨_, ⟨valid, _⟩, _, rfl⟩ := found
      simp only [ActionLeaseOutcome.valid, Bool.and_eq_true] at valid
      have reason := valid.2
      cases status : other.status <;> simp_all [validReason]

/-- What was persisted can be read. -/
theorem Store.resolved_of_persist
    {store next : Store} {pointer : Option ActivePointer}
    {outcome : ActionLeaseOutcome}
    (persisted :
      store.persistActionLeaseOutcome pointer outcome = .ok next) :
    next.Resolved outcome.actionID := by
  simp only [Store.persistActionLeaseOutcome, bind_eq_ok_iff,
    refuse_eq_ok_iff, pure_eq_ok_iff, not_or, Bool.not_eq_false] at persisted
  obtain ⟨_, ⟨valid, _⟩, lease, found, _, agrees, _, _, _, _, rfl⟩ := persisted
  refine @Store.resolved_of_read _ _ lease outcome ?_
  have same :
      Store.readActionLease
          { store with
            outcomes :=
              Function.update store.outcomes outcome.actionID (some outcome) }
          outcome.actionID = .ok lease :=
    found
  simp only [Store.readActionLeaseState, same, ok_bind, Function.update_self]
  rw [refuse_bind_of_not]
  · rfl
  · simp [valid, agrees]

/-! ## The guard -/

structure CurrentAuthorization where
  domain : Domain
  capability : Capability
  bundleGeneration : Nat
  domainPolicyGeneration : Nat
  controlStateGeneration : Nat
  target : String
  planSHA256 : Digest
  bootID : UUID
  monotonicNS : Int
  observedAt : Instant
  deriving DecidableEq, Repr

inductive GuardError where
  | invalidGuard
  | leaseReplay
  | leaseExpired
  | leaseStale
  | bindingMismatch
  | leaseClock
  | store (cause : Cause)
  deriving DecidableEq, Repr

def validObservedAt (moment : Instant) : Bool :=
  decide (moment ≠ 0) && decide (moment < endOfYears)

def CurrentAuthorization.valid (current : CurrentAuthorization) : Bool :=
  decide (current.bundleGeneration ≠ 0) &&
    decide (current.domainPolicyGeneration ≠ 0) &&
    decide (current.controlStateGeneration ≠ 0) &&
    decide (current.target ≠ "") && decide (current.planSHA256 ≠ .empty) &&
    decide (0 ≤ current.monotonicNS) && validObservedAt current.observedAt &&
    validUUID current.bootID

inductive LeaseClock where
  | invalidLeaseTime
  | bootMismatch
  | clockAnomaly
  | leaseExpired
  deriving DecidableEq, Repr

def validatePendingLease
    (lease : ActionLease) (monotonicNS : Int) (bootID : UUID) :
    Option LeaseClock :=
  if lease.valid = false ∨ lease.status ≠ .pending ∨ monotonicNS < 0 then
    some .invalidLeaseTime
  else if validUUID bootID = false then some .invalidLeaseTime
  else if bootID ≠ lease.bootID then some .bootMismatch
  else if monotonicNS < lease.issuedMonotonicNS then some .clockAnomaly
  else if lease.expiresMonotonicNS ≤ monotonicNS then some .leaseExpired
  else none

/-- Why a lease does not cover what is current: how it ends, and the error
that is returned. -/
def classifyCurrent (lease : ActionLease) (current : CurrentAuthorization) :
    Option (LeaseStatus × LeaseOutcomeReason × GuardError) :=
  match validatePendingLease lease current.monotonicNS current.bootID with
  | some .leaseExpired => some (.expired, .ttlExpired, .leaseExpired)
  | some .bootMismatch => some (.expired, .bootMismatch, .leaseExpired)
  | some .clockAnomaly => some (.aborted, .clockAnomaly, .leaseClock)
  | some .invalidLeaseTime => some (.aborted, .clockAnomaly, .invalidGuard)
  | none =>
      if current.bundleGeneration ≠ lease.bundleGeneration ∨
          current.domainPolicyGeneration ≠ lease.domainPolicyGeneration ∨
          current.controlStateGeneration ≠ lease.controlStateGeneration then
        some (.aborted, .staleGeneration, .leaseStale)
      else if current.domain ≠ lease.domain ∨
          current.capability ≠ lease.capability ∨
          current.target ≠ lease.target ∨
          current.planSHA256 ≠ lease.planSHA256 then
        some (.aborted, .bindingMismatch, .bindingMismatch)
      else none

def newOutcome
    (lease : ActionLease) (status : LeaseStatus)
    (reason : LeaseOutcomeReason) (observedAt : Instant) :
    ActionLeaseOutcome where
  schema := actionLeaseOutcomeSchema
  actionID := lease.actionID
  domain := lease.domain
  nonce := lease.nonce
  status := status
  reason := reason
  resolvedAt := .utc observedAt

structure Guard where
  actionID : UUID
  attemptID : UUID
  deriving DecidableEq, Repr

/-- What a guard works on: the store, its own claim, whether it was begun,
and how often the store was written to. -/
structure State where
  store : Store
  claim : Option ActionLeaseExecutionClaim
  started : Bool
  writes : Nat

namespace Guard

variable (guard : Guard)
  -- The active pointer as each write to the store finds it.
  (pointer : Nat → Option ActivePointer)

def outcome (state : State) :
    Except Cause (Option ActionLeaseOutcome) := do
  let (_, outcome) ← state.store.readActionLeaseState guard.actionID
  pure outcome

def beginExecution (state : State) : Except GuardError Unit × State :=
  if state.started then (.error .leaseReplay, state)
  else (.ok (), { state with started := true })

def persistOutcome (outcome : ActionLeaseOutcome) (state : State) :
    Except GuardError Unit × State :=
  let next := { state with writes := state.writes + 1 }
  match
    state.store.persistActionLeaseOutcome (pointer state.writes) outcome with
  | .ok store => (.ok (), { next with store := store })
  | .error cause =>
      match state.store.readActionLeaseState guard.actionID with
      | .ok (_, some _) => (.error .leaseReplay, next)
      | _ => (.error (.store cause), next)

def newClaim (lease : ActionLease) (current : CurrentAuthorization) :
    ActionLeaseExecutionClaim where
  schema := actionLeaseExecutionSchema
  actionID := lease.actionID
  domain := lease.domain
  nonce := lease.nonce
  attemptID := guard.attemptID
  bootID := current.bootID
  claimedAt := .utc current.observedAt

def ensureExecutionClaim
    (lease : ActionLease) (current : CurrentAuthorization) (state : State) :
    Except GuardError Unit × State :=
  let claim := state.claim.getD (guard.newClaim lease current)
  let next :=
    { state with claim := some claim, writes := state.writes + 1 }
  match
    state.store.persistActionLeaseExecutionClaim (pointer state.writes)
      claim with
  | .ok store => (.ok (), { next with store := store })
  | .error cause =>
      match state.store.readActionLeaseState guard.actionID,
        state.store.readActionLeaseExecutionClaim guard.actionID with
      | .ok (_, some _), _ => (.error .leaseReplay, next)
      | _, .ok existing =>
          if existing.attemptID ≠ guard.attemptID then
            (.error .leaseReplay, next)
          else (.error (.store cause), next)
      | _, _ => (.error (.store cause), next)

def validate (current : CurrentAuthorization) (state : State) :
    Except GuardError ActionLease × State :=
  if current.valid = false then (.error .invalidGuard, state)
  else
    match state.store.readActionLeaseState guard.actionID with
    | .error cause => (.error (.store cause), state)
    | .ok (_, some _) => (.error .leaseReplay, state)
    | .ok (lease, none) =>
        match classifyCurrent lease current with
        | none =>
            let (claimed, next) :=
              guard.ensureExecutionClaim pointer lease current state
            (claimed.map fun _ => lease, next)
        | some (status, reason, error) =>
            match
              guard.persistOutcome pointer
                (newOutcome lease status reason current.observedAt) state with
            | (.ok _, next) => (.error error, next)
            | (.error failed, next) => (.error failed, next)

def beforeStep (current : CurrentAuthorization) (state : State) :
    Except GuardError Unit × State :=
  let (lease, next) := guard.validate pointer current state
  (lease.map fun _ => (), next)

def commit (current : CurrentAuthorization) (state : State) :
    Except GuardError Unit × State :=
  match guard.validate pointer current state with
  | (.error error, next) => (.error error, next)
  | (.ok lease, next) =>
      guard.persistOutcome pointer
        (newOutcome lease .committed .completed current.observedAt) next

def abort (observedAt : Instant) (state : State) :
    Except GuardError Unit × State :=
  if validObservedAt observedAt = false then (.error .invalidGuard, state)
  else
    match state.store.readActionLeaseState guard.actionID with
    | .error cause => (.error (.store cause), state)
    | .ok (_, some _) => (.error .leaseReplay, state)
    | .ok (lease, none) =>
        guard.persistOutcome pointer
          (newOutcome lease .aborted .canceled observedAt) state

end Guard

/-! ## Guards that end a lease -/

section Ends

variable {guard : Guard} {pointer : Nat → Option ActivePointer}
  {state : State}

theorem resolved_of_persistOutcome
    {outcome : ActionLeaseOutcome} (own : outcome.actionID = guard.actionID)
    (persisted : (guard.persistOutcome pointer outcome state).1 = .ok ()) :
    (guard.persistOutcome pointer outcome state).2.store.Resolved
      guard.actionID := by
  unfold Guard.persistOutcome at persisted ⊢
  cases written :
      state.store.persistActionLeaseOutcome (pointer state.writes)
        outcome with
  | ok store =>
      simp only
      rw [← own]
      exact Store.resolved_of_persist written
  | error cause =>
      simp only [written] at persisted
      split at persisted <;> exact absurd persisted nofun

theorem actionID_of_read
    {lease : ActionLease} {outcome : Option ActionLeaseOutcome}
    (found :
      state.store.readActionLeaseState guard.actionID =
        .ok (lease, outcome)) :
    lease.actionID = guard.actionID := by
  simp only [Store.readActionLeaseState, bind_eq_ok_iff] at found
  obtain ⟨other, read, found⟩ := found
  have own := Store.readActionLease_actionID read
  split at found
  · rw [← (Prod.mk.inj (pure_eq_ok_iff.mp found)).1]
    exact own
  · simp only [bind_eq_ok_iff, pure_eq_ok_iff, Prod.mk.injEq] at found
    obtain ⟨_, _, rfl, _⟩ := found
    exact own

/-- The lease a guard found valid is the one it is about. -/
theorem actionID_of_validate
    {current : CurrentAuthorization} {lease : ActionLease}
    (validated : (guard.validate pointer current state).1 = .ok lease) :
    lease.actionID = guard.actionID := by
  unfold Guard.validate at validated
  split at validated
  · exact absurd validated nofun
  cases read : state.store.readActionLeaseState guard.actionID with
  | error cause => simp [read] at validated
  | ok found =>
      obtain ⟨other, outcome⟩ := found
      cases outcome with
      | some outcome => simp [read] at validated
      | none =>
          have own := actionID_of_read read
          simp only [read] at validated
          split at validated
          · obtain ⟨_, _, rfl⟩ := map_eq_ok_iff.mp validated
            exact own
          · split at validated <;> exact absurd validated nofun

theorem resolved_of_abort
    {observedAt : Instant}
    (aborted : (guard.abort pointer observedAt state).1 = .ok ()) :
    (guard.abort pointer observedAt state).2.store.Resolved
      guard.actionID := by
  unfold Guard.abort at aborted ⊢
  by_cases observed : validObservedAt observedAt = false
  · rw [if_pos observed] at aborted
    exact absurd aborted nofun
  rw [if_neg observed] at aborted ⊢
  cases read : state.store.readActionLeaseState guard.actionID with
  | error cause => simp [read] at aborted
  | ok found =>
      obtain ⟨lease, outcome⟩ := found
      cases outcome with
      | some outcome => simp [read] at aborted
      | none =>
          simp only [read] at aborted ⊢
          exact resolved_of_persistOutcome (actionID_of_read read) aborted

theorem resolved_of_commit
    {current : CurrentAuthorization}
    (committed : (guard.commit pointer current state).1 = .ok ()) :
    (guard.commit pointer current state).2.store.Resolved
      guard.actionID := by
  unfold Guard.commit at committed ⊢
  cases validated : guard.validate pointer current state with
  | mk result next =>
      simp only [validated] at committed ⊢
      cases result with
      | error error => exact absurd committed nofun
      | ok lease =>
          have own : lease.actionID = guard.actionID :=
            actionID_of_validate (congrArg Prod.fst validated)
          exact resolved_of_persistOutcome own committed

theorem resolved_of_outcome
    {outcome : ActionLeaseOutcome}
    (found : guard.outcome state = .ok (some outcome)) :
    state.store.Resolved guard.actionID := by
  simp only [Guard.outcome, bind_eq_ok_iff, pure_eq_ok_iff] at found
  obtain ⟨⟨lease, _⟩, read, rfl⟩ := found
  exact Store.resolved_of_read read

end Ends

end Hexroute.ActionPlan
