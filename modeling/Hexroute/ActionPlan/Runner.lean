import Hexroute.ActionPlan.Guard

/-!
# Running an action plan

A runner applies the steps of a plan one after the other, each under the
lease its guard holds, and commits.  Where anything fails it rolls back what
it applied, aborts the lease, and asks for the safe mode of the target if it
could not do both.  What the runtime, the authorization source, the failure
handler and the active pointer answer is given by a script, any answer at any
time.
-/

namespace Hexroute.ActionPlan

open Hexroute.Lib
open Hexroute.Policy (Digest Instant SHA256 UUID decimal lowercase
  validSHA256 validUUID)

/-! ## Plans -/

def maxSteps : Nat := 16

inductive StepKind where
  | operatorResume
  deriving DecidableEq, Repr

inductive InverseKind where
  | restoreControlSnapshot
  deriving DecidableEq, Repr

structure InverseSpec where
  kind : InverseKind
  inputSHA256 : Digest
  restoredSHA256 : Digest
  deriving DecidableEq, Repr

structure StepSpec where
  id : String
  kind : StepKind
  inputSHA256 : Digest
  beforeSHA256 : Digest
  appliedSHA256 : Digest
  inverse : InverseSpec
  deriving DecidableEq, Repr

structure Plan where
  target : String
  steps : List StepSpec
  digest : Digest
  deriving DecidableEq, Repr

/-- A lowercase letter, then at most so many letters, digits and marks. -/
def matchesPattern (marks : List Char) (limit : Nat) (text : String) : Bool :=
  text.toList.head?.any lowercase &&
    decide (text.toList.length ≤ limit + 1) &&
    text.toList.tail.all fun rune =>
      lowercase rune || decimal rune || decide (rune ∈ marks)

def targetPattern : String → Bool := matchesPattern ['_', '.', ':', '-'] 127

def stepIDPattern : String → Bool := matchesPattern ['_', '-'] 63

def validateStep (step : StepSpec) : Bool :=
  stepIDPattern step.id && validSHA256 step.inputSHA256 &&
    validSHA256 step.beforeSHA256 && validSHA256 step.appliedSHA256 &&
    decide (step.beforeSHA256 ≠ step.appliedSHA256) &&
    validSHA256 step.inverse.inputSHA256 &&
    validSHA256 step.inverse.restoredSHA256

section Runner

-- The digest of the canonical document of a plan.
variable (digestOf : String → List StepSpec → SHA256)

def Plan.new (target : String) (steps : List StepSpec) : Option Plan :=
  if targetPattern target = true ∧ steps ≠ [] ∧ steps.length ≤ maxSteps ∧
      (∀ step ∈ steps, validateStep step = true) ∧
      (steps.map (·.id)).Nodup then
    some ⟨target, steps, .sha256 (digestOf target steps)⟩
  else none

def Plan.valid (plan : Plan) : Bool :=
  decide (Plan.new digestOf plan.target plan.steps = some plan)

/-! ## Executions -/

inductive Ownership where
  | available
  | owned
  | foreign
  | ambiguous
  deriving DecidableEq, Repr

structure Observation where
  stepID : String
  stateSHA256 : Digest
  ownership : Ownership
  actionID : UUID
  attemptID : UUID
  deriving DecidableEq, Repr

structure AppliedStep where
  planSHA256 : Digest
  position : Nat
  step : StepSpec
  actionID : UUID
  attemptID : UUID
  deriving DecidableEq, Repr

structure Execution where
  plan : Plan
  actionID : UUID
  attemptID : UUID
  applied : List AppliedStep
  deriving DecidableEq, Repr

def validateObservation (observation : Observation) : Bool :=
  stepIDPattern observation.stepID && validSHA256 observation.stateSHA256 &&
    match observation.ownership with
    | .owned =>
        validUUID observation.actionID && validUUID observation.attemptID &&
          decide (observation.actionID ≠ observation.attemptID)
    | _ =>
        decide (observation.actionID = .other "") &&
          decide (observation.attemptID = .other "")

def newExecution (plan : Plan) (actionID attemptID : UUID) :
    Option Execution :=
  if plan.valid digestOf = true ∧ validUUID actionID = true ∧
      validUUID attemptID = true ∧ actionID ≠ attemptID then
    some ⟨plan, actionID, attemptID, []⟩
  else none

def verifyBefore (step : StepSpec) (observation : Observation) : Bool :=
  validateStep step && validateObservation observation &&
    decide (observation.stepID = step.id) &&
    decide (observation.stateSHA256 = step.beforeSHA256) &&
    decide (observation.ownership = .available)

def verifyOwnedState
    (stepID : String) (stateSHA256 : Digest) (actionID attemptID : UUID)
    (observation : Observation) : Bool :=
  validateObservation observation &&
    decide (observation.stepID = stepID) &&
    decide (observation.stateSHA256 = stateSHA256) &&
    decide (observation.ownership = .owned) &&
    decide (observation.actionID = actionID) &&
    decide (observation.attemptID = attemptID)

/-- The step at a position, as the execution records it. -/
def Execution.recordOf
    (execution : Execution) (position : Nat) (step : StepSpec) :
    AppliedStep :=
  ⟨execution.plan.digest, position, step, execution.actionID,
    execution.attemptID⟩

def AppliedStep.matches
    (applied : AppliedStep) (execution : Execution) (position : Nat) : Bool :=
  execution.plan.steps[position]?.any fun step =>
    decide (applied = execution.recordOf position step)

def Execution.valid (execution : Execution) : Bool :=
  execution.plan.valid digestOf && validUUID execution.actionID &&
    validUUID execution.attemptID &&
    decide (execution.actionID ≠ execution.attemptID) &&
    decide (execution.applied.length ≤ execution.plan.steps.length) &&
    execution.applied.zipIdx.all fun (applied, position) =>
      applied.matches execution position

def Execution.recordApplied
    (execution : Execution) (position : Nat) (observation : Observation) :
    Option Execution :=
  if execution.valid digestOf = true ∧
      position = execution.applied.length then do
    let step ← execution.plan.steps[position]?
    if verifyOwnedState step.id step.appliedSHA256 execution.actionID
        execution.attemptID observation then
      some
        { execution with
          applied := execution.applied ++ [execution.recordOf position step] }
    else none
  else none

/-! ## Rollback -/

structure RollbackOperation where
  stepID : String
  position : Nat
  kind : InverseKind
  inputSHA256 : Digest
  expectedStateSHA256 : Digest
  restoredStateSHA256 : Digest
  actionID : UUID
  attemptID : UUID
  deriving DecidableEq, Repr

inductive RollbackSkipReason where
  | missingObservation
  | notOwned
  | foreignOwner
  | ambiguousOwner
  | stateChanged
  | blockedByNewer
  deriving DecidableEq, Repr

structure RollbackPlan where
  operations : List RollbackOperation
  skipped : List (String × RollbackSkipReason)
  deriving DecidableEq, Repr

/-- Why an applied step is not rolled back. -/
def rollbackEligibility (applied : AppliedStep) (observation : Observation) :
    Option RollbackSkipReason :=
  match observation.ownership with
  | .available => some .notOwned
  | .foreign => some .foreignOwner
  | .ambiguous => some .ambiguousOwner
  | .owned =>
      if observation.actionID ≠ applied.actionID ∨
          observation.attemptID ≠ applied.attemptID then
        some .foreignOwner
      else if observation.stateSHA256 ≠ applied.step.appliedSHA256 then
        some .stateChanged
      else none

def AppliedStep.rollbackOperation (applied : AppliedStep) :
    RollbackOperation where
  stepID := applied.step.id
  position := applied.position
  kind := applied.step.inverse.kind
  inputSHA256 := applied.step.inverse.inputSHA256
  expectedStateSHA256 := applied.step.appliedSHA256
  restoredStateSHA256 := applied.step.inverse.restoredSHA256
  actionID := applied.actionID
  attemptID := applied.attemptID

/-- Plan the inverse of applied steps, the newest first.  The first one that
cannot be rolled back blocks all older ones. -/
def planRollback (observations : String → Option Observation) :
    List AppliedStep → RollbackPlan → Option RollbackPlan
  | [], plan => some plan
  | applied :: older, plan =>
      let blocked (reason : RollbackSkipReason) : Option RollbackPlan :=
        some
          { plan with
            skipped :=
              plan.skipped ++ (applied.step.id, reason) ::
                older.map fun step => (step.step.id, .blockedByNewer) }
      match observations applied.step.id with
      | none => blocked .missingObservation
      | some observation =>
          if validateObservation observation = false ∨
              observation.stepID ≠ applied.step.id then
            none
          else
            match rollbackEligibility applied observation with
            | some reason => blocked reason
            | none =>
                planRollback observations older
                  { plan with
                    operations :=
                      plan.operations ++ [applied.rollbackOperation] }

def Execution.buildRollback
    (execution : Execution) (observations : String → Option Observation) :
    Option RollbackPlan :=
  if execution.valid digestOf then
    planRollback observations execution.applied.reverse ⟨[], []⟩
  else none

def RollbackOperation.verifyReady
    (operation : RollbackOperation) (observation : Observation) : Bool :=
  verifyOwnedState operation.stepID operation.expectedStateSHA256
    operation.actionID operation.attemptID observation

def RollbackOperation.verifyRestored
    (operation : RollbackOperation) (observation : Observation) : Bool :=
  validateObservation observation &&
    decide (observation.stepID = operation.stepID) &&
    decide (observation.stateSHA256 = operation.restoredStateSHA256) &&
    decide (observation.ownership = .available)

/-! ## The runner -/

structure OwnershipClaim where
  actionID : UUID
  attemptID : UUID
  deriving DecidableEq, Repr

/-- What everything around a runner answers, by how often it was asked. -/
structure Script where
  current : Nat → Option CurrentAuthorization
  observe : Nat → String → Option Observation
  apply : Nat → StepSpec → OwnershipClaim → Bool
  applyInverse : Nat → RollbackOperation → Bool
  pointer : Nat → Option ActivePointer
  enterTargetSafeMode : Bool
  emitCriticalIncident : Bool

/-- What a run has done so far. -/
structure Session where
  guard : State
  started : Bool
  currents : Nat
  observations : Nat
  applications : Nat
  inverses : Nat
  -- The targets whose safe mode was asked for, and the incidents emitted.
  safeModes : List String
  incidents : List Instant

structure RunResult where
  appliedSteps : Nat
  rolledBackSteps : Nat
  skippedSteps : Nat
  committed : Bool
  safeMode : Bool
  criticalIncident : Bool
  deriving DecidableEq, Repr

def RunResult.nothing : RunResult := ⟨0, 0, 0, false, false, false⟩

inductive RunError where
  | invalidRunner
  | executionFailed
  | rollbackFailed
  deriving DecidableEq, Repr

/-- A runner for a valid plan under a guard with two different ids. -/
structure Runner where
  plan : Plan
  guard : Guard
  planValid : plan.valid digestOf = true
  actionIDValid : validUUID guard.actionID = true
  attemptIDValid : validUUID guard.attemptID = true
  idsDiffer : guard.actionID ≠ guard.attemptID

/-- Where a run stopped: what was applied, when it was last authorized, and
whether what a step did is unknown. -/
structure Stop where
  execution : Execution
  observedAt : Instant
  uncertain : Bool

def observe (script : Script) (stepID : String) (session : Session) :
    Option Observation × Session :=
  (script.observe session.observations stepID,
    { session with observations := session.observations + 1 })

namespace Runner

variable {digestOf} (runner : Runner digestOf) (script : Script)

/-- The answer names the plan. -/
def Authorizes (current : CurrentAuthorization) : Prop :=
  current.valid = true ∧ current.target = runner.plan.target ∧
    current.planSHA256 = runner.plan.digest

instance (current : CurrentAuthorization) :
    Decidable (runner.Authorizes current) :=
  inferInstanceAs (Decidable (_ ∧ _ ∧ _))

def current (session : Session) : Option CurrentAuthorization × Session :=
  ((script.current session.currents).filter
      fun current => decide (runner.Authorizes current),
    { session with currents := session.currents + 1 })

def ownershipClaim : OwnershipClaim :=
  ⟨runner.guard.actionID, runner.guard.attemptID⟩

/-- What is recorded of a step once it was applied, and whether what it did
is unknown. -/
def recordStep
    (position : Nat) (step : StepSpec) (execution : Execution)
    (after : Option Observation) : Execution × Bool :=
  match after with
  | none => (execution, true)
  | some observation =>
      match execution.recordApplied digestOf position observation with
      | some recorded => (recorded, false)
      -- A step that changed nothing is not uncertain.
      | none => (execution, !verifyBefore step observation)

def runStep
    (position : Nat) (step : StepSpec) (execution : Execution)
    (observedAt : Instant) (session : Session) :
    Except Stop (Execution × Instant) × Session :=
  match runner.current script session with
  | (none, session) => (.error ⟨execution, observedAt, false⟩, session)
  | (some current, session) =>
      let (allowed, guard) :=
        runner.guard.beforeStep script.pointer current session.guard
      let session := { session with guard := guard }
      match allowed with
      | .error _ =>
          (.error ⟨execution, current.observedAt, false⟩, session)
      | .ok _ =>
          let (before, session) := observe script step.id session
          if before.any (verifyBefore step) = false then
            (.error ⟨execution, current.observedAt, false⟩, session)
          else
            let applied :=
              script.apply session.applications step runner.ownershipClaim
            let session :=
              { session with applications := session.applications + 1 }
            let (after, session) := observe script step.id session
            let (recorded, uncertain) :=
              @recordStep digestOf position step execution after
            if applied = false ∨ uncertain = true ∨
                recorded.applied.length ≠ position + 1 then
              (.error ⟨recorded, current.observedAt, uncertain⟩, session)
            else (.ok (recorded, current.observedAt), session)

def runSteps :
    List StepSpec → Nat → Execution → Instant → Session →
      Except Stop (Execution × Instant) × Session
  | [], _, execution, observedAt, session =>
      (.ok (execution, observedAt), session)
  | step :: rest, position, execution, observedAt, session =>
      match runner.runStep script position step execution observedAt
          session with
      | (.error stop, session) => (.error stop, session)
      | (.ok (execution, observedAt), session) =>
          runSteps rest (position + 1) execution observedAt session

/-- Observe every applied step; what fails is left out. -/
def observeApplied :
    List AppliedStep → Session →
      (String → Option Observation) × Bool × Session
  | [], session => (fun _ => none, false, session)
  | applied :: rest, session =>
      let (observation, session) := observe script applied.step.id session
      let (observations, incomplete, session) := observeApplied rest session
      (fun id =>
          if id = applied.step.id then observation else observations id,
        incomplete || observation.isNone, session)

/-- Apply the inverse operations, how many were applied and whether one
failed. -/
def applyInverses :
    List RollbackOperation → Session → Nat × Bool × Session
  | [], session => (0, false, session)
  | operation :: rest, session =>
      let (before, session) := observe script operation.stepID session
      if before.any operation.verifyReady = false then (0, true, session)
      else
        let inverted := script.applyInverse session.inverses operation
        let session := { session with inverses := session.inverses + 1 }
        if inverted = false then (0, true, session)
        else
          let (after, session) := observe script operation.stepID session
          if after.any operation.verifyRestored = false then
            (0, true, session)
          else
            let (count, failed, session) := applyInverses rest session
            (count + 1, failed, session)

/-- How many steps were rolled back and skipped, and whether anything was
left behind. -/
def rollback (execution : Execution) (session : Session) :
    (Nat × Nat × Bool) × Session :=
  let (observations, missing, session) :=
    observeApplied script execution.applied session
  match execution.buildRollback digestOf observations with
  | none => ((0, 0, true), session)
  | some plan =>
      let (count, failed, session) :=
        applyInverses script plan.operations session
      ((count, plan.skipped.length,
          failed || missing || decide (plan.skipped ≠ [])),
        session)

/-- Abort the lease; one that is already over and not committed is as
good. -/
def resolveAbort (observedAt : Instant) (session : Session) :
    Bool × Session :=
  let (aborted, guard) :=
    runner.guard.abort script.pointer observedAt session.guard
  let session := { session with guard := guard }
  match aborted with
  | .ok _ => (true, session)
  | .error _ =>
      match runner.guard.outcome guard with
      | .ok (some outcome) => (decide (outcome.status ≠ .committed), session)
      | _ => (false, session)

def fail (stop : Stop) (session : Session) :
    (RunResult × Option RunError) × Session :=
  let ((rolledBack, skipped, incomplete), session) :=
    @rollback digestOf script stop.execution session
  let (resolved, session) :=
    runner.resolveAbort script stop.observedAt session
  let result :=
    { RunResult.nothing with
      appliedSteps := stop.execution.applied.length
      rolledBackSteps := rolledBack
      skippedSteps := skipped }
  if stop.uncertain = true ∨ incomplete = true ∨ resolved = false then
    (({ result with
        safeMode := script.enterTargetSafeMode
        criticalIncident := script.emitCriticalIncident },
      some .rollbackFailed),
      { session with
        safeModes := session.safeModes ++ [runner.plan.target]
        incidents := session.incidents ++ [stop.observedAt] })
  else ((result, some .executionFailed), session)

/-- Commit what was applied; a commit that failed after it was stored is
one. -/
def finish (execution : Execution) (observedAt : Instant)
    (session : Session) : (RunResult × Option RunError) × Session :=
  let done : RunResult × Option RunError :=
    ({ RunResult.nothing with
        appliedSteps := execution.applied.length
        committed := true },
      none)
  match runner.current script session with
  | (none, session) =>
      runner.fail script ⟨execution, observedAt, false⟩ session
  | (some current, session) =>
      let (committed, guard) :=
        runner.guard.commit script.pointer current session.guard
      let session := { session with guard := guard }
      match committed with
      | .ok _ => (done, session)
      | .error _ =>
          match runner.guard.outcome guard with
          | .ok (some outcome) =>
              if outcome.status = .committed then (done, session)
              else
                runner.fail script ⟨execution, current.observedAt, false⟩
                  session
          | _ =>
              runner.fail script ⟨execution, current.observedAt, false⟩
                session

/-- What a run does once it has begun. -/
def execute (session : Session) : (RunResult × Option RunError) × Session :=
  match newExecution digestOf runner.plan runner.guard.actionID
      runner.guard.attemptID with
  | none => ((.nothing, some .invalidRunner), session)
  | some execution =>
      match runner.current script session with
      | (none, session) => ((.nothing, some .executionFailed), session)
      | (some current, session) =>
          match runner.runSteps script runner.plan.steps 0 execution
              current.observedAt session with
          | (.error stop, session) => runner.fail script stop session
          | (.ok (execution, observedAt), session) =>
              runner.finish script execution observedAt session

def run (session : Session) : (RunResult × Option RunError) × Session :=
  if session.started then ((.nothing, some .executionFailed), session)
  else
    let session := { session with started := true }
    match runner.guard.outcome session.guard with
    | .ok none =>
        let (begun, guard) := Guard.beginExecution session.guard
        let session := { session with guard := guard }
        match begun with
        | .error _ => ((.nothing, some .executionFailed), session)
        | .ok _ => runner.execute script session
    | _ => ((.nothing, some .executionFailed), session)

/-- A run from here passes `BeginExecution`. -/
structure Begins (session : Session) : Prop where
  fresh : session.started = false
  pending : runner.guard.outcome session.guard = .ok none
  begun : (Guard.beginExecution session.guard).1 = .ok ()

/-- The lease is over, or safe mode was asked for. -/
def Settled (session : Session) : Prop :=
  session.guard.store.Resolved runner.guard.actionID ∨
    session.safeModes ≠ []

end Runner

/-! ## Every failure is settled -/

section Settled

variable {digestOf} {runner : Runner digestOf} {script : Script}

theorem resolved_of_resolveAbort
    {observedAt : Instant} {session : Session}
    (resolved : (runner.resolveAbort script observedAt session).1 = true) :
    (runner.resolveAbort script observedAt session).2.guard.store.Resolved
      runner.guard.actionID := by
  unfold Runner.resolveAbort at resolved ⊢
  cases tried :
      runner.guard.abort script.pointer observedAt session.guard with
  | mk aborted guard =>
      simp only [tried] at resolved ⊢
      cases aborted with
      | ok done =>
          have aborted :=
            @resolved_of_abort runner.guard script.pointer session.guard
              observedAt
          rw [tried] at aborted
          exact aborted rfl
      | error error =>
          cases found : runner.guard.outcome guard with
          | error cause => simp [found] at resolved
          | ok outcome =>
              cases outcome with
              | none => simp [found] at resolved
              | some outcome =>
                  simp only [found] at resolved ⊢
                  exact resolved_of_outcome found

theorem settled_fail (stop : Stop) (session : Session) :
    runner.Settled (runner.fail script stop session).2 := by
  unfold Runner.fail
  simp only
  split
  · exact Or.inr (by simp)
  · rename_i resolved
    simp only [not_or, Bool.not_eq_true, Bool.not_eq_false] at resolved
    exact Or.inl (resolved_of_resolveAbort resolved.2.2)

theorem settled_finish
    (execution : Execution) (observedAt : Instant) (session : Session) :
    runner.Settled
      (runner.finish script execution observedAt session).2 := by
  unfold Runner.finish
  cases runner.current script session with
  | mk current session =>
      cases current with
      | none => exact settled_fail _ _
      | some current =>
          cases tried :
              runner.guard.commit script.pointer current session.guard with
          | mk committed guard =>
              cases committed with
              | ok done =>
                  have committed :=
                    @resolved_of_commit runner.guard script.pointer
                      session.guard current
                  rw [tried] at committed
                  simp only [tried]
                  exact Or.inl (committed rfl)
              | error error =>
                  simp only [tried]
                  split
                  · rename_i outcome found
                    split
                    · exact Or.inl (resolved_of_outcome found)
                    · exact settled_fail _ _
                  · exact settled_fail _ _

theorem newExecution_eq (runner : Runner digestOf) :
    newExecution digestOf runner.plan runner.guard.actionID
        runner.guard.attemptID =
      some
        ⟨runner.plan, runner.guard.actionID, runner.guard.attemptID, []⟩ :=
  if_pos
    ⟨runner.planValid, runner.actionIDValid, runner.attemptIDValid,
      runner.idsDiffer⟩

theorem settled_execute
    {session : Session} {current : CurrentAuthorization}
    (answered : script.current session.currents = some current)
    (authorizes : runner.Authorizes current) :
    runner.Settled (runner.execute script session).2 := by
  have first :
      runner.current script session =
        (some current, { session with currents := session.currents + 1 }) := by
    simp [Runner.current, answered, authorizes]
  unfold Runner.execute
  rw [newExecution_eq, first]
  dsimp only
  split
  · exact settled_fail _ _
  · exact settled_finish _ _ _

/-- A run that has begun leaves its lease over, or asks for safe mode,
exactly if the first answer of the authorization source is valid and names
the plan. -/
theorem run_settled_iff
    {session : Session} (begins : runner.Begins session)
    (quiet : session.safeModes = []) :
    runner.Settled (runner.run script session).2 ↔
      ∃ current, script.current session.currents = some current ∧
        runner.Authorizes current := by
  have started : session.guard.started = false := by
    have begun := begins.begun
    unfold Guard.beginExecution at begun
    split at begun
    · cases begun
    · rename_i unstarted
      simpa using unstarted
  have running :
      runner.run script session =
        runner.execute script
          { session with
            started := true
            guard := { session.guard with started := true } } := by
    simp only [Runner.run, begins.fresh, begins.pending,
      Guard.beginExecution, started, Bool.false_eq_true, if_false]
  rw [running]
  constructor
  · intro settled
    by_contra none
    have refused :
        (script.current session.currents).filter
            (fun current => decide (runner.Authorizes current)) = .none := by
      rw [Option.filter_eq_none_iff]
      intro current answered authorizes
      exact none ⟨current, answered, of_decide_eq_true authorizes⟩
    -- Nothing was written since the lease was read as pending.
    unfold Runner.execute Runner.current at settled
    rw [newExecution_eq, refused] at settled
    dsimp only at settled
    rcases settled with ⟨lease, outcome, found, _⟩ | asked
    · have pending := begins.pending
      simp only [Guard.outcome] at pending
      rw [show session.guard.store.readActionLeaseState
        runner.guard.actionID = _ from found] at pending
      cases pure_eq_ok_iff.mp pending
    · exact asked quiet
  · rintro ⟨current, answered, authorizes⟩
    exact settled_execute answered authorizes

end Settled

end Runner

/-! ## One resume -/

def resumeStep : StepSpec :=
  ⟨"resume", .operatorResume, .sha256 1, .sha256 2, .sha256 3,
    ⟨.restoreControlSnapshot, .sha256 4, .sha256 2⟩⟩

def resumeRunner : Runner fun _ _ => 5 where
  plan := ⟨"t", [resumeStep], .sha256 5⟩
  guard := ⟨.version4 1, .version4 2⟩
  planValid := by decide
  actionIDValid := rfl
  attemptIDValid := rfl
  idsDiffer := by decide

def pendingLease : ActionLease where
  schema := actionLeaseSchema
  actionID := .version4 1
  domain := .root
  capability := .operatorResume
  bundleGeneration := 1
  domainPolicyGeneration := 1
  controlStateGeneration := 1
  target := "t"
  planSHA256 := .sha256 5
  issuedAt := .utc 10
  expiresAt := .utc 1010
  issuedMonotonicNS := 0
  expiresMonotonicNS := 1000
  bootID := .version4 3
  nonce := .version4 4
  status := .pending

/-- A session whose store holds the pending lease. -/
def pendingSession : Session where
  guard :=
    { store :=
        { domain := .root
          leases := fun id =>
            if id = .version4 1 then some pendingLease else none
          nonces := fun id =>
            if id = .version4 4 then
              some
                ⟨actionNonceClaimSchema, .root, .version4 1, .version4 4,
                  .utc 10⟩
            else none
          executions := fun _ => none
          outcomes := fun _ => none }
      claim := none
      started := false
      writes := 0 }
  started := false
  currents := 0
  observations := 0
  applications := 0
  inverses := 0
  safeModes := []
  incidents := []

/-- Everything works, once the authorization source gives its answers. -/
def resumeScript (current : Nat → Option CurrentAuthorization) : Script where
  current := current
  observe count id :=
    if count = 0 then
      some ⟨id, .sha256 2, .available, .other "", .other ""⟩
    else some ⟨id, .sha256 3, .owned, .version4 1, .version4 2⟩
  apply _ _ _ := true
  applyInverse _ _ := true
  pointer _ := some ⟨.root, 1, 1⟩
  enterTargetSafeMode := true
  emitCriticalIncident := true

def resumeAuthorization : CurrentAuthorization :=
  ⟨.root, .operatorResume, 1, 1, 1, "t", .sha256 5, .version4 3, 10, 20⟩

/-- The first answer fails: the run is over with the lease still pending and
without safe mode. -/
theorem first_authorization_failure_leaves_lease_pending :
    resumeRunner.Begins pendingSession ∧
      pendingSession.safeModes = [] ∧
      ((resumeRunner.run (resumeScript fun _ => none)
          pendingSession).2.guard.store.readActionLeaseState
            resumeRunner.guard.actionID =
        .ok (pendingLease, none)) ∧
      ¬ resumeRunner.Settled
        (resumeRunner.run (resumeScript fun _ => none) pendingSession).2 := by
  have pending :
      (resumeRunner.run (resumeScript fun _ => none)
          pendingSession).2.guard.store.readActionLeaseState
            resumeRunner.guard.actionID =
        .ok (pendingLease, none) := by
    decide +kernel
  refine ⟨⟨rfl, by decide +kernel, rfl⟩, rfl, pending, ?_⟩
  rintro (⟨lease, outcome, found, _⟩ | asked)
  · rw [pending] at found
    cases congrArg Prod.snd (Except.ok.inj found)
  · exact asked (by decide +kernel)

/-- With an answer the lease is committed. -/
theorem run_settled_iff_resumed :
    resumeRunner.Begins pendingSession ∧
      pendingSession.safeModes = [] ∧
      resumeRunner.Settled
        (resumeRunner.run (resumeScript fun _ => some resumeAuthorization)
          pendingSession).2 := by
  have begins : resumeRunner.Begins pendingSession :=
    ⟨rfl, by decide +kernel, rfl⟩
  exact
    ⟨begins, rfl,
      (run_settled_iff begins rfl).mpr
        ⟨resumeAuthorization, rfl, by decide +kernel⟩⟩

example :
    (resumeRunner.run (resumeScript fun _ => some resumeAuthorization)
        pendingSession).1 =
      ({ RunResult.nothing with appliedSteps := 1, committed := true },
        none) := by
  decide +kernel

end Hexroute.ActionPlan
