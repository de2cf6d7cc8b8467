import Hexroute.Lib.Refusal

/-!
# The recovery machine

A machine has a policy and a snapshot.  A step takes an event at a tick and
moves the snapshot; an event that is stale, comes before the last one, or is
not for this state is refused and moves nothing.
-/

namespace Hexroute.Control

open Hexroute.Lib

/-- What is left of a tick, a signed number, in 64 bits. -/
def int64 (value : Int) : Int := value.bmod (2 ^ 64)

theorem int64_of_lt {value : Int} (low : -2 ^ 63 ≤ value) (high : value < 2 ^ 63) :
    int64 value = value :=
  Int.bmod_eq_of_le (by omega) (by omega)

inductive State where
  | suspended
  | healthy
  | degraded
  | recovering
  | safeMode
  deriving DecidableEq, Repr

inductive Event where
  | suspend
  | dependenciesReady
  | probeSucceeded
  | probeFailed
  | beginRecovery
  | cooldownElapsed
  | operatorResume
  | other (text : String)
  deriving DecidableEq, Repr

inductive Reason where
  | none
  | probeSucceeded
  | probeFailed
  | failureThreshold
  | recoveryAllowed
  | recoveryBudget
  | verificationPassed
  | cooldownElapsed
  | dependenciesReady
  | intentionalSleep
  | operatorResume
  deriving DecidableEq, Repr

structure Policy where
  failureThreshold : Nat
  actionBudget : Nat
  baseBackoff : Int
  maxBackoff : Int
  verificationWindow : Int
  cooldown : Int
  deriving DecidableEq, Repr

structure Snapshot where
  schemaVersion : Nat
  generation : Nat
  state : State
  consecutiveFailures : Nat
  attempts : Nat
  lastTick : Int
  recoveringSince : Int
  nextActionAt : Int
  safeUntil : Int
  deriving DecidableEq, Repr

structure Decision where
  fromState : State
  toState : State
  generation : Nat
  reason : Reason
  recoveryApproved : Bool
  deriving DecidableEq, Repr

inductive MachineError where
  | invalidPolicy
  | invalidSnapshot
  | staleGeneration
  | nonMonotonicTick
  | invalidEvent (text : String)
  | resumePrecondition
  deriving DecidableEq, Repr

def snapshotSchemaVersion : Nat := 1

def newSnapshot (state : State) : Snapshot where
  schemaVersion := snapshotSchemaVersion
  generation := 0
  state := state
  consecutiveFailures := 0
  attempts := 0
  lastTick := 0
  recoveringSince := 0
  nextActionAt := 0
  safeUntil := 0

structure Machine where
  policy : Policy
  snapshot : Snapshot
  deriving DecidableEq, Repr

def validatePolicy (policy : Policy) : Except MachineError Unit :=
  refuse
    (policy.failureThreshold = 0 ∨ policy.actionBudget = 0 ∨
      policy.baseBackoff ≤ 0 ∨ policy.maxBackoff < policy.baseBackoff ∨
      policy.verificationWindow < 0 ∨ policy.cooldown ≤ 0)
    .invalidPolicy

def validateSnapshot (snapshot : Snapshot) : Except MachineError Unit :=
  refuse
    (snapshot.schemaVersion ≠ snapshotSchemaVersion ∨ snapshot.lastTick < 0 ∨
      snapshot.recoveringSince < 0 ∨ snapshot.nextActionAt < 0 ∨
      snapshot.safeUntil < 0)
    .invalidSnapshot

def newMachine (policy : Policy) (snapshot : Snapshot) :
    Except MachineError Machine := do
  validatePolicy policy
  validateSnapshot snapshot
  pure ⟨policy, snapshot⟩

/-- The doubled backoff of `left` further attempts. -/
def backoffFrom (policy : Policy) : Nat → Int → Int
  | 0, backoff =>
      if policy.maxBackoff < backoff then policy.maxBackoff else backoff
  | left + 1, backoff =>
      if policy.maxBackoff.tdiv 2 ≤ backoff then policy.maxBackoff
      else backoffFrom policy left (int64 (backoff * 2))

def backoff (policy : Policy) (attempt : Nat) : Int :=
  backoffFrom policy (attempt - 1) policy.baseBackoff

def resetHealthy (snapshot : Snapshot) : Snapshot :=
  { snapshot with
    state := .healthy
    consecutiveFailures := 0
    attempts := 0
    recoveringSince := 0
    nextActionAt := 0
    safeUntil := 0 }

/-- A counter of 32 bits, one further. -/
def increment (counter : Nat) : Nat := (counter + 1) % 2 ^ 32

/-- The budget is used up. -/
def enterSafeMode (policy : Policy) (tick : Int) (snapshot : Snapshot) :
    Snapshot :=
  { snapshot with
    state := .safeMode, safeUntil := int64 (tick + policy.cooldown) }

/-- What an event does to the snapshot, the reason given, and whether a
recovery is approved. -/
structure Moved where
  snapshot : Snapshot
  reason : Reason
  approved : Bool

namespace Machine

def probeSucceeded (machine : Machine) (tick : Int) : Moved :=
  let snapshot := machine.snapshot
  match snapshot.state with
  | .healthy =>
      ⟨{ snapshot with consecutiveFailures := 0 }, .probeSucceeded, false⟩
  | .degraded => ⟨resetHealthy snapshot, .probeSucceeded, false⟩
  | .recovering =>
      if machine.policy.verificationWindow ≤
          tick - snapshot.recoveringSince then
        ⟨resetHealthy snapshot, .verificationPassed, false⟩
      else ⟨snapshot, .none, false⟩
  | .suspended => ⟨snapshot, .none, false⟩
  | .safeMode => ⟨snapshot, .none, false⟩

def probeFailed (machine : Machine) (tick : Int) : Moved :=
  let snapshot := machine.snapshot
  let failures := increment snapshot.consecutiveFailures
  match snapshot.state with
  | .suspended => ⟨snapshot, .none, false⟩
  | .safeMode => ⟨snapshot, .none, false⟩
  | .healthy =>
      let failed := { snapshot with consecutiveFailures := failures }
      if machine.policy.failureThreshold ≤ failures then
        ⟨{ failed with state := .degraded, nextActionAt := tick },
          .failureThreshold, false⟩
      else ⟨failed, .probeFailed, false⟩
  | .degraded =>
      ⟨{ snapshot with consecutiveFailures := failures }, .probeFailed, false⟩
  | .recovering =>
      let failed :=
        { snapshot with
          consecutiveFailures := failures, recoveringSince := 0 }
      if machine.policy.actionBudget ≤ snapshot.attempts then
        ⟨enterSafeMode machine.policy tick failed, .recoveryBudget, false⟩
      else ⟨{ failed with state := .degraded }, .probeFailed, false⟩

def beginRecovery (machine : Machine) (tick : Int) : Moved :=
  let snapshot := machine.snapshot
  if snapshot.state = .degraded ∧ snapshot.nextActionAt ≤ tick then
    if machine.policy.actionBudget ≤ snapshot.attempts then
      ⟨enterSafeMode machine.policy tick snapshot, .recoveryBudget, false⟩
    else
      let attempts := increment snapshot.attempts
      ⟨{ snapshot with
          attempts := attempts
          state := .recovering
          recoveringSince := tick
          nextActionAt := int64 (tick + backoff machine.policy attempts) },
        .recoveryAllowed, true⟩
  else ⟨snapshot, .none, false⟩

def cooldownElapsed (machine : Machine) (tick : Int) : Moved :=
  let snapshot := machine.snapshot
  if snapshot.state = .safeMode ∧ snapshot.safeUntil ≤ tick then
    ⟨{ snapshot with
        state := .degraded
        attempts := 0
        nextActionAt := tick
        safeUntil := 0 },
      .cooldownElapsed, false⟩
  else ⟨snapshot, .none, false⟩

def operatorResume (machine : Machine) (tick : Int) : Moved :=
  ⟨{ machine.snapshot with
      state := .degraded
      attempts := 0
      recoveringSince := 0
      nextActionAt := tick
      safeUntil := 0 },
    .operatorResume, false⟩

/-- The switch over the events. -/
def moved (machine : Machine) (tick : Int) : Event →
    Except MachineError Moved
  | .suspend =>
      pure
        ⟨{ machine.snapshot with
            state := .suspended
            consecutiveFailures := 0
            recoveringSince := 0 },
          .intentionalSleep, false⟩
  | .dependenciesReady =>
      pure
        (if machine.snapshot.state = .suspended then
          ⟨resetHealthy machine.snapshot, .dependenciesReady, false⟩
        else ⟨machine.snapshot, .none, false⟩)
  | .probeSucceeded => pure (machine.probeSucceeded tick)
  | .probeFailed => pure (machine.probeFailed tick)
  | .beginRecovery => pure (machine.beginRecovery tick)
  | .cooldownElapsed => pure (machine.cooldownElapsed tick)
  | .operatorResume => do
      refuse (machine.snapshot.state ≠ .safeMode) .resumePrecondition
      pure (machine.operatorResume tick)
  | .other text => throw (.invalidEvent text)

/-- The generation counts the steps that changed the snapshot. -/
def step
    (machine : Machine) (expectedGeneration : Nat) (tick : Int)
    (event : Event) : Except MachineError (Decision × Machine) := do
  refuse (expectedGeneration ≠ machine.snapshot.generation) .staleGeneration
  refuse (tick < machine.snapshot.lastTick) .nonMonotonicTick
  let moved ← machine.moved tick event
  let ticked := { moved.snapshot with lastTick := tick }
  let after :=
    if ticked = machine.snapshot then ticked
    else { ticked with generation := (ticked.generation + 1) % 2 ^ 64 }
  pure
    (⟨machine.snapshot.state, after.state, after.generation, moved.reason,
        moved.approved⟩,
      { machine with snapshot := after })

end Machine

/-! ## What a step can do -/

/-- What a step does to the state and the tick SAFE_MODE ends at. -/
inductive Effect
    (policy : Policy) (tick : Int) (event : Event) (approved : Bool)
    (before after : Snapshot) : Prop where
  | stays
      (state : after.state = before.state)
      (same : after.safeUntil = before.safeUntil)
      (quiet : approved = false)
  | suspends
      (is : event = .suspend)
      (state : after.state = .suspended)
      (same : after.safeUntil = before.safeUntil)
      (quiet : approved = false)
  | wakes
      (is : event = .dependenciesReady)
      (asleep : before.state = .suspended)
      (state : after.state = .healthy)
      (quiet : approved = false)
  | moves
      (running : before.state ≠ .suspended ∧ before.state ≠ .safeMode)
      (state : after.state ≠ .safeMode)
  | enters
      (is : event = .probeFailed ∨ event = .beginRecovery)
      (running : before.state ≠ .suspended ∧ before.state ≠ .safeMode)
      (state : after.state = .safeMode)
      (set : after.safeUntil = int64 (tick + policy.cooldown))
      (quiet : approved = false)
  | cools
      (safe : before.state = .safeMode)
      (elapsed : before.safeUntil ≤ tick)
      (state : after.state = .degraded)
      (quiet : approved = false)
  | resumes
      (is : event = .operatorResume)
      (state : after.state = .degraded)
      (quiet : approved = false)

section Effects

variable {machine : Machine} {tick : Int}

theorem probeSucceeded_effect :
    Effect machine.policy tick .probeSucceeded
      (machine.probeSucceeded tick).approved machine.snapshot
      (machine.probeSucceeded tick).snapshot := by
  unfold Machine.probeSucceeded
  dsimp only
  split
  · exact .stays rfl rfl rfl
  · rename_i state
    exact .moves (by simp [state]) nofun
  · rename_i state
    split
    · exact .moves (by simp [state]) nofun
    · exact .stays rfl rfl rfl
  · exact .stays rfl rfl rfl
  · exact .stays rfl rfl rfl

theorem probeFailed_effect :
    Effect machine.policy tick .probeFailed
      (machine.probeFailed tick).approved machine.snapshot
      (machine.probeFailed tick).snapshot := by
  unfold Machine.probeFailed
  dsimp only
  split
  · exact .stays rfl rfl rfl
  · exact .stays rfl rfl rfl
  · rename_i state
    split
    · exact .moves (by simp [state]) nofun
    · exact .stays rfl rfl rfl
  · exact .stays rfl rfl rfl
  · rename_i state
    split
    · exact .enters (Or.inl rfl) (by simp [state]) rfl rfl rfl
    · exact .moves (by simp [state]) nofun

theorem beginRecovery_effect :
    Effect machine.policy tick .beginRecovery
      (machine.beginRecovery tick).approved machine.snapshot
      (machine.beginRecovery tick).snapshot := by
  unfold Machine.beginRecovery
  dsimp only
  split
  · rename_i ready
    split
    · exact .enters (Or.inr rfl) (by simp [ready.1]) rfl rfl rfl
    · exact .moves (by simp [ready.1]) nofun
  · exact .stays rfl rfl rfl

theorem cooldownElapsed_effect :
    Effect machine.policy tick .cooldownElapsed
      (machine.cooldownElapsed tick).approved machine.snapshot
      (machine.cooldownElapsed tick).snapshot := by
  unfold Machine.cooldownElapsed
  dsimp only
  split
  · rename_i elapsed
    exact .cools elapsed.1 elapsed.2 rfl rfl
  · exact .stays rfl rfl rfl

theorem moved_effect
    {event : Event} {moved : Moved}
    (ran : machine.moved tick event = .ok moved) :
    Effect machine.policy tick event moved.approved machine.snapshot
      moved.snapshot := by
  cases event with
  | suspend =>
      cases ran
      exact .suspends rfl rfl rfl rfl
  | dependenciesReady =>
      cases ran
      split
      · rename_i suspended
        exact .wakes rfl suspended rfl rfl
      · exact .stays rfl rfl rfl
  | probeSucceeded =>
      cases ran
      exact probeSucceeded_effect
  | probeFailed =>
      cases ran
      exact probeFailed_effect
  | beginRecovery =>
      cases ran
      exact beginRecovery_effect
  | cooldownElapsed =>
      cases ran
      exact cooldownElapsed_effect
  | operatorResume =>
      obtain ⟨_, _, is⟩ := bind_eq_ok_iff.mp ran
      cases is
      exact .resumes rfl rfl rfl
  | other text => cases ran

/-- What a step that is taken has checked and done. -/
theorem step_effect
    {expectedGeneration : Nat} {event : Event} {decision : Decision}
    {after : Machine}
    (ran :
      machine.step expectedGeneration tick event = .ok (decision, after)) :
    machine.snapshot.lastTick ≤ tick ∧ after.policy = machine.policy ∧
      after.snapshot.lastTick = tick ∧
      decision.fromState = machine.snapshot.state ∧
      decision.toState = after.snapshot.state ∧
      Effect machine.policy tick event decision.recoveryApproved
        machine.snapshot after.snapshot := by
  unfold Machine.step at ran
  simp only [bind_eq_ok_iff, refuse_eq_ok_iff, pure_eq_ok_iff,
    Prod.mk.injEq] at ran
  obtain ⟨_, _, _, late, moved, did, rfl, rfl⟩ := ran
  have effect := moved_effect did
  refine ⟨not_lt.mp late, rfl, ?_, rfl, rfl, ?_⟩
  · dsimp only
    split <;> rfl
  · -- the last tick and the generation have no part in the effect
    have same :
        ∀ snapshot : Snapshot,
          snapshot.state = moved.snapshot.state →
          snapshot.safeUntil = moved.snapshot.safeUntil →
          Effect machine.policy tick event moved.approved machine.snapshot
            snapshot := by
      intro snapshot state safeUntil
      cases effect with
      | stays was is quiet =>
          exact .stays (state.trans was) (safeUntil.trans is) quiet
      | suspends slept was is quiet =>
          exact .suspends slept (state.trans was) (safeUntil.trans is) quiet
      | wakes is asleep was quiet =>
          exact .wakes is asleep (state.trans was) quiet
      | moves running was => exact .moves running (state ▸ was)
      | enters is running was set quiet =>
          exact .enters is running (state.trans was) (safeUntil.trans set) quiet
      | cools safe elapsed was quiet =>
          exact .cools safe elapsed (state.trans was) quiet
      | resumes is was quiet => exact .resumes is (state.trans was) quiet
    dsimp only
    split
    · exact same _ rfl rfl
    · exact same _ rfl rfl

end Effects

end Hexroute.Control
