import Hexroute.Lib.Effects
import Hexroute.Control.Machine

/-!
# The Pritunl planner

The planner feeds a recovery machine with what was observed of the session,
the lid, the outer path and the profile, and says whether to reconnect.  An
operator may resume it, a failed resume may be compensated, and it may be put
into SAFE_MODE.
-/

namespace Hexroute.Control

open Hexroute.Lib

inductive Action where
  | none
  | reconnect
  | requestRescue
  deriving DecidableEq, Repr

inductive PlanReason where
  | sessionInactive
  | lidClosed
  | darkWake
  | wakeUnknown
  | wakeSettling
  | outerNotReady
  | profileConnected
  | profileNotConnected
  | profileConnecting
  | recoveryVerifying
  | otpWindowTooShort
  | recoveryBackoff
  | recoveryBudget
  | reconnectAllowed
  | innerBlackholed
  | profileUnreadable
  | serviceNotRunning
  deriving DecidableEq, Repr

inductive SessionState where
  | unknown
  | active
  | inactive
  deriving DecidableEq, Repr

inductive LidState where
  | unknown
  | opened
  | closed
  deriving DecidableEq, Repr

inductive WakeKind where
  | unknown
  | full
  | dark
  deriving DecidableEq, Repr

inductive ServiceState where
  | unspecified
  | running
  | stopped
  deriving DecidableEq, Repr

inductive OptionalInnerState where
  | unspecified
  | unknown
  | ready
  | failed
  | other (text : String)
  deriving DecidableEq, Repr

def OptionalInnerState.valid : OptionalInnerState → Bool
  | .other _ => false
  | _ => true

inductive ProfileState where
  | unknown
  | active
  | inactive
  | connecting
  | disconnected
  deriving DecidableEq, Repr

structure ProfileObservation where
  found : Bool
  state : ProfileState
  connecting : Bool
  hasClientAddress : Bool
  deriving DecidableEq, Repr

def ProfileObservation.connected (profile : ProfileObservation) : Bool :=
  profile.found && decide (profile.state = .active) && !profile.connecting &&
    profile.hasClientAddress

structure PlannerPolicy where
  recovery : Policy
  wakeSettle : Int
  connectingGrace : Int
  otpPeriod : Nat
  otpMinValid : Nat
  deriving DecidableEq, Repr

structure Observation where
  tick : Int
  session : SessionState
  lid : LidState
  wake : WakeKind
  outerReady : Bool
  profile : ProfileObservation
  optionalInner : OptionalInnerState
  otpSecondsRemaining : Nat
  service : ServiceState
  profileUnreadable : Bool
  deriving DecidableEq, Repr

structure Plan where
  state : State
  action : Action
  reason : PlanReason
  nextEvaluationAt : Int
  snapshot : Snapshot
  deriving DecidableEq, Repr

structure Planner where
  policy : PlannerPolicy
  machine : Machine
  fullWakeSince : Int
  trackingFullWake : Bool
  connectingSince : Int
  trackingConnecting : Bool
  lastObservationAt : Int
  hasObservation : Bool
  lastRescueAt : Int
  hasRequestedRescue : Bool
  deriving DecidableEq, Repr

inductive PlannerError where
  | invalidInput
  | machine (error : MachineError)
  | notPersisted
  deriving DecidableEq, Repr

def newPlanner (policy : PlannerPolicy) (snapshot : Snapshot) :
    Except PlannerError Planner := do
  refuse
    (policy.wakeSettle < 0 ∨ policy.connectingGrace ≤ 0 ∨
      policy.otpPeriod = 0 ∨ policy.otpMinValid = 0 ∨
      policy.otpPeriod < policy.otpMinValid)
    .invalidInput
  let machine ← (newMachine policy.recovery snapshot).mapError .machine
  pure
    { policy := policy
      machine := machine
      fullWakeSince := 0
      trackingFullWake := false
      connectingSince := 0
      trackingConnecting := false
      lastObservationAt := 0
      hasObservation := false
      lastRescueAt := 0
      hasRequestedRescue := false }

/-- A call of a planner; what it did before an error stays done. -/
abbrev Planning := EStateM PlannerError Planner

namespace Planner

/-- Feed the machine at its own generation. -/
def step (tick : Int) (event : Event) : Planning Decision := fun planner =>
  let machine := planner.machine
  match machine.step machine.snapshot.generation tick event with
  | .ok (decision, after) => .ok decision { planner with machine := after }
  | .error error => .error (.machine error) planner

def result (reason : PlanReason) (action : Action) (next : Int) :
    Planning Plan := do
  let planner ← get
  let snapshot := planner.machine.snapshot
  pure ⟨snapshot.state, action, reason, next, snapshot⟩

def rescueRequestAllowed (planner : Planner) (tick : Int) : Bool :=
  !planner.hasRequestedRescue ||
    decide
      (int64 (planner.lastRescueAt + planner.policy.recovery.cooldown) ≤ tick)

def suspend (tick : Int) (reason : PlanReason) : Planning Plan := do
  modify fun planner =>
    { planner with trackingFullWake := false, trackingConnecting := false }
  let _ ← step tick .suspend
  result reason .none 0

def requestRescue (tick : Int) (reason : PlanReason) : Planning Plan := do
  modify fun planner =>
    { planner with lastRescueAt := tick, hasRequestedRescue := true }
  result reason .requestRescue 0

/-- The profile is connected. -/
def planConnected (observation : Observation) : Planning Plan := do
  modify fun planner => { planner with trackingConnecting := false }
  let decision ← step observation.tick .probeSucceeded
  let planner ← get
  if
    observation.optionalInner = .failed ∧
      planner.rescueRequestAllowed observation.tick = true
  then requestRescue observation.tick .innerBlackholed
  else if decision.toState = .recovering then
    result .recoveryVerifying .none 0
  else result .profileConnected .none 0

/-- The machine is degraded and may begin a recovery. -/
def planRecovery (observation : Observation) : Planning Plan := do
  let planner ← get
  if observation.otpSecondsRemaining < planner.policy.otpMinValid then
    result .otpWindowTooShort .none
      (int64 (observation.tick + observation.otpSecondsRemaining + 1))
  else do
    let decision ← step observation.tick .beginRecovery
    let planner ← get
    if decision.recoveryApproved then result .reconnectAllowed .reconnect 0
    else if decision.toState = .safeMode then
      result .recoveryBudget .none planner.machine.snapshot.safeUntil
    else
      result .recoveryBackoff .none planner.machine.snapshot.nextActionAt

/-- The profile is not connected, and not within its time to connect. -/
def planNotConnected (observation : Observation) : Planning Plan := do
  let planner ← get
  let snapshot := planner.machine.snapshot
  if
    snapshot.state = .recovering ∧
      observation.tick - snapshot.recoveringSince <
        planner.policy.connectingGrace
  then
    result .recoveryVerifying .none
      (int64 (snapshot.recoveringSince + planner.policy.connectingGrace))
  else do
    let decision ← step observation.tick .probeFailed
    let planner ← get
    match decision.toState with
    | .healthy => result .profileNotConnected .none 0
    | .safeMode =>
        result .recoveryBudget .none planner.machine.snapshot.safeUntil
    | .degraded => planRecovery observation
    | .suspended => result .profileNotConnected .none 0
    | .recovering => result .profileNotConnected .none 0

/-- Track since when the profile is connecting. -/
def trackConnecting (observation : Observation) (planner : Planner) :
    Planner :=
  if observation.profile.connecting then
    if planner.trackingConnecting then planner
    else
      { planner with
        trackingConnecting := true, connectingSince := observation.tick }
  else { planner with trackingConnecting := false }

def planConnecting (observation : Observation) : Planning Plan := do
  modify (trackConnecting observation)
  let planner ← get
  if
    observation.profile.connecting = true ∧
      observation.tick - planner.connectingSince <
        planner.policy.connectingGrace
  then
    result .profileConnecting .none
      (int64 (planner.connectingSince + planner.policy.connectingGrace))
  else planNotConnected observation

/-- The machine is neither suspended nor in SAFE_MODE before its time. -/
def planProfile (observation : Observation) : Planning Plan := do
  let planner ← get
  if
    observation.profile.connected = false ∧ observation.service = .stopped ∧
      planner.rescueRequestAllowed observation.tick = true
  then do
    let _ ← step observation.tick .probeFailed
    requestRescue observation.tick .serviceNotRunning
  else if observation.profileUnreadable then do
    let _ ← step observation.tick .probeFailed
    result .profileUnreadable .none 0
  else if observation.profile.connected then planConnected observation
  else planConnecting observation

def planReady (observation : Observation) : Planning Plan := do
  let planner ← get
  let snapshot := planner.machine.snapshot
  if snapshot.state = .safeMode ∧ observation.tick < snapshot.safeUntil then
    result .recoveryBudget .none snapshot.safeUntil
  else do
    if snapshot.state = .safeMode then
      let _ ← step observation.tick .cooldownElapsed
    let planner ← get
    if planner.machine.snapshot.state = .suspended then
      let _ ← step observation.tick .dependenciesReady
    planProfile observation

/-- Track since when the wake is full. -/
def trackFullWake (observation : Observation) (planner : Planner) : Planner :=
  if planner.trackingFullWake then planner
  else
    { planner with
      trackingFullWake := true, fullWakeSince := observation.tick }

def planAwake (observation : Observation) : Planning Plan := do
  modify (trackFullWake observation)
  let planner ← get
  if
    observation.tick - planner.fullWakeSince < planner.policy.wakeSettle
  then do
    modify fun planner => { planner with trackingConnecting := false }
    let _ ← step observation.tick .suspend
    result .wakeSettling .none
      (int64 (planner.fullWakeSince + planner.policy.wakeSettle))
  else if observation.outerReady then planReady observation
  else result .outerNotReady .none 0

/-- Only a full wake with the lid open in an active session is awake. -/
def planObserved (observation : Observation) : Planning Plan :=
  if observation.session ≠ .active then
    suspend observation.tick .sessionInactive
  else if observation.lid = .closed then
    suspend observation.tick .lidClosed
  else if observation.wake = .dark then
    suspend observation.tick .darkWake
  else if observation.lid ≠ .opened ∨ observation.wake ≠ .full then
    suspend observation.tick .wakeUnknown
  else planAwake observation

def plan (observation : Observation) : Planning Plan := fun planner =>
  if
    observation.tick < 0 ∨ observation.optionalInner.valid = false ∨
      planner.policy.otpPeriod < observation.otpSecondsRemaining
  then .error .invalidInput planner
  else if
    observation.tick < planner.machine.snapshot.lastTick ∨
      planner.hasObservation = true ∧
        observation.tick < planner.lastObservationAt
  then .error (.machine .nonMonotonicTick) planner
  else
    planObserved observation
      { planner with
        lastObservationAt := observation.tick, hasObservation := true }

/-! ## Operators -/

/-- Resume; if that cannot be persisted, the machine is as it was. -/
def resume (expectedGeneration : Nat) (tick : Int) (persisted : Bool) :
    Planning Snapshot := fun planner =>
  if tick < 0 then .error .invalidInput planner
  else
    match planner.machine.step expectedGeneration tick .operatorResume with
    | .error error => .error (.machine error) planner
    | .ok (_, after) =>
        if persisted then
          .ok after.snapshot { planner with machine := after }
        else
          match
            newMachine planner.policy.recovery planner.machine.snapshot
          with
          | .error error =>
              .error (.machine error) { planner with machine := after }
          | .ok rollback =>
              .error .notPersisted { planner with machine := rollback }

def replaceSnapshot (snapshot : Snapshot) (persisted : Bool) :
    Planning Snapshot := fun planner =>
  match newMachine planner.policy.recovery snapshot with
  | .error error => .error (.machine error) planner
  | .ok candidate =>
      if persisted then .ok snapshot { planner with machine := candidate }
      else .error .notPersisted planner

def compensateOperatorResume
    (expectedGeneration : Nat) (compensation : Snapshot) (persisted : Bool) :
    Planning Snapshot := fun planner =>
  let current := planner.machine.snapshot
  if current.generation ≠ expectedGeneration then
    .error (.machine .staleGeneration) planner
  else if
    current.state ≠ .degraded ∨ compensation.state ≠ .safeMode ∨
      compensation.generation ≠ (current.generation + 1) % 2 ^ 64 ∨
      compensation.lastTick < current.lastTick
  then .error .invalidInput planner
  else replaceSnapshot compensation persisted planner

def enterSafeMode (expectedGeneration : Nat) (tick : Int) (persisted : Bool) :
    Planning Snapshot := fun planner =>
  let current := planner.machine.snapshot
  if tick < 0 then .error .invalidInput planner
  else if current.generation ≠ expectedGeneration then
    .error (.machine .staleGeneration) planner
  else if tick < current.lastTick then
    .error (.machine .nonMonotonicTick) planner
  else
    replaceSnapshot
      { current with
        generation := (current.generation + 1) % 2 ^ 64
        state := .safeMode
        attempts := planner.policy.recovery.actionBudget
        recoveringSince := 0
        nextActionAt := 0
        safeUntil := int64 (tick + planner.policy.recovery.cooldown)
        lastTick := tick }
      persisted planner

end Planner

end Hexroute.Control
