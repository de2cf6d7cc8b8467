import Hexroute.Lib.History
import Hexroute.Lib.StableSort

/-!
# Collecting a qualification session

The agent keeps two files: the chain of evidence, to which it appends, and the
state of the session, which it replaces.  A sample appends a window that
starts at the position in the state, and then moves the position.  The process
may stop between any two writes.
-/

namespace Hexroute.Qualification

open Hexroute.Lib

/-! ## The chain of evidence -/

/-- Times and durations are nanoseconds. -/
def minute : Nat := 60 * 1000000000

def maximumEligibleWindow : Nat := 7 * 24 * 60 * minute

def minimumEligibleDuration : Nat := 72 * 60 * minute

def maximumRecords : Nat := 100000

inductive FaultKind where
  | invalidSignature
  | selectorConflict
  | staleGeneration
  | crossDomainCrash
  deriving DecidableEq, Repr

inductive Payload where
  | eligibleWindow (startedAt startedMonotonic : Nat)
  | sleepWake (sleptAt sleptMonotonic : Nat)
  | reboot (previous : Nat)
  | fault (kind : FaultKind)
  | safetyComparison
  deriving DecidableEq, Repr

/-- A record of the session; its payload ends where it was observed. -/
structure Record where
  payload : Payload
  boot : Nat
  observedAt : Nat
  monotonic : Nat
  passed : Bool
  deriving DecidableEq, Repr

/-- The two clocks differ by two minutes at most. -/
def agree (wall monotonic : Nat) : Bool :=
  wall ≤ monotonic + 2 * minute && monotonic ≤ wall + 2 * minute

def Record.valid (record : Record) : Bool :=
  match record.payload with
  | .eligibleWindow startedAt startedMonotonic =>
      startedAt < record.observedAt &&
        record.observedAt - startedAt ≤ maximumEligibleWindow &&
        startedMonotonic < record.monotonic &&
        agree (record.observedAt - startedAt)
          (record.monotonic - startedMonotonic)
  | .sleepWake sleptAt sleptMonotonic =>
      sleptAt < record.observedAt && sleptMonotonic < record.monotonic &&
        agree (record.observedAt - sleptAt)
          (record.monotonic - sleptMonotonic)
  | .reboot previous => previous ≠ record.boot
  | .fault _ => true
  | .safetyComparison => true

structure Window where
  startedAt : Nat
  endedAt : Nat
  deriving DecidableEq, Repr

structure ChainState where
  currentBoot : Option Nat
  lastObservedAt : Option Nat
  lastMonotonicByBoot : Nat → Option Nat
  failedEvidence : Bool
  windows : List Window
  nonWindowTimes : List Nat
  rebootTimes : List Nat
  sleepWakeCycles : Nat
  faults : List FaultKind
  safetyComparisons : Nat

def emptyChain : ChainState :=
  ⟨none, none, fun _ => none, false, [], [], [], 0, [], 0⟩

namespace ChainState

/-- The boot that a record has to name. -/
def bootFollows (state : ChainState) (record : Record) : Bool :=
  match state.currentBoot, record.payload with
  | none, .reboot _ => false
  | none, _ => true
  | some current, .reboot previous =>
      previous = current && record.boot ≠ current
  | some current, _ => record.boot = current

def clockFollows (state : ChainState) (record : Record) : Bool :=
  match record.payload with
  | .reboot _ => true
  | _ =>
      (state.lastMonotonicByBoot record.boot).all fun previous =>
        previous ≤ record.monotonic

def validNext (state : ChainState) (record : Record) : Bool :=
  (state.lastObservedAt.all fun last => last ≤ record.observedAt) &&
    state.bootFollows record && state.clockFollows record

/-- What a record counts for. -/
def count (state : ChainState) (record : Record) : ChainState :=
  match record.payload with
  | .eligibleWindow startedAt _ =>
      if record.passed then
        { state with
          windows := state.windows ++ [⟨startedAt, record.observedAt⟩] }
      else state
  | .sleepWake _ _ =>
      { state with
        nonWindowTimes := state.nonWindowTimes ++ [record.observedAt]
        sleepWakeCycles :=
          state.sleepWakeCycles + if record.passed then 1 else 0 }
  | .reboot _ =>
      { state with
        nonWindowTimes := state.nonWindowTimes ++ [record.observedAt]
        rebootTimes :=
          if record.passed then state.rebootTimes ++ [record.observedAt]
          else state.rebootTimes }
  | .fault kind =>
      { state with
        nonWindowTimes := state.nonWindowTimes ++ [record.observedAt]
        faults :=
          if record.passed then state.faults ++ [kind] else state.faults }
  | .safetyComparison =>
      { state with
        nonWindowTimes := state.nonWindowTimes ++ [record.observedAt]
        safetyComparisons :=
          state.safetyComparisons + if record.passed then 1 else 0 }

def apply (state : ChainState) (record : Record) : ChainState :=
  { state.count record with
    currentBoot :=
      match state.currentBoot, record.payload with
      | some _, .reboot _ => some record.boot
      | some current, _ => some current
      | none, _ => some record.boot
    lastObservedAt := some record.observedAt
    lastMonotonicByBoot :=
      Function.update state.lastMonotonicByBoot record.boot
        (some record.monotonic)
    failedEvidence := state.failedEvidence || !record.passed }

/-- A window follows another one where that ended, or at a reboot after
it. -/
def Follows (reboots : List Nat) (earlier later : Window) : Prop :=
  earlier.endedAt ≤ later.startedAt ∧
    (later.startedAt = earlier.endedAt ∨ later.startedAt ∈ reboots)

instance (reboots : List Nat) (earlier later : Window) :
    Decidable (Follows reboots earlier later) :=
  inferInstanceAs (Decidable (_ ∧ _))

/-- The windows by their starts, each one following the one before. -/
def Chained (state : ChainState) : Prop :=
  (sortBy Window.startedAt state.windows).IsChain
    (Follows state.rebootTimes)

instance (state : ChainState) : Decidable state.Chained :=
  inferInstanceAs (Decidable (List.IsChain _ _))

def complete (state : ChainState) : Bool :=
  !state.failedEvidence && 2 ≤ state.sleepWakeCycles &&
    !state.rebootTimes.isEmpty && 0 < state.safetyComparisons &&
    FaultKind.invalidSignature ∈ state.faults &&
    FaultKind.selectorConflict ∈ state.faults &&
    FaultKind.staleGeneration ∈ state.faults &&
    FaultKind.crossDomainCrash ∈ state.faults &&
    !state.windows.isEmpty && state.Chained &&
    minimumEligibleDuration ≤
      (state.windows.map fun window =>
        window.endedAt - window.startedAt).sum &&
    state.nonWindowTimes.all fun time =>
      (state.windows.any fun window =>
        window.startedAt ≤ time && time ≤ window.endedAt) ||
        time ∈ state.rebootTimes

end ChainState

def extend (state : ChainState) (record : Record) : Option ChainState :=
  if record.valid && state.validNext record then some (state.apply record)
  else none

def validateChain (chain : List Record) : Option ChainState :=
  chain.foldlM extend emptyChain

/-- Append a record to a chain that is valid with it. -/
def append (chain : List Record) (record : Record) :
    Option (List Record) :=
  match validateChain chain with
  | none => none
  | some state =>
      if chain.length < maximumRecords then
        (extend state record).map fun _ => chain ++ [record]
      else none

/-! ## The agent -/

structure Config where
  maximumGap : Nat
  bounded : maximumGap ≤ 30 * minute

inductive Lifecycle where
  | collecting
  | invalid
  | complete
  deriving DecidableEq, Repr

structure SleepArm where
  boot : Nat
  armedAt : Nat
  monotonic : Nat
  deriving DecidableEq, Repr

structure State where
  lifecycle : Lifecycle
  currentBoot : Nat
  lastObservedAt : Nat
  lastMonotonic : Nat
  sleepArm : Option SleepArm
  deriving DecidableEq, Repr

/-- What a sample reads: the clocks of the platform, and whether the policies
still match the binding. -/
structure Sample where
  boot : Nat
  observedAt : Nat
  monotonic : Nat
  bindingHolds : Bool
  deriving DecidableEq, Repr

/-- The two files. -/
structure System where
  chain : List Record
  state : State
  deriving DecidableEq, Repr

def maximumArmDuration : Nat := 24 * 60 * minute

def Sample.record (sample : Sample) (payload : Payload) (passed : Bool) :
    Record :=
  ⟨payload, sample.boot, sample.observedAt, sample.monotonic, passed⟩

namespace State

def invalidated (state : State) : State :=
  { state with lifecycle := .invalid }

def window (state : State) (sample : Sample) (passed : Bool) : Record :=
  sample.record
    (.eligibleWindow state.lastObservedAt state.lastMonotonic) passed

/-- The position after a reboot. -/
def rebooted (state : State) (sample : Sample) : State :=
  ⟨state.lifecycle, sample.boot, sample.observedAt, sample.monotonic, none⟩

/-- The position after a window. -/
def moved (state : State) (sample : Sample) : State :=
  { state with
    lastObservedAt := sample.observedAt
    lastMonotonic := sample.monotonic
    sleepArm :=
      state.sleepArm.filter fun arm =>
        sample.observedAt - arm.armedAt ≤ maximumArmDuration }

end State

inductive SleepWakeDecision where
  | invalid
  | pending
  | complete
  deriving DecidableEq, Repr

def sleepWakeDecision (state : State) (sample : Sample) (awake : Bool) :
    SleepWakeDecision :=
  match state.sleepArm with
  | none => .invalid
  | some arm =>
      if arm.boot = sample.boot ∧ arm.monotonic < sample.monotonic ∧
          arm.armedAt < sample.observedAt ∧
          sample.observedAt - arm.armedAt ≤ maximumArmDuration ∧
          agree (sample.observedAt - arm.armedAt)
            (sample.monotonic - arm.monotonic) = true then
        if awake then .complete else .pending
      else .invalid

/-- Append a record; `memory` is the state that is saved when that fails.
The result lists what the files hold after every write. -/
def recorded (system : System) (memory : State) (record : Record)
    (rest : List Record → List System) : List System :=
  match append system.chain record with
  | none => [⟨system.chain, memory.invalidated⟩]
  | some chain => ⟨chain, system.state⟩ :: rest chain

def collectWindow (system : System) (memory : State) (sample : Sample) :
    List System :=
  recorded system memory (memory.window sample true) fun chain =>
    [⟨chain, memory.moved sample⟩]

def wokenUp (system : System) (sample : Sample) (arm : SleepArm) :
    List System :=
  recorded system system.state
    (sample.record (.sleepWake arm.armedAt arm.monotonic) true) fun chain =>
      collectWindow ⟨chain, system.state⟩
        { system.state with sleepArm := none } sample

def collect (config : Config) (system : System) (sample : Sample)
    (awake : Bool) : List System :=
  let state := system.state
  if state.lastObservedAt < sample.observedAt ∧
      state.lastMonotonic < sample.monotonic ∧
      agree (sample.observedAt - state.lastObservedAt)
        (sample.monotonic - state.lastMonotonic) = true then
    if sample.observedAt - state.lastObservedAt ≤ config.maximumGap then
      collectWindow system state sample
    else
      match sleepWakeDecision state sample awake, state.sleepArm with
      | .pending, _ => []
      | .complete, some arm => wokenUp system sample arm
      | _, _ =>
          recorded system state (state.window sample false) fun chain =>
            [⟨chain, state.invalidated⟩]
  else [⟨system.chain, state.invalidated⟩]

/-- Policies that no longer match the binding end the session. -/
def compared (system : System) (memory : State) (sample : Sample)
    (rest : List System) : List System :=
  if sample.bindingHolds then rest
  else
    recorded system memory (sample.record .safetyComparison false)
      fun chain => [⟨chain, memory.invalidated⟩]

/-- The writes of a sample, one after the other. -/
def sampleLocked (config : Config) (system : System) (sample : Sample)
    (awake : Bool) : List System :=
  match validateChain system.chain with
  | none => [⟨system.chain, system.state.invalidated⟩]
  | some progress =>
      if progress.complete then
        [⟨system.chain, { system.state with lifecycle := .complete }⟩]
      else if sample.boot ≠ system.state.currentBoot then
        recorded system system.state
          (sample.record (.reboot system.state.currentBoot) true)
          fun chain =>
            compared ⟨chain, system.state⟩ (system.state.rebooted sample)
              sample [⟨chain, system.state.rebooted sample⟩]
      else
        compared system system.state sample
          (collect config system sample awake)

/-- What happens: a process attaches, sleep is armed, a fault report is
imported, or a sample is taken, of which some writes are made. -/
inductive Step where
  | attach
  | arm (sample : Sample) (awake : Bool)
  | fault (kind : FaultKind) (sample : Sample)
  | sample (sample : Sample) (awake : Bool) (writes : Nat)
  deriving DecidableEq, Repr

namespace System

/-- A command reads a sample of the same boot that matches the binding. -/
def commands (system : System) (sample : Sample) : Bool :=
  system.state.lifecycle = .collecting &&
    sample.boot = system.state.currentBoot &&
    system.state.lastMonotonic ≤ sample.monotonic && sample.bindingHolds

def withArm (system : System) (arm : Option SleepArm) : System :=
  { system with state := { system.state with sleepArm := arm } }

def next (config : Config) (system : System) : Step → System
  | .attach =>
      if system.state.lifecycle = .collecting then system.withArm none
      else system
  | .arm sample awake =>
      if system.commands sample && awake then
        system.withArm
          (some ⟨sample.boot, sample.observedAt, sample.monotonic⟩)
      else system
  | .fault kind sample =>
      if system.commands sample then
        match append system.chain (sample.record (.fault kind) true) with
        | none => system
        | some chain => { system with chain := chain }
      else system
  | .sample sample awake writes =>
      if system.state.lifecycle = .collecting then
        ((sampleLocked config system sample awake).take writes).getLast?.getD
          system
      else system

end System

/-- A session that has been started by a first sample. -/
def started (sample : Sample) : System where
  chain := [sample.record .safetyComparison true]
  state :=
    ⟨.collecting, sample.boot, sample.observedAt, sample.monotonic, none⟩

/-! ## What is claimed -/

/-- The session is not marked invalid, and its windows are chained. -/
def System.Kept (system : System) : Prop :=
  system.state.lifecycle ≠ .invalid ∧
    ∃ state ∈ validateChain system.chain,
      state.failedEvidence = false ∧ state.Chained

/-- The samples of a run: clocks agree and go forward, the binding is
unchanged, and a sample of the same boot comes within the gap of the position
or across an armed sleep. -/
def Fair (config : Config) (system : System) : Step → Prop
  | .sample sample awake _ =>
      sample.bindingHolds = true ∧
        system.chain.length + 1 < maximumRecords ∧
        (∀ state ∈ validateChain system.chain,
          (∀ last ∈ state.lastObservedAt, last ≤ sample.observedAt) ∧
            ∀ last ∈ state.lastMonotonicByBoot sample.boot,
              last ≤ sample.monotonic) ∧
        (sample.boot = system.state.currentBoot →
          system.state.lastObservedAt < sample.observedAt ∧
            system.state.lastMonotonic < sample.monotonic ∧
            agree (sample.observedAt - system.state.lastObservedAt)
              (sample.monotonic - system.state.lastMonotonic) = true ∧
            (sample.observedAt - system.state.lastObservedAt ≤
                config.maximumGap ∨
              (sleepWakeDecision system.state sample awake ≠ .invalid ∧
                sample.observedAt - system.state.lastObservedAt ≤
                  maximumEligibleWindow)))
  | _ => True

/-- The state has caught up with the chain: it has the boot of the chain, and
no window of the chain ends after the position that a new window starts
from. -/
def CaughtUp (system : System) : Step → Prop
  | .sample sample _ _ =>
      ∀ state ∈ validateChain system.chain,
        state.currentBoot = some system.state.currentBoot ∧
          (sample.boot = system.state.currentBoot →
            ∀ window ∈ state.windows,
              window.endedAt ≤ system.state.lastObservedAt)
  | _ => True

instance (config : Config) (system : System) (step : Step) :
    Decidable (Fair config system step) :=
  match step with
  | .attach => isTrue trivial
  | .arm _ _ => isTrue trivial
  | .fault _ _ => isTrue trivial
  | .sample _ _ _ => inferInstanceAs (Decidable (_ ∧ _))

instance (system : System) (step : Step) :
    Decidable (CaughtUp system step) :=
  match step with
  | .attach => isTrue trivial
  | .arm _ _ => isTrue trivial
  | .fault _ _ => isTrue trivial
  | .sample _ _ _ => inferInstanceAs (Decidable (∀ _ ∈ _, _))

/-! ## Chains that grow -/

theorem validateChain_append
    {chain : List Record} {state : ChainState}
    (valid : validateChain chain = some state) (record : Record) :
    validateChain (chain ++ [record]) = extend state record := by
  unfold validateChain at valid ⊢
  rw [List.foldlM_append, valid]
  simp

/-- What a chain shows of a session that is kept: no failed evidence, windows
in order, and the position in the state where the last window ended or at a
reboot, unless the window ends after it. -/
structure Sound (chain : ChainState) (position : Nat) : Prop where
  passed : chain.failedEvidence = false
  proper : ∀ window ∈ chain.windows, window.startedAt < window.endedAt
  rising :
    chain.windows.Pairwise fun earlier later =>
      earlier.startedAt < later.startedAt
  chained : chain.windows.IsChain (ChainState.Follows chain.rebootTimes)
  anchored :
    ∀ last ∈ chain.windows.getLast?, last.endedAt ≤ position →
      position = last.endedAt ∨ position ∈ chain.rebootTimes

theorem Sound.kept
    {chain : ChainState} {position : Nat} (sound : Sound chain position) :
    chain.Chained := by
  unfold ChainState.Chained
  rw [sortBy_eq_self (sound.rising.imp fun less => le_of_lt less)]
  exact sound.chained

/-- The session is kept, and its position is sound for its chain. -/
structure System.Collected (system : System) (chain : ChainState) :
    Prop where
  alive : system.state.lifecycle ≠ .invalid
  valid : validateChain system.chain = some chain
  sound : Sound chain system.state.lastObservedAt

section Growth

variable {chain : ChainState} {record : Record} {position : Nat}

/-- A record that passes and is no window leaves the windows, and a reboot
adds its time. -/
theorem Sound.apply
    (sound : Sound chain position) (passed : record.passed = true)
    (windows : (chain.apply record).windows = chain.windows)
    (reboots : ∀ time ∈ chain.rebootTimes,
      time ∈ (chain.apply record).rebootTimes) :
    Sound (chain.apply record) position := by
  constructor
  case passed =>
    simp [ChainState.apply, sound.passed, passed]
  case proper => exact windows ▸ sound.proper
  case rising => exact windows ▸ sound.rising
  case chained =>
    rw [windows]
    refine sound.chained.imp fun _ _ follows => ⟨follows.1, ?_⟩
    exact follows.2.imp id (reboots _)
  case anchored =>
    rw [windows]
    intro last isLast low
    exact (sound.anchored last isLast low).imp id (reboots _)

/-- A window that starts at the position is chained to the windows before
it. -/
theorem Sound.window
    (sound : Sound chain position)
    {sample : Sample} {monotonic : Nat}
    (later : position < sample.observedAt)
    (caughtUp : ∀ window ∈ chain.windows, window.endedAt ≤ position) :
    let grown :=
      chain.apply (sample.record (.eligibleWindow position monotonic) true)
    Sound grown position ∧ Sound grown sample.observedAt := by
  intro grown
  have windows :
      grown.windows = chain.windows ++ [⟨position, sample.observedAt⟩] := by
    simp [grown, ChainState.apply, ChainState.count, Sample.record]
  have reboots : grown.rebootTimes = chain.rebootTimes := by
    simp [grown, ChainState.apply, ChainState.count, Sample.record]
  have passed : grown.failedEvidence = false := by
    simp [grown, ChainState.apply, Sample.record, sound.passed]
  have proper :
      ∀ window ∈ grown.windows, window.startedAt < window.endedAt := by
    rw [windows]
    intro window member
    rcases List.mem_append.mp member with old | new
    · exact sound.proper window old
    · rw [List.mem_singleton.mp new]
      exact later
  have rising :
      grown.windows.Pairwise fun earlier later =>
        earlier.startedAt < later.startedAt := by
    rw [windows]
    refine
      List.pairwise_append.mpr
        ⟨sound.rising, List.pairwise_singleton _ _, ?_⟩
    intro window member last isLast
    rw [List.mem_singleton.mp isLast]
    exact (sound.proper window member).trans_le (caughtUp window member)
  have chained :
      grown.windows.IsChain (ChainState.Follows grown.rebootTimes) := by
    rw [windows, reboots]
    refine
      List.isChain_append.mpr ⟨sound.chained, List.isChain_singleton _, ?_⟩
    intro last isLast first isFirst
    cases isFirst
    have low := caughtUp last (List.mem_of_getLast? isLast)
    exact ⟨low, sound.anchored last isLast low⟩
  refine
    ⟨⟨passed, proper, rising, chained, ?_⟩,
      ⟨passed, proper, rising, chained, ?_⟩⟩
  · intro last isLast low
    rw [windows, List.getLast?_append, List.getLast?_singleton] at isLast
    cases isLast
    exact absurd later (Nat.not_lt.mpr low)
  · intro last isLast _
    rw [windows, List.getLast?_append, List.getLast?_singleton] at isLast
    cases isLast
    exact .inl rfl

end Growth

/-! ## What a step keeps -/

section Steps

variable {config : Config} {system : System} {sample : Sample}
  {chain : ChainState}

theorem append_eq
    (valid : validateChain system.chain = some chain)
    (room : system.chain.length < maximumRecords) {record : Record}
    (fits : record.valid = true) (follows : chain.validNext record = true) :
    append system.chain record = some (system.chain ++ [record]) ∧
      validateChain (system.chain ++ [record]) =
        some (chain.apply record) := by
  have extended : extend chain record = some (chain.apply record) := by
    simp [extend, fits, follows]
  constructor
  · simp [append, valid, room, extended]
  · rw [validateChain_append valid, extended]

theorem append_valid
    (valid : validateChain system.chain = some chain) {record : Record}
    {longer : List Record}
    (appended : append system.chain record = some longer) :
    validateChain longer = some (chain.apply record) := by
  simp only [append, valid] at appended
  split at appended
  · obtain ⟨grown, extended, rfl⟩ := Option.map_eq_some_iff.mp appended
    rw [validateChain_append valid, extended]
    unfold extend at extended
    split at extended
    · exact extended.symm
    · cases extended
  · cases appended

/-- The times of a sample are not behind those of the chain. -/
structure Ahead (chain : ChainState) (sample : Sample) : Prop where
  wall : ∀ last ∈ chain.lastObservedAt, last ≤ sample.observedAt
  monotonic :
    ∀ last ∈ chain.lastMonotonicByBoot sample.boot,
      last ≤ sample.monotonic

theorem Ahead.validNext
    (ahead : Ahead chain sample) {payload : Payload} (passed : Bool)
    (boot :
      chain.bootFollows (sample.record payload passed) = true) :
    chain.validNext (sample.record payload passed) = true := by
  have wall :
      (chain.lastObservedAt.all fun last => last ≤ sample.observedAt) =
        true := by
    cases isLast : chain.lastObservedAt with
    | none => rfl
    | some last => exact decide_eq_true (ahead.wall last isLast)
  have clock :
      chain.clockFollows (sample.record payload passed) = true := by
    unfold ChainState.clockFollows
    split
    · rfl
    · cases isLast : chain.lastMonotonicByBoot sample.boot with
      | none => simp [Sample.record, isLast]
      | some last =>
          have low := ahead.monotonic last isLast
          simp [Sample.record, isLast, low]
  unfold ChainState.validNext
  rw [boot, clock, Bool.and_true, Bool.and_true]
  exact wall

theorem Ahead.apply
    (sample : Sample) (chain : ChainState) (payload : Payload)
    (passed : Bool) :
    Ahead (chain.apply (sample.record payload passed)) sample := by
  constructor
  · intro last isLast
    cases isLast
    exact Nat.le_refl _
  · intro last isLast
    simp only [ChainState.apply, Sample.record, Function.update_self,
      Option.mem_def, Option.some.injEq] at isLast
    omega

/-- Every write of a step leaves the session as it has to be. -/
def Leaves (writes : List System) : Prop :=
  ∀ after ∈ writes, ∃ grown, after.Collected grown

theorem recorded_leaves
    (collected : system.Collected chain)
    (room : system.chain.length < maximumRecords) {record : Record}
    (fits : record.valid = true) (follows : chain.validNext record = true)
    (sound : Sound (chain.apply record) system.state.lastObservedAt)
    (memory : State) {rest : List Record → List System}
    (others :
      validateChain (system.chain ++ [record]) =
          some (chain.apply record) →
        Leaves (rest (system.chain ++ [record]))) :
    Leaves (recorded system memory record rest) := by
  obtain ⟨appended, valid⟩ := append_eq collected.valid room fits follows
  intro after member
  simp only [recorded, appended] at member
  rcases List.mem_cons.mp member with rfl | later
  · exact ⟨_, collected.alive, valid, sound⟩
  · exact others valid after later

/-- What a sample of the boot of the chain relies on. -/
structure Continues (config : Config) (system : System)
    (chain : ChainState) (sample : Sample) : Prop where
  boot : chain.currentBoot = some sample.boot
  ahead : Ahead chain sample
  wall : system.state.lastObservedAt < sample.observedAt
  monotonic : system.state.lastMonotonic < sample.monotonic
  agreeing :
    agree (sample.observedAt - system.state.lastObservedAt)
      (sample.monotonic - system.state.lastMonotonic) = true
  short :
    sample.observedAt - system.state.lastObservedAt ≤ maximumEligibleWindow
  caughtUp :
    ∀ window ∈ chain.windows, window.endedAt ≤ system.state.lastObservedAt

theorem collectWindow_leaves
    (collected : system.Collected chain)
    (room : system.chain.length < maximumRecords)
    (continues : Continues config system chain sample) (memory : State)
    (alive : memory.lifecycle ≠ .invalid)
    (position :
      memory.lastObservedAt = system.state.lastObservedAt ∧
        memory.lastMonotonic = system.state.lastMonotonic) :
    Leaves (collectWindow system memory sample) := by
  have grown :=
    @Sound.window chain system.state.lastObservedAt collected.sound sample
      system.state.lastMonotonic continues.wall continues.caughtUp
  have record :
      memory.window sample true =
        sample.record
          (.eligibleWindow system.state.lastObservedAt
            system.state.lastMonotonic) true := by
    rw [State.window, position.1, position.2]
  unfold collectWindow
  rw [record]
  refine recorded_leaves collected room ?_ ?_ grown.1 memory ?_
  · simp [Record.valid, Sample.record, continues.wall, continues.short,
      continues.monotonic, continues.agreeing]
  · refine continues.ahead.validNext true ?_
    simp [ChainState.bootFollows, Sample.record, continues.boot]
  · intro valid after member
    rw [List.mem_singleton.mp member]
    exact ⟨_, alive, valid, grown.2⟩

theorem wokenUp_leaves
    (collected : system.Collected chain)
    (room : system.chain.length + 1 < maximumRecords)
    (continues : Continues config system chain sample) {arm : SleepArm}
    (slept :
      arm.monotonic < sample.monotonic ∧ arm.armedAt < sample.observedAt ∧
        agree (sample.observedAt - arm.armedAt)
          (sample.monotonic - arm.monotonic) = true) :
    Leaves (wokenUp system sample arm) := by
  have sound :
      Sound
        (chain.apply
          (sample.record (.sleepWake arm.armedAt arm.monotonic) true))
        system.state.lastObservedAt :=
    collected.sound.apply rfl rfl fun _ member => member
  unfold wokenUp
  refine
    recorded_leaves collected (Nat.lt_of_succ_lt room) ?_ ?_ sound _ ?_
  · simp [Record.valid, Sample.record, slept]
  · refine continues.ahead.validNext true ?_
    simp [ChainState.bootFollows, Sample.record, continues.boot]
  · intro valid
    refine
      @collectWindow_leaves config
        ⟨system.chain ++
          [sample.record (.sleepWake arm.armedAt arm.monotonic) true],
          system.state⟩ sample _
        ⟨collected.alive, valid, sound⟩ ?_ ?_ _ collected.alive ⟨rfl, rfl⟩
    · simpa using room
    · refine
        ⟨?_, Ahead.apply sample chain _ true, continues.wall,
          continues.monotonic, continues.agreeing, continues.short,
          continues.caughtUp⟩
      simp [ChainState.apply, Sample.record, continues.boot]

theorem reboot_leaves
    (collected : system.Collected chain)
    (room : system.chain.length < maximumRecords)
    (ahead : Ahead chain sample)
    (boot : chain.currentBoot = some system.state.currentBoot)
    (changed : sample.boot ≠ system.state.currentBoot)
    (holds : sample.bindingHolds = true) :
    Leaves
      (recorded system system.state
        (sample.record (.reboot system.state.currentBoot) true) fun chain =>
          compared ⟨chain, system.state⟩ (system.state.rebooted sample)
            sample [⟨chain, system.state.rebooted sample⟩]) := by
  let record := sample.record (.reboot system.state.currentBoot) true
  have reboots :
      (chain.apply record).rebootTimes =
        chain.rebootTimes ++ [sample.observedAt] := by
    simp [record, ChainState.apply, ChainState.count, Sample.record]
  have sound : Sound (chain.apply record) system.state.lastObservedAt := by
    refine collected.sound.apply rfl rfl fun time member => ?_
    rw [reboots]
    exact List.mem_append_left _ member
  refine recorded_leaves collected room ?_ ?_ sound _ ?_
  · simpa [record, Record.valid, Sample.record] using Ne.symm changed
  · refine ahead.validNext true ?_
    simp [ChainState.bootFollows, Sample.record, boot, changed]
  · intro valid after member
    rw [compared, holds, if_pos rfl] at member
    rw [List.mem_singleton.mp member]
    refine
      ⟨_, collected.alive, valid, sound.passed, sound.proper, sound.rising,
        sound.chained, ?_⟩
    intro last _ _
    right
    rw [reboots]
    exact List.mem_append_right _ (List.mem_singleton.mpr rfl)

theorem sleepWakeDecision_slept
    {state : State} {awake : Bool}
    (decided : sleepWakeDecision state sample awake = .complete) :
    ∃ arm, state.sleepArm = some arm ∧ arm.monotonic < sample.monotonic ∧
      arm.armedAt < sample.observedAt ∧
      agree (sample.observedAt - arm.armedAt)
        (sample.monotonic - arm.monotonic) = true := by
  unfold sleepWakeDecision at decided
  split at decided
  · cases decided
  · rename_i arm isArm
    split at decided
    · rename_i slept
      exact ⟨arm, isArm, slept.2.1, slept.2.2.1, slept.2.2.2.2⟩
    · cases decided

/-- A fair sample from a state that has caught up leaves the session as it has
to be after each of its writes. -/
theorem sampleLocked_leaves
    (collected : system.Collected chain) {awake : Bool} {writes : Nat}
    (fair : Fair config system (.sample sample awake writes))
    (caughtUp : CaughtUp system (.sample sample awake writes)) :
    Leaves (sampleLocked config system sample awake) := by
  obtain ⟨holds, room, ahead, sameBoot⟩ := fair
  obtain ⟨wall, monotonic⟩ := ahead chain collected.valid
  obtain ⟨boot, behind⟩ := caughtUp chain collected.valid
  have less : system.chain.length < maximumRecords := Nat.lt_of_succ_lt room
  simp only [sampleLocked, collected.valid]
  split
  · intro after member
    rw [List.mem_singleton.mp member]
    exact ⟨chain, Lifecycle.noConfusion, collected.valid, collected.sound⟩
  · split
    · rename_i changed
      exact
        reboot_leaves collected less ⟨wall, monotonic⟩ boot changed holds
    · rename_i unchanged
      have same : sample.boot = system.state.currentBoot :=
        not_not.mp unchanged
      obtain ⟨later, monotonicLater, agreeing, spaced⟩ := sameBoot same
      have short :
          sample.observedAt - system.state.lastObservedAt ≤
            maximumEligibleWindow := by
        rcases spaced with within | ⟨_, short⟩
        · have bounded := config.bounded
          have wide : 30 * minute ≤ maximumEligibleWindow := by decide
          omega
        · exact short
      have continues : Continues config system chain sample :=
        ⟨same ▸ boot, ⟨wall, monotonic⟩, later, monotonicLater, agreeing,
          short, behind same⟩
      rw [compared, holds, if_pos rfl, collect]
      rw [if_pos ⟨later, monotonicLater, agreeing⟩]
      split
      · exact
          collectWindow_leaves collected less continues _ collected.alive
            ⟨rfl, rfl⟩
      · rename_i beyond
        have decided := (spaced.resolve_left beyond).1
        cases decision :
            sleepWakeDecision system.state sample awake with
        | invalid => exact absurd decision decided
        | pending =>
            intro after member
            cases member
        | complete =>
            obtain ⟨arm, isArm, slept⟩ := sleepWakeDecision_slept decision
            simp only [isArm]
            exact wokenUp_leaves collected room continues slept

end Steps

/-- A step of a fair run from a state that has caught up. -/
def Steady (config : Config) (system : System) (step : Step) : Prop :=
  system.state.lifecycle = .collecting →
    Fair config system step ∧ CaughtUp system step

theorem System.Collected.next
    {config : Config} {system : System} {step : Step}
    (collected : ∃ chain, system.Collected chain)
    (steady : Steady config system step) :
    ∃ grown, (system.next config step).Collected grown := by
  obtain ⟨chain, alive, valid, sound⟩ := collected
  have still : ∃ grown, system.Collected grown :=
    ⟨chain, alive, valid, sound⟩
  cases step with
  | attach =>
      simp only [System.next]
      split
      · exact ⟨chain, alive, valid, sound⟩
      · exact still
  | arm sample awake =>
      simp only [System.next]
      split
      · exact ⟨chain, alive, valid, sound⟩
      · exact still
  | fault kind sample =>
      simp only [System.next]
      split
      · split
        · exact still
        · rename_i longer appended
          exact
            ⟨_, alive, append_valid valid appended,
              sound.apply rfl rfl fun _ member => member⟩
      · exact still
  | sample sample awake writes =>
      simp only [System.next]
      split
      · rename_i collecting
        obtain ⟨fair, caughtUp⟩ := steady collecting
        have leaves :=
          sampleLocked_leaves ⟨alive, valid, sound⟩ fair caughtUp
        cases isLast :
            ((sampleLocked config system sample awake).take
              writes).getLast? with
        | none => exact still
        | some after =>
            refine leaves after ?_
            exact List.mem_of_mem_take (List.mem_of_getLast? isLast)
      · exact still

theorem started_collected (sample : Sample) :
    ∃ chain, (started sample).Collected chain := by
  refine
    ⟨emptyChain.apply (sample.record .safetyComparison true),
      Lifecycle.noConfusion, rfl, rfl, ?_, ?_, ?_, ?_⟩
  · intro window member
    cases member
  · exact List.Pairwise.nil
  · exact List.IsChain.nil
  · intro last isLast
    cases isLast

def halfHourGap : Config where
  maximumGap := 30 * minute
  bounded := Nat.le_refl _

def sampleAt (boot wall monotonic : Nat) : Sample :=
  ⟨boot, wall * minute, monotonic * minute, true⟩

/-- The process stops after the first write of a sample, and another one
attaches and samples a minute later. -/
def stoppedRun (boot monotonic : Nat) : List Step :=
  [.attach, .sample (sampleAt boot 101 monotonic) true 1, .attach,
    .sample (sampleAt boot 102 (monotonic + 1)) true 2]

end Hexroute.Qualification
