import Hexroute.Lib.History
import Hexroute.Control.Operations

/-!
# What a plan may ask for

A reconnect is asked for after a settled full wake with everything it needs,
and rescue requests are a cooldown apart.  Both are followed through the
branches of the planner, and then over every run.
-/

namespace Hexroute.Control

open Hexroute.Lib

/-! ## One plan -/

/-- The machine after some events of one tick. -/
inductive Fed (tick : Int) (start : Machine) : Machine → Prop where
  | refl : Fed tick start start
  | step
      {machine after : Machine} {event : Event} {decision : Decision}
      (fed : Fed tick start machine)
      (ran :
        machine.step machine.snapshot.generation tick event =
          .ok (decision, after)) :
      Fed tick start after

/-- One of the events of a tick began a recovery, and it was approved. -/
def Approved (tick : Int) (start last : Machine) : Prop :=
  ∃ machine decision, Fed tick start machine ∧
    machine.step machine.snapshot.generation tick .beginRecovery =
      .ok (decision, last) ∧
    decision.recoveryApproved = true

/-- Only the machine and what is tracked of a connecting profile differ. -/
def Ran (tick : Int) (start planner : Planner) : Prop :=
  planner =
      { start with
        machine := planner.machine
        trackingConnecting := planner.trackingConnecting
        connectingSince := planner.connectingSince } ∧
    Fed tick start.machine planner.machine

/-- How a plan ends that was followed from `start`. -/
inductive Asks (start : Planner) (observation : Observation) :
    Except PlannerError Plan → Planner → Prop where
  | nothing
      {answer : Except PlannerError Plan} {after : Planner}
      (ran : Ran observation.tick start after)
      (quiet : ∀ plan, answer = .ok plan → plan.action = .none) :
      Asks start observation answer after
  | rescue
      {plan : Plan} {middle : Planner}
      (ran : Ran observation.tick start middle)
      (allowed : start.rescueRequestAllowed observation.tick = true)
      (is : plan.action = .requestRescue) :
      Asks start observation (.ok plan)
        { middle with
          lastRescueAt := observation.tick, hasRequestedRescue := true }
  | reconnect
      {plan : Plan} {after : Planner}
      (ran : Ran observation.tick start after)
      (read : observation.profileUnreadable = false)
      (apart : observation.profile.connected = false)
      (valid : start.policy.otpMinValid ≤ observation.otpSecondsRemaining)
      (approved : Approved observation.tick start.machine after.machine)
      (is : plan.action = .reconnect) :
      Asks start observation (.ok plan) after

section Plans

variable {start planner : Planner} {observation : Observation} {tick : Int}

theorem Ran.refl : Ran tick start start :=
  ⟨rfl, .refl⟩

theorem Ran.policy (ran : Ran tick start planner) :
    planner.policy = start.policy := by
  rw [ran.1]

theorem Ran.allowed (ran : Ran tick start planner) (now : Int) :
    planner.rescueRequestAllowed now = start.rescueRequestAllowed now := by
  rw [ran.1]
  rfl

theorem Ran.connecting
    (ran : Ran tick start planner) (tracking : Bool) (since : Int) :
    Ran tick start
      { planner with
        trackingConnecting := tracking, connectingSince := since } :=
  ⟨congrArg
    (fun planner : Planner =>
      { planner with
        trackingConnecting := tracking, connectingSince := since }) ran.1,
    ran.2⟩

theorem Ran.trackConnecting (ran : Ran tick start planner) :
    Ran tick start (Planner.trackConnecting observation planner) := by
  unfold Planner.trackConnecting
  split
  · split
    · exact ran
    · exact ran.connecting true observation.tick
  · exact ran.connecting false planner.connectingSince

theorem Ran.fed
    {event : Event} {decision : Decision} {after : Machine}
    (ran : Ran tick start planner)
    (stepped :
      planner.machine.step planner.machine.snapshot.generation tick event =
        .ok (decision, after)) :
    Ran tick start { planner with machine := after } :=
  ⟨congrArg (fun planner : Planner => { planner with machine := after }) ran.1,
    ran.2.step stepped⟩

/-- A result without an action. -/
theorem asks_result
    {reason : PlanReason} {next : Int}
    (ran : Ran observation.tick start planner) :
    Ends (Planner.result reason .none next) planner
      (Asks start observation) := by
  refine .nothing ran fun plan is => ?_
  cases is
  rfl

theorem asks_fed
    {event : Event} {continuation : Decision → Planning Plan}
    (ran : Ran observation.tick start planner)
    (later :
      ∀ decision after,
        planner.machine.step planner.machine.snapshot.generation
            observation.tick event = .ok (decision, after) →
          Ran observation.tick start { planner with machine := after } →
          Ends (continuation decision) { planner with machine := after }
            (Asks start observation)) :
    Ends (Planner.step observation.tick event >>= continuation) planner
      (Asks start observation) := by
  refine
    ends_step (fun error => .nothing ran fun plan is => ?_)
      fun decision after stepped =>
        later decision after stepped (ran.fed stepped)
  cases is

theorem asks_requestRescue
    {reason : PlanReason} (ran : Ran observation.tick start planner)
    (allowed : start.rescueRequestAllowed observation.tick = true) :
    Ends (Planner.requestRescue observation.tick reason) planner
      (Asks start observation) :=
  .rescue ran allowed rfl

theorem asks_planConnected (ran : Ran observation.tick start planner) :
    Ends (Planner.planConnected observation) planner
      (Asks start observation) := by
  refine
    asks_fed (ran.connecting false planner.connectingSince)
      fun decision after _ ran => ?_
  change Ends (ite _ _ _) _ _
  split
  · rename_i failed
    exact asks_requestRescue ran ((ran.allowed _).symm.trans failed.2)
  · split
    · exact asks_result ran
    · exact asks_result ran

theorem asks_planRecovery
    (ran : Ran observation.tick start planner)
    (read : observation.profileUnreadable = false)
    (apart : observation.profile.connected = false) :
    Ends (Planner.planRecovery observation) planner
      (Asks start observation) := by
  change Ends (ite _ _ _) _ _
  split
  · exact asks_result ran
  rename_i valid
  rw [ran.policy] at valid
  refine asks_fed ran fun decision after stepped later => ?_
  change Ends (ite _ _ _) _ _
  split
  · rename_i approved
    exact
      .reconnect later read apart (not_lt.mp valid)
        ⟨_, decision, ran.2, stepped, approved⟩ rfl
  · split
    · exact asks_result later
    · exact asks_result later

theorem asks_planNotConnected
    (ran : Ran observation.tick start planner)
    (read : observation.profileUnreadable = false)
    (apart : observation.profile.connected = false) :
    Ends (Planner.planNotConnected observation) planner
      (Asks start observation) := by
  change Ends (ite _ _ _) _ _
  split
  · exact asks_result ran
  refine asks_fed ran fun decision _ _ ran => ?_
  cases decision.toState with
  | healthy => exact asks_result ran
  | safeMode => exact asks_result ran
  | degraded => exact asks_planRecovery ran read apart
  | suspended => exact asks_result ran
  | recovering => exact asks_result ran

theorem asks_planConnecting
    (ran : Ran observation.tick start planner)
    (read : observation.profileUnreadable = false)
    (apart : observation.profile.connected = false) :
    Ends (Planner.planConnecting observation) planner
      (Asks start observation) := by
  have tracked : Ran observation.tick start
      (Planner.trackConnecting observation planner) := ran.trackConnecting
  change Ends (ite _ _ _) (Planner.trackConnecting observation planner) _
  split
  · exact asks_result tracked
  · exact asks_planNotConnected tracked read apart

theorem asks_planProfile (ran : Ran observation.tick start planner) :
    Ends (Planner.planProfile observation) planner
      (Asks start observation) := by
  change Ends (ite _ _ _) _ _
  split
  · rename_i stopped
    refine asks_fed ran fun _ _ _ ran => ?_
    exact
      asks_requestRescue ran ((ran.allowed _).symm.trans stopped.2.2)
  split
  · exact asks_fed ran fun _ _ _ ran => asks_result ran
  rename_i read
  split
  · exact asks_planConnected ran
  · rename_i apart
    exact asks_planConnecting ran (by simpa using read) (by simpa using apart)

theorem asks_planWoken (ran : Ran observation.tick start planner) :
    Ends
      (do
        let planner ← get
        if planner.machine.snapshot.state = .suspended then
          let _ ← Planner.step observation.tick .dependenciesReady
        Planner.planProfile observation)
      planner (Asks start observation) := by
  change Ends (ite _ _ _) _ _
  split
  · exact asks_fed ran fun _ _ _ ran => asks_planProfile ran
  · exact asks_planProfile ran

theorem asks_planReady (ran : Ran observation.tick start planner) :
    Ends (Planner.planReady observation) planner
      (Asks start observation) := by
  change Ends (ite _ _ _) _ _
  split
  · exact asks_result ran
  change Ends (ite _ _ _) _ _
  split
  · exact asks_fed ran fun _ _ _ ran => asks_planWoken ran
  · exact asks_planWoken ran

/-- The session is active, the lid is open and the wake is full. -/
def Observation.Awake (observation : Observation) : Prop :=
  observation.session = .active ∧ observation.lid = .opened ∧
    observation.wake = .full

/-- The planner takes the observation. -/
def Planner.Accepts (planner : Planner) (observation : Observation) : Prop :=
  ¬ (observation.tick < 0 ∨ observation.optionalInner.valid = false ∨
      planner.policy.otpPeriod < observation.otpSecondsRemaining) ∧
    ¬ (observation.tick < planner.machine.snapshot.lastTick ∨
      planner.hasObservation = true ∧
        observation.tick < planner.lastObservationAt)

/-- The planner has noted that it was given the observation. -/
def Planner.noted (planner : Planner) (observation : Observation) : Planner :=
  { planner with
    lastObservationAt := observation.tick, hasObservation := true }

/-- How a plan ends. -/
inductive Settles (planner : Planner) (observation : Observation) :
    Except PlannerError Plan → Planner → Prop where
  | refused
      {error : PlannerError} (not : ¬ planner.Accepts observation) :
      Settles planner observation (.error error) planner
  | sleeps
      {answer : Except PlannerError Plan} {after : Planner}
      (ran :
        Ran observation.tick
          { planner.noted observation with trackingFullWake := false } after)
      (quiet : ∀ plan, answer = .ok plan → plan.action = .none) :
      Settles planner observation answer after
  | wakes
      {answer : Except PlannerError Plan} {after : Planner}
      (taken : planner.Accepts observation)
      (awake : observation.Awake)
      (asks :
        Asks (Planner.trackFullWake observation (planner.noted observation))
          observation answer after)
      (ready :
        ∀ plan, answer = .ok plan → plan.action ≠ .none →
          planner.policy.wakeSettle ≤
              observation.tick - planner.wakeSince observation.tick ∧
            observation.outerReady = true) :
      Settles planner observation answer after

theorem settles_suspend {reason : PlanReason} :
    Ends (Planner.suspend observation.tick reason)
      (planner.noted observation) (Settles planner observation) := by
  have slept :
      Ran observation.tick
        { planner.noted observation with trackingFullWake := false }
        { planner.noted observation with
          trackingFullWake := false, trackingConnecting := false } :=
    Ran.refl.connecting false _
  refine
    ends_step (fun error => .sleeps slept ?_)
      fun decision after stepped => .sleeps (slept.fed stepped) ?_
  all_goals
    intro plan is
    cases is
  rfl

theorem settles_planAwake
    (taken : planner.Accepts observation) (awake : observation.Awake) :
    Ends (Planner.planAwake observation) (planner.noted observation)
      (Settles planner observation) := by
  obtain ⟨samePolicy, _, since⟩ :=
    trackFullWake_keeps observation (planner.noted observation)
  have quietly :
      ∀ {answer : Except PlannerError Plan} {after : Planner},
        Ran observation.tick
            (Planner.trackFullWake observation (planner.noted observation))
            after →
          (∀ plan, answer = .ok plan → plan.action = .none) →
            Settles planner observation answer after :=
    fun ran quiet =>
      .wakes taken awake (.nothing ran quiet) fun plan is some =>
        absurd (quiet plan is) some
  change
    Ends (ite _ _ _)
      (Planner.trackFullWake observation (planner.noted observation)) _
  split
  · refine
      ends_step (fun error => quietly (Ran.refl.connecting false _) ?_)
        fun decision after stepped =>
          quietly ((Ran.refl.connecting false _).fed stepped) ?_
    all_goals
      intro plan is
      cases is
    rfl
  · rename_i settled
    rw [samePolicy, since] at settled
    split
    · rename_i outer
      exact
        (asks_planReady Ran.refl).mono fun answer after asks =>
          .wakes taken awake asks fun _ _ _ => ⟨not_lt.mp settled, outer⟩
    · refine quietly Ran.refl ?_
      intro plan is
      cases is
      rfl

theorem settles_plan :
    Ends (Planner.plan observation) planner
      (Settles planner observation) := by
  unfold Ends Planner.plan
  split_ifs with invalid late
  · exact .refused fun taken => taken.1 invalid
  · exact .refused fun taken => taken.2 late
  · change
      Ends (Planner.planObserved observation) (planner.noted observation) _
    unfold Planner.planObserved
    split
    · exact settles_suspend
    split
    · exact settles_suspend
    split
    · exact settles_suspend
    split
    · exact settles_suspend
    · rename_i active _ _ awake
      simp only [not_or, not_not, ne_eq] at active awake
      exact settles_planAwake ⟨invalid, late⟩ ⟨active, awake⟩

end Plans

/-! ## Runs -/

/-- An observation the planner was given, and the plan it answered with. -/
structure Entry where
  observation : Observation
  plan : Option Plan

/-- The action was asked for. -/
def Entry.Asked (entry : Entry) (action : Action) : Prop :=
  ∃ plan, entry.plan = some plan ∧ plan.action = action

structure Asking where
  planner : Planner
  log : List Entry

def Asking.next (state : Asking) : Operation → Asking
  | .plan observation =>
      match Planner.plan observation state.planner with
      | .ok plan after => ⟨after, state.log ++ [⟨observation, some plan⟩]⟩
      | .error _ after => ⟨after, state.log ++ [⟨observation, none⟩]⟩
  | operation => ⟨(state.planner.perform operation).2, state.log⟩

/-- There is room for a cooldown after the tick, and the planner does not
refuse an observation that would end the full wake it tracks. -/
def Asking.Meets (state : Asking) : Operation → Prop
  | .plan observation =>
      Roomy state.planner.policy observation.tick ∧
        (state.planner.trackingFullWake = true →
          observation.Awake ∨ state.planner.Accepts observation)
  | _ => True

/-- From an observation at this tick on all were awake. -/
def AwakeSince (tick : Int) (seen : List Observation) : Prop :=
  ∃ earlier first rest, seen = earlier ++ first :: rest ∧
    first.tick = tick ∧ ∀ observation ∈ first :: rest, observation.Awake

theorem AwakeSince.snoc
    {tick : Int} {seen : List Observation} {observation : Observation}
    (since : AwakeSince tick seen) (awake : observation.Awake) :
    AwakeSince tick (seen ++ [observation]) := by
  obtain ⟨earlier, first, rest, rfl, is, all⟩ := since
  refine ⟨earlier, first, rest ++ [observation], by simp, is, ?_⟩
  intro other member
  rcases List.mem_append.mp
      (List.cons_append ▸ member : other ∈ first :: rest ++ [observation])
    with old | new
  · exact all other old
  · cases List.mem_singleton.mp new
    exact awake

/-- What the planner tracks, against what it was given and answered. -/
structure Asking.Recorded (policy : PlannerPolicy) (state : Asking) :
    Prop where
  same : state.planner.policy = policy
  wake :
    state.planner.trackingFullWake = true →
      AwakeSince state.planner.fullWakeSince
        (state.log.map Entry.observation)
  rescues :
    ∀ entry ∈ state.log, entry.Asked .requestRescue →
      state.planner.hasRequestedRescue = true ∧
        entry.observation.tick ≤ state.planner.lastRescueAt
  room :
    state.planner.hasRequestedRescue = true →
      0 ≤ state.planner.lastRescueAt ∧
        Roomy policy state.planner.lastRescueAt

section Recording

variable {policy : PlannerPolicy} {state : Asking} {observation : Observation}
  {answer : Except PlannerError Plan} {after : Planner}

/-- The entry a plan adds to the log. -/
def entryOf (observation : Observation) (answer : Except PlannerError Plan) :
    Entry :=
  ⟨observation, answer.toOption⟩

/-- A request that is allowed is a cooldown after every earlier one. -/
theorem Asking.Recorded.apart
    (recorded : state.Recorded policy) (valid : 0 < policy.recovery.cooldown)
    (allowed : state.planner.rescueRequestAllowed observation.tick = true) :
    ∀ entry ∈ state.log, entry.Asked .requestRescue →
      entry.observation.tick + policy.recovery.cooldown ≤
        observation.tick := by
  intro entry member asked
  obtain ⟨requested, early⟩ := recorded.rescues entry member asked
  obtain ⟨positive, roomy⟩ := recorded.room requested
  unfold Roomy at roomy
  unfold Planner.rescueRequestAllowed at allowed
  rw [requested, recorded.same, int64_of_lt (by omega) roomy] at allowed
  simp only [Bool.not_true, Bool.false_or, decide_eq_true_eq] at allowed
  omega

/-- The log is one entry longer and no request was added. -/
theorem Asking.Recorded.quietly
    (recorded : state.Recorded policy)
    (quiet : ¬ (entryOf observation answer).Asked .requestRescue)
    (same : after.policy = state.planner.policy)
    (unmoved :
      after.lastRescueAt = state.planner.lastRescueAt ∧
        after.hasRequestedRescue = state.planner.hasRequestedRescue)
    (wake :
      after.trackingFullWake = true →
        AwakeSince after.fullWakeSince
          (state.log.map Entry.observation ++ [observation])) :
    Asking.Recorded policy
      ⟨after, state.log ++ [entryOf observation answer]⟩ where
  same := same.trans recorded.same
  wake := by
    simpa [entryOf] using wake
  rescues := by
    intro entry member asked
    simp only [unmoved.1, unmoved.2]
    rcases List.mem_append.mp member with old | new
    · exact recorded.rescues entry old asked
    · cases List.mem_singleton.mp new
      exact absurd asked quiet
  room := by
    simpa only [unmoved.1, unmoved.2] using recorded.room

theorem not_asked_of_quiet
    (quiet : ∀ plan, answer = .ok plan → plan.action ≠ .requestRescue) :
    ¬ (entryOf observation answer).Asked .requestRescue := by
  rintro ⟨plan, is, asked⟩
  cases answer with
  | ok value =>
      cases is
      exact quiet plan rfl asked
  | error error => cases is

/-- The observation extends the full wake that is tracked, or starts it. -/
theorem Asking.Recorded.awakeSince
    (recorded : state.Recorded policy) (awake : observation.Awake) :
    AwakeSince (state.planner.wakeSince observation.tick)
      (state.log.map Entry.observation ++ [observation]) := by
  unfold Planner.wakeSince
  split
  · rename_i tracking
    exact (recorded.wake tracking).snoc awake
  · refine ⟨_, observation, [], rfl, rfl, fun other member => ?_⟩
    cases List.mem_singleton.mp member
    exact awake

/-- What tracking the wake leaves alone. -/
theorem trackFullWake_same (planner : Planner) :
    (Planner.trackFullWake observation planner).policy = planner.policy ∧
      (Planner.trackFullWake observation planner).lastRescueAt =
        planner.lastRescueAt ∧
      (Planner.trackFullWake observation planner).hasRequestedRescue =
        planner.hasRequestedRescue := by
  unfold Planner.trackFullWake
  split <;> exact ⟨rfl, rfl, rfl⟩

theorem Asking.Recorded.plan
    (recorded : state.Recorded policy) (valid : 0 < policy.recovery.cooldown)
    (meets : state.Meets (.plan observation))
    (settles : Settles state.planner observation answer after) :
    Asking.Recorded policy
      ⟨after, state.log ++ [entryOf observation answer]⟩ := by
  cases settles with
  | refused not =>
      refine
        recorded.quietly
          (not_asked_of_quiet fun plan is => by cases is) rfl ⟨rfl, rfl⟩
          fun tracking => ?_
      exact
        (recorded.wake tracking).snoc ((meets.2 tracking).resolve_right not)
  | sleeps ran quiet =>
      refine
        recorded.quietly
          (not_asked_of_quiet fun plan is => by simp [quiet plan is])
          ran.policy ?_ fun tracking => ?_
      · rw [ran.1]
        exact ⟨rfl, rfl⟩
      · rw [ran.1] at tracking
        cases tracking
  | wakes taken awake asks ready =>
      have since := recorded.awakeSince awake
      obtain ⟨_, _, sinceIs⟩ :=
        trackFullWake_keeps observation (state.planner.noted observation)
      obtain ⟨samePolicy, sameTick, sameFlag⟩ :=
        @trackFullWake_same observation (state.planner.noted observation)
      have unasked
          (ran :
            Ran observation.tick
              (Planner.trackFullWake observation
                (state.planner.noted observation)) after)
          (quiet :
            ∀ plan, answer = .ok plan → plan.action ≠ .requestRescue) :
          Asking.Recorded policy
            ⟨after, state.log ++ [entryOf observation answer]⟩ := by
        refine
          recorded.quietly (not_asked_of_quiet quiet)
            (ran.policy.trans samePolicy) ?_ fun _ => ?_
        · rw [ran.1]
          exact ⟨sameTick, sameFlag⟩
        · rw [ran.1]
          exact sinceIs ▸ since
      cases asks with
      | nothing ran quiet =>
          exact unasked ran fun plan is => by simp [quiet plan is]
      | reconnect ran _ _ _ _ is =>
          exact unasked ran fun plan same => by cases same; simp [is]
      | rescue ran allowed is =>
          refine ⟨?_, fun _ => ?_, ?_, fun _ => ?_⟩
          · exact ran.policy.trans (samePolicy.trans recorded.same)
          · rw [ran.1]
            simpa [entryOf] using sinceIs ▸ since
          · intro entry member asked
            refine ⟨rfl, ?_⟩
            rcases List.mem_append.mp member with old | new
            · have allowed :
                  state.planner.rescueRequestAllowed observation.tick =
                    true := by
                unfold Planner.rescueRequestAllowed at allowed ⊢
                rwa [samePolicy, sameTick, sameFlag] at allowed
              have apart := recorded.apart valid allowed entry old asked
              change entry.observation.tick ≤ observation.tick
              omega
            · cases List.mem_singleton.mp new
              exact le_rfl
          · have roomy := meets.1
            rw [recorded.same] at roomy
            exact ⟨by simpa using (not_or.mp taken.1).1, roomy⟩

theorem resume_keeps
    (planner : Planner) (expectedGeneration : Nat) (tick : Int)
    (persisted : Bool) :
    ∃ machine,
      (planner.perform (.resume expectedGeneration tick persisted)).2 =
        { planner with machine := machine } := by
  unfold Planner.perform Planner.resume
  dsimp only
  split
  · exact ⟨planner.machine, rfl⟩
  split
  · exact ⟨planner.machine, rfl⟩
  split
  · exact ⟨_, rfl⟩
  split <;> exact ⟨_, rfl⟩

theorem replaceSnapshot_keeps
    (planner : Planner) (snapshot : Snapshot) (persisted : Bool) :
    ∃ machine,
      (answered (fun _ => false)
        (Planner.replaceSnapshot snapshot persisted planner)).2 =
        { planner with machine := machine } := by
  unfold Planner.replaceSnapshot
  split
  · exact ⟨planner.machine, rfl⟩
  · split
    · exact ⟨_, rfl⟩
    · exact ⟨planner.machine, rfl⟩

/-- What is not a plan changes the machine only. -/
theorem Asking.Recorded.operated
    (recorded : state.Recorded policy) {planner : Planner}
    (keeps :
      ∃ machine, planner = { state.planner with machine := machine }) :
    Asking.Recorded policy ⟨planner, state.log⟩ := by
  obtain ⟨machine, rfl⟩ := keeps
  exact ⟨recorded.same, recorded.wake, recorded.rescues, recorded.room⟩

theorem Asking.Recorded.next
    (recorded : state.Recorded policy) (valid : 0 < policy.recovery.cooldown)
    {operation : Operation} (meets : state.Meets operation) :
    (state.next operation).Recorded policy := by
  cases operation with
  | plan observation =>
      have settles := @settles_plan state.planner observation
      unfold Ends at settles
      unfold Asking.next
      dsimp only
      split at settles
      · rename_i ran
        rw [ran]
        exact recorded.plan valid meets settles
      · rename_i ran
        rw [ran]
        exact recorded.plan valid meets settles
  | resume expectedGeneration tick persisted =>
      exact recorded.operated (resume_keeps _ _ _ _)
  | compensate expectedGeneration compensation persisted =>
      refine recorded.operated ?_
      unfold Planner.perform Planner.compensateOperatorResume
      dsimp only
      split
      · exact ⟨state.planner.machine, rfl⟩
      split
      · exact ⟨state.planner.machine, rfl⟩
      · exact replaceSnapshot_keeps _ _ _
  | enterSafeMode expectedGeneration tick persisted =>
      refine recorded.operated ?_
      unfold Planner.perform Planner.enterSafeMode
      dsimp only
      split
      · exact ⟨state.planner.machine, rfl⟩
      split
      · exact ⟨state.planner.machine, rfl⟩
      split
      · exact ⟨state.planner.machine, rfl⟩
      · exact replaceSnapshot_keeps _ _ _

/-- A plan asks only for what is allowed.  A reconnect: all observations were
awake since one before the settling time, the outer path is ready, the profile
was read and is not connected, the code is valid for long enough, and the
machine approved a recovery in this call.  A rescue: every earlier request was
a cooldown before. -/
structure Allowed
    (policy : PlannerPolicy) (state : Asking) (observation : Observation)
    (plan : Plan) (after : Planner) : Prop where
  reconnect :
    plan.action = .reconnect →
      (∃ tick ≤ observation.tick - policy.wakeSettle,
        AwakeSince tick
          (state.log.map Entry.observation ++ [observation])) ∧
        observation.outerReady = true ∧
        observation.profileUnreadable = false ∧
        observation.profile.connected = false ∧
        policy.otpMinValid ≤ observation.otpSecondsRemaining ∧
        Approved observation.tick state.planner.machine after.machine
  rescue :
    plan.action = .requestRescue →
      ∀ entry ∈ state.log, entry.Asked .requestRescue →
        entry.observation.tick + policy.recovery.cooldown ≤ observation.tick
  apart : ¬ (plan.action = .reconnect ∧ plan.action = .requestRescue)

theorem Asking.Recorded.allowed
    (recorded : state.Recorded policy) (valid : 0 < policy.recovery.cooldown)
    {plan : Plan}
    (settles : Settles state.planner observation (.ok plan) after) :
    Allowed policy state observation plan after := by
  have nothing :
      plan.action = .none →
        Allowed policy state observation plan after := by
    intro none
    refine ⟨fun is => ?_, fun is => ?_, fun both => ?_⟩
    · simp [none] at is
    · simp [none] at is
    · simp [none] at both
  cases settles with
  | sleeps ran quiet => exact nothing (quiet plan rfl)
  | wakes taken awake asks ready =>
      obtain ⟨_, sameMachine, _⟩ :=
        trackFullWake_keeps observation (state.planner.noted observation)
      obtain ⟨samePolicy, sameTick, sameFlag⟩ :=
        @trackFullWake_same observation (state.planner.noted observation)
      have samePolicy : (Planner.trackFullWake observation
          (state.planner.noted observation)).policy = policy :=
        samePolicy.trans recorded.same
      cases asks with
      | nothing ran quiet => exact nothing (quiet plan rfl)
      | reconnect ran read apart otp approved is =>
          refine
            ⟨fun _ => ?_, fun other => by simp [is] at other,
              fun both => by simp [is] at both⟩
          obtain ⟨settled, outer⟩ := ready plan rfl (by simp [is])
          rw [recorded.same] at settled
          rw [samePolicy] at otp
          rw [sameMachine] at approved
          exact
            ⟨⟨_, by omega, recorded.awakeSince awake⟩, outer, read, apart,
              otp, approved⟩
      | rescue ran allowed is =>
          refine
            ⟨fun other => by simp [is] at other, fun _ => ?_,
              fun both => by simp [is] at both⟩
          refine recorded.apart valid ?_
          unfold Planner.rescueRequestAllowed at allowed ⊢
          rw [samePolicy, sameTick, sameFlag] at allowed
          rw [recorded.same]
          exact allowed

end Recording

/-- The service is stopped and the profile is not connected. -/
def stoppedAt (tick : Int) : Observation where
  tick := tick
  session := .active
  lid := .opened
  wake := .full
  outerReady := true
  profile := ⟨true, .disconnected, false, false⟩
  optionalInner := .unspecified
  otpSecondsRemaining := 20
  service := .stopped
  profileUnreadable := false

/-- The answer is a plan with the action. -/
def answersWith (action : Action) :
    EStateM.Result PlannerError Planner Plan → Bool
  | .ok plan _ => decide (plan.action = action)
  | .error _ _ => false

theorem exists_of_answersWith
    {action : Action} {answer : EStateM.Result PlannerError Planner Plan}
    (answers : answersWith action answer = true) :
    ∃ plan after, answer = .ok plan after ∧ plan.action = action := by
  cases answer with
  | ok plan after => exact ⟨plan, after, rfl, of_decide_eq_true answers⟩
  | error error after => cases answers

/-- Fifty ticks before the last one there is no room for a cooldown. -/
def lateTick : Int := 2 ^ 63 - 50

/-- A rescue was asked for then. -/
def lateAsking : Asking :=
  stateAfter Asking.next ⟨strictPlanner, []⟩ [.plan (stoppedAt lateTick)]

end Hexroute.Control
