import Hexroute.Control.Allowed

/-!
# The grace of a connection attempt

A profile that is connecting, and one that was just told to reconnect, is left
alone for a while.  Plans that end before they look at the profile forget
neither since when it is connecting nor that the recovery goes on, and the two
marks then say less than they seem to.
-/

namespace Hexroute.Control

open Hexroute.Lib

/-! ## One plan -/

/-- The plan ends at the service or at a profile nobody could read. -/
def Planner.BreaksOff (planner : Planner) (observation : Observation) :
    Prop :=
  (observation.profile.connected = false ∧ observation.service = .stopped ∧
      planner.rescueRequestAllowed observation.tick = true) ∨
    observation.profileUnreadable = true

/-- The machine began a recovery less than the grace ago. -/
def Planner.Within (planner : Planner) (tick : Int) : Prop :=
  planner.machine.snapshot.state = .recovering ∧
    tick - planner.machine.snapshot.recoveringSince <
      planner.policy.connectingGrace

/-- The plan looks at a profile that stopped connecting while it was
tracked. -/
def Planner.Looks (planner : Planner) (observation : Observation) : Prop :=
  planner.trackingConnecting = true →
    observation.profile.connecting = false → observation.Awake →
      observation.outerReady = true ∧
        ¬ (planner.machine.snapshot.state = .safeMode ∧
          observation.tick < planner.machine.snapshot.safeUntil) ∧
        ¬ planner.BreaksOff observation

/-- The plan leaves a young recovery in its state. -/
def Planner.Stays (planner : Planner) (observation : Observation) : Prop :=
  planner.Within observation.tick →
    observation.Awake ∧
      planner.policy.wakeSettle ≤
        observation.tick - planner.wakeSince observation.tick ∧
      (observation.outerReady = true →
        ¬ planner.BreaksOff observation ∧
          (observation.profile.connected = true →
            observation.tick - planner.machine.snapshot.recoveringSince <
              planner.machine.policy.verificationWindow))

/-- The observation gives an attempt its grace. -/
structure Planner.Gives (planner : Planner) (observation : Observation) :
    Prop where
  looks : planner.Looks observation
  stays : planner.Stays observation

instance (observation : Observation) : Decidable observation.Awake :=
  inferInstanceAs (Decidable (_ ∧ _))

instance (planner : Planner) (observation : Observation) :
    Decidable (planner.BreaksOff observation) :=
  inferInstanceAs (Decidable (_ ∨ _))

instance (planner : Planner) (tick : Int) :
    Decidable (planner.Within tick) :=
  inferInstanceAs (Decidable (_ ∧ _))

instance (planner : Planner) (observation : Observation) :
    Decidable (planner.Looks observation) :=
  inferInstanceAs (Decidable (_ → _))

instance (planner : Planner) (observation : Observation) :
    Decidable (planner.Stays observation) :=
  inferInstanceAs (Decidable (_ → _))

theorem Planner.gives_iff {planner : Planner} {observation : Observation} :
    planner.Looks observation ∧ planner.Stays observation ↔
      planner.Gives observation :=
  ⟨fun both => ⟨both.1, both.2⟩, fun gives => ⟨gives.looks, gives.stays⟩⟩

instance (planner : Planner) (observation : Observation) :
    Decidable (planner.Gives observation) :=
  decidable_of_iff _ Planner.gives_iff

/-- The planner tracks the profile as another one does. -/
def Planner.TracksAs (planner start : Planner) : Prop :=
  planner.policy = start.policy ∧
    planner.trackingConnecting = start.trackingConnecting ∧
      planner.connectingSince = start.connectingSince

/-- What is tracked after a plan: nothing, the connection tracked before, or
one that begins now.  A reconnect of a connecting profile comes a grace after
the connection was first tracked. -/
structure Tracked
    (start : Planner) (observation : Observation)
    (answer : Except PlannerError Plan) (after : Planner) : Prop where
  tracks :
    after.trackingConnecting = true →
      (start.trackingConnecting = true ∧
          after.connectingSince = start.connectingSince ∧
          ∀ plan, answer = .ok plan →
            observation.profile.connecting = true) ∨
        after.connectingSince = observation.tick
  waits :
    ∀ plan, answer = .ok plan → plan.action = .reconnect →
      observation.profile.connecting = true →
        start.trackingConnecting = true ∧
          start.policy.connectingGrace ≤
            observation.tick - start.connectingSince

section Plans

variable {start planner : Planner} {observation : Observation}

theorem Planner.TracksAs.machine
    (same : planner.TracksAs start) (machine : Machine) :
    Planner.TracksAs { planner with machine := machine } start :=
  same

/-- A plan that leaves what is tracked and asks for no reconnect. -/
theorem tracked_of_kept
    {answer : Except PlannerError Plan} {after : Planner}
    (same : after.TracksAs start)
    (connecting :
      start.trackingConnecting = true →
        observation.profile.connecting = true)
    (quiet : ∀ plan, answer = .ok plan → plan.action ≠ .reconnect) :
    Tracked start observation answer after := by
  refine ⟨fun tracking => Or.inl ?_, fun plan is asked => ?_⟩
  · rw [same.2.1] at tracking
    exact ⟨tracking, same.2.2, fun _ _ => connecting tracking⟩
  · exact absurd asked (quiet plan is)

/-- A plan that failed on its way. -/
theorem tracked_of_error
    {error : PlannerError} (same : planner.TracksAs start) :
    Tracked start observation (.error error) planner := by
  refine ⟨fun tracking => Or.inl ?_, fun plan is asked => ?_⟩
  · rw [same.2.1] at tracking
    exact ⟨tracking, same.2.2, fun plan is => absurd is (by simp)⟩
  · cases is

/-- A plan that tracks nothing any more and asks for no reconnect. -/
theorem tracked_of_dropped
    {answer : Except PlannerError Plan} {after : Planner}
    (dropped : after.trackingConnecting = false)
    (quiet : ∀ plan, answer = .ok plan → plan.action ≠ .reconnect) :
    Tracked start observation answer after := by
  refine ⟨fun tracking => ?_, fun plan is asked => ?_⟩
  · rw [dropped] at tracking
    cases tracking
  · exact absurd asked (quiet plan is)

/-- An answer that is no plan, or a plan with another action. -/
theorem quiet_error
    {error : PlannerError} (plan : Plan)
    (is : (Except.error error : Except PlannerError Plan) = .ok plan) :
    plan.action ≠ .reconnect := by
  cases is

theorem quiet_ok
    {given : Plan} (other : given.action ≠ .reconnect) (plan : Plan)
    (is : (Except.ok given : Except PlannerError Plan) = .ok plan) :
    plan.action ≠ .reconnect := by
  cases is
  exact other

/-- Only the machine moves. -/
def OnlyMachine (start : Planner) (_ : Except PlannerError Plan)
    (after : Planner) : Prop :=
  after.TracksAs start

theorem onlyMachine_planRecovery (same : planner.TracksAs start) :
    Ends (Planner.planRecovery observation) planner
      (OnlyMachine start) := by
  change Ends (ite _ _ _) _ _
  split
  · exact same
  refine ends_step (fun _ => same) fun decision after _ => ?_
  change Ends (ite _ _ _) _ _
  split
  · exact same.machine after
  split
  · exact same.machine after
  · exact same.machine after

theorem onlyMachine_planNotConnected (same : planner.TracksAs start) :
    Ends (Planner.planNotConnected observation) planner
      (OnlyMachine start) := by
  change Ends (ite _ _ _) _ _
  split
  · exact same
  refine ends_step (fun _ => same) fun decision after _ => ?_
  cases decision.toState with
  | healthy => exact same.machine after
  | safeMode => exact same.machine after
  | degraded => exact onlyMachine_planRecovery (same.machine after)
  | suspended => exact same.machine after
  | recovering => exact same.machine after

theorem tracked_planConnecting
    (same : planner.TracksAs start)
    (positive : 0 < start.policy.connectingGrace) :
    Ends (Planner.planConnecting observation) planner
      (Tracked start observation) := by
  obtain ⟨policy, tracking, since⟩ := same
  change Ends (ite _ _ _) (Planner.trackConnecting observation planner) _
  cases connecting : observation.profile.connecting with
  | false =>
      have dropped :
          Planner.trackConnecting observation planner =
            { planner with trackingConnecting := false } := by
        unfold Planner.trackConnecting
        rw [if_neg (by simp [connecting])]
      rw [dropped, if_neg (by simp)]
      refine
        (onlyMachine_planNotConnected ⟨rfl, rfl, rfl⟩).mono
          fun answer after kept => ⟨fun tracks => ?_, fun _ _ _ is => ?_⟩
      · rw [kept.2.1] at tracks
        cases tracks
      · rw [connecting] at is
        cases is
  | true =>
      -- the connection is the one tracked before, or it begins now
      have fields :
          (Planner.trackConnecting observation planner).policy =
              start.policy ∧
            ((start.trackingConnecting = true ∧
                (Planner.trackConnecting observation
                    planner).connectingSince = start.connectingSince) ∨
              (Planner.trackConnecting observation
                  planner).connectingSince = observation.tick) := by
        unfold Planner.trackConnecting
        rw [if_pos connecting]
        by_cases tracked : planner.trackingConnecting = true
        · rw [if_pos tracked]
          exact ⟨policy, Or.inl ⟨tracking ▸ tracked, since⟩⟩
        · rw [if_neg tracked]
          exact ⟨policy, Or.inr rfl⟩
      obtain ⟨samePolicy, from_⟩ := fields
      have tracks :
          ∀ (answer : Except PlannerError Plan) (after : Planner),
            after.connectingSince =
                (Planner.trackConnecting observation
                  planner).connectingSince →
              (start.trackingConnecting = true ∧
                  after.connectingSince = start.connectingSince ∧
                  ∀ plan, answer = .ok plan →
                    observation.profile.connecting = true) ∨
                after.connectingSince = observation.tick := by
        intro answer after is
        rw [is]
        exact
          from_.imp (fun old => ⟨old.1, old.2, fun _ _ => connecting⟩) id
      split
      · exact ⟨fun _ => tracks _ _ rfl, fun plan is asked _ =>
          absurd asked (quiet_ok (by simp) plan is)⟩
      · rename_i late
        refine
          (onlyMachine_planNotConnected ⟨rfl, rfl, rfl⟩).mono
            fun answer after kept =>
              ⟨fun _ => tracks answer after kept.2.2, fun _ _ _ _ => ?_⟩
        rw [samePolicy] at late
        rcases from_ with ⟨tracked, old⟩ | new
        · rw [old] at late
          exact ⟨tracked, by simpa using late⟩
        · rw [new] at late
          simp only [sub_self, true_and, not_lt] at late
          omega

theorem tracked_planProfile
    (same : planner.TracksAs start)
    (rescue :
      planner.rescueRequestAllowed observation.tick =
        start.rescueRequestAllowed observation.tick)
    (positive : 0 < start.policy.connectingGrace)
    (looks :
      start.trackingConnecting = true →
        observation.profile.connecting = false →
          ¬ start.BreaksOff observation) :
    Ends (Planner.planProfile observation) planner
      (Tracked start observation) := by
  have connecting :
      start.BreaksOff observation → start.trackingConnecting = true →
        observation.profile.connecting = true := by
    intro breaks tracking
    by_contra ended
    exact looks tracking ((Bool.not_eq_true _).mp ended) breaks
  change Ends (ite _ _ _) _ _
  split
  · rename_i stopped
    rw [rescue] at stopped
    have kept := connecting (Or.inl stopped)
    refine
      ends_step (fun _ => tracked_of_error same)
        fun decision after _ => ?_
    exact tracked_of_kept (same.machine after) kept (quiet_ok (by simp))
  split
  · rename_i unreadable
    have kept := connecting (Or.inr unreadable)
    exact
      ends_step (fun _ => tracked_of_error same)
        fun decision after _ =>
          tracked_of_kept (same.machine after) kept (quiet_ok (by simp))
  split
  · refine
      ends_step (fun _ => tracked_of_dropped rfl quiet_error)
        fun decision after _ => ?_
    change Ends (ite _ _ _) _ _
    split
    · exact tracked_of_dropped rfl (quiet_ok (by simp))
    split
    · exact tracked_of_dropped rfl (quiet_ok (by simp))
    · exact tracked_of_dropped rfl (quiet_ok (by simp))
  · exact tracked_planConnecting same positive

theorem tracked_planWoken
    (same : planner.TracksAs start)
    (rescue :
      planner.rescueRequestAllowed observation.tick =
        start.rescueRequestAllowed observation.tick)
    (positive : 0 < start.policy.connectingGrace)
    (looks :
      start.trackingConnecting = true →
        observation.profile.connecting = false →
          ¬ start.BreaksOff observation) :
    Ends
      (do
        let planner ← get
        if planner.machine.snapshot.state = .suspended then
          let _ ← Planner.step observation.tick .dependenciesReady
        Planner.planProfile observation)
      planner (Tracked start observation) := by
  change Ends (ite _ _ _) _ _
  split
  · exact
      ends_step (fun _ => tracked_of_error same) fun decision after _ =>
        tracked_planProfile (same.machine after) rescue positive looks
  · exact tracked_planProfile same rescue positive looks

theorem tracked_planReady
    (same : planner.TracksAs start)
    (machine : planner.machine = start.machine)
    (rescue :
      planner.rescueRequestAllowed observation.tick =
        start.rescueRequestAllowed observation.tick)
    (positive : 0 < start.policy.connectingGrace)
    (gives : start.Gives observation) (awake : observation.Awake) :
    Ends (Planner.planReady observation) planner
      (Tracked start observation) := by
  have looks :
      start.trackingConnecting = true →
        observation.profile.connecting = false →
          ¬ start.BreaksOff observation :=
    fun tracking ended => (gives.looks tracking ended awake).2.2
  change Ends (ite _ _ _) _ _
  split
  · rename_i safe
    rw [machine] at safe
    refine tracked_of_kept same (fun tracking => ?_) (quiet_ok (by simp))
    by_contra ended
    exact
      (gives.looks tracking ((Bool.not_eq_true _).mp ended) awake).2.1 safe
  change Ends (ite _ _ _) _ _
  split
  · exact
      ends_step (fun _ => tracked_of_error same) fun decision after _ =>
        tracked_planWoken (same.machine after) rescue positive looks
  · exact tracked_planWoken same rescue positive looks

/-- A full wake is tracked beside everything else. -/
theorem trackFullWake_tracksAs
    (observation : Observation) (planner : Planner) :
    (Planner.trackFullWake observation planner).TracksAs planner ∧
      (Planner.trackFullWake observation planner).machine =
        planner.machine ∧
      (Planner.trackFullWake observation
          planner).rescueRequestAllowed observation.tick =
        planner.rescueRequestAllowed observation.tick := by
  unfold Planner.trackFullWake
  split
  · exact ⟨⟨rfl, rfl, rfl⟩, rfl, rfl⟩
  · exact ⟨⟨rfl, rfl, rfl⟩, rfl, rfl⟩

theorem tracked_planAwake
    (positive : 0 < planner.policy.connectingGrace)
    (gives : planner.Gives observation) (awake : observation.Awake) :
    Ends (Planner.planAwake observation) (planner.noted observation)
      (Tracked planner observation) := by
  obtain ⟨same, machine, rescue⟩ :=
    trackFullWake_tracksAs observation (planner.noted observation)
  change
    Ends (ite _ _ _)
      (Planner.trackFullWake observation (planner.noted observation)) _
  split
  · exact
      ends_step (fun _ => tracked_of_dropped rfl quiet_error)
        fun decision after _ =>
          tracked_of_dropped rfl (quiet_ok (by simp))
  split
  · exact tracked_planReady same machine rescue positive gives awake
  · rename_i outer
    refine tracked_of_kept same (fun tracking => ?_) (quiet_ok (by simp))
    by_contra ended
    exact
      outer (gives.looks tracking ((Bool.not_eq_true _).mp ended) awake).1

theorem tracked_suspend {reason : PlanReason} :
    Ends (Planner.suspend observation.tick reason) planner
      (Tracked start observation) :=
  ends_step (fun _ => tracked_of_dropped rfl quiet_error)
    fun decision after _ => tracked_of_dropped rfl (quiet_ok (by simp))

theorem tracked_planObserved
    (positive : 0 < planner.policy.connectingGrace)
    (gives : planner.Gives observation) :
    Ends (Planner.planObserved observation) (planner.noted observation)
      (Tracked planner observation) := by
  unfold Planner.planObserved
  split
  · exact tracked_suspend
  split
  · exact tracked_suspend
  split
  · exact tracked_suspend
  split
  · exact tracked_suspend
  · rename_i active _ _ awake
    simp only [not_or, not_not, ne_eq] at active awake
    exact tracked_planAwake positive gives ⟨active, awake⟩

/-! ## A young recovery -/

/-- The recovery goes on, and no other is begun. -/
structure GoesOn
    (start : Planner) (answer : Except PlannerError Plan)
    (after : Planner) : Prop where
  state : after.machine.snapshot.state = .recovering
  since :
    after.machine.snapshot.recoveringSince =
      start.machine.snapshot.recoveringSince
  quiet : ∀ plan, answer = .ok plan → plan.action ≠ .reconnect

theorem goesOn_probeSucceeded
    {machine after : Machine} {generation : Nat} {tick : Int}
    {decision : Decision} (recovering : machine.snapshot.state = .recovering)
    (early :
      tick - machine.snapshot.recoveringSince <
        machine.policy.verificationWindow)
    (ran :
      machine.step generation tick .probeSucceeded = .ok (decision, after)) :
    after.snapshot.state = .recovering ∧
      after.snapshot.recoveringSince = machine.snapshot.recoveringSince := by
  unfold Machine.step Machine.moved Machine.probeSucceeded at ran
  simp only [bind_eq_ok_iff, refuse_eq_ok_iff, pure_eq_ok_iff,
    Prod.mk.injEq, recovering, if_neg (not_le.mpr early)] at ran
  obtain ⟨_, _, _, _, moved, rfl, -, rfl⟩ := ran
  dsimp only
  split
  · exact ⟨recovering, rfl⟩
  · exact ⟨recovering, rfl⟩

theorem goesOn_planProfile
    (within : planner.Within observation.tick)
    (kept : ¬ planner.BreaksOff observation)
    (early :
      observation.profile.connected = true →
        observation.tick - planner.machine.snapshot.recoveringSince <
          planner.machine.policy.verificationWindow) :
    Ends (Planner.planProfile observation) planner (GoesOn planner) := by
  change Ends (ite _ _ _) _ _
  rw [if_neg fun stopped => kept (Or.inl stopped),
    if_neg fun unreadable => kept (Or.inr unreadable)]
  split
  · rename_i connected
    refine
      ends_step (fun _ => ⟨within.1, rfl, quiet_error⟩)
        fun decision after ran => ?_
    obtain ⟨state, since⟩ :=
      goesOn_probeSucceeded within.1 (early connected) ran
    change Ends (ite _ _ _) _ _
    split
    · exact ⟨state, since, quiet_ok (by simp)⟩
    split
    · exact ⟨state, since, quiet_ok (by simp)⟩
    · exact ⟨state, since, quiet_ok (by simp)⟩
  · have kept :
        (Planner.trackConnecting observation planner).machine =
            planner.machine ∧
          (Planner.trackConnecting observation planner).policy =
            planner.policy := by
      unfold Planner.trackConnecting
      split
      · split
        · exact ⟨rfl, rfl⟩
        · exact ⟨rfl, rfl⟩
      · exact ⟨rfl, rfl⟩
    have state :
        (Planner.trackConnecting observation
            planner).machine.snapshot.state = .recovering := by
      rw [kept.1]
      exact within.1
    change Ends (ite _ _ _) (Planner.trackConnecting observation planner) _
    split
    · exact ⟨state, by rw [kept.1], quiet_ok (by simp)⟩
    · change
        Ends (ite _ _ _) (Planner.trackConnecting observation planner) _
      rw [if_pos (by rw [kept.1, kept.2]; exact within)]
      exact ⟨state, by rw [kept.1], quiet_ok (by simp)⟩

theorem goesOn_planObserved
    (gives : planner.Gives observation)
    (within : planner.Within observation.tick) :
    Ends (Planner.planObserved observation) (planner.noted observation)
      (GoesOn planner) := by
  obtain ⟨⟨active, opened, full⟩, settled, looks⟩ := gives.stays within
  obtain ⟨samePolicy, sameMachine, since⟩ :=
    trackFullWake_keeps observation (planner.noted observation)
  obtain ⟨same, machine, rescue⟩ :=
    trackFullWake_tracksAs observation (planner.noted observation)
  unfold Planner.planObserved
  rw [if_neg (by simp [active]), if_neg (by simp [opened]),
    if_neg (by simp [full]), if_neg (by simp [opened, full])]
  change
    Ends (ite _ _ _)
      (Planner.trackFullWake observation (planner.noted observation)) _
  rw [if_neg (by rw [samePolicy, since]; exact not_lt.mpr settled)]
  have young :
      (Planner.trackFullWake observation
        (planner.noted observation)).Within observation.tick := by
    unfold Planner.Within
    rw [sameMachine, samePolicy]
    exact within
  have goesOn :
      ∀ answer after,
        GoesOn
            (Planner.trackFullWake observation (planner.noted observation))
            answer after →
          GoesOn planner answer after := by
    intro answer after goes
    exact ⟨goes.state, goes.since.trans (by rw [sameMachine]; rfl), goes.quiet⟩
  split
  · rename_i outer
    obtain ⟨kept, early⟩ := looks outer
    change Ends (ite _ _ _) _ _
    rw [if_neg (by simp [young.1])]
    change Ends (ite _ _ _) _ _
    rw [if_neg (by simp [young.1])]
    change Ends (ite _ _ _) _ _
    rw [if_neg (by simp [young.1])]
    refine (goesOn_planProfile young ?_ ?_).mono goesOn
    · unfold Planner.BreaksOff
      rw [rescue]
      exact kept
    · rw [sameMachine]
      exact early
  · exact goesOn _ _ ⟨young.1, rfl, quiet_ok (by simp)⟩

/-- An approved recovery begins now. -/
theorem Approved.recovering
    {tick : Int} {first last : Machine}
    (approved : Approved tick first last) :
    last.snapshot.state = .recovering ∧
      last.snapshot.recoveringSince = tick := by
  obtain ⟨machine, decision, -, ran, allowed⟩ := approved
  unfold Machine.step Machine.moved Machine.beginRecovery at ran
  simp only [bind_eq_ok_iff, refuse_eq_ok_iff, pure_eq_ok_iff,
    Prod.mk.injEq] at ran
  obtain ⟨_, _, _, _, moved, rfl, rfl, rfl⟩ := ran
  dsimp only at allowed ⊢
  split at allowed
  · rename_i ready
    split at allowed
    · cases allowed
    · rename_i affordable
      rw [if_pos ready, if_neg affordable]
      dsimp only
      split
      · exact ⟨rfl, rfl⟩
      · exact ⟨rfl, rfl⟩
  · cases allowed

/-- What an accepted observation does to the marks of an attempt. -/
structure Spared
    (planner : Planner) (observation : Observation)
    (answer : Except PlannerError Plan) (after : Planner) : Prop where
  policy : after.policy = planner.policy
  noted :
    after.hasObservation = true ∧
      after.lastObservationAt = observation.tick
  tracked : Tracked planner observation answer after
  goesOn : planner.Within observation.tick → GoesOn planner answer after
  begins :
    ∀ plan, answer = .ok plan → plan.action = .reconnect →
      after.machine.snapshot.state = .recovering ∧
        after.machine.snapshot.recoveringSince = observation.tick

/-- A plan keeps the policy, notes the observation, and asks for a reconnect
only with an approved recovery. -/
theorem Settles.keeps
    {answer : Except PlannerError Plan} {after : Planner}
    (settles : Settles planner observation answer after)
    (taken : planner.Accepts observation) :
    after.policy = planner.policy ∧
      (after.hasObservation = true ∧
        after.lastObservationAt = observation.tick) ∧
      ∀ plan, answer = .ok plan → plan.action = .reconnect →
        after.machine.snapshot.state = .recovering ∧
          after.machine.snapshot.recoveringSince = observation.tick := by
  have tracked :
      (Planner.trackFullWake observation
            (planner.noted observation)).policy = planner.policy ∧
        (Planner.trackFullWake observation
              (planner.noted observation)).hasObservation = true ∧
          (Planner.trackFullWake observation
              (planner.noted observation)).lastObservationAt =
            observation.tick := by
    unfold Planner.trackFullWake
    split
    · exact ⟨rfl, rfl, rfl⟩
    · exact ⟨rfl, rfl, rfl⟩
  cases settles with
  | refused not => exact absurd taken not
  | sleeps ran quiet =>
      rw [ran.1]
      refine ⟨rfl, ⟨rfl, rfl⟩, fun plan is asked => ?_⟩
      rw [quiet plan is] at asked
      cases asked
  | wakes _ _ asks _ =>
      cases asks with
      | nothing ran quiet =>
          rw [ran.1]
          refine ⟨tracked.1, tracked.2, fun plan is asked => ?_⟩
          rw [quiet plan is] at asked
          cases asked
      | rescue ran _ rescues =>
          rw [ran.1]
          refine ⟨tracked.1, tracked.2, fun plan is asked => ?_⟩
          cases is
          rw [rescues] at asked
          cases asked
      | reconnect ran _ _ _ approved _ =>
          have recovering := approved.recovering
          rw [ran.1]
          exact ⟨tracked.1, tracked.2, fun _ _ _ => recovering⟩

theorem plan_of_accepts (taken : planner.Accepts observation) :
    Planner.plan observation planner =
      Planner.planObserved observation (planner.noted observation) := by
  unfold Planner.plan
  rw [if_neg taken.1, if_neg taken.2]
  rfl

theorem spared_plan
    (taken : planner.Accepts observation)
    (positive : 0 < planner.policy.connectingGrace)
    (gives : planner.Gives observation) :
    Ends (Planner.plan observation) planner
      (Spared planner observation) := by
  have settles := @settles_plan planner observation
  have tracked := tracked_planObserved positive gives
  have goesOn := @goesOn_planObserved planner observation gives
  unfold Ends at settles tracked goesOn ⊢
  rw [← plan_of_accepts taken] at tracked goesOn
  cases ran : Planner.plan observation planner with
  | ok plan after =>
      rw [ran] at settles tracked goesOn
      obtain ⟨policy, noted, begins⟩ := Settles.keeps settles taken
      exact ⟨policy, noted, tracked, goesOn, begins⟩
  | error error after =>
      rw [ran] at settles tracked goesOn
      obtain ⟨policy, noted, begins⟩ := Settles.keeps settles taken
      exact ⟨policy, noted, tracked, goesOn, begins⟩

end Plans

/-! ## Runs -/

theorem Entry.asked_iff {entry : Entry} {action : Action} :
    (entry.plan.any fun plan => plan.action = action) = true ↔
      entry.Asked action := by
  simp [Entry.Asked, Option.any_eq_true]

instance (entry : Entry) (action : Action) :
    Decidable (entry.Asked action) :=
  decidable_of_iff _ Entry.asked_iff

/-- A reconnect of a connecting profile comes after a grace in which every
observation that was planned for had it connecting, and reconnects are a grace
apart. -/
def GivenGrace (grace : Int) (log : List Entry) : Prop :=
  log.Pairwise fun earlier later =>
    later.Asked .reconnect →
      (later.observation.profile.connecting = true →
          earlier.plan.isSome = true →
            later.observation.tick - earlier.observation.tick < grace →
              earlier.observation.profile.connecting = true) ∧
        (earlier.Asked .reconnect →
          grace ≤ later.observation.tick - earlier.observation.tick)

instance (grace : Int) (log : List Entry) :
    Decidable (GivenGrace grace log) :=
  inferInstanceAs (Decidable (List.Pairwise _ log))

def Asking.observe (state : Asking) (observation : Observation) : Asking :=
  state.next (.plan observation)

/-- An observation the planner takes gives an attempt its grace. -/
def Asking.Gives (state : Asking) (observation : Observation) : Prop :=
  state.planner.Accepts observation → state.planner.Gives observation

/-- What the marks of an attempt say about the log. -/
structure Asking.Graced (policy : PlannerPolicy) (state : Asking) :
    Prop where
  same : state.planner.policy = policy
  noted :
    ∀ entry ∈ state.log, entry.plan.isSome = true →
      state.planner.hasObservation = true ∧
        entry.observation.tick ≤ state.planner.lastObservationAt
  tracked :
    state.planner.trackingConnecting = true →
      ∀ entry ∈ state.log, entry.plan.isSome = true →
        state.planner.connectingSince < entry.observation.tick →
          entry.observation.profile.connecting = true
  apart :
    ∀ entry ∈ state.log, entry.Asked .reconnect →
      (state.planner.machine.snapshot.state = .recovering ∧
          state.planner.machine.snapshot.recoveringSince =
            entry.observation.tick) ∨
        entry.observation.tick + policy.connectingGrace ≤
          state.planner.lastObservationAt
  given : GivenGrace policy.connectingGrace state.log

section Runs

variable {policy : PlannerPolicy} {state : Asking}
  {observation : Observation}

theorem Entry.Asked.isSome
    {entry : Entry} {action : Action} (asked : entry.Asked action) :
    entry.plan.isSome = true := by
  obtain ⟨plan, is, -⟩ := asked
  rw [is]
  rfl

theorem eq_ok_of_toOption
    {answer : Except PlannerError Plan} {plan : Plan}
    (is : answer.toOption = some plan) : answer = .ok plan := by
  cases answer with
  | ok given =>
      cases is
      rfl
  | error error => cases is

/-- An observation that is refused leaves an entry without a plan. -/
theorem Asking.Graced.refused
    (graced : state.Graced policy) :
    Asking.Graced policy
      ⟨state.planner, state.log ++ [⟨observation, none⟩]⟩ := by
  have old :
      ∀ entry ∈ state.log ++ [⟨observation, none⟩],
        entry.plan.isSome = true → entry ∈ state.log := by
    intro entry member planned
    rcases List.mem_append.mp member with earlier | last
    · exact earlier
    · rw [List.mem_singleton.mp last] at planned
      cases planned
  refine ⟨graced.same, ?_, ?_, ?_, ?_⟩
  · intro entry member planned
    exact graced.noted entry (old entry member planned) planned
  · intro tracking entry member planned
    exact graced.tracked tracking entry (old entry member planned) planned
  · intro entry member asked
    exact graced.apart entry (old entry member asked.isSome) asked
  · refine List.pairwise_append.mpr ⟨graced.given, by simp, ?_⟩
    intro earlier _ later last asked
    rw [List.mem_singleton.mp last] at asked
    cases asked.isSome

/-- An observation that is planned for. -/
theorem Asking.Graced.taken
    {answer : Except PlannerError Plan} {after : Planner}
    (graced : state.Graced policy)
    (taken : state.planner.Accepts observation)
    (spared : Spared state.planner observation answer after) :
    Asking.Graced policy
      ⟨after, state.log ++ [⟨observation, answer.toOption⟩]⟩ := by
  have latest :
      ∀ entry ∈ state.log, entry.plan.isSome = true →
        state.planner.lastObservationAt ≤ observation.tick := by
    intro entry member planned
    have given := (graced.noted entry member planned).1
    exact not_lt.mp fun late => taken.2 (Or.inr ⟨given, late⟩)
  have before :
      ∀ entry ∈ state.log, entry.plan.isSome = true →
        entry.observation.tick ≤ observation.tick := by
    intro entry member planned
    exact
      (graced.noted entry member planned).2.trans
        (latest entry member planned)
  have answered :
      ∀ {action : Action},
        Entry.Asked ⟨observation, answer.toOption⟩ action →
          ∃ plan, answer = .ok plan ∧ plan.action = action := by
    rintro action ⟨plan, is, asked⟩
    exact ⟨plan, eq_ok_of_toOption is, asked⟩
  refine ⟨spared.policy.trans graced.same, ?_, ?_, ?_, ?_⟩
  · intro entry member planned
    refine ⟨spared.noted.1, ?_⟩
    rw [spared.noted.2]
    rcases List.mem_append.mp member with old | last
    · exact before entry old planned
    · rw [List.mem_singleton.mp last]
  · intro tracking entry member planned later
    rcases spared.tracked.tracks tracking with
      ⟨tracked, since, connecting⟩ | now
    · rw [since] at later
      rcases List.mem_append.mp member with old | last
      · exact graced.tracked tracked entry old planned later
      · rw [List.mem_singleton.mp last] at planned ⊢
        obtain ⟨plan, is⟩ := Option.isSome_iff_exists.mp planned
        exact connecting plan (eq_ok_of_toOption is)
    · rw [now] at later
      rcases List.mem_append.mp member with old | last
      · exact absurd (before entry old planned) (not_le.mpr later)
      · rw [List.mem_singleton.mp last] at later
        exact absurd later (lt_irrefl _)
  · intro entry member asked
    rcases List.mem_append.mp member with old | last
    · rw [spared.noted.2]
      rcases graced.apart entry old asked with ⟨recovering, since⟩ | past
      · by_cases within : state.planner.Within observation.tick
        · have goesOn := spared.goesOn within
          exact Or.inl ⟨goesOn.state, goesOn.since.trans since⟩
        · right
          have waited :
              ¬ observation.tick - entry.observation.tick <
                policy.connectingGrace := by
            intro young
            refine within ⟨recovering, ?_⟩
            rw [since, graced.same]
            exact young
          omega
      · have now := latest entry old asked.isSome
        right
        omega
    · rw [List.mem_singleton.mp last] at asked ⊢
      obtain ⟨plan, is, reconnects⟩ := answered asked
      exact Or.inl (spared.begins plan is reconnects)
  · refine List.pairwise_append.mpr ⟨graced.given, by simp, ?_⟩
    intro earlier old later last asked
    rw [List.mem_singleton.mp last] at asked ⊢
    obtain ⟨plan, is, reconnects⟩ := answered asked
    refine ⟨fun connecting planned young => ?_, fun reconnected => ?_⟩
    · obtain ⟨tracked, waited⟩ :=
        spared.tracked.waits plan is reconnects connecting
      rw [graced.same] at waited
      refine graced.tracked tracked earlier old planned ?_
      dsimp only at young
      omega
    · rcases graced.apart earlier old reconnected with ⟨recovering, since⟩ | past
      · by_contra close
        have within : state.planner.Within observation.tick := by
          refine ⟨recovering, ?_⟩
          rw [since, graced.same]
          exact not_le.mp close
        exact (spared.goesOn within).quiet plan is reconnects
      · have now := latest earlier old reconnected.isSome
        dsimp only
        omega

theorem Asking.Graced.observe
    (graced : state.Graced policy)
    (positive : 0 < policy.connectingGrace)
    (gives : state.Gives observation) :
    (state.observe observation).Graced policy := by
  unfold Asking.observe Asking.next
  dsimp only
  by_cases taken : state.planner.Accepts observation
  · have spared :=
      spared_plan taken (graced.same ▸ positive) (gives taken)
    unfold Ends at spared
    cases ran : Planner.plan observation state.planner with
    | ok plan after =>
        rw [ran] at spared
        exact graced.taken taken spared
    | error error after =>
        rw [ran] at spared
        exact graced.taken taken spared
  · have refused :
        ∃ error,
          Planner.plan observation state.planner =
            .error error state.planner := by
      unfold Planner.plan
      by_cases invalid :
          observation.tick < 0 ∨ observation.optionalInner.valid = false ∨
            state.planner.policy.otpPeriod < observation.otpSecondsRemaining
      · exact ⟨_, if_pos invalid⟩
      · rw [if_neg invalid]
        exact ⟨_, if_pos (not_not.mp fun late => taken ⟨invalid, late⟩)⟩
    obtain ⟨error, is⟩ := refused
    rw [is]
    exact graced.refused

end Runs

/-- A new planner, given only observations that give an attempt its grace,
asks for reconnects as the grace demands. -/
theorem reconnects_given_grace
    (policy : PlannerPolicy) (snapshot : Snapshot) (planner : Planner)
    (observations : List Observation)
    (made : newPlanner policy snapshot = .ok planner)
    (gives :
      EachStep Asking.observe ⟨planner, []⟩ Asking.Gives observations) :
    GivenGrace policy.connectingGrace
      (stateAfter Asking.observe ⟨planner, []⟩ observations).log := by
  have positive : 0 < policy.connectingGrace := by
    unfold newPlanner at made
    simp only [bind_eq_ok_iff, refuse_eq_ok_iff] at made
    obtain ⟨_, valid, _⟩ := made
    simp only [not_or, not_le] at valid
    exact valid.2.1
  have starts : Asking.Graced policy ⟨planner, []⟩ := by
    refine ⟨(newPlanner_eq_ok made).1, ?_, ?_, ?_, .nil⟩
    · simp
    · simp
    · simp
  exact
    (gives.invariant (Asking.Graced policy) starts
      fun state observation graced gives =>
        graced.observe positive gives).given

/-! ## Plans that end early -/

/-- One failure degrades, and a connection has thirty ticks. -/
def gracePolicy : PlannerPolicy where
  recovery := ⟨1, 5, 1, 1, 0, 100⟩
  wakeSettle := 0
  connectingGrace := 30
  otpPeriod := 30
  otpMinValid := 1

def gracePlanner : Planner :=
  { strictPlanner with
    policy := gracePolicy
    machine := ⟨gracePolicy.recovery, newSnapshot .healthy⟩ }

/-- The service runs, and the profile is connecting or not. -/
def runningAt (tick : Int) (connecting : Bool) : Observation :=
  { stoppedAt tick with
    profile := ⟨true, .disconnected, connecting, false⟩, service := .running }

/-- The profile stops connecting while the outer path is away. -/
def interruptedObservations : List Observation :=
  [runningAt 0 true, { runningAt 5 false with outerReady := false },
    runningAt 30 true]

/-- The profile cannot be read once after a reconnect. -/
def unreadableObservations : List Observation :=
  [runningAt 0 false, { runningAt 1 false with profileUnreadable := true },
    runningAt 2 false]

/-- A connecting profile is told to reconnect although it was seen not
connecting within the grace, and another one two ticks after it was told. -/
theorem early_plans_take_the_grace :
    newPlanner gracePolicy (newSnapshot .healthy) = .ok gracePlanner ∧
      ¬ GivenGrace 30
        (stateAfter Asking.observe ⟨gracePlanner, []⟩
          interruptedObservations).log ∧
      ¬ GivenGrace 30
        (stateAfter Asking.observe ⟨gracePlanner, []⟩
          unreadableObservations).log := by
  decide +kernel

/-- A profile that is not connected is told to reconnect, and again thirty
ticks later. -/
theorem disconnected_given_grace :
    GivenGrace 30
      (stateAfter Asking.observe ⟨gracePlanner, []⟩
        [runningAt 0 false, runningAt 30 false]).log := by
  have first :
      EachStep Asking.observe ⟨gracePlanner, []⟩ Asking.Gives
        ([] ++ [runningAt 0 false]) :=
    eachStep_nil.snoc fun _ => by decide +kernel
  have second :
      EachStep Asking.observe ⟨gracePlanner, []⟩ Asking.Gives
        ([runningAt 0 false] ++ [runningAt 30 false]) :=
    first.snoc fun _ => by decide +kernel
  exact
    reconnects_given_grace gracePolicy (newSnapshot .healthy) gracePlanner
      [runningAt 0 false, runningAt 30 false] (by decide +kernel) second

end Hexroute.Control
