import Hexroute.Control.Planner

/-!
# Operations on the planner

Plans, resumes, compensations and entries into SAFE_MODE, in any order, and
what following one plan through its branches needs.
-/

namespace Hexroute.Control

open Hexroute.Lib

inductive Operation where
  | plan (observation : Observation)
  | resume (expectedGeneration : Nat) (tick : Int) (persisted : Bool)
  | compensate
      (expectedGeneration : Nat) (compensation : Snapshot) (persisted : Bool)
  | enterSafeMode (expectedGeneration : Nat) (tick : Int) (persisted : Bool)
  deriving DecidableEq, Repr

/-- What a call answers: whether it was taken, and whether it reconnects. -/
structure Answer where
  taken : Bool
  reconnects : Bool

/-- The answer of a call and the planner it leaves. -/
def answered {α : Type} (reconnects : α → Bool) :
    EStateM.Result PlannerError Planner α → Answer × Planner
  | .ok value after => (⟨true, reconnects value⟩, after)
  | .error _ after => (⟨false, false⟩, after)

def Planner.perform (planner : Planner) : Operation → Answer × Planner
  | .plan observation =>
      answered (fun plan => decide (plan.action = .reconnect))
        (Planner.plan observation planner)
  | .resume expectedGeneration tick persisted =>
      answered (fun _ => false)
        (Planner.resume expectedGeneration tick persisted planner)
  | .compensate expectedGeneration compensation persisted =>
      answered (fun _ => false)
        (Planner.compensateOperatorResume expectedGeneration compensation
          persisted planner)
  | .enterSafeMode expectedGeneration tick persisted =>
      answered (fun _ => false)
        (Planner.enterSafeMode expectedGeneration tick persisted planner)

/-- The machine of a planner has the planner's policy, which is valid. -/
structure Planner.Sane (planner : Planner) : Prop where
  same : planner.machine.policy = planner.policy.recovery
  valid : validatePolicy planner.policy.recovery = .ok ()

section Operations

variable {tick : Int} {planner : Planner}

theorem cooldown_of_valid
    {policy : Policy} (valid : validatePolicy policy = .ok ()) :
    0 < policy.cooldown := by
  unfold validatePolicy at valid
  rw [refuse_eq_ok_iff] at valid
  simp only [not_or, not_le] at valid
  exact valid.2.2.2.2.2

theorem newPlanner_eq_ok
    {policy : PlannerPolicy} {snapshot : Snapshot}
    (made : newPlanner policy snapshot = .ok planner) :
    planner.policy = policy ∧ planner.Sane := by
  unfold newPlanner newMachine at made
  simp only [bind_eq_ok_iff, mapError_eq_ok_iff, pure_eq_ok_iff] at made
  obtain ⟨_, _, _, ⟨_, valid, _, _, rfl⟩, rfl⟩ := made
  exact ⟨rfl, ⟨rfl, valid⟩⟩

/-- The condition on the tick of a plan. -/
def Roomy (policy : PlannerPolicy) (tick : Int) : Prop :=
  tick + policy.recovery.cooldown < 2 ^ 63

theorem ends_step
    {event : Event} {α : Type} {continuation : Decision → Planning α}
    {outcome : Except PlannerError α → Planner → Prop}
    (refused : ∀ error, outcome (.error error) planner)
    (done :
      ∀ decision after,
        planner.machine.step planner.machine.snapshot.generation tick event =
            .ok (decision, after) →
          Ends (continuation decision) { planner with machine := after }
            outcome) :
    Ends (Planner.step tick event >>= continuation) planner outcome := by
  rw [ends_bind]
  unfold Ends Planner.step
  dsimp only
  cases ran :
      planner.machine.step planner.machine.snapshot.generation tick event with
  | ok answer => exact done answer.1 answer.2 ran
  | error error => exact refused _

/-- Since when the wake is full, if it is full at this tick. -/
def Planner.wakeSince (planner : Planner) (tick : Int) : Int :=
  if planner.trackingFullWake then planner.fullWakeSince else tick

theorem trackFullWake_keeps (observation : Observation) (planner : Planner) :
    (Planner.trackFullWake observation planner).policy = planner.policy ∧
      (Planner.trackFullWake observation planner).machine =
        planner.machine ∧
      (Planner.trackFullWake observation planner).fullWakeSince =
        planner.wakeSince observation.tick := by
  unfold Planner.trackFullWake Planner.wakeSince
  split <;> exact ⟨rfl, rfl, rfl⟩

end Operations

/-- One failure degrades, one attempt is allowed. -/
def strictPolicy : Policy where
  failureThreshold := 1
  actionBudget := 1
  baseBackoff := 1
  maxBackoff := 1
  verificationWindow := 0
  cooldown := 100

def strictMachine : Machine := ⟨strictPolicy, newSnapshot .healthy⟩

def strictPlanner : Planner where
  policy :=
    { recovery := strictPolicy
      wakeSettle := 0
      connectingGrace := 1
      otpPeriod := 30
      otpMinValid := 1 }
  machine := strictMachine
  fullWakeSince := 0
  trackingFullWake := false
  connectingSince := 0
  trackingConnecting := false
  lastObservationAt := 0
  hasObservation := false
  lastRescueAt := 0
  hasRequestedRescue := false

end Hexroute.Control
