import Hexroute.Lib.History
import Hexroute.TunnelPlan.Planner

/-!
# Giving up a tunnel that carries nothing

The executor counts the complete cycles whose payload failed while the rule
believed in the outer path.  The belief outlasts a failed probe, so the count
is about the observations only under a policy without that patience.
-/

namespace Hexroute.TunnelPlan

open Hexroute.Lib

/-- The running count of `payloadState`. -/
def observe (failures : Nat) (grounds : Grounds) (complete : Bool) : Nat :=
  if complete = false then failures
  else if grounds.payloadOK then 0
  else if grounds.linkPresent = false then failures
  else increment failures

structure Standing where
  owns : Bool
  rateAllows : Bool
  grantActive : Bool
  payloadFailures : Nat
  payloadThreshold : Nat
  deriving DecidableEq, Repr

inductive Handback where
  | none
  | rate
  | grantLapsed
  | deadTunnel
  deriving DecidableEq, Repr

def Standing.handback (standing : Standing) : Handback :=
  if standing.owns = false then .none
  else if standing.grantActive = false then .grantLapsed
  else if standing.rateAllows = false then .rate
  else if
    0 < standing.payloadThreshold ∧
      standing.payloadThreshold ≤ standing.payloadFailures
  then .deadTunnel
  else .none

/-- The memory of the rule, the count, and what the cycles saw. -/
structure Holder where
  state : State
  failures : Nat
  seen : List Observed

def Holder.fresh : Holder := ⟨.fresh, 0, []⟩

/-- A cycle, or a restart of the runtime, which forgets the count. -/
def Holder.next (policy : Policy) (holder : Holder) :
    Option Observed → Holder
  | none => { holder with failures := 0 }
  | some observed =>
      match decide policy holder.state observed with
      | .ok (plan, next) =>
          ⟨next, observe holder.failures plan.grounds observed.complete,
            holder.seen ++ [observed]⟩
      | .error _ => holder

/-! ## What the cycles saw themselves -/

/-- A complete cycle whose payload passed. -/
def Observed.passed (observed : Observed) : Bool :=
  observed.complete && observed.payloadOK

/-- A complete cycle that failed the payload and reached the outer path. -/
def Observed.blames (observed : Observed) : Bool :=
  observed.complete && !observed.payloadOK && observed.linkPresent

/-- How many cycles blame the tunnel since the last that passed. -/
def blames (seen : List Observed) : Nat :=
  (seen.reverse.takeWhile fun observed => !observed.passed).countP
    Observed.blames

theorem blames_snoc (seen : List Observed) (observed : Observed) :
    blames (seen ++ [observed]) =
      if observed.passed then 0
      else blames seen + if observed.blames then 1 else 0 := by
  unfold blames
  rw [List.reverse_append, List.reverse_singleton, List.singleton_append,
    List.takeWhile_cons]
  cases observed.passed with
  | true => rfl
  | false => exact List.countP_cons

/-- With the count a dead tunnel is declared only over enough cycles that
blame it themselves. -/
def JudgedOverPath (policy : Policy) (threshold : Nat) : Prop :=
  ∀ steps owns rateAllows grantActive,
    (Standing.mk owns rateAllows grantActive
        (stateAfter (Holder.next policy) .fresh steps).failures
        threshold).handback = .deadTunnel →
      threshold ≤ blames (stateAfter (Holder.next policy) .fresh steps).seen

theorem handback_eq_deadTunnel
    {standing : Standing} (dead : standing.handback = .deadTunnel) :
    0 < standing.payloadThreshold ∧
      standing.payloadThreshold ≤ standing.payloadFailures := by
  unfold Standing.handback at dead
  split at dead
  · cases dead
  split at dead
  · cases dead
  split at dead
  · cases dead
  split at dead
  · assumption
  · cases dead

/-! ## A policy without patience -/

/-- The count is at most what the cycles saw, and a link that is believed in
has not failed. -/
structure Holder.Fair (holder : Holder) : Prop where
  count : holder.failures ≤ blames holder.seen
  link : holder.state.linkPresent = true → holder.state.linkFailures = 0
  start : holder.state.known = false → holder.state.linkFailures = 0

theorem increment_le (counter : Nat) : increment counter ≤ counter + 1 :=
  Nat.mod_le _ _

/-- Without patience a link is believed in only as it is seen. -/
theorem Holder.Fair.seen_of_believed
    {policy : Policy} {holder : Holder} (fair : holder.Fair)
    (single : policy.linkFailures = 1) {observed : Observed}
    (complete : observed.complete = true)
    (believed :
      (nextState policy holder.state observed).linkPresent = true) :
    observed.linkPresent = true := by
  by_contra absent
  rw [nextState_of_absent complete ((Bool.not_eq_true _).mp absent), single]
    at believed
  simp only [Bool.and_eq_true, Bool.not_eq_true', decide_eq_true_eq]
    at believed
  obtain ⟨present, few⟩ := believed
  have first : holder.state.linkFailures = 0 := by
    rw [Bool.and_eq_false_iff, Bool.not_eq_false'] at present
    exact present.elim fair.start fair.link
  rw [first] at few
  exact absurd few (by decide)

/-- A cycle that is decided. -/
theorem Holder.Fair.cycle
    {policy : Policy} {holder : Holder} (fair : holder.Fair)
    (single : policy.linkFailures = 1) (observed : Observed) :
    Holder.Fair
      ⟨nextState policy holder.state observed,
        observe holder.failures
          (grounds observed (nextState policy holder.state observed))
          observed.complete,
        holder.seen ++ [observed]⟩ := by
  cases complete : observed.complete with
  | false =>
      refine ⟨?_, ?_, ?_⟩
      · simpa [blames_snoc, Observed.passed, Observed.blames, complete,
          observe] using fair.count
      · simpa only [nextState_of_incomplete complete] using fair.link
      · simpa only [nextState_of_incomplete complete] using fair.start
  | true =>
      have seen := fair.seen_of_believed single complete
      refine ⟨?_, fun believed => ?_, fun unknown => ?_⟩
      · have further := increment_le holder.failures
        have count := fair.count
        simp only [blames_snoc, observe, Observed.passed, Observed.blames,
          complete, grounds]
        cases passed : observed.payloadOK with
        | true => simp
        | false =>
            cases believed :
                (nextState policy holder.state observed).linkPresent with
            | true =>
                simp [seen believed]
                omega
            | false =>
                simp
                omega
      · rw [nextState_of_present complete (seen believed)]
      · cases link : observed.linkPresent with
        | true =>
            rw [nextState_of_present complete link] at unknown
            cases unknown
        | false =>
            rw [nextState_of_absent complete link] at unknown
            cases unknown

theorem Holder.Fair.next
    {policy : Policy} {holder : Holder} (fair : holder.Fair)
    (single : policy.linkFailures = 1) (step : Option Observed) :
    (holder.next policy step).Fair := by
  cases step with
  | none => exact ⟨Nat.zero_le _, fair.link, fair.start⟩
  | some observed =>
      unfold Holder.next
      dsimp only
      rcases @decide_cases policy holder.state observed with
        ⟨error, is⟩ | ⟨plan, is, groundsIs⟩
      · rw [is]
        exact fair
      · rw [is]
        dsimp only
        rw [groundsIs]
        exact fair.cycle single observed

theorem judgedOverPath_of_single
    {policy : Policy} (single : policy.linkFailures = 1) (threshold : Nat) :
    JudgedOverPath policy threshold := by
  intro steps owns rateAllows grantActive dead
  have starts : Holder.fresh.Fair := ⟨le_rfl, fun _ => rfl, fun _ => rfl⟩
  have fair :=
    stateAfter_invariant Holder.Fair starts
      (fun holder step fair =>
        @Holder.Fair.next policy holder fair single step)
      steps
  exact (handback_eq_deadTunnel dead).2.trans fair.count

/-! ## A patient policy -/

/-- A complete cycle that failed the payload, with or without the outer
path. -/
def failing (link : Bool) : Observed :=
  ⟨true, true, true, false, 0, 0, "", link, false, false⟩

theorem next_failing
    {policy : Policy} (valid : ¬ policy.invalid) {holder : Holder}
    {link : Bool}
    (believed :
      (nextState policy holder.state (failing link)).linkPresent = true) :
    holder.next policy (some (failing link)) =
      ⟨nextState policy holder.state (failing link),
        increment holder.failures, holder.seen ++ [failing link]⟩ := by
  obtain ⟨plan, is, groundsIs⟩ :=
    @decide_of_valid policy holder.state (failing link) valid
      (by simp [failing])
  unfold Holder.next
  dsimp only
  rw [is]
  dsimp only
  rw [groundsIs, observe, grounds]
  rw [if_neg (by simp [failing]), if_neg (by simp [failing]),
    if_neg (by simp [believed])]

/-- One cycle without the outer path, and then some with it. -/
def patientSteps (further : Nat) : List (Option Observed) :=
  some (failing false) :: List.replicate further (some (failing true))

theorem patient_count
    {policy : Policy} (valid : ¬ policy.invalid)
    (patient : 2 ≤ policy.linkFailures) {further : Nat}
    (small : further + 1 < 2 ^ 32) :
    (stateAfter (Holder.next policy) .fresh
        (patientSteps further)).failures = further + 1 ∧
      blames
        (stateAfter (Holder.next policy) .fresh
          (patientSteps further)).seen = further := by
  induction further with
  | zero =>
      have believed :
          (nextState policy Holder.fresh.state
            (failing false)).linkPresent = true := by
        rw [nextState_of_absent rfl rfl]
        simp [Holder.fresh, State.fresh, increment]
        omega
      change
        (Holder.next policy .fresh (some (failing false))).failures = _ ∧
          blames
            (Holder.next policy .fresh (some (failing false))).seen = _
      rw [next_failing valid believed]
      exact ⟨rfl, rfl⟩
  | succ further inductionHypothesis =>
      obtain ⟨count, blamed⟩ := inductionHypothesis (by omega)
      have steps :
          patientSteps (further + 1) =
            patientSteps further ++ [some (failing true)] := by
        simp [patientSteps, List.replicate_succ']
      rw [steps, stateAfter_snoc,
        next_failing valid (by rw [nextState_of_present rfl rfl])]
      dsimp only
      rw [count, blames_snoc, blamed]
      exact ⟨Nat.mod_eq_of_lt small, rfl⟩

/-- Under a policy that is refused nothing is counted. -/
theorem next_of_invalid
    {policy : Policy} (refused : policy.invalid) {holder : Holder}
    (quiet : holder.failures = 0) (step : Option Observed) :
    (holder.next policy step).failures = 0 := by
  cases step with
  | none => rfl
  | some observed =>
      have error :
          decide policy holder.state observed = .error .invalidPolicy := by
        unfold decide refuse
        rw [if_pos refused]
        rfl
      unfold Holder.next
      dsimp only
      rw [error]
      exact quiet

/-- A dead tunnel is declared only with a path to judge it over exactly when
the policy ends a link at its first failure, or is refused, or no threshold is
set. -/
theorem judgedOverPath_iff (policy : Policy) (threshold : Fin (2 ^ 32)) :
    JudgedOverPath policy threshold ↔
      policy.invalid ∨ policy.linkFailures = 1 ∨ threshold.val = 0 := by
  constructor
  · intro judged
    by_contra otherwise
    simp only [not_or] at otherwise
    obtain ⟨valid, single, some⟩ := otherwise
    have patient : 2 ≤ policy.linkFailures := by
      have named : policy.linkFailures ≠ 0 := fun zero =>
        valid (Or.inr (Or.inr (Or.inl zero)))
      omega
    obtain ⟨count, blamed⟩ :=
      @patient_count policy valid patient (threshold.val - 1) (by omega)
    have enough := judged (patientSteps (threshold.val - 1)) true true true
    rw [blamed, count] at enough
    have dead :
        (Standing.mk true true true (threshold.val - 1 + 1)
          threshold.val).handback = .deadTunnel := by
      simp [Standing.handback]
      omega
    have less := enough dead
    omega
  · rintro (refused | single | none)
    · intro steps owns rateAllows grantActive dead
      have quiet :=
        stateAfter_invariant (fun holder : Holder => holder.failures = 0)
          (show Holder.fresh.failures = 0 from rfl)
          (fun holder step quiet => next_of_invalid refused quiet step)
          steps
      obtain ⟨positive, enough⟩ := handback_eq_deadTunnel dead
      dsimp only at positive enough
      omega
    · exact judgedOverPath_of_single single threshold
    · intro steps owns rateAllows grantActive dead
      have positive := (handback_eq_deadTunnel dead).1
      rw [none] at positive
      cases positive

/-- The rule waits for a second failure of the link, the executor for one of
the payload. -/
def patientPolicy : Policy := ⟨60, 180, 3, 2⟩

theorem dead_tunnel_without_path :
    (Standing.mk true true true
        (stateAfter (Holder.next patientPolicy) .fresh
          [some (failing false)]).failures 1).handback = .deadTunnel ∧
      blames
        (stateAfter (Holder.next patientPolicy) .fresh
          [some (failing false)]).seen = 0 ∧
      ¬ JudgedOverPath patientPolicy 1 := by
  have dead :
      (Standing.mk true true true
        (stateAfter (Holder.next patientPolicy) .fresh
          [some (failing false)]).failures 1).handback = .deadTunnel := by
    decide +kernel
  have none :
      blames
        (stateAfter (Holder.next patientPolicy) .fresh
          [some (failing false)]).seen = 0 := by
    decide +kernel
  refine ⟨dead, none, fun judged => ?_⟩
  have enough := judged _ true true true dead
  rw [none] at enough
  cases enough

end Hexroute.TunnelPlan
