import Hexroute.Control.Machine

/-!
# The recovery budget

Between two resets of the attempts a machine approves no more recoveries than
its budget, and each waits for the backoff of the one before.
-/

namespace Hexroute.Control

open Hexroute.Lib

/-! ## The backoff -/

/-- The doubling over the integers. -/
def doubledFrom (policy : Policy) : Nat → Int → Int
  | 0, backoff =>
      if policy.maxBackoff < backoff then policy.maxBackoff else backoff
  | left + 1, backoff =>
      if policy.maxBackoff.tdiv 2 ≤ backoff then policy.maxBackoff
      else doubledFrom policy left (backoff * 2)

section Backoff

variable {policy : Policy}

/-- What a valid policy whose fields fit their types says of a backoff. -/
structure Bounded (policy : Policy) (backoff : Int) : Prop where
  positive : 0 < backoff
  small : backoff ≤ policy.maxBackoff
  fits : policy.maxBackoff < 2 ^ 63

/-- A backoff that is doubled is less than half of the most. -/
theorem Bounded.doubled
    {backoff : Int} (bounded : Bounded policy backoff)
    (room : ¬ policy.maxBackoff.tdiv 2 ≤ backoff) :
    int64 (backoff * 2) = backoff * 2 ∧ Bounded policy (backoff * 2) := by
  obtain ⟨positive, small, fits⟩ := bounded
  rw [Int.tdiv_eq_ediv_of_nonneg (by omega)] at room
  exact ⟨int64_of_lt (by omega) (by omega), by omega, by omega, fits⟩

theorem backoffFrom_eq_doubledFrom
    (left : Nat) {backoff : Int} (bounded : Bounded policy backoff) :
    backoffFrom policy left backoff = doubledFrom policy left backoff := by
  induction left generalizing backoff with
  | zero => rfl
  | succ left inductionHypothesis =>
      simp only [backoffFrom, doubledFrom]
      split
      · rfl
      · rename_i room
        obtain ⟨exactly, further⟩ := bounded.doubled room
        rw [exactly, inductionHypothesis further]

theorem doubledFrom_zero
    {backoff : Int} (bounded : Bounded policy backoff) :
    doubledFrom policy 0 backoff = backoff := by
  rw [doubledFrom, if_neg (not_lt.mpr bounded.small)]

theorem doubledFrom_bounds
    (left : Nat) {backoff : Int} (bounded : Bounded policy backoff) :
    backoff ≤ doubledFrom policy left backoff ∧
      doubledFrom policy left backoff ≤ policy.maxBackoff ∧
      min (backoff * 2 ^ left) policy.maxBackoff ≤
        doubledFrom policy left backoff := by
  induction left generalizing backoff with
  | zero =>
      rw [doubledFrom_zero bounded]
      exact ⟨le_rfl, bounded.small, by simp⟩
  | succ left inductionHypothesis =>
      rw [doubledFrom]
      split
      · exact ⟨bounded.small, le_rfl, min_le_right _ _⟩
      · rename_i room
        obtain ⟨_, further⟩ := bounded.doubled room
        obtain ⟨low, high, far⟩ := inductionHypothesis further
        have positive := bounded.positive
        refine ⟨by omega, high, ?_⟩
        rwa [pow_succ', ← mul_assoc]

theorem doubledFrom_le_succ
    (left : Nat) {backoff : Int} (bounded : Bounded policy backoff) :
    doubledFrom policy left backoff ≤
      doubledFrom policy (left + 1) backoff := by
  induction left generalizing backoff with
  | zero =>
      rw [doubledFrom_zero bounded]
      exact (doubledFrom_bounds 1 bounded).1
  | succ left inductionHypothesis =>
      rw [doubledFrom, doubledFrom]
      split
      · exact le_rfl
      · rename_i room
        exact inductionHypothesis (bounded.doubled room).2

theorem doubledFrom_monotone
    {backoff : Int} (bounded : Bounded policy backoff) :
    Monotone fun left => doubledFrom policy left backoff :=
  monotone_nat_of_le_succ fun left => doubledFrom_le_succ left bounded

/-- The fields of the policy fit the types the source gives them. -/
structure Policy.Fits (policy : Policy) : Prop where
  budget : policy.actionBudget < 2 ^ 32
  backoff : policy.maxBackoff < 2 ^ 63

theorem bounded_of_valid
    (valid : validatePolicy policy = .ok ()) (fits : policy.Fits) :
    Bounded policy policy.baseBackoff := by
  have checked := refuse_eq_ok_iff.mp valid
  exact ⟨by omega, by omega, fits.backoff⟩

/-- The backoff of every attempt. -/
theorem backoff_bounds
    (bounded : Bounded policy policy.baseBackoff) (attempt : Nat) :
    backoff policy attempt =
        doubledFrom policy (attempt - 1) policy.baseBackoff ∧
      policy.baseBackoff ≤ backoff policy attempt ∧
      backoff policy attempt ≤ policy.maxBackoff ∧
      min (policy.baseBackoff * 2 ^ (attempt - 1)) policy.maxBackoff ≤
        backoff policy attempt := by
  have exactly := backoffFrom_eq_doubledFrom (attempt - 1) bounded
  rw [backoff, exactly]
  exact ⟨rfl, doubledFrom_bounds (attempt - 1) bounded⟩

theorem backoff_monotone
    (bounded : Bounded policy policy.baseBackoff) :
    Monotone (backoff policy) := by
  intro attempt later order
  rw [(backoff_bounds bounded attempt).1, (backoff_bounds bounded later).1]
  exact doubledFrom_monotone bounded (Nat.sub_le_sub_right order 1)

end Backoff

/-! ## The steps of a run -/

structure Call where
  generation : Nat
  tick : Int
  event : Event
  deriving DecidableEq, Repr

/-- A step that was taken. -/
structure Taken where
  tick : Int
  decision : Decision
  deriving DecidableEq, Repr

/-- The steps a machine takes; a call that is refused changes nothing. -/
def Machine.taken : Machine → List Call → List Taken
  | _, [] => []
  | machine, call :: rest =>
      match machine.step call.generation call.tick call.event with
      | .ok (decision, after) => ⟨call.tick, decision⟩ :: after.taken rest
      | .error _ => machine.taken rest

/-- The attempts start from zero again: a success that returns to healthy, an
elapsed cooldown, or an operator's resume. -/
def resetsAttempts (reason : Reason) (fromState : State) : Bool :=
  reason = .verificationPassed || reason = .cooldownElapsed ||
    reason = .operatorResume ||
    (reason = .probeSucceeded && fromState = .degraded)

def Decision.resets (decision : Decision) : Bool :=
  resetsAttempts decision.reason decision.fromState

/-- The ticks at which a recovery was approved. -/
def approvals (log : List Taken) : List Int :=
  (log.filter fun taken => taken.decision.recoveryApproved).map Taken.tick

theorem approvals_cons_approved
    {taken : Taken} (approved : taken.decision.recoveryApproved = true)
    (log : List Taken) :
    approvals (taken :: log) = taken.tick :: approvals log := by
  simp [approvals, approved]

theorem approvals_cons_quiet
    {taken : Taken} (quiet : taken.decision.recoveryApproved = false)
    (log : List Taken) :
    approvals (taken :: log) = approvals log := by
  simp [approvals, quiet]

/-- No recovery has been attempted in these states. -/
def Snapshot.Fresh (snapshot : Snapshot) : Prop :=
  snapshot.state = .healthy ∨ snapshot.state = .suspended →
    snapshot.attempts = 0

/-- What a step other than a suspension does to the attempts. -/
inductive Pace
    (policy : Policy) (tick : Int) (resets approved : Bool)
    (before after : Snapshot) : Prop where
  | approves
      (due : before.nextActionAt ≤ tick)
      (room : before.attempts < policy.actionBudget)
      (counted : after.attempts = increment before.attempts)
      (waits :
        after.nextActionAt =
          int64 (tick + backoff policy (increment before.attempts)))
      (state : after.state = .recovering)
      (is : approved = true)
  | resets
      (is : resets = true)
      (cleared : after.attempts = 0)
      (quiet : approved = false)
  | keeps
      (same : after.attempts = before.attempts)
      (waits :
        before.attempts ≠ 0 → after.nextActionAt = before.nextActionAt)
      (fresh : after.Fresh)
      (quiet : approved = false)

section Paces

variable {machine : Machine} {tick : Int}

theorem probeSucceeded_pace (fresh : machine.snapshot.Fresh) :
    Pace machine.policy tick
      (resetsAttempts (machine.probeSucceeded tick).reason
        machine.snapshot.state)
      (machine.probeSucceeded tick).approved machine.snapshot
      (machine.probeSucceeded tick).snapshot := by
  unfold Machine.probeSucceeded
  dsimp only
  split
  · exact .keeps rfl (fun _ => rfl) fresh rfl
  · rename_i state
    exact .resets (by simp [state, resetsAttempts]) rfl rfl
  · rename_i state
    split
    · exact .resets (by simp [resetsAttempts]) rfl rfl
    · exact .keeps rfl (fun _ => rfl) fresh rfl
  · exact .keeps rfl (fun _ => rfl) fresh rfl
  · exact .keeps rfl (fun _ => rfl) fresh rfl

theorem probeFailed_pace (resets : Bool) (fresh : machine.snapshot.Fresh) :
    Pace machine.policy tick resets
      (machine.probeFailed tick).approved machine.snapshot
      (machine.probeFailed tick).snapshot := by
  unfold Machine.probeFailed
  dsimp only
  split
  · exact .keeps rfl (fun _ => rfl) fresh rfl
  · exact .keeps rfl (fun _ => rfl) fresh rfl
  · rename_i state
    split
    · -- the threshold sets the next action only where nothing was attempted
      refine .keeps rfl (fun attempted => ?_) (fun quiet => ?_) rfl
      · exact absurd (fresh (Or.inl state)) attempted
      · simp at quiet
    · exact .keeps rfl (fun _ => rfl) fresh rfl
  · exact .keeps rfl (fun _ => rfl) fresh rfl
  · split
    · exact .keeps rfl (fun _ => rfl) (by simp [Snapshot.Fresh, enterSafeMode])
        rfl
    · exact .keeps rfl (fun _ => rfl) (by simp [Snapshot.Fresh]) rfl

theorem beginRecovery_pace (resets : Bool) (fresh : machine.snapshot.Fresh) :
    Pace machine.policy tick resets
      (machine.beginRecovery tick).approved machine.snapshot
      (machine.beginRecovery tick).snapshot := by
  unfold Machine.beginRecovery
  dsimp only
  split
  · rename_i ready
    split
    · exact .keeps rfl (fun _ => rfl) (by simp [Snapshot.Fresh, enterSafeMode])
        rfl
    · rename_i room
      exact .approves ready.2 (not_le.mp room) rfl rfl rfl rfl
  · exact .keeps rfl (fun _ => rfl) fresh rfl

theorem cooldownElapsed_pace (fresh : machine.snapshot.Fresh) :
    Pace machine.policy tick
      (resetsAttempts (machine.cooldownElapsed tick).reason
        machine.snapshot.state)
      (machine.cooldownElapsed tick).approved machine.snapshot
      (machine.cooldownElapsed tick).snapshot := by
  unfold Machine.cooldownElapsed
  dsimp only
  split
  · exact .resets (by simp [resetsAttempts]) rfl rfl
  · exact .keeps rfl (fun _ => rfl) fresh rfl

theorem moved_pace
    {event : Event} {moved : Moved}
    (ran : machine.moved tick event = .ok moved)
    (awake : event ≠ .suspend) (fresh : machine.snapshot.Fresh) :
    Pace machine.policy tick
      (resetsAttempts moved.reason machine.snapshot.state) moved.approved
      machine.snapshot moved.snapshot := by
  cases event with
  | suspend => exact absurd rfl awake
  | dependenciesReady =>
      cases ran
      split
      · rename_i suspended
        have nothing := fresh (Or.inr suspended)
        exact
          .keeps nothing.symm (fun attempted => absurd nothing attempted)
            (fun _ => rfl) rfl
      · exact .keeps rfl (fun _ => rfl) fresh rfl
  | probeSucceeded =>
      cases ran
      exact probeSucceeded_pace fresh
  | probeFailed =>
      cases ran
      exact probeFailed_pace _ fresh
  | beginRecovery =>
      cases ran
      exact beginRecovery_pace _ fresh
  | cooldownElapsed =>
      cases ran
      exact cooldownElapsed_pace fresh
  | operatorResume =>
      obtain ⟨_, _, is⟩ := bind_eq_ok_iff.mp ran
      cases is
      exact .resets (by simp [resetsAttempts, Machine.operatorResume]) rfl rfl
  | other text => cases ran

/-- What a step that is taken does to the attempts. -/
theorem step_pace
    {generation : Nat} {event : Event} {decision : Decision}
    {after : Machine}
    (ran : machine.step generation tick event = .ok (decision, after))
    (awake : event ≠ .suspend) (fresh : machine.snapshot.Fresh) :
    after.policy = machine.policy ∧
      Pace machine.policy tick decision.resets decision.recoveryApproved
        machine.snapshot after.snapshot := by
  unfold Machine.step at ran
  simp only [bind_eq_ok_iff, refuse_eq_ok_iff, pure_eq_ok_iff,
    Prod.mk.injEq] at ran
  obtain ⟨_, _, _, _, moved, did, rfl, rfl⟩ := ran
  refine ⟨rfl, ?_⟩
  -- the last tick and the generation have no part in the pace
  cases moved_pace did awake fresh with
  | approves due room counted waits state is =>
      refine .approves due room ?_ ?_ ?_ is
      · dsimp only
        split <;> exact counted
      · dsimp only
        split <;> exact waits
      · dsimp only
        split <;> exact state
  | resets is cleared quiet =>
      refine .resets is ?_ quiet
      dsimp only
      split <;> exact cleared
  | keeps same waits stays quiet =>
      refine .keeps ?_ ?_ ?_ quiet
      · dsimp only
        split <;> exact same
      · dsimp only
        split <;> exact waits
      · dsimp only
        split <;> exact stays

end Paces

/-! ## Between two resets -/

/-- Approvals after `attempts` others, none before `earliest`, each as far
from the next as the backoff says. -/
def Paced (policy : Policy) : Nat → Option Int → List Int → Prop
  | _, _, [] => True
  | attempts, earliest, tick :: rest =>
      (∀ bound ∈ earliest, bound ≤ tick) ∧
        Paced policy (attempts + 1)
          (some (tick + backoff policy (attempts + 1))) rest

/-- The tick the next approval waits for, once there has been one. -/
def Snapshot.earliest (snapshot : Snapshot) : Option Int :=
  if snapshot.attempts = 0 then none else some snapshot.nextActionAt

/-- What every state of a run without a suspension keeps. -/
structure Machine.Steady (machine : Machine) : Prop where
  bounded : Bounded machine.policy machine.policy.baseBackoff
  fits : machine.policy.Fits
  fresh : machine.snapshot.Fresh
  within : machine.snapshot.attempts ≤ machine.policy.actionBudget
  started : 0 ≤ machine.snapshot.lastTick

/-- A call that does not suspend, at a tick with room for the backoff. -/
structure Call.Counts (call : Call) (policy : Policy) : Prop where
  awake : call.event ≠ .suspend
  roomy : call.tick + policy.maxBackoff < 2 ^ 63

instance (call : Call) (policy : Policy) : Decidable (call.Counts policy) :=
  decidable_of_iff
    (call.event ≠ .suspend ∧ call.tick + policy.maxBackoff < 2 ^ 63)
    ⟨fun both => ⟨both.1, both.2⟩, fun counts => ⟨counts.1, counts.2⟩⟩

/-- A counter below the budget does not wrap. -/
theorem Machine.Steady.increment_eq
    {machine : Machine} (steady : machine.Steady)
    (room : machine.snapshot.attempts < machine.policy.actionBudget) :
    increment machine.snapshot.attempts = machine.snapshot.attempts + 1 := by
  have fits := steady.fits.budget
  exact Nat.mod_eq_of_lt (by omega)

theorem Machine.Steady.step
    {machine after : Machine} {call : Call} {decision : Decision}
    (steady : machine.Steady) (counts : call.Counts machine.policy)
    (ran :
      machine.step call.generation call.tick call.event =
        .ok (decision, after)) :
    after.Steady := by
  obtain ⟨samePolicy, pace⟩ := step_pace ran counts.awake steady.fresh
  obtain ⟨order, _, ticked, _⟩ := step_effect ran
  have started : 0 ≤ after.snapshot.lastTick := by
    rw [ticked]
    exact steady.started.trans order
  obtain ⟨bounded, fits, fresh, within, _⟩ := steady
  cases pace with
  | approves due room counted waits state is =>
      have counted := counted.trans (Nat.mod_eq_of_lt (by
        have budget := fits.budget
        omega))
      refine ⟨samePolicy ▸ bounded, samePolicy ▸ fits, ?_, ?_, started⟩
      · simp [Snapshot.Fresh, state]
      · rw [samePolicy, counted]
        exact room
  | resets is cleared quiet =>
      refine ⟨samePolicy ▸ bounded, samePolicy ▸ fits, ?_, ?_, started⟩
      · exact fun _ => cleared
      · rw [cleared]
        exact Nat.zero_le _
  | keeps same waits stays quiet =>
      refine ⟨samePolicy ▸ bounded, samePolicy ▸ fits, stays, ?_, started⟩
      rw [samePolicy, same]
      exact within

theorem taken_paced
    {machine : Machine} {calls : List Call} {segment later : List Taken}
    (steady : machine.Steady)
    (counts : ∀ call ∈ calls, call.Counts machine.policy)
    (is : machine.taken calls = segment ++ later)
    (between : ∀ taken ∈ segment, taken.decision.resets = false) :
    machine.snapshot.attempts + (approvals segment).length ≤
        machine.policy.actionBudget ∧
      Paced machine.policy machine.snapshot.attempts
        machine.snapshot.earliest (approvals segment) := by
  induction calls generalizing machine segment with
  | nil =>
      obtain ⟨rfl, _⟩ := List.append_eq_nil_iff.mp is.symm
      exact ⟨steady.within, trivial⟩
  | cons call rest inductionHypothesis =>
      obtain ⟨count, counts⟩ := List.forall_mem_cons.mp counts
      unfold Machine.taken at is
      split at is
      · rename_i decision after ran
        cases segment with
        | nil => exact ⟨steady.within, trivial⟩
        | cons taken segment =>
            obtain ⟨rfl, restIs⟩ := List.cons.inj is
            obtain ⟨quietHere, between⟩ := List.forall_mem_cons.mp between
            obtain ⟨samePolicy, pace⟩ :=
              step_pace ran count.awake steady.fresh
            obtain ⟨order, _⟩ := step_effect ran
            obtain ⟨bound, paced⟩ :=
              inductionHypothesis (steady.step count ran)
                (samePolicy ▸ counts) restIs between
            rw [samePolicy] at bound paced
            cases pace with
            | approves due room counted waits state is =>
                have further := steady.increment_eq room
                have low :=
                  (backoff_bounds steady.bounded
                    (machine.snapshot.attempts + 1)).2
                have positive := steady.bounded.positive
                have started := steady.started
                have roomy := count.roomy
                rw [further] at counted waits
                rw [int64_of_lt (by omega) (by omega)] at waits
                simp only [Snapshot.earliest, counted, waits,
                  Nat.succ_ne_zero, if_false] at paced
                rw [approvals_cons_approved is, List.length_cons]
                refine ⟨by omega, ?_, paced⟩
                intro first isFirst
                unfold Snapshot.earliest at isFirst
                split at isFirst
                · cases isFirst
                · cases isFirst
                  exact due
            | resets is cleared quiet =>
                rw [quietHere] at is
                cases is
            | keeps same waits stays quiet =>
                have sameEarliest :
                    after.snapshot.earliest = machine.snapshot.earliest := by
                  unfold Snapshot.earliest
                  rw [same]
                  split
                  · rfl
                  · rename_i attempted
                    rw [waits attempted]
                rw [same] at bound paced
                rw [sameEarliest] at paced
                rw [approvals_cons_quiet quiet]
                exact ⟨bound, paced⟩
      · exact inductionHypothesis steady counts is between

/-- What is taken after some steps is what a later state of the run takes. -/
theorem taken_append
    {machine : Machine} {calls : List Call} {earlier rest : List Taken}
    (steady : machine.Steady)
    (counts : ∀ call ∈ calls, call.Counts machine.policy)
    (is : machine.taken calls = earlier ++ rest) :
    ∃ state : Machine, ∃ remaining,
      state.taken remaining = rest ∧ state.Steady ∧
        state.policy = machine.policy ∧
        ∀ call ∈ remaining, call.Counts machine.policy := by
  induction calls generalizing machine earlier with
  | nil =>
      obtain ⟨rfl, rfl⟩ := List.append_eq_nil_iff.mp is.symm
      exact ⟨machine, [], rfl, steady, rfl, nofun⟩
  | cons call later inductionHypothesis =>
      cases earlier with
      | nil => exact ⟨machine, call :: later, is, steady, rfl, counts⟩
      | cons taken earlier =>
          obtain ⟨count, counts⟩ := List.forall_mem_cons.mp counts
          unfold Machine.taken at is
          split at is
          · rename_i decision after ran
            have samePolicy := (step_effect ran).2.1
            have found :=
              inductionHypothesis (steady.step count ran)
                (samePolicy ▸ counts) (List.cons.inj is).2
            rwa [samePolicy] at found
          · exact inductionHypothesis steady counts is

theorem Paced.apart
    {policy : Policy} {attempts : Nat} {earliest : Option Int}
    {ticks : List Int} (paced : Paced policy attempts earliest ticks)
    {place : Nat} {tick next : Int}
    (here : ticks[place]? = some tick)
    (there : ticks[place + 1]? = some next) :
    tick + backoff policy (attempts + place + 1) ≤ next := by
  induction ticks generalizing attempts earliest place with
  | nil => cases here
  | cons first rest inductionHypothesis =>
      cases place with
      | succ place =>
          have apart := inductionHypothesis paced.2 here there
          rwa [show attempts + (place + 1) + 1 = attempts + 1 + place + 1 by
            omega]
      | zero =>
          cases here
          cases rest with
          | nil => cases there
          | cons second rest =>
              cases there
              exact paced.2.1 _ rfl

/-- Between resets no more recoveries are approved than the budget allows,
the one after the k-th (from 0) waits for its backoff, and the backoff of
every attempt is within the policy, as over the integers, and not less than
that of an earlier attempt. -/
theorem recovery_budget_and_backoff
    {policy : Policy} {start : Snapshot} {machine : Machine}
    {calls : List Call}
    (fits : policy.Fits)
    (built : newMachine policy start = .ok machine)
    (unspent : start.attempts = 0)
    (counts : ∀ call ∈ calls, call.Counts policy) :
    (∀ earlier segment later,
      machine.taken calls = earlier ++ segment ++ later →
      (∀ taken ∈ segment, taken.decision.resets = false) →
        (approvals segment).length ≤ policy.actionBudget ∧
        ∀ k tick next,
          (approvals segment)[k]? = some tick →
          (approvals segment)[k + 1]? = some next →
            tick + min (policy.baseBackoff * 2 ^ k) policy.maxBackoff ≤
              next) ∧
      ∀ attempt < 2 ^ 32,
        backoff policy attempt =
            doubledFrom policy (attempt - 1) policy.baseBackoff ∧
          policy.baseBackoff ≤ backoff policy attempt ∧
          backoff policy attempt ≤ policy.maxBackoff ∧
          ∀ later < 2 ^ 32, attempt ≤ later →
            backoff policy attempt ≤ backoff policy later := by
  unfold newMachine at built
  simp only [bind_eq_ok_iff, pure_eq_ok_iff] at built
  obtain ⟨_, valid, _, wellFormed, rfl⟩ := built
  have bounded := bounded_of_valid valid fits
  have checked := refuse_eq_ok_iff.mp wellFormed
  have started : 0 ≤ start.lastTick := by omega
  have steady : (⟨policy, start⟩ : Machine).Steady :=
    ⟨bounded, fits, fun _ => unspent, by simp [unspent], started⟩
  refine ⟨fun earlier segment later is between => ?_, fun attempt _ => ?_⟩
  · rw [List.append_assoc] at is
    obtain ⟨state, remaining, rest, reached, same, counts⟩ :=
      taken_append steady counts is
    cases same
    obtain ⟨bound, paced⟩ := taken_paced reached counts rest between
    refine ⟨(Nat.le_add_left _ _).trans bound, ?_⟩
    intro k tick next here there
    have apart := paced.apart here there
    have grows :
        backoff state.policy (k + 1) ≤
          backoff state.policy (state.snapshot.attempts + k + 1) :=
      backoff_monotone bounded (by omega)
    have far := (backoff_bounds bounded (k + 1)).2.2.2
    rw [Nat.add_sub_cancel] at far
    exact (Int.add_le_add_left (far.trans grows) tick).trans apart
  · obtain ⟨exactly, low, high, _⟩ := backoff_bounds bounded attempt
    refine ⟨exactly, low, high, ?_⟩
    exact fun later _ order => backoff_monotone bounded order

/-- A budget of two, and two recoveries as close as the backoff allows. -/
def pacedPolicy : Policy := ⟨1, 2, 5, 20, 3, 100⟩

def twoRecoveries : List Call :=
  [⟨0, 10, .probeFailed⟩, ⟨1, 10, .beginRecovery⟩, ⟨2, 12, .probeFailed⟩,
    ⟨3, 15, .beginRecovery⟩, ⟨4, 16, .probeFailed⟩]

def pacedMachine : Machine := ⟨pacedPolicy, newSnapshot .healthy⟩

theorem two_recoveries_within_budget :
    approvals (pacedMachine.taken twoRecoveries) = [10, 15] ∧
      (approvals (pacedMachine.taken twoRecoveries)).length ≤
        pacedPolicy.actionBudget := by
  have paced :=
    @recovery_budget_and_backoff pacedPolicy (newSnapshot .healthy)
      pacedMachine twoRecoveries ⟨by decide, by decide⟩ rfl rfl (by decide)
  refine ⟨by decide, ?_⟩
  exact
    (paced.1 [] (pacedMachine.taken twoRecoveries) []
      (List.append_nil _).symm (by decide)).1

end Hexroute.Control
