import Hexroute.Lib.History
import Hexroute.TunnelPlan.Planner

/-!
# Cycles that stopped early

A cycle that stopped before it saw the routes keeps the carrier and the belief
in the link of the cycle before.  Its payload is counted all the same, so it
leaves a trace unless it passes the payload and nothing had been counted.
-/

namespace Hexroute.TunnelPlan

open Hexroute.Lib

/-- The memory after a cycle.  A refused cycle leaves what was there. -/
def State.after (policy : Policy) (state : State) (observed : Observed) :
    State :=
  match decide policy state observed with
  | .ok (_, next) => next
  | .error _ => state

/-- What a cycle shows: the memory it leaves, and whether it names a carrier
change. -/
def shown (policy : Policy) (state : State) (observed : Observed) :
    Except PlanError (State × Bool) :=
  (decide policy state observed).map fun decided =>
    (decided.2, decided.1.causes.contains .carrierChanged)

/-- What the complete cycles of a sequence show, one after the other. -/
def shownComplete (policy : Policy) :
    State → List Observed → List (Except PlanError (State × Bool))
  | _, [] => []
  | state, observed :: later =>
      let rest := shownComplete policy (state.after policy observed) later
      if observed.complete then shown policy state observed :: rest else rest

/-- The rule accepts the times a cycle measured. -/
def Observed.timed (observed : Observed) : Bool :=
  Decidable.decide (¬ (observed.slept < 0 ∨ observed.tickGap < 0))

/-- The carrier that is known at first, if one is. -/
def State.remembers (state : State) : Option String :=
  if state.known then some state.carrier else none

/-- The carrier of the latest complete cycle, or the one known at first. -/
def latestCarrier (start : State) (earlier : List Observed) :
    Option String :=
  match (earlier.filter fun observed =>
      observed.complete && observed.timed).getLast? with
  | some observed => some observed.carrier
  | none => start.remembers

/-- A blind cycle that passes its payload while no failure is counted. -/
def Quiet (state : State) (observed : Observed) : Prop :=
  observed.complete = true ∨
    (observed.payloadOK = true ∧ state.payloadFailures = 0)

instance (state : State) (observed : Observed) :
    Decidable (Quiet state observed) :=
  inferInstanceAs (Decidable (_ ∨ _))

section Cycle

variable {policy : Policy} {state : State} {observed : Observed}

theorem after_of_valid
    (valid : ¬ policy.invalid) (timed : observed.timed = true) :
    state.after policy observed = nextState policy state observed := by
  obtain ⟨plan, is, -⟩ :=
    @decide_of_valid policy state observed valid
      (of_decide_eq_true timed)
  rw [State.after, is]

theorem after_of_untimed (untimed : observed.timed = false) :
    state.after policy observed = state := by
  have refused := of_decide_eq_false untimed
  rw [not_not] at refused
  unfold State.after decide refuse
  by_cases invalid : policy.invalid
  · rw [if_pos invalid]
    rfl
  · rw [if_neg invalid, if_pos refused]
    rfl

theorem countPayload_eq_self_iff :
    countPayload state observed = state.payloadFailures ↔
      observed.payloadOK = true ∧ state.payloadFailures = 0 := by
  unfold countPayload increment
  cases observed.payloadOK with
  | true => simp [eq_comm]
  | false =>
      simp
      omega

/-- A quiet blind cycle changes nothing. -/
theorem after_of_quiet
    (quiet : Quiet state observed) (blind : observed.complete = false) :
    state.after policy observed = state := by
  have passes := quiet.resolve_left (by simp [blind])
  unfold State.after
  rcases @decide_cases policy state observed with
    ⟨error, is⟩ | ⟨plan, is, -⟩
  · rw [is]
  · rw [is]
    dsimp only
    rw [nextState_of_incomplete blind, countPayload_eq_self_iff.mpr passes]

theorem shown_of_valid
    (valid : ¬ policy.invalid) (timed : observed.timed = true) :
    shown policy state observed =
      .ok
        (nextState policy state observed,
          (causes policy state observed).contains .carrierChanged) := by
  unfold shown decide refuse
  rw [if_neg valid, if_neg (of_decide_eq_true timed)]
  rfl

theorem carrierChanged_mem_causes (complete : observed.complete = true) :
    Cause.carrierChanged ∈ causes policy state observed ↔
      ∃ carrier,
        state.remembers = some carrier ∧ observed.carrier ≠ carrier := by
  unfold causes State.remembers
  cases state.known with
  | true =>
      simp only [complete, List.mem_append]
      grind
  | false =>
      simp only [complete, List.mem_append]
      grind

/-- What is remembered after a cycle. -/
theorem remembers_after (valid : ¬ policy.invalid) :
    (state.after policy observed).remembers =
      if observed.complete && observed.timed then some observed.carrier
      else state.remembers := by
  cases timed : observed.timed with
  | false => rw [after_of_untimed timed, Bool.and_false, if_neg (by simp)]
  | true =>
      rw [after_of_valid valid timed]
      cases complete : observed.complete with
      | false => rw [nextState_of_incomplete complete]; rfl
      | true =>
          cases link : observed.linkPresent with
          | true => rw [nextState_of_present complete link]; rfl
          | false => rw [nextState_of_absent complete link]; rfl

end Cycle

theorem latestCarrier_snoc
    (start : State) (earlier : List Observed) (observed : Observed) :
    latestCarrier start (earlier ++ [observed]) =
      if observed.complete && observed.timed then some observed.carrier
      else latestCarrier start earlier := by
  unfold latestCarrier
  cases counts : observed.complete && observed.timed with
  | true => simp [List.filter_append, counts]
  | false => simp [List.filter_append, counts]

/-- A run remembers the carrier of its latest complete cycle. -/
theorem remembers_stateAfter
    {policy : Policy} (valid : ¬ policy.invalid) (start : State)
    (earlier : List Observed) :
    (stateAfter (State.after policy) start earlier).remembers =
      latestCarrier start earlier := by
  induction earlier using List.reverseRecOn with
  | nil => rfl
  | append_singleton earlier observed inductionHypothesis =>
      rw [stateAfter_snoc, remembers_after valid, latestCarrier_snoc,
        inductionHypothesis]

/-- Over quiet cycles the blind ones can be left out. -/
theorem shownComplete_filter
    {policy : Policy} (observations : List Observed) :
    ∀ start,
      EachStep (State.after policy) start Quiet observations →
        shownComplete policy start (observations.filter (·.complete)) =
          shownComplete policy start observations := by
  induction observations with
  | nil => exact fun _ _ => rfl
  | cons observed later inductionHypothesis =>
      intro start each
      have rest := inductionHypothesis _ each.of_cons
      cases complete : observed.complete with
      | true =>
          rw [List.filter_cons_of_pos complete]
          simp only [shownComplete, complete, rest]
      | false =>
          rw [after_of_quiet each.head complete] at rest
          rw [List.filter_cons_of_neg (by simp [complete]), rest]
          simp only [shownComplete, complete,
            after_of_quiet each.head complete]
          rfl

/-! ## All but the payload count -/

/-- The memory without its payload count. -/
def State.uncounted (state : State) : State :=
  { state with payloadFailures := 0 }

/-- What a cycle shows but for the payload count. -/
def uncounted (cycle : Except PlanError (State × Bool)) :
    Except PlanError (State × Bool) :=
  cycle.map fun shown => (shown.1.uncounted, shown.2)

section Uncounted

variable {policy : Policy} {state other : State}

theorem nextState_uncounted
    (alike : state.uncounted = other.uncounted) (observed : Observed) :
    (nextState policy state observed).uncounted =
      (nextState policy other observed).uncounted := by
  obtain ⟨known, carrier, linkPresent, payloadFailures, linkFailures⟩ := state
  cases alike
  unfold nextState State.uncounted
  split
  · rfl
  split
  · rfl
  · rfl

theorem causes_uncounted
    (alike : state.uncounted = other.uncounted) (observed : Observed) :
    causes policy state observed = causes policy other observed := by
  obtain ⟨known, carrier, linkPresent, payloadFailures, linkFailures⟩ := state
  cases alike
  rfl

theorem after_uncounted
    (alike : state.uncounted = other.uncounted) (observed : Observed) :
    (state.after policy observed).uncounted =
      (other.after policy observed).uncounted := by
  cases timed : observed.timed with
  | false => rw [after_of_untimed timed, after_of_untimed timed, alike]
  | true =>
      by_cases invalid : policy.invalid
      · simp only [State.after, decide, refuse, if_pos invalid]
        exact alike
      · rw [after_of_valid invalid timed, after_of_valid invalid timed]
        exact nextState_uncounted alike observed

theorem shown_uncounted
    (alike : state.uncounted = other.uncounted) (observed : Observed) :
    uncounted (shown policy state observed) =
      uncounted (shown policy other observed) := by
  unfold uncounted shown decide refuse
  split
  · rfl
  split
  · rfl
  · have next := @nextState_uncounted policy state other alike observed
    have held := @causes_uncounted policy state other alike observed
    exact
      congrArg Except.ok
        (Prod.ext next (congrArg (·.contains Cause.carrierChanged) held))

theorem after_of_blind
    {observed : Observed} (blind : observed.complete = false) :
    (state.after policy observed).uncounted = state.uncounted := by
  unfold State.after
  rcases @decide_cases policy state observed with
    ⟨error, is⟩ | ⟨plan, is, -⟩
  · rw [is]
  · rw [is]
    dsimp only
    rw [nextState_of_incomplete blind]
    rfl

/-- But for the payload count the blind cycles can always be left out. -/
theorem shownComplete_uncounted
    (observations : List Observed) :
    ∀ start other : State, start.uncounted = other.uncounted →
      (shownComplete policy start
            (observations.filter (·.complete))).map uncounted =
        (shownComplete policy other observations).map uncounted := by
  induction observations with
  | nil => exact fun _ _ _ => rfl
  | cons observed later inductionHypothesis =>
      intro start other alike
      cases complete : observed.complete with
      | true =>
          have rest :=
            inductionHypothesis _ _ (@after_uncounted policy _ _ alike observed)
          have first := @shown_uncounted policy _ _ alike observed
          rw [List.filter_cons_of_pos complete]
          simp only [shownComplete, complete, if_true, List.map_cons, first,
            rest]
      | false =>
          have same := @after_of_blind policy other observed complete
          have rest := inductionHypothesis _ _ (alike.trans same.symm)
          rw [List.filter_cons_of_neg (by simp [complete]), rest]
          simp only [shownComplete, complete]
          rfl

end Uncounted

/-! ## The payload count -/

/-- A complete cycle that fails its payload. -/
def failsPayload : Observed :=
  ⟨true, true, true, false, 0, 0, "", true, false, false⟩

/-- A blind cycle that is not quiet shows in a later cycle. -/
theorem quiet_of_shown_eq
    {policy : Policy} (valid : ¬ policy.invalid) {state : State}
    (word : state.payloadFailures < 2 ^ 32) {blind : Observed}
    (incomplete : blind.complete = false) (timed : blind.timed = true)
    (same :
      shown policy (state.after policy blind) failsPayload =
        shown policy state failsPayload) :
    Quiet state blind := by
  rw [after_of_valid valid timed, nextState_of_incomplete incomplete,
    shown_of_valid valid rfl, shown_of_valid valid rfl] at same
  have counts :
      increment (countPayload state blind) =
        increment state.payloadFailures :=
    congrArg (fun shown =>
      shown.toOption.elim 0 fun cycle => cycle.1.payloadFailures) same
  refine Or.inr (countPayload_eq_self_iff.mp ?_)
  have small : countPayload state blind < 2 ^ 32 := by
    unfold countPayload increment
    split
    · decide
    · exact Nat.mod_lt _ (by decide)
  unfold increment at counts
  omega

/-- A sequence whose blind cycles are quiet shows what it shows without them,
and every sequence does so but for the payload counts.  A complete cycle names
a carrier change exactly if the latest complete cycle before it saw another
carrier.  A blind cycle can be left out whatever follows only if it is
quiet. -/
theorem blind_cycles_leave_no_trace
    (policy : Policy) (start : State) (observations : List Observed) :
    (EachStep (State.after policy) start Quiet observations →
        shownComplete policy start (observations.filter (·.complete)) =
          shownComplete policy start observations) ∧
      (shownComplete policy start
            (observations.filter (·.complete))).map uncounted =
        (shownComplete policy start observations).map uncounted ∧
      (∀ earlier observed later plan next,
        observations = earlier ++ observed :: later →
          observed.complete = true →
            decide policy
                (stateAfter (State.after policy) start earlier) observed =
              .ok (plan, next) →
              (Cause.carrierChanged ∈ plan.causes ↔
                ∃ carrier,
                  latestCarrier start earlier = some carrier ∧
                    observed.carrier ≠ carrier)) ∧
        (¬ policy.invalid → start.payloadFailures < 2 ^ 32 →
          ∀ blind : Observed,
            blind.complete = false → blind.timed = true →
              ((∀ later,
                  shownComplete policy start (blind :: later) =
                    shownComplete policy start later) ↔
                Quiet start blind)) := by
  refine
    ⟨shownComplete_filter observations start,
      shownComplete_uncounted observations start start rfl, ?_, ?_⟩
  · intro earlier observed later plan next _ complete decided
    have valid : ¬ policy.invalid := by
      intro invalid
      unfold decide refuse at decided
      rw [if_pos invalid] at decided
      cases decided
    have named :
        plan.causes =
          causes policy
            (stateAfter (State.after policy) start earlier) observed := by
      unfold decide refuse at decided
      rw [if_neg valid] at decided
      split at decided
      · cases decided
      · cases decided
        rfl
    rw [named, carrierChanged_mem_causes complete,
      remembers_stateAfter valid]
  · intro valid word blind incomplete timed
    constructor
    · intro removable
      have shows := removable [failsPayload]
      simp only [shownComplete, incomplete] at shows
      exact
        quiet_of_shown_eq valid word incomplete timed
          (List.cons.inj shows).1
    · intro quiet later
      simp only [shownComplete, incomplete, after_of_quiet quiet incomplete]
      rfl

/-- A rule that waits for two failures, a cycle that stopped early, and one
that saw everything but no payload. -/
def everyMinute : Policy := ⟨60, 150, 3, 2⟩

def stoppedEarly : Observed :=
  ⟨false, true, true, false, 0, 60, "", false, false, false⟩

theorem blind_cycle_counts_payload :
    (shownComplete everyMinute .fresh [stoppedEarly, failsPayload]).map
          (fun cycle => cycle.toOption.map (·.1.payloadFailures)) =
        [some 2] ∧
      (shownComplete everyMinute .fresh
            ([stoppedEarly, failsPayload].filter (·.complete))).map
          (fun cycle => cycle.toOption.map (·.1.payloadFailures)) =
        [some 1] := by
  decide

/-- A cycle that stopped early and passes its payload. -/
def stoppedQuietly : Observed := { stoppedEarly with payloadOK := true }

theorem stoppedQuietly_leaves_no_trace :
    shownComplete everyMinute .fresh
        ([stoppedQuietly, failsPayload].filter (·.complete)) =
      shownComplete everyMinute .fresh [stoppedQuietly, failsPayload] := by
  have first :
      EachStep (State.after everyMinute) .fresh Quiet
        ([] ++ [stoppedQuietly]) :=
    eachStep_nil.snoc (by decide)
  have second :
      EachStep (State.after everyMinute) .fresh Quiet
        ([stoppedQuietly] ++ [failsPayload]) :=
    first.snoc (Or.inl rfl)
  exact
    (blind_cycles_leave_no_trace everyMinute .fresh
      [stoppedQuietly, failsPayload]).1 second

end Hexroute.TunnelPlan
