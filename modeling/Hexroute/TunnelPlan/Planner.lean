import Hexroute.Lib.Refusal

/-!
# The tunnel supervision rule

A cycle's observation and what the cycle before left decide whether the tunnel
is rebuilt, on which grounds, and what is left for the next cycle.
-/

namespace Hexroute.TunnelPlan

open Hexroute.Lib

inductive Cause where
  | processGone
  | wakeGap
  | carrierChanged
  deriving DecidableEq, Repr

inductive Action where
  | none
  | rebuildTunnel
  deriving DecidableEq, Repr

inductive PlanError where
  | invalidPolicy
  | invalidInput
  deriving DecidableEq, Repr

structure Policy where
  interval : Int
  wakeThreshold : Int
  payloadFailures : Nat
  linkFailures : Nat
  deriving DecidableEq, Repr

structure Observed where
  complete : Bool
  processObserved : Bool
  processRunning : Bool
  processReplaced : Bool
  slept : Int
  tickGap : Int
  carrier : String
  linkPresent : Bool
  payloadOK : Bool
  routesDrifted : Bool

/-- What a cycle leaves for the next one. -/
structure State where
  known : Bool
  carrier : String
  linkPresent : Bool
  payloadFailures : Nat
  linkFailures : Nat
  deriving DecidableEq, Repr

def State.fresh : State := ⟨false, "", false, 0, 0⟩

structure Grounds where
  complete : Bool
  processObserved : Bool
  processRunning : Bool
  processReplaced : Bool
  slept : Int
  tickGap : Int
  carrier : String
  carrierEntries : Nat
  linkPresent : Bool
  linkFailures : Nat
  payloadOK : Bool
  payloadFailures : Nat
  routesDrifted : Bool

structure Plan where
  action : Action
  causes : List Cause
  grounds : Grounds

/-- A signature lists its destinations with a blank between them. -/
def entries (signature : String) : Nat :=
  if signature = "" then 0 else signature.toList.count ' ' + 1

/-- A counter of 32 bits, one further. -/
def increment (counter : Nat) : Nat := (counter + 1) % 2 ^ 32

def Policy.invalid (policy : Policy) : Prop :=
  policy.wakeThreshold ≤ 0 ∨ policy.payloadFailures = 0 ∨
    policy.linkFailures = 0 ∨ policy.interval ≤ 0 ∨
    policy.wakeThreshold ≤ policy.interval

instance (policy : Policy) : Decidable policy.invalid :=
  inferInstanceAs (Decidable (_ ∨ _))

def countPayload (previous : State) (observed : Observed) : Nat :=
  if observed.payloadOK then 0 else increment previous.payloadFailures

/-- The memory of a cycle.  A cycle that stopped early overwrites nothing it
could not see, and a single failed probe does not end a link. -/
def nextState (policy : Policy) (previous : State) (observed : Observed) :
    State :=
  let payloadFailures := countPayload previous observed
  if observed.complete = false then
    { previous with payloadFailures := payloadFailures }
  else if observed.linkPresent then
    ⟨true, observed.carrier, true, payloadFailures, 0⟩
  else
    let alreadyAbsent := previous.known && !previous.linkPresent
    let linkFailures := increment previous.linkFailures
    ⟨true, observed.carrier,
      !alreadyAbsent && decide (linkFailures < policy.linkFailures),
      payloadFailures, linkFailures⟩

/-- Every cause that holds. -/
def causes (policy : Policy) (previous : State) (observed : Observed) :
    List Cause :=
  (if
      observed.processObserved &&
        (!observed.processRunning || observed.processReplaced)
    then [.processGone]
    else []) ++
    (if policy.wakeThreshold ≤ observed.tickGap then [.wakeGap] else []) ++
    (if
      observed.complete = true ∧ previous.known = true ∧
        observed.carrier ≠ previous.carrier
    then [.carrierChanged]
    else [])

def grounds (observed : Observed) (next : State) : Grounds where
  complete := observed.complete
  processObserved := observed.processObserved
  processRunning := observed.processRunning
  processReplaced := observed.processReplaced
  slept := observed.slept
  tickGap := observed.tickGap
  carrier := if observed.complete then observed.carrier else ""
  carrierEntries := if observed.complete then entries observed.carrier else 0
  linkPresent := next.linkPresent
  linkFailures := next.linkFailures
  payloadOK := observed.payloadOK
  payloadFailures := next.payloadFailures
  routesDrifted := observed.routesDrifted

def decide (policy : Policy) (previous : State) (observed : Observed) :
    Except PlanError (Plan × State) := do
  refuse policy.invalid .invalidPolicy
  refuse (observed.slept < 0 ∨ observed.tickGap < 0) .invalidInput
  let next := nextState policy previous observed
  let held := causes policy previous observed
  let action := if held = [] then Action.none else .rebuildTunnel
  pure (⟨action, held, grounds observed next⟩, next)

section Cycles

variable {policy : Policy} {previous : State} {observed : Observed}

theorem nextState_of_incomplete (early : observed.complete = false) :
    nextState policy previous observed =
      { previous with
        payloadFailures := countPayload previous observed } :=
  if_pos early

theorem nextState_of_present
    (complete : observed.complete = true)
    (present : observed.linkPresent = true) :
    nextState policy previous observed =
      ⟨true, observed.carrier, true, countPayload previous observed, 0⟩ := by
  unfold nextState
  rw [if_neg (by simp [complete]), if_pos present]

theorem nextState_of_absent
    (complete : observed.complete = true)
    (absent : observed.linkPresent = false) :
    nextState policy previous observed =
      ⟨true, observed.carrier,
        !(previous.known && !previous.linkPresent) &&
          Decidable.decide
            (increment previous.linkFailures < policy.linkFailures),
        countPayload previous observed, increment previous.linkFailures⟩ := by
  unfold nextState
  rw [if_neg (by simp [complete]), if_neg (by simp [absent])]

/-- A cycle is refused, or leaves its memory and grounds. -/
theorem decide_cases :
    (∃ error, decide policy previous observed = .error error) ∨
      ∃ plan,
        decide policy previous observed =
            .ok (plan, nextState policy previous observed) ∧
          plan.grounds =
            grounds observed (nextState policy previous observed) := by
  unfold decide refuse
  split
  · exact Or.inl ⟨_, rfl⟩
  · split
    · exact Or.inl ⟨_, rfl⟩
    · exact Or.inr ⟨_, rfl, rfl⟩

theorem decide_of_valid
    (valid : ¬ policy.invalid)
    (timed : ¬ (observed.slept < 0 ∨ observed.tickGap < 0)) :
    ∃ plan,
      decide policy previous observed =
          .ok (plan, nextState policy previous observed) ∧
        plan.grounds =
          grounds observed (nextState policy previous observed) := by
  unfold decide refuse
  rw [if_neg valid, if_neg timed]
  exact ⟨_, rfl, rfl⟩

end Cycles

end Hexroute.TunnelPlan
