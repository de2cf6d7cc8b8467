import Mathlib

/-!
# Histories of steps

A history is a list of steps that are taken one after the other from a first
state.  What a step does is judged where the history stands before it.
-/

namespace Hexroute.Lib

/-- What becomes of a write: it is made, it is not made, or it is made and
reported as failed. -/
inductive Fate where
  | done
  | lost
  | unsaid
  deriving DecidableEq, Repr

def Fate.reaches (fate : Fate) : Bool :=
  fate ≠ .lost

variable {σ ι : Type} (next : σ → ι → σ) (start : σ)

/-- The state a history leads to. -/
def stateAfter (steps : List ι) : σ :=
  steps.foldl next start

/-- Every step meets a condition on it and on the state before it. -/
def EachStep (condition : σ → ι → Prop) (steps : List ι) : Prop :=
  ∀ (before : List ι) (step : ι) (rest : List ι),
    steps = before ++ step :: rest →
      condition (stateAfter next start before) step

variable {next start} {condition : σ → ι → Prop} {steps : List ι}

@[simp]
theorem stateAfter_nil : stateAfter next start [] = start :=
  rfl

theorem stateAfter_snoc (steps : List ι) (step : ι) :
    stateAfter next start (steps ++ [step]) =
      next (stateAfter next start steps) step :=
  List.foldl_append

theorem stateAfter_append (steps rest : List ι) :
    stateAfter next start (steps ++ rest) =
      stateAfter next (stateAfter next start steps) rest :=
  List.foldl_append

theorem eachStep_nil : EachStep next start condition [] :=
  fun _ _ _ split => absurd split (by simp)

theorem EachStep.of_append
    {rest : List ι} (each : EachStep next start condition (steps ++ rest)) :
    EachStep next start condition steps := by
  intro before step later split
  refine each before step (later ++ rest) ?_
  rw [split, List.append_assoc, List.cons_append]

theorem EachStep.last
    {step : ι} (each : EachStep next start condition (steps ++ [step])) :
    condition (stateAfter next start steps) step :=
  each steps step [] rfl

theorem EachStep.head
    {step : ι} (each : EachStep next start condition (step :: steps)) :
    condition start step :=
  each [] step steps rfl

theorem EachStep.of_cons
    {step : ι} (each : EachStep next start condition (step :: steps)) :
    EachStep next (next start step) condition steps := by
  intro before other rest split
  exact each (step :: before) other rest (congrArg (step :: ·) split)

theorem EachStep.snoc
    {step : ι} (each : EachStep next start condition steps)
    (met : condition (stateAfter next start steps) step) :
    EachStep next start condition (steps ++ [step]) := by
  intro before other rest split
  rcases List.eq_nil_or_concat rest with rfl | ⟨inner, final, rfl⟩
  · obtain ⟨rfl, same⟩ := List.append_inj' split rfl
    cases same
    exact met
  · rw [List.concat_eq_append, ← List.cons_append, ← List.append_assoc]
      at split
    exact each before other inner (List.append_inj' split rfl).1

/-- What holds at first and is kept by steps that meet the condition holds
after every history of such steps. -/
theorem EachStep.invariant
    (each : EachStep next start condition steps) (invariant : σ → Prop)
    (starts : invariant start)
    (keeps :
      ∀ state step, invariant state → condition state step →
        invariant (next state step)) :
    invariant (stateAfter next start steps) := by
  induction steps using List.reverseRecOn with
  | nil => exact starts
  | append_singleton steps step inductionHypothesis =>
      rw [stateAfter_snoc]
      exact
        keeps _ _ (inductionHypothesis each.of_append) each.last

/-- What holds at first and is kept by every step holds after every
history. -/
theorem stateAfter_invariant
    (invariant : σ → Prop) (starts : invariant start)
    (keeps : ∀ state step, invariant state → invariant (next state step))
    (steps : List ι) : invariant (stateAfter next start steps) := by
  have each : EachStep next start (fun _ _ => True) steps :=
    fun _ _ _ _ => trivial
  exact
    each.invariant invariant starts fun state step holds _ =>
      keeps state step holds

end Hexroute.Lib
