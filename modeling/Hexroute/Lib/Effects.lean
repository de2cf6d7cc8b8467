import Mathlib

/-!
# Computations over a state that may fail

A failing computation leaves a state as well.  `Ends` says what holds of the
answer and of the state, however the computation ends; its rules follow the
computation from the front, so that what a function does is stated once and
used by name.
-/

namespace Hexroute.Lib

variable {ε σ α β : Type}

/-- What holds of the answer and of the state a computation leaves. -/
def Ends
    (computation : EStateM ε σ α) (before : σ)
    (outcome : Except ε α → σ → Prop) : Prop :=
  match computation before with
  | .ok value after => outcome (.ok value) after
  | .error cause after => outcome (.error cause) after

variable {computation : EStateM ε σ α} {continuation : α → EStateM ε σ β}
  {before after : σ} {outcome weaker : Except ε α → σ → Prop}

theorem Ends.mono
    (ends : Ends computation before outcome)
    (weakens :
      ∀ answer after, outcome answer after → weaker answer after) :
    Ends computation before weaker := by
  unfold Ends at ends ⊢
  split at ends <;> exact weakens _ _ ends

/-- The answer of the first part decides whether the second one runs. -/
theorem ends_bind {outcome : Except ε β → σ → Prop} :
    Ends (computation >>= continuation) before outcome ↔
      Ends computation before fun answer middle =>
        match answer with
        | .ok value => Ends (continuation value) middle outcome
        | .error cause => outcome (.error cause) middle := by
  change Ends (EStateM.bind computation continuation) before outcome ↔ _
  unfold Ends EStateM.bind
  cases computation before <;> rfl

theorem ends_get_bind
    {continuation : σ → EStateM ε σ α}
    (ends : Ends (continuation before) before outcome) :
    Ends (get >>= continuation) before outcome :=
  ends

end Hexroute.Lib
