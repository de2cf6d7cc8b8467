import Hexroute.Lib.Effects

/-!
# Programs a crash may cut off

A program over a state may fail, and then its caller goes on, or it may be cut
off by a crash, and then nothing goes on.  Callers try a program, ignore that
it failed, or clean up after it failed.  `Safely` says that a program leaves a
property of what outlasts a crash, another one of what does not, and what it
promises of its answer.
-/

namespace Hexroute.Lib

inductive Stop (ε : Type) where
  | failed (error : ε)
  | crashed
  | exhausted
  deriving DecidableEq, Repr

variable {ε σ α β : Type}

/-- Go on after a failure, with nothing. -/
def attempted (program : EStateM (Stop ε) σ α) :
    EStateM (Stop ε) σ (Option α) :=
  fun state =>
    match program state with
    | .ok value after => .ok (some value) after
    | .error (.failed _) after => .ok none after
    | .error .crashed after => .error .crashed after
    | .error .exhausted after => .error .exhausted after

/-- Go on after a failure, with its error. -/
def caught (program : EStateM (Stop ε) σ α) :
    EStateM (Stop ε) σ (Option ε) :=
  fun state =>
    match program state with
    | .ok _ after => .ok none after
    | .error (.failed error) after => .ok (some error) after
    | .error .crashed after => .error .crashed after
    | .error .exhausted after => .error .exhausted after

variable {program : EStateM (Stop ε) σ α}
  {continuation : α → EStateM (Stop ε) σ β}
  {cleanup : EStateM (Stop ε) σ Unit} {before : σ}

theorem ends_attempted
    {outcome : Except (Stop ε) (Option α) → σ → Prop}
    (ends :
      Ends program before fun answer after =>
        match answer with
        | .ok value => outcome (.ok (some value)) after
        | .error (.failed _) => outcome (.ok none) after
        | .error .crashed => outcome (.error .crashed) after
        | .error .exhausted => outcome (.error .exhausted) after) :
    Ends (attempted program) before outcome := by
  unfold Ends attempted at *
  cases run : program before with
  | ok value after =>
      rw [run] at ends
      exact ends
  | error stop after =>
      rw [run] at ends
      cases stop <;> exact ends

theorem ends_caught
    {outcome : Except (Stop ε) (Option ε) → σ → Prop}
    (ends :
      Ends program before fun answer after =>
        match answer with
        | .ok _ => outcome (.ok none) after
        | .error (.failed error) => outcome (.ok (some error)) after
        | .error .crashed => outcome (.error .crashed) after
        | .error .exhausted => outcome (.error .exhausted) after) :
    Ends (caught program) before outcome := by
  unfold Ends caught at *
  cases run : program before with
  | ok value after =>
      rw [run] at ends
      exact ends
  | error stop after =>
      rw [run] at ends
      cases stop <;> exact ends

/-! ## What a program leaves -/

/-- The first property holds however the program ends, the second one if it
answers or fails, and the promise of the answer it gives. -/
def Safely
    (durable live : σ → Prop) (program : EStateM (Stop ε) σ α) (before : σ)
    (promise : α → σ → Prop) : Prop :=
  Ends program before fun answer after =>
    durable after ∧
      match answer with
      | .ok value => live after ∧ promise value after
      | .error (.failed _) => live after
      | .error .crashed => True
      | .error .exhausted => True

variable {durable live : σ → Prop} {promise weaker : α → σ → Prop}

theorem safely_pure
    {value : α} (lasts : durable before) (lives : live before)
    (kept : promise value before) :
    Safely durable live (pure value : EStateM (Stop ε) σ α) before promise :=
  ⟨lasts, lives, kept⟩

theorem safely_throw
    {error : ε} (lasts : durable before) (lives : live before) :
    Safely durable live (throw (.failed error) : EStateM (Stop ε) σ α) before
      promise :=
  ⟨lasts, lives⟩

theorem safely_get_bind
    {continuation : σ → EStateM (Stop ε) σ α}
    (safe : Safely durable live (continuation before) before promise) :
    Safely durable live (get >>= continuation) before promise :=
  safe

/-- What holds of every answer may be added to a promise. -/
theorem Safely.add
    (safe : Safely durable live program before promise)
    (yields :
      ∀ value after,
        program before = .ok value after → promise value after →
          weaker value after) :
    Safely durable live program before weaker := by
  unfold Safely Ends at safe ⊢
  cases run : program before with
  | ok value after =>
      rw [run] at safe
      exact ⟨safe.1, safe.2.1, yields value after run safe.2.2⟩
  | error stop after =>
      rw [run] at safe
      cases stop <;> exact safe

theorem Safely.mono
    (safe : Safely durable live program before promise)
    (weakens : ∀ value after, promise value after → weaker value after) :
    Safely durable live program before weaker :=
  safe.add fun value after _ => weakens value after

theorem Safely.bind
    {promise : β → σ → Prop} {middle : α → σ → Prop}
    (first : Safely durable live program before middle)
    (second :
      ∀ value after, durable after → live after → middle value after →
        Safely durable live (continuation value) after promise) :
    Safely durable live (program >>= continuation) before promise := by
  unfold Safely
  rw [ends_bind]
  refine Ends.mono first fun answer after facts => ?_
  cases answer with
  | ok value => exact second value after facts.1 facts.2.1 facts.2.2
  | error stop => cases stop <;> exact facts

theorem Safely.map
    {change : α → β} {promise : β → σ → Prop}
    (safe :
      Safely durable live program before fun value => promise (change value)) :
    Safely durable live (change <$> program) before promise := by
  rw [map_eq_pure_bind]
  exact safe.bind fun _ _ lasts lives kept => safely_pure lasts lives kept

/-! ## How a program fails -/

variable {kind : ε → Prop}

end Hexroute.Lib
