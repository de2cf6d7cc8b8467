import Mathlib

/-!
# Checked computations

`refuse` is the guard clause of a fallible function: it stops with an error
exactly when its condition holds.  The lemmas turn a successful run of a
chain of guards and binds into the conjunction of what each link established,
so that callers never unfold the chain.
-/

namespace Hexroute.Lib

universe u v

variable {ε : Type u} {α β : Type v}

/-- Stop with `error` when `condition` holds. -/
def refuse (condition : Prop) [Decidable condition] (error : ε) :
    Except ε PUnit.{v + 1} :=
  if condition then .error error else .ok ⟨⟩

@[simp]
theorem refuse_eq_ok_iff
    {condition : Prop} [Decidable condition] {error : ε} {done : PUnit} :
    refuse condition error = .ok done ↔ ¬ condition := by
  unfold refuse
  split <;> simp_all

@[simp]
theorem bind_eq_ok_iff
    {computation : Except ε α} {continuation : α → Except ε β} {result : β} :
    (computation >>= continuation) = .ok result ↔
      ∃ value, computation = .ok value ∧ continuation value = .ok result := by
  cases computation with
  | error _ =>
      simp [bind, Except.bind]
  | ok value =>
      simp [bind, Except.bind]

theorem refuse_eq_error_iff
    {condition : Prop} [Decidable condition] {error other : ε} :
    (refuse condition error : Except ε PUnit.{v + 1}) = .error other ↔
      condition ∧ error = other := by
  unfold refuse
  split <;> simp_all

/-- A bind fails where its first computation does, or after it. -/
theorem bind_eq_error_iff
    {computation : Except ε α} {continuation : α → Except ε β} {error : ε} :
    (computation >>= continuation) = .error error ↔
      computation = .error error ∨
        ∃ value, computation = .ok value ∧
          continuation value = .error error := by
  cases computation with
  | error _ =>
      simp [bind, Except.bind]
  | ok value =>
      simp [bind, Except.bind]

theorem ok_bind {value : α} {continuation : α → Except ε β} :
    ((.ok value : Except ε α) >>= continuation) = continuation value :=
  rfl

@[simp]
theorem map_eq_ok_iff
    {computation : Except ε α} {function : α → β} {result : β} :
    (function <$> computation) = .ok result ↔
      ∃ value, computation = .ok value ∧ function value = result := by
  cases computation <;> simp [Functor.map, Except.map]

@[simp]
theorem mapError_eq_ok_iff
    {ζ : Type u} {computation : Except ε α} {function : ε → ζ} {result : α} :
    computation.mapError function = .ok result ↔
      computation = .ok result := by
  cases computation <;> simp [Except.mapError]

@[simp]
theorem pure_eq_ok_iff {value result : α} :
    (pure value : Except ε α) = .ok result ↔ value = result := by
  simp [pure, Except.pure]

@[simp]
theorem throw_ne_ok {error : ε} {result : α} :
    (throw error : Except ε α) ≠ .ok result := by
  simp [throw, throwThe, MonadExceptOf.throw]

/-- A loop of checks succeeds exactly when every check does. -/
theorem forM_eq_ok_iff
    {γ : Type u} {items : List γ} {check : γ → Except ε PUnit} :
    items.forM check = .ok ⟨⟩ ↔ ∀ item ∈ items, check item = .ok ⟨⟩ := by
  induction items with
  | nil =>
      simp
  | cons head tail inductionHypothesis =>
      rw [List.forM_eq_forM] at inductionHypothesis
      rw [List.forM_eq_forM, List.forM_cons, bind_eq_ok_iff,
        List.forall_mem_cons, ← inductionHypothesis]
      exact ⟨fun ⟨_, checked, rest⟩ => ⟨checked, rest⟩,
        fun ⟨checked, rest⟩ => ⟨⟨⟩, checked, rest⟩⟩

/-- A guard that passes contributes nothing to the rest of the chain. -/
theorem refuse_bind_of_not
    {condition : Prop} [Decidable condition] {error : ε}
    {continuation : PUnit → Except ε β} (passes : ¬ condition) :
    (refuse condition error >>= continuation) = continuation ⟨⟩ := by
  simp [refuse, passes, bind, Except.bind]

section NeverFails

variable {error : ε}

/-- A chain never stops with an error that no link stops with. -/
theorem bind_ne_error_of_ok
    {computation : Except ε α} {continuation : α → Except ε β}
    (first : computation ≠ .error error)
    (later :
      ∀ value, computation = .ok value → continuation value ≠ .error error) :
    (computation >>= continuation) ≠ .error error := by
  cases computation with
  | error other =>
      intro same
      exact first (congrArg Except.error (Except.error.inj same))
  | ok value =>
      exact later value rfl

theorem bind_ne_error
    {computation : Except ε α} {continuation : α → Except ε β}
    (first : computation ≠ .error error)
    (later : ∀ value, continuation value ≠ .error error) :
    (computation >>= continuation) ≠ .error error :=
  bind_ne_error_of_ok first fun value _ => later value

theorem pure_ne_error {value : α} :
    (pure value : Except ε α) ≠ .error error :=
  nofun

theorem refuse_ne_error
    {condition : Prop} [Decidable condition] {other : ε}
    (differ : other ≠ error) :
    (refuse condition other : Except ε PUnit.{v + 1}) ≠ .error error := by
  unfold refuse
  split
  · exact fun same => differ (Except.error.inj same)
  · exact nofun

theorem throw_ne_error {other : ε} (differ : other ≠ error) :
    (throw other : Except ε α) ≠ .error error :=
  fun same => differ (Except.error.inj same)

theorem mapError_ne_error
    {ζ : Type u} {computation : Except ζ α} {function : ζ → ε}
    (differ : ∀ other, function other ≠ error) :
    computation.mapError function ≠ .error error := by
  cases computation with
  | error other =>
      exact fun same => differ other (Except.error.inj same)
  | ok value =>
      exact nofun

theorem mapM_ne_error
    {γ : Type u} {items : List γ} {function : γ → Except ε β}
    (each : ∀ item, function item ≠ .error error) :
    items.mapM function ≠ .error error := by
  induction items with
  | nil =>
      exact pure_ne_error
  | cons head tail inductionHypothesis =>
      rw [List.mapM_cons]
      exact
        bind_ne_error (each head) fun _ =>
          bind_ne_error inductionHypothesis fun _ => pure_ne_error

end NeverFails

/-- The computation succeeds with a value that passes the test. -/
def yields (computation : Except ε α) (test : α → Bool) : Bool :=
  match computation with
  | .ok value => test value
  | .error _ => false

/-- Evaluating a computation once gives its result by name. -/
theorem exists_of_yields
    (computation : Except ε α) (test : α → Bool)
    (evaluates : yields computation test = true) :
    ∃ value, computation = .ok value ∧ test value = true := by
  cases computation with
  | error _ =>
      simp [yields] at evaluates
  | ok value =>
      exact ⟨value, rfl, evaluates⟩

end Hexroute.Lib
