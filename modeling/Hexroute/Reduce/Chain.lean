import Hexroute.Reduce.Reduce

/-!
# What a reduction establishes, and chains of them

`Reduced` names everything a successful reduction went through, so that later
proofs never unfold `reduce`.  A chain feeds every reduction the snapshot of
the one before it.
-/

namespace Hexroute.Reduce

open Hexroute.Connectivity
open Hexroute.Lib
open Hexroute.Accept (Event)

/-- A rendered snapshot with its generation. -/
def stamp (input : Input) (tables : Tables) (changed : Bool) : Snapshot :=
  { render input tables with
    generation :=
      if changed then priorGeneration input + 1 else priorGeneration input }

/-- The stages of a successful reduction. -/
structure Reduced
    (hashes : Hashes) (input : Input) (tables : Tables) (output : Output) :
    Prop where
  input_valid : validateInput input = .ok ()
  folds : foldEvents (start input) input.events = .ok tables
  changed :
    effective hashes input.prior (render input tables) = .ok output.changed
  snapshot : output.snapshot = stamp input tables output.changed
  snapshot_valid : output.snapshot.validate = .ok ()
  desired :
    desire ⟨input.policy, input.policyComponents⟩ = .ok output.desired
  diff :
    output.diff = output.snapshot.compare output.desired input.prior
  proposals :
    propose hashes.diff hashes.proposal output.snapshot output.diff =
      .ok output.proposals

theorem reduce_eq_ok_iff
    {hashes : Hashes} {input : Input} {output : Output} :
    reduce hashes input = .ok output ↔
      ∃ tables, Reduced hashes input tables output := by
  unfold reduce
  simp only [bind_eq_ok_iff, pure_eq_ok_iff]
  constructor
  · rintro ⟨_, valid, tables, folds, changed, isChanged, _, snapshotValid,
      desired, desires, proposals, proposes, rfl⟩
    exact
      ⟨tables, valid, folds, isChanged, rfl, snapshotValid, desires, rfl,
        proposes⟩
  · rintro ⟨tables, reduced⟩
    obtain ⟨snapshot, desired, diff, proposals, changed⟩ := output
    obtain ⟨valid, folds, isChanged, stamped, snapshotValid, desires,
      compared, proposes⟩ := reduced
    simp only at stamped compared
    subst stamped
    subst compared
    exact
      ⟨(), valid, tables, folds, changed, isChanged, (), snapshotValid,
        desired, desires, proposals, proposes, rfl⟩

theorem validateEvents_eq_ok_iff {events : List Event} :
    validateEvents events = .ok () ↔
      ∀ event ∈ events,
        validate event.fact = .ok () ∧
          event.acceptance.outcome ≠ .rejected := by
  induction events with
  | nil =>
      simp [validateEvents]
  | cons event rest inductionHypothesis =>
      simp only [validateEvents, bind_eq_ok_iff, mapError_eq_ok_iff,
        refuse_eq_ok_iff, inductionHypothesis, List.forall_mem_cons]
      constructor
      · rintro ⟨_, valid, _, offered, later⟩
        exact ⟨⟨valid, offered⟩, later⟩
      · rintro ⟨⟨valid, offered⟩, later⟩
        exact ⟨(), valid, (), offered, later⟩

/-- What a valid input says about its prior snapshot. -/
structure Continues (input : Input) (prior : Snapshot) : Prop where
  consumed :
    input.priorConsumed = 0 ∨
      input.priorConsumed = prior.consumedHostSequence
  folded :
    input.priorFolded = 0 ∨ input.priorFolded = prior.consumedFoldPosition
  valid : prior.validate = .ok ()
  forward :
    prior.bootID = input.bootID →
      prior.evaluationTick ≤ input.evaluationTick

theorem validateInput_eq_ok_iff {input : Input} :
    validateInput input = .ok () ↔
      (∀ prior ∈ input.prior, Continues input prior) ∧
        (input.bootID ≠ "" ∧ 0 < input.evaluationTick) ∧
          (∀ wake ∈ input.wake, 0 < wake.tick) ∧
            ∀ event ∈ input.events,
              validate event.fact = .ok () ∧
                event.acceptance.outcome ≠ .rejected := by
  unfold validateInput validateWatermarks validatePrior
  cases input.prior with
  | none =>
      simp [validateEvents_eq_ok_iff]
  | some prior =>
      simp only [bind_eq_ok_iff, mapError_eq_ok_iff, refuse_eq_ok_iff,
        validateEvents_eq_ok_iff, Option.mem_def, Option.some.injEq,
        forall_eq']
      constructor
      · rintro ⟨_, ⟨_, consumed, folded⟩, _, context, _, wakes, _,
          ⟨_, valid, forward⟩, events⟩
        refine ⟨⟨by omega, by omega, valid, ?_⟩, ?_, ?_, events⟩
        · exact fun sameBoot => not_lt.mp fun back => forward ⟨sameBoot, back⟩
        · exact
            ⟨fun empty => context (Or.inl empty),
              not_le.mp fun early => context (Or.inr early)⟩
        · exact fun wake given =>
            not_le.mp fun early => wakes ⟨wake, given, early⟩
      · rintro ⟨⟨consumed, folded, valid, forward⟩, ⟨boot, tick⟩, wakes,
          events⟩
        refine ⟨(), ⟨(), by omega, by omega⟩, (), ?_, (), ?_, (),
          ⟨(), valid, ?_⟩, events⟩
        · rintro (empty | early)
          · exact boot empty
          · exact not_le.mpr tick early
        · rintro ⟨wake, given, early⟩
          exact not_le.mpr (wakes wake given) early
        · rintro ⟨sameBoot, back⟩
          exact not_lt.mpr (forward sameBoot) back

/-- One reduction of a chain: what it was given and what it returned. -/
structure Reduction where
  input : Input
  output : Output
  deriving DecidableEq, Repr

/-- Reduce one batch after another; every reduction's prior is the snapshot
before it, whatever prior the listed input names. -/
def reduceChain (hashes : Hashes) :
    Option Snapshot → List Input → Except ReduceError (List Reduction)
  | _, [] => pure []
  | prior, input :: rest => do
      let output ← reduce hashes { input with prior := prior }
      let reductions ← reduceChain hashes (some output.snapshot) rest
      pure (⟨{ input with prior := prior }, output⟩ :: reductions)

section ReduceChain

variable {hashes : Hashes} {prior : Option Snapshot} {input : Input}
  {rest : List Input} {reductions : List Reduction}

theorem reduceChain_nil_eq_ok_iff :
    reduceChain hashes prior [] = .ok reductions ↔ [] = reductions :=
  pure_eq_ok_iff

/-- A chain starts with a reduction and goes on from its snapshot. -/
theorem reduceChain_cons_eq_ok_iff :
    reduceChain hashes prior (input :: rest) = .ok reductions ↔
      ∃ output,
        reduce hashes { input with prior := prior } = .ok output ∧
          ∃ later,
            reduceChain hashes (some output.snapshot) rest = .ok later ∧
              ⟨{ input with prior := prior }, output⟩ :: later =
                reductions := by
  simp only [reduceChain, bind_eq_ok_iff, pure_eq_ok_iff]

theorem reduceChain_cons
    {output : Output}
    (reduces : reduce hashes { input with prior := prior } = .ok output)
    (chained :
      reduceChain hashes (some output.snapshot) rest = .ok reductions) :
    reduceChain hashes prior (input :: rest) =
      .ok (⟨{ input with prior := prior }, output⟩ :: reductions) :=
  reduceChain_cons_eq_ok_iff.mpr ⟨output, reduces, reductions, chained, rfl⟩

theorem ne_nil_of_reduceChain_cons
    (chained : reduceChain hashes prior (input :: rest) = .ok reductions) :
    reductions ≠ [] := by
  obtain ⟨_, _, _, _, rfl⟩ := reduceChain_cons_eq_ok_iff.mp chained
  exact List.cons_ne_nil _ _

end ReduceChain

/-- Every reduction's prior is the snapshot of the one before it. -/
inductive Linked (hashes : Hashes) :
    Option Snapshot → List Reduction → Prop
  | nil (prior : Option Snapshot) : Linked hashes prior []
  | cons {input : Input} {output : Output} {rest : List Reduction}
      (reduces : reduce hashes input = .ok output)
      (linked : Linked hashes (some output.snapshot) rest) :
      Linked hashes input.prior (⟨input, output⟩ :: rest)

theorem linked_of_reduceChain
    {hashes : Hashes} {prior : Option Snapshot} {inputs : List Input}
    {reductions : List Reduction}
    (chained : reduceChain hashes prior inputs = .ok reductions) :
    Linked hashes prior reductions := by
  induction inputs generalizing prior reductions with
  | nil =>
      obtain rfl := reduceChain_nil_eq_ok_iff.mp chained
      exact Linked.nil prior
  | cons input rest inductionHypothesis =>
      obtain ⟨output, reduces, later, laterChained, rfl⟩ :=
        reduceChain_cons_eq_ok_iff.mp chained
      exact
        @Linked.cons hashes { input with prior := prior } output later reduces
          (inductionHypothesis laterChained)

namespace Linked

variable {hashes : Hashes} {prior : Option Snapshot}

/-- The snapshot the next reduction of a chain starts from. -/
def last : Option Snapshot → List Reduction → Option Snapshot
  | prior, [] => prior
  | _, reduction :: rest => last (some reduction.output.snapshot) rest

theorem prior_of_head
    {reductions : List Reduction} {first : Reduction}
    (linked : Linked hashes prior reductions)
    (isFirst : first ∈ reductions.head?) :
    first.input.prior = prior := by
  cases linked with
  | nil _ =>
      simp at isFirst
  | cons _ _ =>
      obtain rfl : _ = first := by simpa using isFirst
      rfl

theorem append_right
    {before after : List Reduction}
    (linked : Linked hashes prior (before ++ after)) :
    Linked hashes (last prior before) after := by
  induction before generalizing prior with
  | nil =>
      exact linked
  | cons head tail inductionHypothesis =>
      cases linked with
      | cons _ rest =>
          exact inductionHypothesis rest

theorem append_left
    {before after : List Reduction}
    (linked : Linked hashes prior (before ++ after)) :
    Linked hashes prior before := by
  induction before generalizing prior with
  | nil =>
      exact Linked.nil prior
  | cons head tail inductionHypothesis =>
      cases linked with
      | cons reduces rest =>
          exact Linked.cons reduces (inductionHypothesis rest)

end Linked

theorem Reduced.policy_eq
    {hashes : Hashes} {input : Input} {tables : Tables} {output : Output}
    (reduced : Reduced hashes input tables output) :
    output.snapshot.policy = input.policy := by
  rw [reduced.snapshot]
  rfl

theorem Reduced.authorization_eq
    {hashes : Hashes} {input : Input} {tables : Tables} {output : Output}
    (reduced : Reduced hashes input tables output) :
    (output.snapshot.authorization, output.snapshot.reason) =
      authorize input.policy input.prior := by
  rw [reduced.snapshot]
  rfl

end Hexroute.Reduce
