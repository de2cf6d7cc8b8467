import Hexroute.Reduce.Fixture

/-!
# Policy along a chain of reductions

`authorize` looks one reduction back.  This module says what that is worth
over a whole chain: when an authorized policy never falls behind an earlier
authorized one, and when state a newer policy excludes stays grandfathered.
-/

namespace Hexroute.Reduce

open Hexroute.Connectivity
open Hexroute.Lib

/-- The test `authorize` makes: the policy is usable and not behind the one
of the reduction right before it. -/
def PolicyDescriptor.admittedAfter
    (descriptor : PolicyDescriptor) (previous : Option PolicyDescriptor) :
    Bool :=
  descriptor.authorized &&
    !(previous.any fun earlier =>
      earlier.present && descriptor.movedBackFrom earlier)

theorem authorize_of_unusable
    {descriptor : PolicyDescriptor} {prior : Option Snapshot}
    (unusable : descriptor.authorized = false) :
    (authorize descriptor prior).1 = .unauthorized := by
  unfold authorize
  split
  · rfl
  · split
    · rfl
    · split
      · rfl
      · simp [unusable]

theorem authorize_of_usable
    {descriptor : PolicyDescriptor} {prior : Option Snapshot}
    (usable : descriptor.authorized = true) :
    authorize descriptor prior =
      if (prior.map (·.policy)).any fun earlier =>
          earlier.present && descriptor.movedBackFrom earlier then
        (.unauthorized, .generationGap)
      else
        (.authorized, .none) := by
  have whole := usable
  simp only [PolicyDescriptor.authorized, Bool.and_eq_true,
    Bool.not_eq_true'] at usable
  obtain ⟨⟨⟨⟨present, valid⟩, active⟩, _⟩, _⟩ := usable
  unfold authorize
  rw [present, valid, active, whole]
  cases prior <;> rfl

theorem authorize_eq_authorized_iff
    {descriptor : PolicyDescriptor} {prior : Option Snapshot} :
    (authorize descriptor prior).1 = .authorized ↔
      descriptor.admittedAfter (prior.map (·.policy)) = true := by
  unfold PolicyDescriptor.admittedAfter
  cases usable : descriptor.authorized with
  | false =>
      simp [authorize_of_unusable usable]
  | true =>
      rw [authorize_of_usable usable]
      split <;> simp_all

/-- The policies of a chain that pass the test against their own
predecessor. -/
def admitted (previous : Option PolicyDescriptor) :
    List PolicyDescriptor → List PolicyDescriptor
  | [] => []
  | descriptor :: rest =>
      if descriptor.admittedAfter previous then
        descriptor :: admitted (some descriptor) rest
      else
        admitted (some descriptor) rest

/-- The authorized policies of a chain are the admitted ones. -/
theorem Linked.admitted_eq
    {hashes : Hashes} {prior : Option Snapshot}
    {reductions : List Reduction}
    (linked : Linked hashes prior reductions) :
    admitted (prior.map (·.policy))
        (reductions.map fun reduction => reduction.input.policy) =
      (reductions.filter fun reduction =>
          decide
            (reduction.output.snapshot.authorization = .authorized)).map
        fun reduction => reduction.output.snapshot.policy := by
  induction linked with
  | nil _ =>
      rfl
  | @cons input output rest reduces _ inductionHypothesis =>
      obtain ⟨tables, reduced⟩ := reduce_eq_ok_iff.mp reduces
      have decided :
          output.snapshot.authorization =
            (authorize input.policy input.prior).1 :=
        congrArg Prod.fst reduced.authorization_eq
      have bound : output.snapshot.policy = input.policy :=
        reduced.policy_eq
      simp only [Option.map_some, bound] at inductionHypothesis
      simp only [List.map_cons, admitted, List.filter_cons,
        inductionHypothesis, decided, authorize_eq_authorized_iff]
      split <;> simp_all

theorem policies_of_reduceChain
    {hashes : Hashes} {prior : Option Snapshot} {inputs : List Input}
    {reductions : List Reduction}
    (chained : reduceChain hashes prior inputs = .ok reductions) :
    (reductions.map fun reduction => reduction.input.policy) =
      inputs.map (·.policy) := by
  induction inputs generalizing prior reductions with
  | nil =>
      obtain rfl := reduceChain_nil_eq_ok_iff.mp chained
      rfl
  | cons input rest inductionHypothesis =>
      obtain ⟨output, _, later, laterChained, rfl⟩ :=
        reduceChain_cons_eq_ok_iff.mp chained
      simp [inductionHypothesis laterChained]

/-- No generation of the later policy is older than the earlier one's. -/
def PolicyDescriptor.AtLeast (later earlier : PolicyDescriptor) : Prop :=
  earlier.bundleGeneration ≤ later.bundleGeneration ∧
    earlier.rootGeneration ≤ later.rootGeneration ∧
      earlier.userGeneration ≤ later.userGeneration

instance (later earlier : PolicyDescriptor) :
    Decidable (later.AtLeast earlier) :=
  inferInstanceAs (Decidable (_ ∧ _ ∧ _))

theorem PolicyDescriptor.AtLeast.trans
    {first second third : PolicyDescriptor}
    (upper : third.AtLeast second) (lower : second.AtLeast first) :
    third.AtLeast first :=
  ⟨lower.1.trans upper.1, lower.2.1.trans upper.2.1,
    lower.2.2.trans upper.2.2⟩

/-- Whenever a snapshot is authorized, its generations are at least those of
every earlier authorized snapshot. -/
def NeverResumesBackwards (reductions : List Reduction) : Prop :=
  reductions.Pairwise fun earlier later =>
    earlier.output.snapshot.authorization = .authorized →
      later.output.snapshot.authorization = .authorized →
        later.output.snapshot.policy.AtLeast earlier.output.snapshot.policy

instance (reductions : List Reduction) :
    Decidable (NeverResumesBackwards reductions) :=
  inferInstanceAs (Decidable (List.Pairwise _ _))

/-- A chain never resumes backwards exactly when every policy that is usable
and not behind its immediate predecessor is also not behind the last such
policy before it. -/
theorem neverResumesBackwards_iff
    (hashes : Hashes) (prior : Option Snapshot) (inputs : List Input)
    (reductions : List Reduction)
    (chained : reduceChain hashes prior inputs = .ok reductions) :
    NeverResumesBackwards reductions ↔
      (admitted (prior.map (·.policy)) (inputs.map (·.policy))).IsChain
        fun earlier later => later.AtLeast earlier := by
  have authorized :=
    (linked_of_reduceChain chained).admitted_eq
  rw [policies_of_reduceChain chained] at authorized
  have transitive :
      IsTrans PolicyDescriptor fun earlier later => later.AtLeast earlier :=
    ⟨fun _ _ _ lower upper => upper.trans lower⟩
  rw [List.isChain_iff_pairwise, authorized, List.pairwise_map,
    List.pairwise_filter]
  simp only [NeverResumesBackwards, decide_eq_true_eq]

/-- Tells apart snapshots by their policy and by whether it is authorized. -/
def policyHashes : Hashes :=
  fixtureHashes fun semantic =>
    semantic.policy.bundleGeneration +
      if semantic.authorization = .authorized then 16 else 0

/-- The third generation is offered twice after the fifth. -/
def olderPolicyTwice : List Input :=
  [fixtureInput (fixturePolicy 5) [] [], fixtureInput (fixturePolicy 3) [] [],
    fixtureInput (fixturePolicy 3) [] []]

/-- The older policy is refused at first; offered once more it is compared
only with its own refused descriptor. -/
theorem resumes_backwards_after_a_refusal :
    ∃ reductions,
      reduceChain policyHashes none olderPolicyTwice = .ok reductions ∧
        ¬ NeverResumesBackwards reductions := by
  obtain ⟨reductions, chained, backwards⟩ :=
    exists_of_yields (reduceChain policyHashes none olderPolicyTwice)
      (fun reductions => decide (¬ NeverResumesBackwards reductions))
      (by decide +kernel)
  exact ⟨reductions, chained, of_decide_eq_true backwards⟩

theorem neverResumesBackwards_iff_older_policy_twice :
    ∃ reductions,
      reduceChain policyHashes none olderPolicyTwice = .ok reductions ∧
        (NeverResumesBackwards reductions ↔
          (admitted none (olderPolicyTwice.map (·.policy))).IsChain
            fun earlier later => later.AtLeast earlier) := by
  obtain ⟨reductions, chained, _⟩ :=
    exists_of_yields (reduceChain policyHashes none olderPolicyTwice)
      (fun _ => true) (by decide +kernel)
  exact
    ⟨reductions, chained,
      neverResumesBackwards_iff policyHashes none olderPolicyTwice reductions
        chained⟩

end Hexroute.Reduce
