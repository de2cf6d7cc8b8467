import Hexroute.Lib.Keyed
import Hexroute.Reduce.Policy

/-!
# Grandfathered state

State that an earlier policy asked for and a newer one excludes is reported
and never withdrawn.  The reducer recognises it only from the descriptor of
the snapshot right before, so the guarantee has to be traced along a chain.
-/

namespace Hexroute.Reduce

open Hexroute.Connectivity
open Hexroute.Safety
open Hexroute.Lib

/-- The snapshot holds the component ready or degraded. -/
def Snapshot.holdsEstablished
    (snapshot : Snapshot) (component : Component) : Bool :=
  match snapshot.components.find? (·.component = component) with
  | some record => record.state = .ready || record.state = .degraded
  | none => false

/-- The policy does not manage the component, or expects it not to apply. -/
def Input.excludes (input : Input) (component : Component) : Bool :=
  match input.policyComponents.find? (·.component = component) with
  | some entry =>
      !entry.managed || decide (entry.expect.lifecycle = .notApplicable)
  | none => true

/-- The diff does not call the component unexpected and no proposal would
withdraw it. -/
def Output.Spares (output : Output) (component : Component) : Prop :=
  (∀ entry ∈ output.diff.components, entry.component = component →
      entry.classification ≠ .unexpected) ∧
    ∀ proposal ∈ output.proposals, proposal.target = component →
      proposal.class ≠ .withdraw

/-- The bundle generation rises over a prior snapshot that holds the
component established. -/
def Reduction.Raises (reduction : Reduction) (component : Component) : Prop :=
  ∃ prior ∈ reduction.input.prior,
    prior.policy.bundleGeneration < reduction.input.policy.bundleGeneration ∧
      prior.holdsEstablished component = true

/-- The component is established and the policy excludes it. -/
def Reduction.Retains (reduction : Reduction) (component : Component) :
    Prop :=
  reduction.output.snapshot.holdsEstablished component = true ∧
    reduction.input.excludes component = true

/-- The reduction refuses its policy, or moves to a newer bundle from one
that was present. -/
def Reduction.RefusesOrRaises (reduction : Reduction) : Prop :=
  reduction.input.policy.admittedAfter
      (reduction.input.prior.map (·.policy)) = false ∨
    ∃ prior ∈ reduction.input.prior,
      prior.policy.present = true ∧
        prior.policy.bundleGeneration <
          reduction.input.policy.bundleGeneration

theorem classify_excluded
    {record : ComponentRecord} {want : DesiredComponent}
    {prior : Option Snapshot} {snapshot : Snapshot}
    (established : record.state = .ready ∨ record.state = .degraded)
    (excluded :
      want.managed = false ∨ want.expect.lifecycle = .notApplicable) :
    (classify record want prior snapshot).1 =
      if establishedUnderEarlierPolicy record prior snapshot then
        .grandfathered
      else
        .unexpected := by
  unfold classify
  cases managed : want.managed with
  | false =>
      rcases established with state | state <;> rw [state] <;>
        cases establishedUnderEarlierPolicy record prior snapshot <;> rfl
  | true =>
      have notApplicable : want.expect.lifecycle = .notApplicable := by
        simpa [managed] using excluded
      rcases established with state | state <;>
        rw [state, notApplicable] <;>
        cases establishedUnderEarlierPolicy record prior snapshot <;> rfl

theorem establishedUnderEarlierPolicy_iff
    {record : ComponentRecord} {prior snapshot : Snapshot}
    (established : prior.holdsEstablished record.component = true) :
    establishedUnderEarlierPolicy record (some prior) snapshot = true ↔
      prior.policy.present = true ∧
        prior.policy.bundleGeneration < snapshot.policy.bundleGeneration := by
  unfold establishedUnderEarlierPolicy
  unfold Snapshot.holdsEstablished at established
  cases present : prior.policy.present with
  | false =>
      simp [present]
  | true =>
      by_cases newer :
        prior.policy.bundleGeneration < snapshot.policy.bundleGeneration
      · simp only [present, Bool.not_true, Bool.false_eq_true, if_false,
          ge_iff_le, Nat.not_le.mpr newer, newer, and_self, iff_true]
        exact established
      · simp [newer, Nat.not_lt.mp newer]

/-- An established component has one record, and it says so. -/
theorem Snapshot.holdsEstablished_iff
    {snapshot : Snapshot} {component : Component}
    (distinct : (snapshot.components.map (·.component)).Nodup) :
    snapshot.holdsEstablished component = true ↔
      ∃ record ∈ snapshot.components,
        record.component = component ∧
          (record.state = .ready ∨ record.state = .degraded) := by
  unfold Snapshot.holdsEstablished
  constructor
  · split
    · rename_i record found
      intro established
      obtain ⟨member, same⟩ :=
        (find?_eq_some_iff_of_keys_nodup ComponentRecord.component
          distinct).mp found
      exact ⟨record, member, same, by simpa using established⟩
    · simp
  · rintro ⟨record, member, rfl, established⟩
    rw [find?_of_keys_nodup ComponentRecord.component distinct member]
    simpa using established

/-- Excluding a component leaves its desire unmanaged or not applicable. -/
theorem desiredFor_of_excludes
    {input : Input} {component : Component} (authorized : Bool)
    (excluded : input.excludes component = true) :
    (desiredFor input.policyComponents authorized component).managed =
        false ∨
      (desiredFor input.policyComponents authorized
        component).expect.lifecycle = .notApplicable := by
  unfold Input.excludes at excluded
  unfold desiredFor
  cases found :
      input.policyComponents.find? (·.component = component) with
  | none =>
      exact Or.inl rfl
  | some entry =>
      rw [found] at excluded
      simp only at excluded ⊢
      split
      · rename_i managed
        simp only [Bool.and_eq_true] at managed
        right
        simpa [managed.1] using excluded
      · exact Or.inl rfl

namespace Reduced

variable {hashes : Hashes} {input : Input} {tables : Tables}
  {output : Output}

theorem desired_eq (reduced : Reduced hashes input tables output) :
    output.desired.authorized = input.policy.authorized ∧
      output.desired.components =
        components.map
          (desiredFor input.policyComponents input.policy.authorized) := by
  obtain ⟨_, desired⟩ := desire_eq_ok_iff.mp reduced.desired
  rw [desired]
  exact ⟨rfl, rfl⟩

theorem diff_authorized (reduced : Reduced hashes input tables output) :
    output.diff.authorized =
      input.policy.admittedAfter (input.prior.map (·.policy)) := by
  have decided :
      output.snapshot.authorization =
        (authorize input.policy input.prior).1 :=
    congrArg Prod.fst reduced.authorization_eq
  rw [reduced.diff]
  simp only [Snapshot.compare, reduced.desired_eq.1, decided,
    authorize_eq_authorized_iff]
  unfold PolicyDescriptor.admittedAfter
  cases input.policy.authorized <;> simp

/-- The one entry of the diff about an established, excluded component. -/
theorem classification_iff
    {prior : Snapshot} {component : Component}
    (reduced : Reduced hashes input tables output)
    (follows : input.prior = some prior)
    (before : prior.holdsEstablished component = true)
    (held : output.snapshot.holdsEstablished component = true)
    (excluded : input.excludes component = true) :
    (∃ entry ∈ output.diff.components,
        entry.component = component ∧ entry.classification = .unexpected) ↔
      input.policy.admittedAfter (input.prior.map (·.policy)) = true ∧
        ¬ (prior.policy.present = true ∧
          prior.policy.bundleGeneration < input.policy.bundleGeneration) := by
  have distinct :
      (output.snapshot.components.map (·.component)).Nodup := by
    rw [components_of_validate reduced.snapshot_valid]
    exact components_nodup
  obtain ⟨record, member, rfl, established⟩ :=
    (Snapshot.holdsEstablished_iff distinct).mp held
  have decided :
      (decide (output.snapshot.authorization = .authorized) &&
          output.desired.authorized) =
        input.policy.admittedAfter (input.prior.map (·.policy)) := by
    rw [← reduced.diff_authorized, reduced.diff]
    rfl
  have classified :
      (classify record
          (desiredFor input.policyComponents input.policy.authorized
            record.component)
          input.prior output.snapshot).1 = .unexpected ↔
        ¬ (prior.policy.present = true ∧
          prior.policy.bundleGeneration < input.policy.bundleGeneration) := by
    rw [classify_excluded established
      (desiredFor_of_excludes _ excluded), follows, ← reduced.policy_eq,
      ← establishedUnderEarlierPolicy_iff before]
    split <;> simp_all
  rw [reduced.diff]
  simp only [Snapshot.compare, decided, reduced.desired_eq.2, List.mem_map]
  cases input.policy.admittedAfter (input.prior.map (·.policy)) with
  | false =>
      simp
  | true =>
      simp only [Bool.not_true, Bool.false_eq_true, if_false, true_and,
        ← classified, exists_exists_and_eq_and]
      constructor
      · rintro ⟨other, otherMember, sameComponent, unexpected⟩
        obtain rfl :=
          List.inj_on_of_nodup_map distinct otherMember member sameComponent
        simpa only [desired_find?, Option.getD_some] using unexpected
      · intro unexpected
        exact
          ⟨record, member, rfl, by
            simpa only [desired_find?, Option.getD_some] using unexpected⟩

/-- A withdrawal is proposed only for an unexpected component. -/
theorem unexpected_of_withdraw
    {component : Component} {proposal : Proposal}
    (reduced : Reduced hashes input tables output)
    (member : proposal ∈ output.proposals)
    (target : proposal.target = component)
    (withdraws : proposal.class = .withdraw) :
    ∃ entry ∈ output.diff.components,
      entry.component = component ∧ entry.classification = .unexpected := by
  have listed :
      (component, ProposalClass.withdraw) ∈
        output.proposals.map fun proposal =>
          (proposal.target, proposal.class) :=
    List.mem_map.mpr ⟨proposal, member, by rw [target, withdraws]⟩
  rw [propose_targets reduced.proposals] at listed
  split at listed
  · obtain ⟨entry, entryMember, wants⟩ := List.mem_filterMap.mp listed
    refine ⟨entry, entryMember, ?_⟩
    unfold ComponentDiff.wanted at wants
    cases kind : entry.classification <;> simp_all [proposalClass]
  · simp at listed

theorem spares_iff
    {component : Component}
    (reduced : Reduced hashes input tables output)
    (before :
      ∃ prior ∈ input.prior, prior.holdsEstablished component = true)
    (retains : Reduction.Retains ⟨input, output⟩ component) :
    output.Spares component ↔
      Reduction.RefusesOrRaises ⟨input, output⟩ := by
  obtain ⟨prior, follows, established⟩ := before
  have entries :=
    reduced.classification_iff follows established retains.1 retains.2
  have spares :
      output.Spares component ↔
        ¬ ∃ entry ∈ output.diff.components,
          entry.component = component ∧
            entry.classification = .unexpected := by
    constructor
    · rintro ⟨expected, _⟩ ⟨entry, member, same, unexpected⟩
      exact expected entry member same unexpected
    · intro expected
      refine ⟨fun entry member same unexpected =>
          expected ⟨entry, member, same, unexpected⟩, ?_⟩
      intro proposal member target withdraws
      exact expected (reduced.unexpected_of_withdraw member target withdraws)
  have priorEq : input.prior = some prior := follows
  rw [spares, entries]
  simp only [Reduction.RefusesOrRaises, priorEq, Option.mem_def,
    Option.some.injEq, exists_eq_left', Option.map_some]
  rw [not_and_or, not_not, Bool.not_eq_true]

end Reduced

/-- A stretch of consecutive reductions that begins when a newer bundle
excludes an established component and lasts while the component stays
established and excluded. -/
structure Grandfathering
    (reductions : List Reduction) (component : Component)
    (stretch : List Reduction) : Prop where
  within : stretch <:+: reductions
  onset : ∃ first ∈ stretch.head?, first.Raises component
  retained : ∀ reduction ∈ stretch, reduction.Retains component

/-- Nothing grandfathered is ever called unexpected or withdrawn. -/
def GrandfatheredIsSpared (reductions : List Reduction) : Prop :=
  ∀ component stretch, Grandfathering reductions component stretch →
    ∀ reduction ∈ stretch, reduction.output.Spares component

/-- Along a stretch every prior snapshot holds the component established. -/
theorem Linked.prior_established
    {hashes : Hashes} {prior : Option Snapshot} {component : Component}
    {stretch : List Reduction}
    (linked : Linked hashes prior stretch)
    (before :
      ∃ snapshot ∈ prior, snapshot.holdsEstablished component = true)
    (retained : ∀ reduction ∈ stretch, reduction.Retains component) :
    ∀ reduction ∈ stretch,
      reduce hashes reduction.input = .ok reduction.output ∧
        ∃ snapshot ∈ reduction.input.prior,
          snapshot.holdsEstablished component = true := by
  induction linked with
  | nil _ =>
      simp
  | @cons input output rest reduces _ inductionHypothesis =>
      have held := retained ⟨input, output⟩ (by simp)
      have later :=
        inductionHypothesis ⟨output.snapshot, rfl, held.1⟩
          fun reduction member =>
            retained reduction (List.mem_cons_of_mem _ member)
      intro reduction member
      rcases List.mem_cons.mp member with rfl | tail
      · exact ⟨reduces, before⟩
      · exact later reduction tail

/-- The exact price of looking one reduction back: grandfathered state is
spared exactly when every reduction of every stretch refuses its policy or
moves to yet another newer bundle. -/
theorem grandfatheredIsSpared_iff
    (hashes : Hashes) (prior : Option Snapshot) (inputs : List Input)
    (reductions : List Reduction)
    (chained : reduceChain hashes prior inputs = .ok reductions) :
    GrandfatheredIsSpared reductions ↔
      ∀ component stretch, Grandfathering reductions component stretch →
        ∀ reduction ∈ stretch, reduction.RefusesOrRaises := by
  unfold GrandfatheredIsSpared
  refine forall₂_congr fun component stretch => ?_
  refine forall_congr' fun grandfathering => ?_
  refine forall₂_congr fun reduction member => ?_
  obtain ⟨earlier, later, split⟩ := grandfathering.within
  have linked : Linked hashes (Linked.last prior earlier) stretch := by
    have whole := linked_of_reduceChain chained
    rw [← split, List.append_assoc] at whole
    exact whole.append_right.append_left
  obtain ⟨first, isFirst, snapshot, follows, _, established⟩ :=
    grandfathering.onset
  have before :
      ∃ snapshot ∈ Linked.last prior earlier,
        snapshot.holdsEstablished component = true :=
    ⟨snapshot, linked.prior_of_head isFirst ▸ follows, established⟩
  obtain ⟨reduces, established⟩ :=
    linked.prior_established before grandfathering.retained reduction member
  obtain ⟨tables, reduced⟩ := reduce_eq_ok_iff.mp reduces
  exact
    reduced.spares_iff established (grandfathering.retained reduction member)

/-- DNS is ready under a policy that manages it, and the next bundle does
not, for two reductions in a row. -/
def excludedTwice : List Input :=
  [fixtureInput (fixturePolicy 1) [⟨.dns, true, { lifecycle := .ready }⟩]
      (Accept.acceptAll (fun fact => some fact.eventID) Accept.State.new
        [(fixtureBaseline .dns 1, .root)]).1,
    fixtureInput (fixturePolicy 2) [] [],
    fixtureInput (fixturePolicy 2) [] []]

/-- The third of three reductions withdraws what the second grandfathered. -/
def withdrawsThird (component : Component) : List Reduction → Bool
  | [first, second, third] =>
      decide (second.input.prior = some first.output.snapshot) &&
        decide
          (first.output.snapshot.policy.bundleGeneration <
            second.input.policy.bundleGeneration) &&
        first.output.snapshot.holdsEstablished component &&
        [second, third].all (fun reduction =>
          reduction.output.snapshot.holdsEstablished component &&
            reduction.input.excludes component) &&
        third.output.proposals.any fun proposal =>
          decide (proposal.target = component) &&
            decide (proposal.class = .withdraw)
  | _ => false

theorem not_spared_of_withdrawsThird
    {component : Component} {reductions : List Reduction}
    (withdrawn : withdrawsThird component reductions = true) :
    ¬ GrandfatheredIsSpared reductions := by
  unfold withdrawsThird at withdrawn
  split at withdrawn
  · rename_i first second third
    simp only [Bool.and_eq_true, decide_eq_true_eq, List.any_eq_true,
      List.all_eq_true] at withdrawn
    obtain ⟨⟨⟨⟨follows, raised⟩, before⟩, retained⟩, proposal, member,
      target, withdraws⟩ := withdrawn
    have grandfathering :
        Grandfathering [first, second, third] component [second, third] :=
      { within := ⟨[first], [], rfl⟩
        onset :=
          ⟨second, rfl, first.output.snapshot, follows, raised, before⟩
        retained := retained }
    intro spared
    exact
      (spared component [second, third] grandfathering third (by simp)).2
        proposal member target withdraws
  · simp at withdrawn

/-- The second reduction under the newer bundle proposes to withdraw DNS. -/
theorem grandfathered_dns_is_withdrawn :
    ∃ reductions,
      reduceChain policyHashes none excludedTwice = .ok reductions ∧
        ¬ GrandfatheredIsSpared reductions := by
  obtain ⟨reductions, chained, withdrawn⟩ :=
    exists_of_yields (reduceChain policyHashes none excludedTwice)
      (withdrawsThird .dns) (by decide +kernel)
  exact ⟨reductions, chained, not_spared_of_withdrawsThird withdrawn⟩

theorem grandfatheredIsSpared_iff_excluded_twice :
    ∃ reductions,
      reduceChain policyHashes none excludedTwice = .ok reductions ∧
        (GrandfatheredIsSpared reductions ↔
          ∀ component stretch, Grandfathering reductions component stretch →
            ∀ reduction ∈ stretch, reduction.RefusesOrRaises) := by
  obtain ⟨reductions, chained, _⟩ :=
    exists_of_yields (reduceChain policyHashes none excludedTwice)
      (fun _ => true) (by decide +kernel)
  exact
    ⟨reductions, chained,
      grandfatheredIsSpared_iff policyHashes none excludedTwice reductions
        chained⟩

end Hexroute.Reduce
