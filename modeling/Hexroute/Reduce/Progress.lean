import Hexroute.Reduce.Alike
import Hexroute.Reduce.Policy

/-!
# When a reduction succeeds

A reduction of decisions that one acceptor made is refused only where its
input is: the rendered snapshot stays inside every bound, and proposals are
well formed whenever the encodings they are addressed by exist.
-/

namespace Hexroute.Reduce

open Hexroute.Connectivity
open Hexroute.Safety
open Hexroute.Lib
open Hexroute.Accept (Event State Screened order orderAll maxGapRanges)

/-- Every encoding is inside the size limit, and SHA-256 is written in
sixty-four digits. -/
structure Hashes.Total (hashes : Hashes) : Prop where
  semantic : ∀ semantic, (hashes.semantic semantic).isSome = true
  diff :
    ∀ diff, ∃ digest,
      hashes.diff diff = some digest ∧ digest.utf8ByteSize = 64
  proposal : ∀ proposal, (hashes.proposal proposal).isSome = true

/-- The bounds a snapshot checks in every watermark. -/
structure Contained (id : SourceID) (integrity : Accept.SourceIntegrity) :
    Prop where
  gaps : integrity.gaps.length ≤ maxGapRanges
  owed : integrity.gaps ≠ [] → integrity.pendingBaseline ≠ []
  pending :
    integrity.pendingBaseline.length ≤
      (connectivitySourceComponents id).length

/-- The bounds a snapshot checks in what a reduction accumulates. -/
structure Tables.Contained (tables : Tables) : Prop where
  sources :
    ∀ (id : SourceID) (watermark : SourceWatermark),
      tables.sources[id]? = some watermark →
        Reduce.Contained id watermark.toSourceIntegrity
  corroborations :
    ∀ component,
      (tables.components component).corroborations.length ≤
        maxCorroborations

/-- What the events of a batch must carry. -/
def EventsContained (events : List Event) : Prop :=
  ∀ event ∈ events,
    Contained event.fact.sourceID event.acceptance.source

theorem contained_of_wellFormed
    {id : SourceID} {source : Accept.SourceState}
    (wellFormed : Accept.SourceIntegrity.WellFormed id source) :
    Contained id source := by
  obtain ⟨bounded, owed⟩ := wellFormed
  refine ⟨bounded.gapsLength, owed, ?_⟩
  exact
    (bounded.pendingNodup.subperm bounded.pendingDeclared).length_le

/-- An acceptor hands out integrity inside the bounds. -/
theorem orderAll_contained
    {state : State} {items : List Screened}
    (sound : ∀ item ∈ items, item.Sound) (wellFormed : state.WellFormed) :
    EventsContained (orderAll state items).1 := by
  induction items generalizing state with
  | nil =>
      simp [EventsContained, orderAll]
  | cons item rest inductionHypothesis =>
      have own := sound item (by simp)
      have next := Accept.order_wellFormed own wellFormed
      obtain ⟨carried, _⟩ :=
        Accept.order_source state item.digest item.role own.positive
      rw [Accept.orderAll_cons]
      intro event member
      rcases List.mem_cons.mp member with rfl | later
      · exact contained_of_wellFormed (next _ _ carried)
      · exact
          inductionHypothesis
            (fun other listed => sound other (List.mem_cons_of_mem _ listed))
            next event later

theorem length_putCorroboration_le
    {entry : Corroboration} {entries : List Corroboration}
    (few : entries.length ≤ maxCorroborations) :
    (putCorroboration entry entries).length ≤ maxCorroborations := by
  have replaced :
      ∀ others : List Corroboration,
        (replaceFirst entry others).length = others.length := by
    intro others
    induction others with
    | nil =>
        rfl
    | cons head tail inductionHypothesis =>
        unfold replaceFirst
        split <;> simp [inductionHypothesis]
  unfold putCorroboration
  split
  · rw [replaced]
    exact few
  · split
    · exact few
    · rw [List.length_append, List.length_singleton]
      omega

theorem Tables.Contained.after
    {tables : Tables} (contained : tables.Contained) {event : Event}
    (own : Reduce.Contained event.fact.sourceID event.acceptance.source) :
    (tables.after event).Contained := by
  refine ⟨?_, ?_⟩
  · intro id watermark found
    rw [Tables.after, foldSources_getElem?] at found
    split at found
    · rename_i adopts
      obtain ⟨_, rfl⟩ := adopts
      obtain rfl := Option.some.inj found
      exact own
    · exact contained.sources id watermark found
  · intro component
    simp only [Tables.after, foldComponents]
    split
    · rw [Function.update_apply]
      split
      · split
        · exact length_putCorroboration_le (contained.corroborations _)
        · exact contained.corroborations _
      · exact contained.corroborations component
    · exact contained.corroborations component

theorem Tables.Contained.afterAll
    {tables : Tables} (contained : tables.Contained) {events : List Event}
    (own : EventsContained events) : (tables.afterAll events).Contained := by
  induction events generalizing tables with
  | nil =>
      exact contained
  | cons event rest inductionHypothesis =>
      exact
        inductionHypothesis (contained.after (own event (by simp)))
          fun later member => own later (List.mem_cons_of_mem _ member)

/-- A valid prior snapshot is read into bounded tables. -/
theorem start_contained
    {input : Input} (valid : validateInput input = .ok ()) :
    (start input).Contained := by
  obtain ⟨continues, _⟩ := validateInput_eq_ok_iff.mp valid
  refine ⟨?_, ?_⟩
  · intro id watermark found
    cases prior : input.prior with
    | none =>
        simp [start, newSourceTable, prior] at found
    | some snapshot =>
        have checked :=
          Snapshot.validate_eq_ok_iff.mp (continues snapshot prior).valid
        simp only [start, newSourceTable, prior] at found
        obtain rfl := tableOf_keyed snapshot.sources id watermark found
        obtain ⟨gaps, owed, pending⟩ :=
          checked.sources watermark (mem_of_tableOf found)
        exact ⟨gaps, owed, pending⟩
  · intro component
    have unmarked :
        ((start input).components component).corroborations =
          (newComponentTable input.prior component).corroborations := by
      simp only [start, markRebaseline]
      split
      · rfl
      · simp only
        split
        · rfl
        · split <;> rfl
    rw [unmarked]
    cases prior : input.prior with
    | none =>
        exact Nat.zero_le _
    | some snapshot =>
        have checked :=
          Snapshot.validate_eq_ok_iff.mp (continues snapshot prior).valid
        have listed :
            component ∈ snapshot.components.map (·.component) := by
          rw [checked.components]
          exact mem_components component
        obtain ⟨record, member, rfl⟩ := List.mem_map.mp listed
        rw [newComponentTable_of_mem
          (checked.components ▸ components_nodup) member]
        exact checked.corroborations record member

theorem authorize_reason
    (descriptor : PolicyDescriptor) (prior : Option Snapshot) :
    (authorize descriptor prior).1 = .authorized ↔
      (authorize descriptor prior).2 = .none := by
  unfold authorize
  repeat' split
  all_goals simp

/-- A snapshot rendered from bounded tables passes its own check. -/
theorem stamp_valid
    {input : Input} {tables : Tables} {changed : Bool}
    (keyed : tables.Keyed) (contained : tables.Contained)
    (generation : (stamp input tables changed).generation ≠ 0) :
    (stamp input tables changed).Valid := by
  refine
    { schema := ⟨rfl, rfl⟩
      reducer := ⟨rfl, rfl⟩
      generation := generation
      components := stamp_names keyed input changed
      conflicts := fun record _ =>
        countP_renderConflicts_le keyed.conflicts record.source
      sources := ?_
      corroborations := ?_
      authorization := authorize_reason input.policy input.prior }
  · intro watermark listed
    obtain ⟨original, member, rfl⟩ := List.mem_map.mp listed
    have found := keyed.sources.mem_values.mp member
    obtain ⟨gaps, owed, pending⟩ := contained.sources _ original found
    simp only [renderWatermark]
    refine ⟨?_, ?_, ?_⟩
    · rwa [(sortBy_perm _).length_eq]
    · intro held settled
      have debts := List.perm_insertionSort (· ≤ ·) original.pendingBaseline
      rw [settled] at debts
      apply owed _ debts.nil_eq.symm
      intro none
      rw [none] at held
      exact held rfl
    · rwa [(List.perm_insertionSort _ _).length_eq]
  · intro record listed
    obtain ⟨component, _, rfl⟩ := List.mem_map.mp listed
    simp only [renderComponent, sortedCorroborations,
      (sortBy_perm _).length_eq]
    exact contained.corroborations component

theorem Proposal.verify_addressed
    {hash : Proposal → Option String} {body : Proposal} {digest : String}
    (schema :
      body.schema = proposalSchema ∧ body.version = proposalSchemaVersion)
    (generation : body.snapshotGeneration ≠ 0)
    (bundle : body.bundleGeneration ≠ 0)
    (bound : body.diffDigest.utf8ByteSize = 64)
    (address : hash (proposalBody body) = some digest) :
    Proposal.verify hash { body with digest := digest } = .ok () := by
  have same :
      proposalBody { body with digest := digest } = proposalBody body := rfl
  unfold Proposal.verify
  rw [same, address]
  simp [schema, generation, bundle, bound, refuse_bind_of_not]

theorem proposeEntries_succeeds
    {hashes : Hashes} (total : hashes.Total) {snapshot : Snapshot}
    {diffDigest : String} (generation : snapshot.generation ≠ 0)
    (bundle : snapshot.policy.bundleGeneration ≠ 0)
    (bound : diffDigest.utf8ByteSize = 64) (entries : List ComponentDiff) :
    ∃ proposals,
      proposeEntries hashes.proposal snapshot diffDigest entries =
        .ok proposals := by
  induction entries with
  | nil =>
      exact ⟨[], rfl⟩
  | cons entry rest inductionHypothesis =>
      obtain ⟨later, proposes⟩ := inductionHypothesis
      unfold proposeEntries
      cases proposalClass entry.classification with
      | none =>
          exact ⟨later, proposes⟩
      | some wanted =>
          obtain ⟨digest, address⟩ :=
            Option.isSome_iff_exists.mp
              (total.proposal
                (proposalBody
                  (proposalFor snapshot diffDigest entry wanted)))
          have verified :=
            Proposal.verify_addressed ⟨rfl, rfl⟩ generation bundle bound
              address
          simp only [address, verified, proposes]
          exact ⟨_, rfl⟩

/-- An authorized policy has a bundle generation. -/
theorem bundleGeneration_ne_zero
    {descriptor : PolicyDescriptor} {prior : Option Snapshot}
    (granted : (authorize descriptor prior).1 = .authorized) :
    descriptor.bundleGeneration ≠ 0 := by
  have usable := authorize_eq_authorized_iff.mp granted
  simp only [PolicyDescriptor.admittedAfter, PolicyDescriptor.authorized,
    Bool.and_eq_true, decide_eq_true_eq] at usable
  omega

theorem propose_succeeds
    {hashes : Hashes} (total : hashes.Total) {input : Input}
    {tables : Tables} {changed : Bool} (desired : DesiredState)
    (generation : (stamp input tables changed).generation ≠ 0) :
    ∃ proposals,
      propose hashes.diff hashes.proposal (stamp input tables changed)
          ((stamp input tables changed).compare desired input.prior) =
        .ok proposals := by
  unfold propose
  split
  · exact ⟨[], rfl⟩
  · rename_i authorized
    obtain ⟨digest, hashed, bound⟩ :=
      total.diff
        ((stamp input tables changed).compare desired input.prior)
    rw [hashed]
    refine proposeEntries_succeeds total generation ?_ bound _
    simp only [Snapshot.compare, Bool.not_eq_true', Bool.not_eq_false,
      Bool.and_eq_true, decide_eq_true_eq] at authorized
    exact bundleGeneration_ne_zero authorized.1

theorem effective_succeeds
    {hashes : Hashes} (total : hashes.Total) (prior : Option Snapshot)
    (next : Snapshot) :
    ∃ changed, effective hashes prior next = .ok changed ∧
      (prior = none → changed = true) := by
  unfold effective
  cases prior with
  | none =>
      exact ⟨true, rfl, fun _ => rfl⟩
  | some prior =>
      obtain ⟨before, hashedBefore⟩ :=
        Option.isSome_iff_exists.mp (total.semantic (project prior))
      obtain ⟨after, hashedAfter⟩ :=
        Option.isSome_iff_exists.mp (total.semantic (project next))
      refine ⟨decide (before ≠ after), ?_, by simp⟩
      simp only [hashedBefore, hashedAfter]
      rfl

/-- Generations never fall to zero. -/
theorem stamp_generation_ne_zero
    {input : Input} (valid : validateInput input = .ok ()) (tables : Tables)
    {changed : Bool} (fresh : input.prior = none → changed = true) :
    (stamp input tables changed).generation ≠ 0 := by
  obtain ⟨continues, _⟩ := validateInput_eq_ok_iff.mp valid
  simp only [stamp, priorGeneration]
  cases prior : input.prior with
  | none =>
      simp [fresh prior]
  | some snapshot =>
      have positive :=
        (Snapshot.validate_eq_ok_iff.mp
          (continues snapshot prior).valid).generation
      simp only
      split <;> omega

/-- A valid input whose events continue its prior in order is reduced. -/
theorem reduce_succeeds
    {hashes : Hashes} (total : hashes.Total) {input : Input}
    {desired : DesiredState} (valid : validateInput input = .ok ())
    (ordered :
      InOrder (start input).consumed (start input).folded input.events)
    (contained : EventsContained input.events)
    (desires :
      desire ⟨input.policy, input.policyComponents⟩ = .ok desired) :
    ∃ output,
      Reduced hashes input ((start input).afterAll input.events) output := by
  obtain ⟨changed, isChanged, fresh⟩ :=
    effective_succeeds total input.prior
      (render input ((start input).afterAll input.events))
  have generation :=
    stamp_generation_ne_zero valid ((start input).afterAll input.events)
      fresh
  obtain ⟨proposals, proposes⟩ :=
    propose_succeeds total desired generation
  have checked :
      (stamp input ((start input).afterAll input.events) changed).Valid :=
    stamp_valid ((start_keyed valid).afterAll input.events)
      ((start_contained valid).afterAll contained) generation
  exact
    ⟨⟨_, desired, _, proposals, changed⟩,
      { input_valid := valid
        folds := foldEvents_eq_ok_iff.mpr ⟨ordered, rfl⟩
        changed := isChanged
        snapshot := rfl
        snapshot_valid := Snapshot.validate_eq_ok_iff.mpr checked
        desired := desires
        diff := rfl
        proposals := proposes }⟩

end Hexroute.Reduce
