import Hexroute.Reduce.Fixture
import Hexroute.Reduce.Fold

/-!
# What a wake or a reboot leaves to restate

A wake or a new boot marks every time-sensitive component that was observed
before.  The mark travels in the component's record from one snapshot to the
next, and only an accepted baseline of the component's owner takes it away.
-/

namespace Hexroute.Reduce

open Hexroute.Connectivity
open Hexroute.Lib
open Hexroute.Accept (Event Arrival acceptAll)

/-- The reduction carries a wake, or its boot is not that of its prior. -/
def Interrupts (input : Input) : Prop :=
  input.wake.isSome = true ∨ rebooted input = true

/-- An accepted event in which the component's owner restates it in full. -/
def RestatedBy (component : Component) (event : Event) : Prop :=
  event.acceptance.outcome = .accepted ∧
    event.acceptance.role = .authoritative ∧
      event.fact.baseline = true ∧ event.fact.component = component

/-- The snapshot reports the component as stale or in conflict. -/
structure ReportsHeld (snapshot : Snapshot) (component : Component) :
    Prop where
  listed : ∃ record ∈ snapshot.components, record.component = component
  held :
    ∀ record ∈ snapshot.components, record.component = component →
      record.state = .stale ∨ record.state = .conflict

/-- The component was observed and has to be restated. -/
def ComponentRecord.Awaits (record : ComponentRecord) : Prop :=
  record.hostSequence ≠ 0 ∧ record.rebaselineRequired = true

theorem deriveState_of_awaits
    {record : ComponentRecord} (awaits : record.Awaits) (bootID : String)
    (evaluationTick : Tick) :
    deriveState record bootID evaluationTick = .stale ∨
      deriveState record bootID evaluationTick = .conflict := by
  unfold deriveState
  rw [if_neg (fun unobserved => awaits.1 unobserved.2), if_pos awaits.2]
  split
  · exact Or.inr rfl
  split
  · exact Or.inl rfl
  · exact Or.inl rfl

/-- Marking leaves every observed time-sensitive component awaited. -/
theorem awaits_of_interrupts
    {table : ComponentTable} {input : Input} {component : Component}
    (interrupts : Interrupts input)
    (sensitive : component.timeSensitive = true)
    (observed : (table component).hostSequence ≠ 0) :
    (markRebaseline table input component).Awaits := by
  have marks : ¬ (input.wake.isNone && !rebooted input) = true := by
    rw [Bool.and_eq_true, Bool.not_eq_true', Option.isNone_iff_eq_none]
    rintro ⟨asleep, sameBoot⟩
    rcases interrupts with woken | newBoot
    · rw [asleep] at woken
      cases woken
    · rw [sameBoot] at newBoot
      cases newBoot
  unfold markRebaseline
  rw [if_neg marks]
  simp only [sensitive, Bool.not_true, Bool.false_eq_true, if_false, observed]
  exact ⟨observed, rfl⟩

/-- Marking never takes a mark away. -/
theorem awaits_markRebaseline
    {table : ComponentTable} {component : Component} (input : Input)
    (awaits : (table component).Awaits) :
    (markRebaseline table input component).Awaits := by
  unfold markRebaseline
  split
  · exact awaits
  dsimp only
  split
  · exact awaits
  split
  · exact awaits
  · exact ⟨awaits.1, rfl⟩

/-- An event takes the mark away only if it is the owner's baseline. -/
theorem awaits_foldComponents
    {table : ComponentTable} {component : Component} {event : Event}
    {consumed folded : Nat} (awaits : (table component).Awaits)
    (takes : TakesNext consumed folded event)
    (other : ¬ RestatedBy component event) :
    (foldComponents table event component).Awaits := by
  unfold foldComponents
  split
  · rename_i accepted
    rw [Function.update_apply]
    split
    · rename_i own
      subst own
      split
      · exact awaits
      · rename_i owner
        rw [not_not] at owner
        have ordinary : event.fact.baseline = false := by
          rw [← Bool.not_eq_true]
          exact fun baseline => other ⟨accepted, owner, baseline, rfl⟩
        refine ⟨?_, ?_⟩
        · change event.acceptance.hostSequence ≠ 0
          rw [takes.consumed accepted]
          exact Nat.succ_ne_zero _
        · simp [observe, ordinary, awaits.2]
    · exact awaits
  · exact awaits

theorem awaits_foldAll
    {component : Component} {events : List Event} {table : ComponentTable}
    {consumed folded : Nat} (awaits : (table component).Awaits)
    (ordered : InOrder consumed folded events)
    (others : ∀ event ∈ events, ¬ RestatedBy component event) :
    (events.foldl foldComponents table component).Awaits := by
  induction events generalizing table consumed folded with
  | nil => exact awaits
  | cons event rest inductionHypothesis =>
      obtain ⟨first, later⟩ := List.forall_mem_cons.mp others
      exact
        inductionHypothesis (awaits_foldComponents awaits ordered.1 first)
          ordered.2 later

/-- A reduction that starts with the mark and does not fold the owner's
baseline reports it and hands it on. -/
theorem Reduced.held
    {hashes : Hashes} {input : Input} {tables : Tables} {output : Output}
    {component : Component} (reduced : Reduced hashes input tables output)
    (awaits : ((start input).components component).Awaits)
    (others : ∀ event ∈ input.events, ¬ RestatedBy component event) :
    ReportsHeld output.snapshot component ∧
      (newComponentTable (some output.snapshot) component).Awaits := by
  have folded : (tables.components component).Awaits := by
    rw [reduced.tables_eq, Tables.afterAll_components]
    exact awaits_foldAll awaits reduced.inOrder others
  have complete := components_of_validate reduced.snapshot_valid
  have rendered :
      output.snapshot.components =
        components.map fun component =>
          renderComponent tables.sources input.bootID input.evaluationTick
            (tables.components component) := by
    rw [reduced.snapshot]
    rfl
  -- The record under the name of the component is the one rendered for it.
  have own :
      ∀ record ∈ output.snapshot.components,
        record.component = component →
          record =
            renderComponent tables.sources input.bootID input.evaluationTick
              (tables.components component) := by
    intro record member name
    rw [rendered] at member
    obtain ⟨other, -, rfl⟩ := List.mem_map.mp member
    have named : other = component :=
      (reduced.keyed.components other).symm.trans name
    rw [named]
  have listed :
      ∃ record ∈ output.snapshot.components,
        record.component = component := by
    have member := mem_components component
    rw [← complete, List.mem_map] at member
    exact member
  refine ⟨⟨listed, fun record member name => ?_⟩, ?_⟩
  · rw [own record member name]
    exact
      @deriveState_of_awaits
        { tables.components component with
          conflicts :=
            ownerConflicts tables.sources
              (tables.components component).source }
        folded _ _
  · obtain ⟨record, member, name⟩ := listed
    have read :=
      newComponentTable_of_mem (complete ▸ components_nodup) member
    rw [name] at read
    rw [read, own record member name]
    exact folded

/-- Along a chain the component is held until its owner restates it. -/
theorem Linked.held
    {hashes : Hashes} {prior : Option Snapshot} {component : Component}
    {reductions : List Reduction} (linked : Linked hashes prior reductions)
    (awaits :
      ∀ first ∈ reductions.head?,
        ((start first.input).components component).Awaits)
    (others :
      ∀ reduction ∈ reductions, ∀ event ∈ reduction.input.events,
        ¬ RestatedBy component event) :
    ∀ reduction ∈ reductions,
      ReportsHeld reduction.output.snapshot component := by
  induction linked with
  | nil prior => simp
  | cons reduces rest inductionHypothesis =>
      obtain ⟨tables, reduced⟩ := reduce_eq_ok_iff.mp reduces
      obtain ⟨first, later⟩ := List.forall_mem_cons.mp others
      obtain ⟨reported, carried⟩ := reduced.held (awaits _ rfl) first
      refine
        List.forall_mem_cons.mpr
          ⟨reported, inductionHypothesis (fun next isNext => ?_) later⟩
      unfold start
      rw [rest.prior_of_head isNext]
      exact awaits_markRebaseline _ carried

/-- From a reduction with a wake or a new boot on, every time-sensitive
component that had been observed is stale or in conflict, as long as no
reduction folds an accepted baseline of its owner. -/
theorem interruption_held_until_baseline
    (hashes : Hashes) (prior : Option Snapshot) (inputs : List Input)
    (before held after : List Reduction) (marked : Reduction)
    (snapshot : Snapshot) (component : Component)
    (chained :
      reduceChain hashes prior inputs =
        .ok (before ++ (marked :: held ++ after)))
    (interrupts : Interrupts marked.input)
    (sensitive : component.timeSensitive = true)
    (given : marked.input.prior = some snapshot)
    (observed :
      ∃ record ∈ snapshot.components,
        record.component = component ∧ record.hostSequence ≠ 0)
    (unrestated :
      ∀ reduction ∈ marked :: held, ∀ event ∈ reduction.input.events,
        ¬ RestatedBy component event) :
    ∀ reduction ∈ marked :: held,
      ReportsHeld reduction.output.snapshot component := by
  have linked :=
    (linked_of_reduceChain chained).append_right.append_left
  generalize Linked.last prior before = earlier at linked
  refine linked.held ?_ unrestated
  rintro _ ⟨⟩
  obtain ⟨record, member, rfl, nonzero⟩ := observed
  have valid : snapshot.validate = .ok () := by
    cases linked with
    | cons reduces rest =>
        obtain ⟨tables, reduced⟩ := reduce_eq_ok_iff.mp reduces
        obtain ⟨continues, -⟩ :=
          validateInput_eq_ok_iff.mp reduced.input_valid
        exact (continues snapshot given).valid
  have read :=
    newComponentTable_of_mem
      (components_of_validate valid ▸ components_nodup) member
  unfold start
  rw [given]
  exact awaits_of_interrupts interrupts sensitive (read.symm ▸ nonzero)

/-- A baseline, then a wake, then an ordinary observation by the owner. -/
def wokenInputs : List Input :=
  let events :=
    (acceptAll (fun fact => some fact.eventID) .new
      [(fixtureBaseline .dns 1, .root),
        ({ fixtureBaseline .dns 2 with
            baseline := false
            reason := .probeSucceeded }, .root)]).1
  [fixtureInput (fixturePolicy 1) [] (events.take 1),
    { fixtureInput (fixturePolicy 1) [] [] with wake := some ⟨1005⟩ },
    fixtureInput (fixturePolicy 1) [] (events.drop 1)]

/-- Three reductions, of which the second has a wake and no later one a
baseline. -/
def wokenShape : List Reduction → Bool
  | [first, marked, later] =>
      marked.input.wake.isSome &&
        decide (marked.input.prior = some first.output.snapshot) &&
        first.output.snapshot.components.any (fun record =>
          decide (record.component = .dns ∧ record.hostSequence ≠ 0)) &&
        [marked, later].all fun reduction =>
          reduction.input.events.all fun event => !event.fact.baseline
  | _ => false

theorem interruption_held_until_baseline_woken :
    ∃ first marked later,
      reduceChain (fixtureHashes fun _ => 0) none wokenInputs =
          .ok [first, marked, later] ∧
        ∀ reduction ∈ [marked, later],
          ReportsHeld reduction.output.snapshot .dns := by
  obtain ⟨reductions, chained, shape⟩ :=
    exists_of_yields
      (reduceChain (fixtureHashes fun _ => 0) none wokenInputs) wokenShape
      (by decide +kernel)
  unfold wokenShape at shape
  split at shape
  · rename_i first marked later
    simp only [Bool.and_eq_true, decide_eq_true_eq, List.any_eq_true,
      List.all_eq_true, Bool.not_eq_true'] at shape
    obtain ⟨⟨⟨woken, prior⟩, record, member, observed⟩, ordinary⟩ := shape
    refine ⟨first, marked, later, chained, ?_⟩
    refine
      interruption_held_until_baseline _ none wokenInputs [first] [later] []
        marked first.output.snapshot .dns chained (Or.inl woken) rfl prior
        ⟨record, member, observed⟩ ?_
    intro reduction listed event folded restated
    rw [RestatedBy, ordinary reduction listed event folded] at restated
    exact absurd restated.2.2.1 (by decide)
  · cases shape

end Hexroute.Reduce
