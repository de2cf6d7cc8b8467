import Hexroute.Reduce.Agreement
import Hexroute.Reduce.Conflicts

/-!
# Conflict evidence follows the debt

The acceptor keeps, per source, the components that owe a restatement; the
reducer keeps the refusals per source and component.  A refusal is kept only
while its component owes: the conflict that caused it puts every component of
the source on the hook, and the baseline that settles the component's share
clears its refusals.
-/

namespace Hexroute.Accept

open Hexroute.Connectivity
open Hexroute.Safety

section Debts

variable {source : SourceState} {fact : Fact} {component : Component}

theorem mem_openGap
    (owed : component ∈ source.pendingBaseline) :
    component ∈ (openGap source fact).pendingBaseline := by
  unfold openGap
  split
  · unfold recordGap
    refine mem_owesBaseline.mpr (Or.inl ?_)
    split
    · exact owed
    · exact owed
  · exact owed

/-- A baseline settles its own component's share and no other. -/
theorem mem_closeGaps {reason : Reason}
    (owed : component ∈ source.pendingBaseline)
    (unpaid : ¬ (fact.baseline = true ∧ component = fact.component)) :
    component ∈ (closeGaps source reason fact).1.pendingBaseline := by
  have left :
      fact.baseline = true →
        component ∈
          source.pendingBaseline.filter (· ≠ fact.component) := by
    intro restated
    refine List.mem_filter.mpr ⟨owed, decide_eq_true ?_⟩
    exact fun same => unpaid ⟨restated, same⟩
  unfold closeGaps
  split
  · rename_i restated
    rw [Bool.and_eq_true] at restated
    split
    · rename_i settled
      obtain ⟨rfl, -⟩ := Prod.mk.inj settled
      exact left restated.1
    · rename_i settled
      obtain ⟨rfl, -⟩ := Prod.mk.inj settled
      exact left restated.1
  · exact owed

end Debts

/-- A debt is paid by an accepted baseline of its own component only. -/
theorem mem_pending_decideSource
    {hostSequence : Nat} {source : SourceState} {item : Screened}
    {component : Component}
    (wellFormed : SourceIntegrity.WellFormed item.fact.sourceID source)
    (owed : component ∈ source.pendingBaseline)
    (unpaid :
      (decideSource hostSequence (some source) item.fact item.digest
        item.role).1.outcome = .accepted →
          ¬ (item.fact.baseline = true ∧ component = item.fact.component)) :
    component ∈
      (decideSource hostSequence (some source) item.fact item.digest
        item.role).2.pendingBaseline := by
  unfold decideSource at unpaid ⊢
  simp only [Option.getD_some] at unpaid ⊢
  split
  · rename_i newBoot
    rw [if_pos newBoot] at unpaid
    have declared := wellFormed.bounded.pendingDeclared component owed
    exact mem_closeGaps (mem_openGap declared) (unpaid rfl)
  rename_i sameBoot
  rw [if_neg sameBoot] at unpaid
  split
  · rename_i advances
    rw [if_pos advances] at unpaid
    exact mem_closeGaps (mem_openGap owed) (unpaid rfl)
  · unfold replay
    split
    · split
      · exact owed
      · exact mem_owesBaseline.mpr (Or.inl owed)
    · exact owed

/-- A conflict puts its own component on the hook. -/
theorem mem_pending_of_conflict
    {hostSequence : Nat} {known : Option SourceState} {item : Screened}
    (sound : item.Sound)
    (refused :
      (decideSource hostSequence known item.fact item.digest
        item.role).1.outcome = .conflict) :
    item.fact.component ∈
      (decideSource hostSequence known item.fact item.digest
        item.role).2.pendingBaseline := by
  unfold decideSource at refused ⊢
  simp only at refused ⊢
  split at refused
  · cases refused
  rename_i sameBoot
  rw [if_neg sameBoot]
  split at refused
  · cases refused
  rename_i behind
  rw [if_neg behind]
  unfold replay at refused ⊢
  split at refused
  · split at refused
    · cases refused
    · rename_i differs
      rw [if_neg differs]
      exact mem_owesBaseline.mpr (Or.inr sound.declared)
  · cases refused

/-- A source that owes nothing has no conflict outstanding. -/
def Settled (source : SourceState) : Prop :=
  source.pendingBaseline = [] → source.conflicts = 0

theorem settled_owesBaseline
    {source : SourceState} {id : SourceID}
    (spoken : connectivitySourceComponents id ≠ []) :
    Settled (owesBaseline source id) :=
  fun nothing => absurd nothing (owesBaseline_pending_ne_nil spoken)

theorem Settled.openGap
    {source : SourceState} {fact : Fact} (settled : Settled source)
    (spoken : connectivitySourceComponents fact.sourceID ≠ []) :
    Settled (openGap source fact) := by
  unfold Accept.openGap
  split
  · unfold recordGap
    exact settled_owesBaseline spoken
  · exact settled

theorem Settled.closeGaps
    {source : SourceState} {reason : Reason} {fact : Fact}
    (settled : Settled source) :
    Settled (closeGaps source reason fact).1 := by
  unfold Accept.closeGaps
  split
  · split
    · exact fun _ => rfl
    · rename_i paid unsettled
      intro nothing
      obtain ⟨rfl, remaining⟩ := Prod.mk.inj unsettled
      rw [List.isEmpty_eq_false_iff] at remaining
      exact absurd nothing remaining
  · exact settled

theorem settled_decideSource
    {hostSequence : Nat} {known : Option SourceState} {item : Screened}
    (sound : item.Sound) (settled : ∀ source ∈ known, Settled source) :
    Settled
      (decideSource hostSequence known item.fact item.digest
        item.role).2 := by
  have spoken : connectivitySourceComponents item.fact.sourceID ≠ [] :=
    List.ne_nil_of_mem sound.declared
  have start : Settled (known.getD { bootID := item.fact.bootID }) := by
    cases known with
    | none => exact fun _ => rfl
    | some source => exact settled source rfl
  unfold decideSource
  simp only
  split
  · exact (Settled.openGap (fun _ => rfl) spoken).closeGaps
  split
  · exact (start.openGap spoken).closeGaps
  · unfold replay
    split
    · split
      · exact start
      · exact settled_owesBaseline spoken
    · exact start

end Hexroute.Accept

namespace Hexroute.Reduce

open Hexroute.Connectivity
open Hexroute.Safety
open Hexroute.Lib
open Hexroute.Accept (Event State Screened order orderAll Arrival acceptAll
  Settled)

/-- The source of the position owes a restatement of its component. -/
def Owes (state : State) (key : ConflictKey) : Prop :=
  ∃ source,
    state.sources[key.source]? = some source ∧
      key.component ∈ source.pendingBaseline

/-- Every refusal is of a component that still owes, and a source that owes
nothing has none outstanding. -/
structure FollowsDebt (conflicts : ConflictTable) (state : State) :
    Prop where
  owed :
    ∀ (key : ConflictKey) (record : ConflictRecord),
      conflicts[key]? = some record → Owes state key
  settled :
    ∀ (id : SourceID) (source : Accept.SourceState),
      state.sources[id]? = some source → Settled source

/-- A debt outlives every decision but the acceptance of its baseline. -/
theorem Owes.order
    {state : State} {item : Screened} {key : ConflictKey}
    (owes : Owes state key) (wellFormed : state.WellFormed)
    (unpaid :
      (order state item.fact item.digest item.role).1.outcome =
          .accepted →
        ¬ (item.fact.baseline = true ∧ key.source = item.fact.sourceID ∧
          key.component = item.fact.component)) :
    Owes (order state item.fact item.digest item.role).2 key := by
  obtain ⟨source, known, owed⟩ := owes
  by_cases own : item.fact.sourceID = key.source
  · refine ⟨_, by rw [Accept.order_sources, if_pos own], ?_⟩
    change (Accept.decideSource _ _ _ _ _).1.outcome = _ → _ at unpaid
    rw [own, known] at unpaid ⊢
    refine
      Accept.mem_pending_decideSource
        (own ▸ wellFormed key.source source known) owed ?_
    exact fun accepted paid => unpaid accepted ⟨paid.1, rfl, paid.2⟩
  · exact
      ⟨source, by rw [Accept.order_sources, if_neg own, known], owed⟩

/-- One decision and its fold keep the refusals with the debt. -/
theorem FollowsDebt.fold
    {conflicts : ConflictTable} {state : State} {item : Screened}
    (follows : FollowsDebt conflicts state) (wellFormed : state.WellFormed)
    (sound : item.Sound) :
    FollowsDebt
      (foldConflicts conflicts
        ⟨(order state item.fact item.digest item.role).1, item.fact⟩)
      (order state item.fact item.digest item.role).2 := by
  constructor
  · intro key record found
    rw [foldConflicts_getElem?] at found
    unfold refusalAfter at found
    split at found
    · split at found
      · cases found
      · rename_i uncleared
        exact
          (follows.owed key record found).order wellFormed fun _ =>
            uncleared
    rename_i notAccepted
    split at found
    · rename_i refused
      obtain ⟨conflict, rfl⟩ := refused
      refine ⟨_, (Accept.order_sources ..).trans (if_pos rfl), ?_⟩
      exact Accept.mem_pending_of_conflict sound conflict
    · exact
        (follows.owed key record found).order wellFormed fun accepted =>
          absurd accepted notAccepted
  · intro id source found
    rw [Accept.order_sources] at found
    split at found
    · cases found
      exact
        Accept.settled_decideSource sound fun source known =>
          follows.settled _ source known
    · exact follows.settled id source found

theorem FollowsDebt.foldAll
    {conflicts : ConflictTable} {state : State} {items : List Screened}
    (follows : FollowsDebt conflicts state) (wellFormed : state.WellFormed)
    (sound : ∀ item ∈ items, item.Sound) :
    FollowsDebt ((orderAll state items).1.foldl foldConflicts conflicts)
      (orderAll state items).2 := by
  induction items generalizing conflicts state with
  | nil => exact follows
  | cons item rest inductionHypothesis =>
      have own := sound item List.mem_cons_self
      exact
        inductionHypothesis (follows.fold wellFormed own)
          (Accept.order_wellFormed own wellFormed)
          fun later member => sound later (List.mem_cons_of_mem item member)

/-- What a snapshot says about its refusals and debts. -/
structure EvidenceFollowsDebt (snapshot : Snapshot) : Prop where
  owed :
    ∀ record ∈ snapshot.conflicts, ∃ watermark ∈ snapshot.sources,
      watermark.source = record.source ∧
        record.component ∈ watermark.pendingBaseline
  settled :
    ∀ watermark ∈ snapshot.sources, watermark.pendingBaseline = [] →
      watermark.conflicts = 0 ∧
        ∀ record ∈ snapshot.conflicts, record.source ≠ watermark.source
  bounded :
    ∀ source,
      snapshot.conflicts.countP (·.source = source) ≤ maxConflictRecords

/-- A snapshot that describes the acceptor shows its debts. -/
theorem evidence_of_describes
    {snapshot : Snapshot} {state : State} {conflicts : ConflictTable}
    (describes : Describes snapshot state)
    (keyed : Keyed ConflictRecord.key conflicts)
    (rendered : snapshot.conflicts = (renderConflicts conflicts).1)
    (follows : FollowsDebt conflicts state) :
    EvidenceFollowsDebt snapshot := by
  have owed :
      ∀ record ∈ snapshot.conflicts, ∃ watermark ∈ snapshot.sources,
        watermark.source = record.source ∧
          record.component ∈ watermark.pendingBaseline := by
    intro record member
    rw [rendered, mem_renderConflicts keyed] at member
    have held := keyed.mem_values.mp member.1
    obtain ⟨source, known, owes⟩ := follows.owed _ record held
    obtain ⟨watermark, found, same⟩ :=
      exists_of_optionRel (describes.sources record.source) known
    obtain ⟨listed, name⟩ :=
      (tableOf_getElem?_eq_some_iff describes.distinct).mp found
    exact ⟨watermark, listed, name, same.pending.mem_iff.mpr owes⟩
  refine ⟨owed, ?_, ?_⟩
  · intro watermark listed nothing
    have found :=
      (tableOf_getElem?_eq_some_iff describes.distinct).mpr ⟨listed, rfl⟩
    obtain ⟨source, known, same⟩ :=
      exists_of_optionRel (optionRel_swap (describes.sources _)) found
    constructor
    · have paid : source.pendingBaseline = [] := by
        have perm := same.pending
        rwa [nothing, List.nil_perm] at perm
      have count : source.conflicts = watermark.conflicts := by
        rw [same.rest]
      rw [← count]
      exact follows.settled _ source known paid
    · intro record member name
      obtain ⟨other, otherListed, otherName, owes⟩ := owed record member
      obtain rfl :=
        List.inj_on_of_nodup_map describes.distinct otherListed listed
          (otherName.trans name)
      rw [nothing] at owes
      cases owes
  · intro source
    rw [rendered]
    exact countP_renderConflicts_le keyed source

/-- Along a chain that folds a run batch by batch, every snapshot keeps its
refusals with the debt. -/
theorem evidence_of_reduceChain
    {hashes : Hashes} {prior : Option Snapshot} {inputs : List Input}
    {reductions : List Reduction} {state : State} {items : List Screened}
    (chained : reduceChain hashes prior inputs = .ok reductions)
    (inStep :
      ∀ first ∈ inputs.head?, InStep { first with prior := prior } state)
    (follows : FollowsDebt (newConflictTable prior) state)
    (wellFormed : state.WellFormed)
    (sound : ∀ item ∈ items, item.Sound)
    (covers : inputs.flatMap (·.events) = (orderAll state items).1) :
    ∀ reduction ∈ reductions,
      EvidenceFollowsDebt reduction.output.snapshot := by
  induction inputs generalizing prior reductions state items with
  | nil =>
      obtain rfl := reduceChain_nil_eq_ok_iff.mp chained
      simp
  | cons input rest inductionHypothesis =>
      obtain ⟨output, reduces, later, laterChained, rfl⟩ :=
        reduceChain_cons_eq_ok_iff.mp chained
      rw [List.flatMap_cons] at covers
      obtain ⟨before, after, rfl, firstEvents, restEvents⟩ :=
        Accept.orderAll_split covers.symm
      have soundBefore : ∀ item ∈ before, item.Sound := fun item member =>
        sound item (List.mem_append_left _ member)
      have described :=
        describes_of_reduce reduces (inStep input rfl) wellFormed soundBefore
          firstEvents.symm
      obtain ⟨tables, reduced⟩ := reduce_eq_ok_iff.mp reduces
      have held :
          FollowsDebt tables.conflicts (orderAll state before).2 := by
        rw [reduced.tables_eq, Tables.afterAll_conflicts, ← firstEvents]
        exact follows.foldAll wellFormed soundBefore
      have rendered :
          output.snapshot.conflicts =
            (renderConflicts tables.conflicts).1 := by
        rw [reduced.snapshot]
        rfl
      have keyed := reduced.keyed.conflicts
      have carried :
          FollowsDebt (newConflictTable (some output.snapshot))
            (orderAll state before).2 := by
        refine ⟨fun key record found => ?_, held.settled⟩
        change (tableOf _ output.snapshot.conflicts)[key]? = _ at found
        rw [rendered, tableOf_renderConflicts keyed] at found
        exact held.owed key record (retain_getElem?.mp found).1
      refine List.forall_mem_cons.mpr ⟨?_, ?_⟩
      · exact evidence_of_describes described keyed rendered held
      · exact
          inductionHypothesis laterChained
            (fun first _ => described.inStep first) carried
            (Accept.orderAll_wellFormed soundBefore wellFormed)
            (fun item member => sound item (List.mem_append_right _ member))
            restEvents.symm

/-- However the decisions of one acceptor are cut into reductions, every
snapshot keeps refusals only of components that owe a baseline. -/
theorem conflict_evidence_follows_debt
    (hashes : Hashes) (digest : Fact → Option String)
    (arrivals : List Arrival) (inputs : List Input)
    (reductions : List Reduction)
    (fresh :
      ∀ first ∈ inputs.head?,
        first.priorConsumed = 0 ∧ first.priorFolded = 0)
    (covers :
      inputs.flatMap (·.events) = (acceptAll digest State.new arrivals).1)
    (chained : reduceChain hashes none inputs = .ok reductions) :
    ∀ reduction ∈ reductions,
      EvidenceFollowsDebt reduction.output.snapshot := by
  have sound :
      ∀ item ∈ Accept.screened digest arrivals, item.Sound :=
    fun item member => Accept.screened_sound member
  rw [Accept.acceptAll_eq_orderAll] at covers
  refine
    evidence_of_reduceChain chained
      (fun first isFirst =>
        inStep_fresh (fresh first isFirst).1 (fresh first isFirst).2)
      ⟨?_, ?_⟩ Accept.State.new_wellFormed sound covers
  · intro key record found
    simp [newConflictTable] at found
  · intro id source found
    simp [State.new] at found

/-- Two contents for one sequence of a source, then a baseline. -/
def clashingArrivals : List Arrival :=
  [(fixtureBaseline .dns 1, .root),
    ({ fixtureBaseline .dns 1 with eventID := fixtureEventID 7 }, .root),
    (fixtureBaseline .dns 2, .root)]

/-- The decisions about them, folded in two batches. -/
def clashingInputs : List Input :=
  let events :=
    (acceptAll (fun fact => some fact.eventID) State.new clashingArrivals).1
  [fixtureInput (fixturePolicy 1) [] (events.take 2),
    fixtureInput (fixturePolicy 1) [] (events.drop 2)]

theorem conflict_evidence_follows_debt_clashing :
    ∃ reductions,
      reduceChain (fixtureHashes fun semantic => semantic.conflicts.length)
          none clashingInputs = .ok reductions ∧
        reductions.map (·.output.snapshot.conflicts.length) = [1, 0] ∧
          ∀ reduction ∈ reductions,
            EvidenceFollowsDebt reduction.output.snapshot := by
  obtain ⟨reductions, chained, counts⟩ :=
    exists_of_yields
      (reduceChain (fixtureHashes fun semantic => semantic.conflicts.length)
        none clashingInputs)
      (fun reductions =>
        reductions.map (·.output.snapshot.conflicts.length) = [1, 0])
      (by decide +kernel)
  exact
    ⟨reductions, chained, of_decide_eq_true counts,
      conflict_evidence_follows_debt _ _ clashingArrivals clashingInputs
        reductions (by simp [clashingInputs, fixtureInput])
        (List.take_append_drop 2 _) chained⟩

end Hexroute.Reduce
