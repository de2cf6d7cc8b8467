import Hexroute.Reduce.Chain

/-!
# The fold, table by table

The three tables of a reduction never read one another while a batch is
folded.  A fold is therefore the ordering check of its batch together with
three separate folds, and what a snapshot is re-read as can be compared with
what it was rendered from one table at a time.
-/

namespace Hexroute.Reduce

open Hexroute.Connectivity
open Hexroute.Safety
open Hexroute.Lib
open Hexroute.Accept (Event)

/-- What an event does to the components. -/
def foldComponents (table : ComponentTable) (event : Event) :
    ComponentTable :=
  if event.acceptance.outcome = .accepted then
    let record := table event.fact.component
    Function.update table event.fact.component
      (if event.acceptance.role ≠ .authoritative then
        addCorroboration record event
      else
        observe record event)
  else
    table

/-- What an event does to the source watermarks. -/
def foldSources (sources : SourceTable) (event : Event) : SourceTable :=
  if event.acceptance.outcome = .accepted ∨
      event.acceptance.outcome = .conflict then
    adoptSource sources event
  else
    sources

/-- What an event does to the refusals. -/
def foldConflicts (conflicts : ConflictTable) (event : Event) :
    ConflictTable :=
  if event.acceptance.outcome = .accepted then
    if event.fact.baseline then
      clearComponentConflicts conflicts event.fact.sourceID
        event.fact.component
    else
      conflicts
  else if event.acceptance.outcome = .conflict then
    countConflict conflicts event
  else
    conflicts

/-- The host sequence after an event. -/
def nextConsumed (consumed : Nat) (event : Event) : Nat :=
  if event.acceptance.outcome = .accepted then consumed + 1 else consumed

/-- The event takes the next places of both orders. -/
structure TakesNext (consumed folded : Nat) (event : Event) : Prop where
  folded : event.acceptance.foldPosition = folded + 1
  consumed :
    event.acceptance.outcome = .accepted →
      event.acceptance.hostSequence = consumed + 1
  offered : event.acceptance.outcome ≠ .rejected

/-- All the tables after an event. -/
def Tables.after (tables : Tables) (event : Event) : Tables :=
  { components := foldComponents tables.components event
    sources := foldSources tables.sources event
    conflicts := foldConflicts tables.conflicts event
    consumed := nextConsumed tables.consumed event
    folded := tables.folded + 1 }

theorem foldEvent_eq_ok_iff
    {tables next : Tables} {event : Event} :
    foldEvent tables event = .ok next ↔
      TakesNext tables.consumed tables.folded event ∧
        next = tables.after event := by
  unfold foldEvent
  simp only [bind_eq_ok_iff, refuse_eq_ok_iff, not_not]
  constructor
  · rintro ⟨_, position, decided⟩
    cases outcome : event.acceptance.outcome with
    | accepted =>
        rw [outcome] at decided
        simp only [bind_eq_ok_iff, refuse_eq_ok_iff, not_not,
          pure_eq_ok_iff] at decided
        obtain ⟨_, host, rfl⟩ := decided
        refine ⟨⟨position, fun _ => host, by simp [outcome]⟩, ?_⟩
        simp [applyAccepted, Tables.after, foldComponents, foldSources,
          foldConflicts, nextConsumed, outcome, position, host]
    | conflict =>
        rw [outcome] at decided
        simp only [pure_eq_ok_iff] at decided
        subst decided
        refine ⟨⟨position, by simp [outcome], by simp [outcome]⟩, ?_⟩
        simp [applyConflict, Tables.after, foldComponents, foldSources,
          foldConflicts, nextConsumed, outcome, position]
    | duplicate =>
        rw [outcome] at decided
        simp only [pure_eq_ok_iff] at decided
        subst decided
        refine ⟨⟨position, by simp [outcome], by simp [outcome]⟩, ?_⟩
        simp [Tables.after, foldComponents, foldSources, foldConflicts,
          nextConsumed, outcome, position]
    | stale =>
        rw [outcome] at decided
        simp only [pure_eq_ok_iff] at decided
        subst decided
        refine ⟨⟨position, by simp [outcome], by simp [outcome]⟩, ?_⟩
        simp [Tables.after, foldComponents, foldSources, foldConflicts,
          nextConsumed, outcome, position]
    | rejected =>
        rw [outcome] at decided
        simp at decided
  · rintro ⟨⟨position, host, offered⟩, rfl⟩
    refine ⟨⟨⟩, position, ?_⟩
    cases outcome : event.acceptance.outcome <;>
      simp_all [applyAccepted, applyConflict, Tables.after, foldComponents,
        foldSources, foldConflicts, nextConsumed]

/-- A batch continues both orders without a hole. -/
def InOrder (consumed folded : Nat) : List Event → Prop
  | [] => True
  | event :: rest =>
      TakesNext consumed folded event ∧
        InOrder (nextConsumed consumed event) (folded + 1) rest

/-- All the tables after a batch. -/
def Tables.afterAll (tables : Tables) (events : List Event) : Tables :=
  events.foldl Tables.after tables

theorem foldEvents_eq_ok_iff
    {tables final : Tables} {events : List Event} :
    foldEvents tables events = .ok final ↔
      InOrder tables.consumed tables.folded events ∧
        final = tables.afterAll events := by
  induction events generalizing tables with
  | nil =>
      simp only [foldEvents, pure_eq_ok_iff, InOrder, Tables.afterAll,
        List.foldl_nil, true_and]
      exact eq_comm
  | cons event rest inductionHypothesis =>
      simp only [foldEvents, bind_eq_ok_iff, foldEvent_eq_ok_iff,
        inductionHypothesis]
      constructor
      · rintro ⟨_, ⟨takes, rfl⟩, ordered, rfl⟩
        exact ⟨⟨takes, ordered⟩, rfl⟩
      · rintro ⟨⟨takes, ordered⟩, rfl⟩
        exact ⟨_, ⟨takes, rfl⟩, ordered, rfl⟩

@[simp]
theorem Tables.afterAll_components
    (tables : Tables) (events : List Event) :
    (tables.afterAll events).components =
      events.foldl foldComponents tables.components := by
  induction events generalizing tables with
  | nil =>
      rfl
  | cons event rest inductionHypothesis =>
      exact inductionHypothesis (tables.after event)

@[simp]
theorem Tables.afterAll_sources
    (tables : Tables) (events : List Event) :
    (tables.afterAll events).sources =
      events.foldl foldSources tables.sources := by
  induction events generalizing tables with
  | nil =>
      rfl
  | cons event rest inductionHypothesis =>
      exact inductionHypothesis (tables.after event)

@[simp]
theorem Tables.afterAll_conflicts
    (tables : Tables) (events : List Event) :
    (tables.afterAll events).conflicts =
      events.foldl foldConflicts tables.conflicts := by
  induction events generalizing tables with
  | nil =>
      rfl
  | cons event rest inductionHypothesis =>
      exact inductionHypothesis (tables.after event)

@[simp]
theorem Tables.afterAll_consumed
    (tables : Tables) (events : List Event) :
    (tables.afterAll events).consumed =
      events.foldl nextConsumed tables.consumed := by
  induction events generalizing tables with
  | nil =>
      rfl
  | cons event rest inductionHypothesis =>
      exact inductionHypothesis (tables.after event)

@[simp]
theorem Tables.afterAll_folded
    (tables : Tables) (events : List Event) :
    (tables.afterAll events).folded = tables.folded + events.length := by
  induction events generalizing tables with
  | nil =>
      rfl
  | cons event rest inductionHypothesis =>
      have later := inductionHypothesis (tables.after event)
      simp only [Tables.afterAll, List.foldl_cons, List.length_cons] at *
      rw [later]
      simp only [Tables.after]
      omega

theorem inOrder_append
    {consumed folded : Nat} {first second : List Event} :
    InOrder consumed folded (first ++ second) ↔
      InOrder consumed folded first ∧
        InOrder (first.foldl nextConsumed consumed)
          (folded + first.length) second := by
  induction first generalizing consumed folded with
  | nil =>
      simp [InOrder]
  | cons event rest inductionHypothesis =>
      simp only [List.cons_append, InOrder, inductionHypothesis,
        List.foldl_cons, List.length_cons, and_assoc,
        Nat.add_assoc, Nat.add_comm 1]

/-- Every record, watermark and refusal sits under its own name. -/
structure Tables.Keyed (tables : Tables) : Prop where
  components :
    ∀ component, (tables.components component).component = component
  sources : Lib.Keyed SourceWatermark.source tables.sources
  conflicts : Lib.Keyed ConflictRecord.key tables.conflicts

theorem foldComponents_component
    {table : ComponentTable} (event : Event)
    (keyed : ∀ component, (table component).component = component)
    (component : Component) :
    (foldComponents table event component).component = component := by
  unfold foldComponents
  split
  · simp only [Function.update_apply]
    split
    · rename_i same
      subst same
      split <;> exact keyed event.fact.component
    · exact keyed component
  · exact keyed component

theorem watermarkFor_source
    {sources : SourceTable} (event : Event)
    (keyed : Lib.Keyed SourceWatermark.source sources) :
    (watermarkFor sources event).source = event.fact.sourceID := by
  unfold watermarkFor
  cases found : sources[event.fact.sourceID]? with
  | none =>
      rfl
  | some watermark =>
      exact keyed _ watermark found

/-- Folding an event adopts its integrity, or changes nothing. -/
theorem foldSources_getElem?
    (sources : SourceTable) (event : Event) (id : SourceID) :
    (foldSources sources event)[id]? =
      if (event.acceptance.outcome = .accepted ∨
            event.acceptance.outcome = .conflict) ∧
          event.fact.sourceID = id then
        some
          (adoptIntegrity
            { watermarkFor sources event with role := event.acceptance.role }
            event)
      else
        sources[id]? := by
  unfold foldSources
  by_cases adopts :
    event.acceptance.outcome = .accepted ∨
      event.acceptance.outcome = .conflict
  · rw [if_pos adopts, adoptSource, Std.ExtTreeMap.getElem?_insert]
    simp only [Std.compare_eq_iff_eq, adopts, true_and]
  · rw [if_neg adopts, if_neg (fun both => adopts both.1)]

theorem foldSources_keyed
    {sources : SourceTable} (event : Event)
    (keyed : Lib.Keyed SourceWatermark.source sources) :
    Lib.Keyed SourceWatermark.source (foldSources sources event) := by
  unfold foldSources
  split
  · exact keyed.insert (watermarkFor_source event keyed)
  · exact keyed

theorem countConflict_keyed
    {conflicts : ConflictTable} (event : Event)
    (keyed : Lib.Keyed ConflictRecord.key conflicts) :
    Lib.Keyed ConflictRecord.key (countConflict conflicts event) := by
  unfold countConflict
  simp only
  split
  · rename_i existing found
    exact keyed.insert (keyed _ existing found)
  · exact keyed.insert rfl

theorem clearComponentConflicts_keyed
    {conflicts : ConflictTable} (source : SourceID) (component : Component)
    (keyed : Lib.Keyed ConflictRecord.key conflicts) :
    Lib.Keyed ConflictRecord.key
      (clearComponentConflicts conflicts source component) := by
  intro key record found
  rw [clearComponentConflicts, Std.ExtTreeMap.getElem?_filter'] at found
  exact keyed key record (Option.filter_eq_some_iff.mp found).1

theorem foldConflicts_keyed
    {conflicts : ConflictTable} (event : Event)
    (keyed : Lib.Keyed ConflictRecord.key conflicts) :
    Lib.Keyed ConflictRecord.key (foldConflicts conflicts event) := by
  unfold foldConflicts
  split
  · split
    · exact clearComponentConflicts_keyed _ _ keyed
    · exact keyed
  · split
    · exact countConflict_keyed event keyed
    · exact keyed

theorem Tables.Keyed.after
    {tables : Tables} (keyed : tables.Keyed) (event : Event) :
    (tables.after event).Keyed :=
  { components := foldComponents_component event keyed.components
    sources := foldSources_keyed event keyed.sources
    conflicts := foldConflicts_keyed event keyed.conflicts }

theorem Tables.Keyed.afterAll
    {tables : Tables} (keyed : tables.Keyed) (events : List Event) :
    (tables.afterAll events).Keyed := by
  induction events generalizing tables with
  | nil =>
      exact keyed
  | cons event rest inductionHypothesis =>
      exact inductionHypothesis (keyed.after event)

/-- Reading a complete list of records finds every record again. -/
theorem newComponentTable_of_mem
    {snapshot : Snapshot} {record : ComponentRecord}
    (distinct : (snapshot.components.map (·.component)).Nodup)
    (member : record ∈ snapshot.components) :
    newComponentTable (some snapshot) record.component = record := by
  unfold newComponentTable
  simp only
  generalize snapshot.components = records at distinct member
  induction records using List.reverseRecOn with
  | nil =>
      simp at member
  | append_singleton records last inductionHypothesis =>
      rw [List.map_append, List.nodup_append] at distinct
      obtain ⟨earlier, _, apart⟩ := distinct
      rw [List.foldl_append, List.foldl_cons, List.foldl_nil]
      rcases List.mem_append.mp member with old | new
      · have other : record.component ≠ last.component := fun same =>
          apart record.component (List.mem_map_of_mem old) last.component
            (by simp) same
        rw [Function.update_of_ne other]
        exact inductionHypothesis earlier old
      · obtain rfl := List.mem_singleton.mp new
        exact Function.update_self ..

theorem newComponentTable_component
    {prior : Option Snapshot}
    (valid : ∀ snapshot ∈ prior, snapshot.validate = .ok ())
    (component : Component) :
    (newComponentTable prior component).component = component := by
  cases prior with
  | none =>
      rfl
  | some snapshot =>
      have complete := components_of_validate (valid snapshot rfl)
      have listed : component ∈ snapshot.components.map (·.component) := by
        rw [complete]
        exact mem_components component
      obtain ⟨record, member, rfl⟩ := List.mem_map.mp listed
      rw [newComponentTable_of_mem (complete ▸ components_nodup) member]

theorem markRebaseline_component
    (table : ComponentTable) (input : Input) (component : Component) :
    (markRebaseline table input component).component =
      (table component).component := by
  unfold markRebaseline
  split
  · rfl
  · simp only
    split
    · rfl
    · split <;> rfl

theorem start_keyed
    {input : Input} (valid : validateInput input = .ok ()) :
    (start input).Keyed := by
  obtain ⟨continues, _⟩ := validateInput_eq_ok_iff.mp valid
  refine ⟨?_, ?_, ?_⟩
  · intro component
    simp only [start, markRebaseline_component]
    exact
      newComponentTable_component
        (fun snapshot given => (continues snapshot given).valid) component
  · unfold start newSourceTable
    cases input.prior with
    | none =>
        exact keyed_empty
    | some snapshot =>
        exact tableOf_keyed snapshot.sources
  · unfold start newConflictTable
    cases input.prior with
    | none =>
        exact keyed_empty
    | some snapshot =>
        exact tableOf_keyed snapshot.conflicts

namespace Reduced

variable {hashes : Hashes} {input : Input} {tables : Tables}
  {output : Output}

theorem tables_eq (reduced : Reduced hashes input tables output) :
    tables = (start input).afterAll input.events :=
  (foldEvents_eq_ok_iff.mp reduced.folds).2

theorem inOrder (reduced : Reduced hashes input tables output) :
    InOrder (start input).consumed (start input).folded input.events :=
  (foldEvents_eq_ok_iff.mp reduced.folds).1

theorem keyed (reduced : Reduced hashes input tables output) :
    tables.Keyed := by
  rw [reduced.tables_eq]
  exact (start_keyed reduced.input_valid).afterAll input.events

end Reduced

end Hexroute.Reduce
