import Hexroute.Reduce.Agreement
import Hexroute.Reduce.Conflicts

/-!
# What re-reading a snapshot preserves

Between two reductions the tables pass through a snapshot: derived states and
counts are recomputed, opinions, holes and debts come back in order.  Tables
that differ only in this are alike; they stay alike while events are folded,
and they render to the same records.
-/

namespace Hexroute.Reduce

open Hexroute.Connectivity
open Hexroute.Safety
open Hexroute.Lib
open Hexroute.Accept (Event)

/-- The same record up to what rendering recomputes. -/
structure ComponentRecord.Alike (left right : ComponentRecord) : Prop where
  evidence :
    sortedCorroborations left.corroborations =
      sortedCorroborations right.corroborations
  rest :
    right =
      { left with
        state := right.state
        conflicts := right.conflicts
        corroborations := right.corroborations }

theorem under_replaceFirst
    (entry : Corroboration) (entries : List Corroboration)
    (wanted : SourceID) :
    under Corroboration.source wanted (replaceFirst entry entries) =
      if entry.source = wanted then
        match under Corroboration.source wanted entries with
        | [] => []
        | _ :: tail => entry :: tail
      else
        under Corroboration.source wanted entries := by
  induction entries with
  | nil =>
      simp [replaceFirst, under]
  | cons head tail inductionHypothesis =>
      by_cases own : entry.source = wanted
      · rw [if_pos own] at inductionHypothesis ⊢
        unfold replaceFirst
        by_cases first : head.source = entry.source
        · simp [under, first, own]
        · have other : head.source ≠ wanted := own ▸ first
          rw [if_neg first]
          simpa [under, List.filter_cons, other] using inductionHypothesis
      · rw [if_neg own] at inductionHypothesis ⊢
        unfold replaceFirst
        by_cases first : head.source = entry.source
        · have other : head.source ≠ wanted := first.symm ▸ own
          simp [under, first, own]
        · rw [if_neg first]
          unfold under at inductionHypothesis ⊢
          rw [List.filter_cons, List.filter_cons, inductionHypothesis]

/-- What one source's opinions become. -/
theorem under_putCorroboration
    (entry : Corroboration) (entries : List Corroboration)
    (wanted : SourceID) :
    under Corroboration.source wanted (putCorroboration entry entries) =
      if entry.source = wanted then
        match under Corroboration.source wanted entries with
        | [] => if entries.length ≥ maxCorroborations then [] else [entry]
        | _ :: tail => entry :: tail
      else
        under Corroboration.source wanted entries := by
  unfold putCorroboration
  split
  · rename_i known
    rw [under_replaceFirst]
    split
    · rename_i own
      subst own
      split
      · rename_i empty
        obtain ⟨other, member, same⟩ := List.any_eq_true.mp known
        have listed :
            other ∈ under Corroboration.source entry.source entries :=
          List.mem_filter.mpr ⟨member, same⟩
        rw [empty] at listed
        simp at listed
      · rfl
    · rfl
  · rename_i unknown
    have none :
        under Corroboration.source entry.source entries = [] := by
      rw [under, List.filter_eq_nil_iff]
      intro other member same
      exact unknown (List.any_eq_true.mpr ⟨other, member, same⟩)
    by_cases own : entry.source = wanted
    · subst own
      rw [if_pos rfl, none]
      split
      · rw [none]
      · simpa [under] using none
    · rw [if_neg own]
      split
      · rfl
      · simp [under, own]

theorem putCorroboration_sorted
    (entry : Corroboration) {left right : List Corroboration}
    (same : sortedCorroborations left = sortedCorroborations right) :
    sortedCorroborations (putCorroboration entry left) =
      sortedCorroborations (putCorroboration entry right) := by
  have lengths : left.length = right.length := by
    have total := congrArg List.length same
    rwa [sortedCorroborations, sortedCorroborations,
      (sortBy_perm left).length_eq, (sortBy_perm right).length_eq] at total
  apply sortBy_eq_iff.mpr
  intro wanted
  rw [under_putCorroboration, under_putCorroboration, lengths,
    sortBy_eq_iff.mp same wanted]

namespace ComponentRecord.Alike

variable {left right : ComponentRecord}

theorem refl (record : ComponentRecord) : record.Alike record :=
  ⟨rfl, rfl⟩

theorem trans {third : ComponentRecord} (first : left.Alike right)
    (second : right.Alike third) : left.Alike third := by
  refine ⟨first.evidence.trans second.evidence, ?_⟩
  rw [second.rest, first.rest]

theorem addCorroboration (alike : left.Alike right) (event : Event) :
    (addCorroboration left event).Alike (addCorroboration right event) := by
  have observed : right.observed = left.observed := by rw [alike.rest]
  refine ⟨?_, ?_⟩
  · simp only [Reduce.addCorroboration, observed]
    exact putCorroboration_sorted _ alike.evidence
  · simp only [Reduce.addCorroboration]
    rw [alike.rest]

theorem observe (alike : left.Alike right) (event : Event) :
    (observe left event).Alike (observe right event) := by
  refine ⟨alike.evidence, ?_⟩
  simp only [Reduce.observe]
  rw [alike.rest]

end ComponentRecord.Alike

/-- The same components up to what rendering recomputes. -/
def ComponentsAlike (left right : ComponentTable) : Prop :=
  ∀ component, (left component).Alike (right component)

theorem ComponentsAlike.trans
    {left right third : ComponentTable} (first : ComponentsAlike left right)
    (second : ComponentsAlike right third) : ComponentsAlike left third :=
  fun component => (first component).trans (second component)

theorem ComponentsAlike.foldComponents
    {left right : ComponentTable} (alike : ComponentsAlike left right)
    (event : Event) :
    ComponentsAlike (foldComponents left event)
      (foldComponents right event) := by
  intro component
  unfold Reduce.foldComponents
  split
  · simp only [Function.update_apply]
    split
    · split
      · exact (alike event.fact.component).addCorroboration event
      · exact (alike event.fact.component).observe event
    · exact alike component
  · exact alike component

theorem ComponentsAlike.foldl
    {left right : ComponentTable} (alike : ComponentsAlike left right)
    (events : List Event) :
    ComponentsAlike (events.foldl Reduce.foldComponents left)
      (events.foldl Reduce.foldComponents right) := by
  induction events generalizing left right with
  | nil =>
      exact alike
  | cons event rest inductionHypothesis =>
      exact inductionHypothesis (alike.foldComponents event)

/-- The same watermarks once they are listed. -/
def SourcesAlike (left right : SourceTable) : Prop :=
  ∀ id : SourceID,
    (left[id]?).map renderWatermark = (right[id]?).map renderWatermark

theorem SourcesAlike.trans
    {left right third : SourceTable} (first : SourcesAlike left right)
    (second : SourcesAlike right third) : SourcesAlike left third :=
  fun id => (first id).trans (second id)

theorem SourcesAlike.watermarkFor
    {left right : SourceTable} (alike : SourcesAlike left right)
    (event : Event) :
    (watermarkFor left event).source = (watermarkFor right event).source ∧
      (watermarkFor left event).domain =
        (watermarkFor right event).domain := by
  have same := alike event.fact.sourceID
  unfold Reduce.watermarkFor
  cases leftFound : left[event.fact.sourceID]? with
  | none =>
      cases rightFound : right[event.fact.sourceID]? with
      | none =>
          exact ⟨rfl, rfl⟩
      | some watermark =>
          simp [leftFound, rightFound] at same
  | some leftMark =>
      cases rightFound : right[event.fact.sourceID]? with
      | none =>
          simp [leftFound, rightFound] at same
      | some rightMark =>
          rw [leftFound, rightFound, Option.map_some, Option.map_some] at same
          have rendered := Option.some.inj same
          have source := congrArg SourceWatermark.source rendered
          have domain := congrArg SourceWatermark.domain rendered
          exact ⟨source, domain⟩

theorem SourcesAlike.foldSources
    {left right : SourceTable} (alike : SourcesAlike left right)
    (event : Event) :
    SourcesAlike (foldSources left event) (foldSources right event) := by
  obtain ⟨source, domain⟩ := alike.watermarkFor event
  intro id
  rw [foldSources_getElem?, foldSources_getElem?]
  split
  · simp only [adoptIntegrity, source, domain]
  · exact alike id

theorem SourcesAlike.foldl
    {left right : SourceTable} (alike : SourcesAlike left right)
    (events : List Event) :
    SourcesAlike (events.foldl Reduce.foldSources left)
      (events.foldl Reduce.foldSources right) := by
  induction events generalizing left right with
  | nil =>
      exact alike
  | cons event rest inductionHypothesis =>
      exact inductionHypothesis (alike.foldSources event)

theorem values_map (table : SourceTable) :
    values (table.map fun _ watermark => renderWatermark watermark) =
      renderSources table := by
  simp [values, renderSources, Std.ExtTreeMap.toList_map,
    Function.comp_def]

theorem SourcesAlike.renderSources_eq
    {left right : SourceTable} (alike : SourcesAlike left right) :
    renderSources left = renderSources right := by
  have mapped :
      (left.map fun _ watermark => renderWatermark watermark) =
        right.map fun _ watermark => renderWatermark watermark := by
    apply Std.ExtTreeMap.ext_getElem?
    intro id
    rw [Std.ExtTreeMap.getElem?_map, Std.ExtTreeMap.getElem?_map]
    exact alike id
  rw [← values_map, ← values_map, mapped]

theorem SourcesAlike.ownerConflicts_eq
    {left right : SourceTable} (alike : SourcesAlike left right)
    (owner : SourceID) :
    ownerConflicts left owner = ownerConflicts right owner := by
  have counts :
      ∀ sources : SourceTable,
        ownerConflicts sources owner =
          ((sources[owner]?).map renderWatermark).elim 0
            (·.conflicts) := by
    intro sources
    unfold ownerConflicts
    cases sources[owner]? <;> rfl
  rw [counts left, counts right, alike owner]

/-- Alike tables render to the same records. -/
theorem renderComponents_eq
    {left right : ComponentTable} {leftSources rightSources : SourceTable}
    (alike : ComponentsAlike left right)
    (sources : SourcesAlike leftSources rightSources) (bootID : String)
    (evaluationTick : Tick) :
    renderComponents left leftSources bootID evaluationTick =
      renderComponents right rightSources bootID evaluationTick := by
  unfold renderComponents
  apply List.map_congr_left
  intro component _
  have same := alike component
  have owner : (right component).source = (left component).source := by
    rw [same.rest]
  unfold renderComponent
  rw [sources.ownerConflicts_eq, owner, same.evidence, same.rest]
  rfl

theorem renderComponent_alike
    (sources : SourceTable) (bootID : String) (evaluationTick : Tick)
    (record : ComponentRecord) :
    record.Alike (renderComponent sources bootID evaluationTick record) :=
  ⟨(sortBy_sortBy record.corroborations).symm, rfl⟩

@[simp]
theorem renderWatermark_renderWatermark (watermark : SourceWatermark) :
    renderWatermark (renderWatermark watermark) =
      renderWatermark watermark := by
  have debts :
      (watermark.pendingBaseline.insertionSort (· ≤ ·)).insertionSort
          (· ≤ ·) =
        watermark.pendingBaseline.insertionSort (· ≤ ·) :=
    List.Pairwise.insertionSort_eq (List.pairwise_insertionSort _ _)
  simp [renderWatermark, debts]

/-- A snapshot lists every component under its name. -/
theorem stamp_names
    {tables : Tables} (keyed : tables.Keyed) (input : Input)
    (changed : Bool) :
    (stamp input tables changed).components.map (·.component) =
      components := by
  have own :
      ∀ component : Component,
        (renderComponent tables.sources input.bootID input.evaluationTick
          (tables.components component)).component = component :=
    keyed.components
  simp [stamp, render, renderComponents, Function.comp_def, own]

/-- A rendered component is re-read as it was rendered. -/
theorem newComponentTable_stamp
    {tables : Tables} (keyed : tables.Keyed) (input : Input)
    (changed : Bool) (component : Component) :
    newComponentTable (some (stamp input tables changed)) component =
      renderComponent tables.sources input.bootID input.evaluationTick
        (tables.components component) := by
  have listed :
      renderComponent tables.sources input.bootID input.evaluationTick
          (tables.components component) ∈
        (stamp input tables changed).components :=
    List.mem_map_of_mem (mem_components component)
  have read :=
    newComponentTable_of_mem
      (stamp_names keyed input changed ▸ components_nodup) listed
  have own :
      (renderComponent tables.sources input.bootID input.evaluationTick
        (tables.components component)).component = component :=
    keyed.components component
  rwa [own] at read

/-- The later tables are the earlier ones after a pass through a snapshot. -/
structure Reread (tables next : Tables) : Prop where
  components : ComponentsAlike tables.components next.components
  sources : SourcesAlike tables.sources next.sources
  conflicts : next.conflicts = retain tables.conflicts
  consumed : next.consumed = tables.consumed
  folded : next.folded = tables.folded

/-- A reduction without a wake in the same boot starts from its
predecessor's tables, re-read. -/
theorem reread_start
    {tables : Tables} (keyed : tables.Keyed) (input : Input)
    (changed : Bool) (next : Input)
    (prior : next.prior = some (stamp input tables changed))
    (awake : next.wake = none) (sameBoot : next.bootID = input.bootID) :
    Reread tables (start next) := by
  have unmarked :
      (start next).components = newComponentTable next.prior := by
    simp [start, markRebaseline, rebooted, awake, prior, sameBoot, stamp,
      render]
  refine ⟨?_, ?_, ?_, ?_, ?_⟩
  · intro component
    rw [unmarked, prior, newComponentTable_stamp keyed]
    exact renderComponent_alike ..
  · intro id
    have read :
        (start next).sources =
          tableOf SourceWatermark.source (renderSources tables.sources) := by
      simp only [start, prior]
      rfl
    rw [read, newSourceTable_render keyed.sources, Option.map_map]
    congr 1
    funext watermark
    exact (renderWatermark_renderWatermark watermark).symm
  · have read :
        (start next).conflicts =
          tableOf ConflictRecord.key (renderConflicts tables.conflicts).1 := by
      simp only [start, prior]
      rfl
    rw [read, tableOf_renderConflicts keyed.conflicts]
  · simp only [start, prior]
    rfl
  · simp only [start, prior]
    rfl

end Hexroute.Reduce
