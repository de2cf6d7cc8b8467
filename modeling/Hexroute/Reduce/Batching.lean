import Hexroute.Reduce.Progress

/-!
# Cutting a batch

The same events may be reduced at once or in consecutive batches.  Components
and watermarks do not see the cuts.  Refusals do, because every batch evicts
what it does not retain, and so does authorization, because the second batch
finds its own policy in its prior.
-/

namespace Hexroute.Reduce

open Hexroute.Connectivity
open Hexroute.Lib
open Hexroute.Accept (Event State Screened Arrival orderAll acceptAll)

/-- Reduce consecutive batches under one policy, boot and tick.  Only the
first may state watermarks of its own. -/
def batchInputs (input : Input) : List (List Event) → List Input
  | [] => []
  | batch :: rest =>
      { input with events := batch } ::
        batchInputs { input with priorConsumed := 0, priorFolded := 0 } rest

/-- The projection of a snapshot, by what it was rendered from. -/
def projected
    (input : Input) (records : List ComponentRecord)
    (watermarks : List SourceWatermark)
    (refusals : List ConflictRecord × Bool)
    (verdict : Authorization × AuthorizationReason) : Semantic :=
  { bootID := input.bootID
    policy := input.policy
    authorization := verdict.1
    reason := verdict.2
    components := records.map projectComponent
    sources := watermarks.map projectSource
    conflicts := refusals.1
    summary :=
      summarize records watermarks verdict.1 verdict.2 refusals.2 }

theorem project_stamp
    (input : Input) (tables : Tables) (changed : Bool) :
    project (stamp input tables changed) =
      projected input
        (renderComponents tables.components tables.sources input.bootID
          input.evaluationTick)
        (renderSources tables.sources) (renderConflicts tables.conflicts)
        (authorize input.policy input.prior) :=
  rfl

theorem projected_eq_iff
    {input : Input} {records : List ComponentRecord}
    {watermarks : List SourceWatermark}
    {left right : List ConflictRecord × Bool}
    {leftVerdict rightVerdict : Authorization × AuthorizationReason} :
    projected input records watermarks left leftVerdict =
        projected input records watermarks right rightVerdict ↔
      left = right ∧ leftVerdict = rightVerdict := by
  constructor
  · intro same
    have conflicts := congrArg Semantic.conflicts same
    have overflow :=
      congrArg (fun semantic => semantic.summary.conflictOverflow) same
    have authorization := congrArg Semantic.authorization same
    have reason := congrArg Semantic.reason same
    exact ⟨Prod.ext conflicts overflow, Prod.ext authorization reason⟩
  · rintro ⟨rfl, rfl⟩
    rfl

/-- A policy never moves back from itself. -/
theorem authorize_after_itself
    (descriptor : PolicyDescriptor) {prior : Snapshot}
    (same : prior.policy = descriptor) :
    authorize descriptor (some prior) = authorize descriptor none := by
  unfold authorize
  simp [same, PolicyDescriptor.movedBackFrom]

/-- The verdict reached by the last of several batches. -/
def lastVerdict
    (policy : PolicyDescriptor) (prior : Option Snapshot)
    (batches : List (List Event)) : Authorization × AuthorizationReason :=
  authorize policy (if 1 < batches.length then none else prior)

/-- What the last batch renders, in terms of tables alike to those the first
one starts from. -/
theorem project_last
    {hashes : Hashes} {input : Input} {prior : Option Snapshot}
    {batches : List (List Event)} {reductions : List Reduction}
    {last : Reduction} {components : ComponentTable} {sources : SourceTable}
    (chained :
      reduceChain hashes prior (batchInputs input batches) = .ok reductions)
    (isLast : last ∈ reductions.getLast?) (awake : input.wake = none)
    (componentsAlike :
      ComponentsAlike components
        (start { input with prior := prior }).components)
    (sourcesAlike :
      SourcesAlike sources (start { input with prior := prior }).sources) :
    project last.output.snapshot =
      projected input
        (renderComponents (batches.flatten.foldl foldComponents components)
          (batches.flatten.foldl foldSources sources) input.bootID
          input.evaluationTick)
        (renderSources (batches.flatten.foldl foldSources sources))
        (renderConflicts (carried (newConflictTable prior) batches))
        (lastVerdict input.policy prior batches) := by
  induction batches generalizing input prior reductions components sources with
  | nil =>
      obtain rfl := reduceChain_nil_eq_ok_iff.mp chained
      simp at isLast
  | cons batch rest inductionHypothesis =>
      rw [batchInputs] at chained
      obtain ⟨output, reduces, later, laterChained, rfl⟩ :=
        reduceChain_cons_eq_ok_iff.mp chained
      obtain ⟨tables, reduced⟩ := reduce_eq_ok_iff.mp reduces
      have tables_eq := reduced.tables_eq
      have componentsAfter :
          ComponentsAlike (batch.foldl foldComponents components)
            tables.components := by
        rw [tables_eq, Tables.afterAll_components]
        exact componentsAlike.foldl batch
      have sourcesAfter :
          SourcesAlike (batch.foldl foldSources sources) tables.sources := by
        rw [tables_eq, Tables.afterAll_sources]
        exact sourcesAlike.foldl batch
      have conflictsAfter :
          tables.conflicts = outstanding (newConflictTable prior) batch := by
        rw [tables_eq, Tables.afterAll_conflicts]
        rfl
      cases rest with
      | nil =>
          obtain rfl := reduceChain_nil_eq_ok_iff.mp laterChained
          obtain rfl : _ = last := by simpa using isLast
          rw [reduced.snapshot, project_stamp, List.flatten_singleton,
            renderComponents_eq componentsAfter sourcesAfter,
            sourcesAfter.renderSources_eq, conflictsAfter]
          rfl
      | cons next tail =>
          have more := ne_nil_of_reduceChain_cons laterChained
          rw [List.getLast?_cons_of_ne_nil more] at isLast
          have reread :=
            reread_start reduced.keyed
              { input with prior := prior, events := batch } output.changed
              { input with
                prior := some output.snapshot
                priorConsumed := 0
                priorFolded := 0 }
              (congrArg some reduced.snapshot) awake rfl
          have projects :=
            inductionHypothesis laterChained isLast awake
              (componentsAfter.trans reread.components)
              (sourcesAfter.trans reread.sources)
          have refusals :
              newConflictTable (some output.snapshot) =
                retain (outstanding (newConflictTable prior) batch) :=
            reread.conflicts.trans (congrArg retain conflictsAfter)
          have verdict :
              lastVerdict input.policy (some output.snapshot)
                  (next :: tail) =
                lastVerdict input.policy prior (batch :: next :: tail) := by
            have several : 1 < (batch :: next :: tail).length := by simp
            unfold lastVerdict
            rw [if_pos several]
            split
            · rfl
            · exact authorize_after_itself _ reduced.policy_eq
          rw [projects, refusals, verdict]
          simp only [List.flatten_cons, List.foldl_append]
          rfl

/-- Every batch of a batch that could be reduced can be reduced. -/
theorem reduceChain_batches_succeeds
    {hashes : Hashes} (total : hashes.Total) {input : Input}
    {prior : Option Snapshot} {batches : List (List Event)}
    {desired : DesiredState}
    (valid :
      validateInput
          { input with prior := prior, events := batches.flatten } = .ok ())
    (ordered :
      InOrder (start { input with prior := prior }).consumed
        (start { input with prior := prior }).folded batches.flatten)
    (contained : EventsContained batches.flatten)
    (desires :
      desire ⟨input.policy, input.policyComponents⟩ = .ok desired) :
    ∃ reductions,
      reduceChain hashes prior (batchInputs input batches) =
        .ok reductions := by
  induction batches generalizing input prior with
  | nil =>
      exact ⟨[], rfl⟩
  | cons batch rest inductionHypothesis =>
      rw [List.flatten_cons] at valid ordered contained
      obtain ⟨now, later⟩ := inOrder_append.mp ordered
      obtain ⟨continues, context, wakes, offered⟩ :=
        validateInput_eq_ok_iff.mp valid
      have firstValid :
          validateInput { input with prior := prior, events := batch } =
            .ok () :=
        validateInput_eq_ok_iff.mpr
          ⟨fun snapshot given =>
              { continues snapshot given with },
            context, wakes,
            fun event member =>
              offered event (List.mem_append_left _ member)⟩
      obtain ⟨output, reduced⟩ :=
        reduce_succeeds total firstValid now
          (fun event member =>
            contained event (List.mem_append_left _ member))
          desires
      have snapshot := reduced.snapshot
      have restValid :
          validateInput
              { input with
                prior := some output.snapshot
                events := rest.flatten
                priorConsumed := 0
                priorFolded := 0 } = .ok () := by
        refine validateInput_eq_ok_iff.mpr ⟨?_, context, wakes, ?_⟩
        · rintro _ ⟨⟩
          refine ⟨Or.inl rfl, Or.inl rfl, reduced.snapshot_valid, ?_⟩
          intro _
          rw [snapshot]
          exact le_rfl
        · exact fun event member =>
            offered event (List.mem_append_right _ member)
      have restOrdered :
          InOrder output.snapshot.consumedHostSequence
            output.snapshot.consumedFoldPosition rest.flatten := by
        rw [snapshot]
        simp only [stamp, render, Tables.afterAll_consumed,
          Tables.afterAll_folded]
        exact later
      obtain ⟨reductions, chained⟩ :=
        @inductionHypothesis
          { input with priorConsumed := 0, priorFolded := 0 }
          (some output.snapshot) restValid restOrdered
          (fun event member =>
            contained event (List.mem_append_right _ member))
          desires
      exact
        ⟨_, reduceChain_cons (reduce_eq_ok_iff.mpr ⟨_, reduced⟩) chained⟩

/-- The policy is usable and older than the one of the prior snapshot. -/
def movesBack (policy : PolicyDescriptor) (prior : Option Snapshot) : Prop :=
  policy.authorized = true ∧
    ∃ snapshot ∈ prior,
      snapshot.policy.present = true ∧
        policy.movedBackFrom snapshot.policy = true

theorem lastVerdict_eq_iff
    (policy : PolicyDescriptor) (prior : Option Snapshot)
    (batches : List (List Event)) :
    lastVerdict policy prior batches = authorize policy prior ↔
      ¬ (1 < batches.length ∧ movesBack policy prior) := by
  unfold lastVerdict movesBack
  by_cases several : 1 < batches.length
  · rw [if_pos several]
    cases usable : policy.authorized with
    | false =>
        have unusable :
            authorize policy none = authorize policy prior := by
          unfold authorize
          simp [usable]
        simp [unusable]
    | true =>
        rw [authorize_of_usable usable, authorize_of_usable usable]
        cases prior with
        | none =>
            simp
        | some snapshot =>
            simp [several]
  · simp [several]

/-- A fact of the probe. -/
def probeBaseline (component : Component) (sequence : Nat) : Fact :=
  { fixtureBaseline component sequence with sourceID := "root.probe" }

/-- The probe speaks three times about one component, reuses each sequence
for all of its components, and restates the first one. -/
def reusedArrivals : List Arrival :=
  let facts := [1, 2, 3].map (probeBaseline .dns)
  let reuses :=
    [1, 2, 3].flatMap fun sequence =>
      [Component.defaultPath, .dns, .relays].map fun component =>
        { probeBaseline component sequence with
          eventID := fixtureEventID 99 }
  (facts ++ reuses ++ [probeBaseline .dns 4]).map fun fact => (fact, .root)

def reusedEvents : List Event :=
  (acceptAll (fun fact => some fact.eventID) State.new reusedArrivals).1

def reusedInput : Input :=
  fixtureInput (fixturePolicy 1) [] reusedEvents

/-- The restatement comes in a batch of its own. -/
def reusedBatches : List (List Event) :=
  [reusedEvents.take 12, reusedEvents.drop 12]

def reusedHashes : Hashes :=
  fixtureHashes fun semantic => semantic.conflicts.length

/-- Both ways of reducing, one after the other. -/
def reusedBoth : Except ReduceError (Output × List Reduction) := do
  let whole ← reduce reusedHashes reusedInput
  let reductions ←
    reduceChain reusedHashes reusedInput.prior
      (batchInputs reusedInput reusedBatches)
  pure (whole, reductions)

/-- The oldest refused position of the probe. -/
def isOldest (record : ConflictRecord) : Bool :=
  decide (record.key = ⟨"root.probe", .defaultPath, 1⟩)

def losesOldest (both : Output × List Reduction) : Bool :=
  both.1.snapshot.conflicts.any isOldest &&
    both.2.getLast?.any fun last =>
      !last.output.snapshot.conflicts.any isOldest

theorem reusedBoth_losesOldest : yields reusedBoth losesOldest = true := by
  decide +kernel

theorem reusedInput_events : reusedInput.events = reusedEvents := by
  rw [reusedInput, fixtureInput_events]

theorem reusedBatches_flatten :
    reusedInput.events = reusedBatches.flatten := by
  rw [reusedInput_events, reusedBatches, List.flatten_cons,
    List.flatten_singleton, List.take_append_drop]

theorem reusedBoth_eq_ok_iff {whole : Output} {reductions : List Reduction} :
    reusedBoth = .ok (whole, reductions) ↔
      reduce reusedHashes reusedInput = .ok whole ∧
        reduceChain reusedHashes reusedInput.prior
            (batchInputs reusedInput reusedBatches) =
          .ok reductions := by
  unfold reusedBoth
  simp only [bind_eq_ok_iff, pure_eq_ok_iff, Prod.mk.injEq]
  constructor
  · rintro ⟨_, reduces, _, chained, rfl, rfl⟩
    exact ⟨reduces, chained⟩
  · rintro ⟨reduces, chained⟩
    exact ⟨whole, reduces, reductions, chained, rfl, rfl⟩

end Hexroute.Reduce
