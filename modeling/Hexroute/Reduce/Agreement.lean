import Hexroute.Accept.Decision
import Hexroute.Accept.Restore
import Hexroute.Reduce.Fold
import Hexroute.Reduce.Fixture

/-!
# The snapshot and the acceptor agree

The acceptor is the only authority on stream integrity; the snapshot adopts
its answers.  Folding everything an acceptor decided leaves a snapshot that
holds exactly the acceptor's position, so a restart that rebuilds the
acceptor from the snapshot decides everything as the live one would.
-/

namespace Hexroute.Reduce

open Hexroute.Connectivity
open Hexroute.Safety
open Hexroute.Lib
open Hexroute.Accept (Event State SourceState Screened Reordered order
  orderAll StateError Arrival acceptAll accept)

/-- The position a snapshot and its watermarks describe. -/
def acceptorState
    (snapshot : Snapshot) (watermarks : List SourceWatermark) : State :=
  { hostSequence := snapshot.consumedHostSequence
    foldPosition := snapshot.consumedFoldPosition
    sources :=
      (tableOf SourceWatermark.source watermarks).map
        fun _ watermark => watermark.toSourceIntegrity }

/-- Rebuild the acceptance position a snapshot recorded. -/
def restoreAcceptor
    (snapshot : Snapshot) (watermarks : List SourceWatermark) :
    Except StateError State :=
  Accept.restore (acceptorState snapshot watermarks)

/-- The watermarks hold the integrity of exactly the sources the acceptor
knows. -/
def Mirrors (sources : SourceTable) (state : State) : Prop :=
  ∀ id : SourceID,
    Option.Rel
      (fun (watermark : SourceWatermark) (source : SourceState) =>
        Reordered watermark.toSourceIntegrity source)
      sources[id]? state.sources[id]?

/-- Folding one decision keeps the watermarks in step with the acceptor. -/
theorem foldSources_mirrors
    {sources : SourceTable} {state : State} {item : Screened}
    (mirrors : Mirrors sources state) (sound : item.Sound) :
    Mirrors
      (foldSources sources
        ⟨(order state item.fact item.digest item.role).1, item.fact⟩)
      (order state item.fact item.digest item.role).2 := by
  obtain ⟨carried, unchanged⟩ :=
    Accept.order_source state item.digest item.role sound.positive
  intro id
  rw [foldSources_getElem?]
  by_cases own : item.fact.sourceID = id
  · subst own
    split
    · rw [carried]
      exact Option.Rel.some (Reordered.refl _)
    · rename_i kept
      rw [and_iff_left rfl, not_or] at kept
      rw [unchanged kept.1 kept.2]
      exact mirrors item.fact.sourceID
  · rw [if_neg (fun both => own both.2),
      Accept.order_source_other state item.fact item.digest item.role own]
    exact mirrors id

/-- The decisions of a run continue both orders. -/
theorem orderAll_inOrder
    (state : State) {items : List Screened}
    (sound : ∀ item ∈ items, item.Sound) :
    InOrder state.hostSequence state.foldPosition
        (orderAll state items).1 ∧
      (orderAll state items).2.hostSequence =
        (orderAll state items).1.foldl nextConsumed state.hostSequence ∧
      (orderAll state items).2.foldPosition =
        state.foldPosition + (orderAll state items).1.length := by
  induction items generalizing state with
  | nil =>
      exact ⟨trivial, rfl, rfl⟩
  | cons item rest inductionHypothesis =>
      obtain ⟨folds, nextFolds, takes, nextTakes, offered⟩ :=
        Accept.order_spec state item.digest item.role
          (sound item (by simp)).positive
      obtain ⟨ordered, consumed, folded⟩ :=
        inductionHypothesis
          (order state item.fact item.digest item.role).2
          fun later member => sound later (List.mem_cons_of_mem _ member)
      have takesNext :
          TakesNext state.hostSequence state.foldPosition
            ⟨(order state item.fact item.digest item.role).1, item.fact⟩ :=
        ⟨folds, fun accepted => takes.trans (if_pos accepted), offered⟩
      have counts :
          (order state item.fact item.digest item.role).2.hostSequence =
            nextConsumed state.hostSequence
              ⟨(order state item.fact item.digest item.role).1,
                item.fact⟩ :=
        nextTakes
      rw [counts, nextFolds] at ordered
      rw [counts] at consumed
      rw [nextFolds] at folded
      rw [Accept.orderAll_cons]
      refine ⟨⟨takesNext, ordered⟩, consumed, ?_⟩
      rw [folded, List.length_cons]
      omega

theorem orderAll_mirrors
    {sources : SourceTable} {state : State} {items : List Screened}
    (mirrors : Mirrors sources state)
    (sound : ∀ item ∈ items, item.Sound) :
    Mirrors ((orderAll state items).1.foldl foldSources sources)
      (orderAll state items).2 := by
  induction items generalizing sources state with
  | nil =>
      exact mirrors
  | cons item rest inductionHypothesis =>
      exact
        inductionHypothesis
          (foldSources_mirrors mirrors (sound item (by simp)))
          fun later member => sound later (List.mem_cons_of_mem _ member)

/-- Rendering lists holes that were in order already, and reorders debts. -/
theorem renderWatermark_reordered
    {id : SourceID} {watermark : SourceWatermark} {source : SourceState}
    (same : Reordered watermark.toSourceIntegrity source)
    (wellFormed : Accept.SourceIntegrity.WellFormed id source) :
    Reordered (renderWatermark watermark).toSourceIntegrity source := by
  have gaps : watermark.gaps = source.gaps := by
    rw [same.rest]
  have inOrder :
      sortBy Accept.GapRange.fromSequence watermark.gaps =
        watermark.gaps := by
    apply sortBy_eq_self
    rw [gaps]
    refine wellFormed.bounded.gapsOrdered.imp_of_mem ?_
    intro left right leftMember _ apart
    have proper := wellFormed.bounded.gapsProper left leftMember
    omega
  refine Reordered.trans ?_ same
  refine ⟨?_, ?_⟩
  · exact List.perm_insertionSort _ _
  · simp only [renderWatermark, inOrder]

@[simp]
theorem renderWatermark_source (watermark : SourceWatermark) :
    (renderWatermark watermark).source = watermark.source :=
  rfl

theorem newSourceTable_render
    {sources : SourceTable} (keyed : Keyed SourceWatermark.source sources)
    (id : SourceID) :
    (tableOf SourceWatermark.source (renderSources sources))[id]? =
      (sources[id]?).map renderWatermark :=
  keyed.tableOf_map_values renderWatermark renderWatermark_source id

theorem Mirrors.render
    {sources : SourceTable} {state : State}
    (mirrors : Mirrors sources state)
    (keyed : Keyed SourceWatermark.source sources)
    (wellFormed : state.WellFormed) :
    Mirrors (tableOf SourceWatermark.source (renderSources sources))
      state := by
  intro id
  rw [newSourceTable_render keyed, optionRel_map_left]
  refine optionRel_mono ?_ (mirrors id)
  intro watermark _ source known same
  exact renderWatermark_reordered same (wellFormed id source known)

/-- The tables a reduction starts from describe the acceptor's position. -/
structure InStep (input : Input) (state : State) : Prop where
  consumed : (start input).consumed = state.hostSequence
  folded : (start input).folded = state.foldPosition
  sources : Mirrors (start input).sources state

/-- The snapshot describes the acceptor's position. -/
structure Describes (snapshot : Snapshot) (state : State) : Prop where
  consumed : snapshot.consumedHostSequence = state.hostSequence
  folded : snapshot.consumedFoldPosition = state.foldPosition
  sources :
    Mirrors (tableOf SourceWatermark.source snapshot.sources) state
  distinct : (snapshot.sources.map (·.source)).Nodup

/-- The order of pending baselines is nothing a snapshot describes. -/
theorem Describes.same
    {snapshot : Snapshot} {left right : State}
    (describes : Describes snapshot left) (same : left.Same right) :
    Describes snapshot right := by
  refine
    ⟨describes.consumed.trans same.hostSequence,
      describes.folded.trans same.foldPosition, ?_, describes.distinct⟩
  intro id
  exact
    optionRel_trans (fun _ _ _ first second => first.trans second)
      (describes.sources id) (same.sources id)

theorem Describes.inStep
    {snapshot : Snapshot} {state : State}
    (describes : Describes snapshot state) (input : Input) :
    InStep { input with prior := some snapshot } state :=
  ⟨describes.consumed, describes.folded, describes.sources⟩

/-- A fresh host starts in step with a fresh acceptor. -/
theorem inStep_fresh
    {input : Input} (consumed : input.priorConsumed = 0)
    (folded : input.priorFolded = 0) :
    InStep { input with prior := none } State.new := by
  refine ⟨consumed, folded, ?_⟩
  intro id
  simp only [start, newSourceTable, State.new,
    Std.ExtTreeMap.getElem?_empty]
  exact Option.Rel.none

/-- A reduction that folds everything decided so far describes the acceptor
it was decided by. -/
theorem describes_of_reduce
    {hashes : Hashes} {input : Input} {output : Output} {state : State}
    {items : List Screened}
    (reduces : reduce hashes input = .ok output)
    (inStep : InStep input state) (wellFormed : state.WellFormed)
    (sound : ∀ item ∈ items, item.Sound)
    (covers : input.events = (orderAll state items).1) :
    Describes output.snapshot (orderAll state items).2 := by
  obtain ⟨tables, reduced⟩ := reduce_eq_ok_iff.mp reduces
  obtain ⟨_, consumed, folded⟩ := orderAll_inOrder state sound
  have keyed := reduced.keyed.sources
  have mirrors : Mirrors tables.sources (orderAll state items).2 := by
    rw [reduced.tables_eq, Tables.afterAll_sources, covers]
    exact orderAll_mirrors inStep.sources sound
  have listed : output.snapshot.sources = renderSources tables.sources := by
    rw [reduced.snapshot]
    rfl
  refine ⟨?_, ?_, ?_, ?_⟩
  · rw [reduced.snapshot]
    simp only [stamp, render, reduced.tables_eq, Tables.afterAll_consumed,
      inStep.consumed, covers, consumed]
  · rw [reduced.snapshot]
    simp only [stamp, render, reduced.tables_eq, Tables.afterAll_folded,
      inStep.folded, covers, folded]
  · rw [listed]
    exact mirrors.render keyed (Accept.orderAll_wellFormed sound wellFormed)
  · rw [listed, renderSources, List.map_map]
    exact keyed.values_keys_nodup

/-- Along a chain that folds a run batch by batch, the last snapshot
describes the acceptor at the end of the run. -/
theorem describes_of_reduceChain
    {hashes : Hashes} {prior : Option Snapshot} {inputs : List Input}
    {reductions : List Reduction} {last : Reduction} {state : State}
    {items : List Screened}
    (chained : reduceChain hashes prior inputs = .ok reductions)
    (inStep :
      ∀ first ∈ inputs.head?, InStep { first with prior := prior } state)
    (wellFormed : state.WellFormed)
    (sound : ∀ item ∈ items, item.Sound)
    (covers : inputs.flatMap (·.events) = (orderAll state items).1)
    (isLast : last ∈ reductions.getLast?) :
    Describes last.output.snapshot (orderAll state items).2 := by
  induction inputs generalizing prior reductions state items with
  | nil =>
      obtain rfl := reduceChain_nil_eq_ok_iff.mp chained
      simp at isLast
  | cons input rest inductionHypothesis =>
      obtain ⟨output, reduces, later, laterChained, rfl⟩ :=
        reduceChain_cons_eq_ok_iff.mp chained
      rw [List.flatMap_cons] at covers
      obtain ⟨before, after, rfl, firstEvents, restEvents⟩ :=
        Accept.orderAll_split covers.symm
      have soundBefore : ∀ item ∈ before, item.Sound := fun item member =>
        sound item (List.mem_append_left _ member)
      have described :=
        describes_of_reduce reduces (inStep input rfl) wellFormed soundBefore
          firstEvents.symm
      rw [Accept.orderAll_append]
      cases rest with
      | nil =>
          obtain rfl := reduceChain_nil_eq_ok_iff.mp laterChained
          obtain rfl : after = [] := by
            simpa using congrArg List.length restEvents
          obtain rfl : _ = last := by simpa using isLast
          exact described
      | cons next tail =>
          have more := ne_nil_of_reduceChain_cons laterChained
          refine
            inductionHypothesis laterChained
              (fun first _ => described.inStep first)
              (Accept.orderAll_wellFormed soundBefore wellFormed)
              (fun item member => sound item (List.mem_append_right _ member))
              restEvents.symm ?_
          rwa [List.getLast?_cons_of_ne_nil more] at isLast

/-- The acceptor a described position is restored to. -/
theorem Describes.restore
    {snapshot : Snapshot} {state : State}
    (describes : Describes snapshot state) (wellFormed : state.WellFormed) :
    restoreAcceptor snapshot snapshot.sources =
        .ok (acceptorState snapshot snapshot.sources) ∧
      (acceptorState snapshot snapshot.sources).Same state := by
  have same : (acceptorState snapshot snapshot.sources).Same state := by
    refine ⟨describes.consumed, describes.folded, ?_⟩
    intro id
    rw [acceptorState, Std.ExtTreeMap.getElem?_map, optionRel_map_left]
    exact describes.sources id
  have restorable := (same.symm.wellFormed wellFormed).validate
  refine ⟨?_, same⟩
  simp [restoreAcceptor, Accept.restore, restorable, bind, Except.bind, pure,
    Except.pure]

/-- The snapshot holds the acceptor's position, and the acceptor rebuilt
from it answers every further arrival as the live one. -/
structure Agrees
    (digest : Fact → Option String) (snapshot : Snapshot) (state : State) :
    Prop where
  consumed : snapshot.consumedHostSequence = state.hostSequence
  folded : snapshot.consumedFoldPosition = state.foldPosition
  distinct : (snapshot.sources.map (·.source)).Nodup
  sources :
    ∀ id : SourceID,
      Option.Rel
        (fun (watermark : SourceWatermark) (source : SourceState) =>
          Reordered watermark.toSourceIntegrity source)
        (snapshot.sources.find? (·.source = id)) state.sources[id]?
  restored :
    ∃ restored,
      (acceptorState snapshot snapshot.sources).validate = .ok () ∧
        restoreAcceptor snapshot snapshot.sources = .ok restored ∧
          ∀ (later : List Arrival) (fact : Fact) (domain : Domain),
            Accept.SameAnswer
              (accept digest (acceptAll digest restored later).2 fact domain)
              (accept digest (acceptAll digest state later).2 fact domain)

theorem Describes.agrees
    (digest : Fact → Option String) {snapshot : Snapshot} {state : State}
    (describes : Describes snapshot state) (wellFormed : state.WellFormed) :
    Agrees digest snapshot state := by
  obtain ⟨restores, same⟩ := describes.restore wellFormed
  refine
    { consumed := describes.consumed
      folded := describes.folded
      distinct := describes.distinct
      sources := ?_
      restored :=
        ⟨_, (same.symm.wellFormed wellFormed).validate, restores, ?_⟩ }
  · intro id
    have found :
        snapshot.sources.find? (·.source = id) =
          (tableOf SourceWatermark.source snapshot.sources)[id]? := by
      apply Option.ext
      intro watermark
      rw [tableOf_getElem?_eq_some_iff describes.distinct,
        find?_eq_some_iff_of_keys_nodup SourceWatermark.source
          describes.distinct]
    rw [found]
    exact describes.sources id
  · intro later fact domain
    exact
      Accept.accept_same digest (Accept.acceptAll_same digest same later).2
        fact domain

/-- However the decisions of one acceptor are cut into reductions, the
snapshot that has folded all of them agrees with the acceptor. -/
theorem snapshot_agrees_with_acceptor
    (hashes : Hashes) (digest : Fact → Option String)
    (arrivals : List Arrival) (inputs : List Input)
    (reductions : List Reduction) (last : Reduction)
    (fresh :
      ∀ first ∈ inputs.head?,
        first.priorConsumed = 0 ∧ first.priorFolded = 0)
    (covers :
      inputs.flatMap (·.events) = (acceptAll digest State.new arrivals).1)
    (chained : reduceChain hashes none inputs = .ok reductions)
    (isLast : last ∈ reductions.getLast?) :
    Agrees digest last.output.snapshot
      (acceptAll digest State.new arrivals).2 := by
  have sound :
      ∀ item ∈ Accept.screened digest arrivals, item.Sound :=
    fun item member => Accept.screened_sound member
  rw [Accept.acceptAll_eq_orderAll] at covers ⊢
  have described :=
    describes_of_reduceChain chained
      (fun first isFirst =>
        inStep_fresh (fresh first isFirst).1 (fresh first isFirst).2)
      Accept.State.new_wellFormed sound covers isLast
  exact
    described.agrees digest
      (Accept.orderAll_wellFormed sound Accept.State.new_wellFormed)

/-- A source with two components skips a sequence. -/
def gappedArrivals : List Arrival :=
  [(fixtureBaseline .physicalNetwork 1, .root),
    ({ fixtureBaseline .defaultPath 3 with baseline := false }, .root),
    (fixtureBaseline .dns 1, .root)]

/-- The decisions about them, folded in two batches. -/
def gappedInputs : List Input :=
  let events :=
    (acceptAll (fun fact => some fact.eventID) State.new gappedArrivals).1
  [fixtureInput (fixturePolicy 1) [] (events.take 1),
    fixtureInput (fixturePolicy 1) [] (events.drop 1)]

theorem snapshot_agrees_with_acceptor_gapped :
    ∃ reductions last,
      reduceChain (fixtureHashes fun semantic => semantic.sources.length)
          none gappedInputs = .ok reductions ∧
        last ∈ reductions.getLast? ∧
          Agrees (fun fact => some fact.eventID) last.output.snapshot
            (acceptAll (fun fact => some fact.eventID) State.new
              gappedArrivals).2 := by
  obtain ⟨reductions, chained, nonempty⟩ :=
    exists_of_yields
      (reduceChain (fixtureHashes fun semantic => semantic.sources.length)
        none gappedInputs)
      (fun reductions => reductions.getLast?.isSome) (by decide +kernel)
  obtain ⟨last, isLast⟩ := Option.isSome_iff_exists.mp nonempty
  exact
    ⟨reductions, last, chained, isLast,
      snapshot_agrees_with_acceptor _ _ gappedArrivals gappedInputs
        reductions last (by simp [gappedInputs, fixtureInput])
        (List.take_append_drop 1 _) chained isLast⟩

end Hexroute.Reduce
