import Hexroute.Reduce.Commute

/-!
# Whether the opinions in a snapshot still hold

An opinion is compared with its owner when it arrives.  A snapshot shows the
comparison beside what the owner says now, so the two fit together only while
no later statement of the owner turns the comparison round.
-/

namespace Hexroute.Reduce

open Hexroute.Connectivity
open Hexroute.Safety
open Hexroute.Lib
open Hexroute.Accept (Event State Arrival acceptAll)

/-- Every opinion is marked as agreeing exactly if it states what its record
shows. -/
def Snapshot.Truthful (snapshot : Snapshot) : Prop :=
  ∀ record ∈ snapshot.components, ∀ entry ∈ record.corroborations,
    (entry.agrees = true ↔ entry.lifecycle = record.observed)

instance (snapshot : Snapshot) : Decidable snapshot.Truthful :=
  inferInstanceAs (Decidable (∀ record ∈ snapshot.components, _))

/-- A decision of an acceptor, in whatever state it was. -/
def Produced (event : Event) : Prop :=
  ∃ digest state arrivals, event ∈ (acceptAll digest state arrivals).1

theorem Produced.genuine {event : Event} (produced : Produced event) :
    event.Genuine := by
  obtain ⟨digest, state, arrivals, member⟩ := produced
  rw [Accept.acceptAll_eq_orderAll] at member
  exact
    Accept.orderAll_genuine
      (fun _ listed => Accept.screened_sound listed) event member

/-- Every last opinion met what the owner had said by then exactly if it meets
what the owner said last. -/
def StillJudged (events : List Event) : Prop :=
  ∀ component source opinion,
    lastOpinion component source events = some opinion →
      (AgreesLast component source events ↔
        opinion.fact.lifecycle = ownerSays component events)

/-- The same holds at the end of every batch. -/
def JudgedThroughout (earlier : List Event) : List Input → Prop
  | [] => True
  | input :: later =>
      StillJudged (earlier ++ input.events) ∧
        JudgedThroughout (earlier ++ input.events) later

/-- Both tables hold the same observations and opinions. -/
def SameOpinions (left right : ComponentTable) : Prop :=
  ∀ component,
    (left component).observed = (right component).observed ∧
      sortedCorroborations (left component).corroborations =
        sortedCorroborations (right component).corroborations

theorem SameOpinions.foldComponents
    {left right : ComponentTable} (same : SameOpinions left right)
    (event : Event) :
    SameOpinions (foldComponents left event)
      (foldComponents right event) := by
  intro component
  unfold Reduce.foldComponents
  by_cases accepted : event.acceptance.outcome = .accepted
  · obtain ⟨observed, opinions⟩ := same event.fact.component
    rw [if_pos accepted, if_pos accepted]
    by_cases about : component = event.fact.component
    · subst about
      simp only [Function.update_self]
      split
      · refine ⟨observed, ?_⟩
        simp only [addCorroboration, observed]
        exact putCorroboration_sorted _ opinions
      · exact ⟨rfl, opinions⟩
    · simp only [Function.update_of_ne about]
      exact same component
  · rw [if_neg accepted, if_neg accepted]
    exact same component

theorem SameOpinions.foldl
    {left right : ComponentTable} (same : SameOpinions left right)
    (events : List Event) :
    SameOpinions (events.foldl Reduce.foldComponents left)
      (events.foldl Reduce.foldComponents right) := by
  induction events generalizing left right with
  | nil => exact same
  | cons event later inductionHypothesis =>
      exact inductionHypothesis (same.foldComponents event)

/-- A wake or a reboot touches neither observations nor opinions. -/
theorem sameOpinions_start (input : Input) :
    SameOpinions (start input).components
      (newComponentTable input.prior) := by
  intro component
  simp only [start, markRebaseline]
  split
  · exact ⟨rfl, rfl⟩
  · dsimp only
    split
    · exact ⟨rfl, rfl⟩
    · split
      · exact ⟨rfl, rfl⟩
      · exact ⟨rfl, rfl⟩

/-- A snapshot is re-read with the observations and opinions it shows. -/
theorem sameOpinions_stamp
    {tables : Tables} (keyed : tables.Keyed) (input : Input)
    (changed : Bool) :
    SameOpinions
      (newComponentTable (some (stamp input tables changed)))
      tables.components := by
  intro component
  rw [newComponentTable_stamp keyed]
  exact ⟨rfl, sortBy_sortBy (tables.components component).corroborations⟩

section Fold

variable {table : ComponentTable} {events : List Event}

theorem observed_of_same
    (same :
      SameOpinions table
        (events.foldl foldComponents ComponentRecord.unobserved))
    (component : Component) :
    (table component).observed = ownerSays component events :=
  (same component).1.trans (observed_eq_ownerSays component events)

/-- The rendered opinions of a source are its last one. -/
theorem opinions_of_same
    (same :
      SameOpinions table
        (events.foldl foldComponents ComponentRecord.unobserved))
    (genuine : ∀ event ∈ events, event.Genuine)
    (component : Component) :
    HoldsOpinions component events
      (sortedCorroborations (table component).corroborations) := by
  intro source
  obtain ⟨agrees, verdict, held⟩ :=
    foldComponents_holdsOpinions component genuine source
  refine ⟨agrees, verdict, ?_⟩
  rw [(same component).2, sortedCorroborations, under_sortBy, held]

/-- What a snapshot shows is truthful exactly if the comparisons made on
arrival still hold. -/
theorem truthful_stamp_iff
    {tables : Tables}
    (same :
      SameOpinions tables.components
        (events.foldl foldComponents ComponentRecord.unobserved))
    (genuine : ∀ event ∈ events, event.Genuine) (input : Input)
    (changed : Bool) :
    (stamp input tables changed).Truthful ↔ StillJudged events := by
  constructor
  · intro truthful component source opinion last
    obtain ⟨agrees, verdict, held⟩ :=
      opinions_of_same same genuine component source
    have listed :
        opinionOf opinion agrees ∈
          sortedCorroborations
            (tables.components component).corroborations := by
      have own :
          opinionOf opinion agrees ∈
            under Corroboration.source source
              (sortedCorroborations
                (tables.components component).corroborations) := by
        rw [held, last]
        simp
      exact (List.mem_filter.mp own).1
    have shown :=
      truthful _ (List.mem_map_of_mem (mem_components component)) _ listed
    rw [← verdict, ← observed_of_same same component]
    exact shown
  · intro judged record shown entry listed
    obtain ⟨component, -, rfl⟩ := List.mem_map.mp shown
    obtain ⟨agrees, verdict, held⟩ :=
      opinions_of_same same genuine component entry.source
    have own :
        entry ∈
          under Corroboration.source entry.source
            (sortedCorroborations
              (tables.components component).corroborations) :=
      List.mem_filter.mpr ⟨listed, by simp⟩
    rw [held, Option.mem_toList, Option.map_eq_some_iff] at own
    obtain ⟨opinion, last, is⟩ := own
    have still := judged component entry.source opinion last
    rw [← verdict, ← observed_of_same same component] at still
    rw [← is]
    exact still

end Fold

/-- Along a chain every snapshot is truthful exactly if the comparisons still
hold at the end of every batch. -/
theorem chain_truthful_iff
    {hashes : Hashes} {inputs : List Input} {prior : Option Snapshot}
    {earlier : List Event} {reductions : List Reduction}
    (same :
      SameOpinions (newComponentTable prior)
        (earlier.foldl foldComponents ComponentRecord.unobserved))
    (genuine : ∀ event ∈ earlier, event.Genuine)
    (produced : ∀ input ∈ inputs, ∀ event ∈ input.events, Produced event)
    (chained : reduceChain hashes prior inputs = .ok reductions) :
    (∀ reduction ∈ reductions, reduction.output.snapshot.Truthful) ↔
      JudgedThroughout earlier inputs := by
  induction inputs generalizing prior earlier reductions with
  | nil =>
      obtain rfl := reduceChain_nil_eq_ok_iff.mp chained
      simp [JudgedThroughout]
  | cons input later inductionHypothesis =>
      obtain ⟨output, reduces, others, laterChained, rfl⟩ :=
        reduceChain_cons_eq_ok_iff.mp chained
      obtain ⟨tables, reduced⟩ := reduce_eq_ok_iff.mp reduces
      have all : ∀ event ∈ earlier ++ input.events, event.Genuine := by
        intro event member
        rcases List.mem_append.mp member with old | new
        · exact genuine event old
        · exact (produced input (by simp) event new).genuine
      have folded :
          SameOpinions tables.components
            ((earlier ++ input.events).foldl foldComponents
              ComponentRecord.unobserved) := by
        rw [reduced.tables_eq, Tables.afterAll_components,
          List.foldl_append]
        refine SameOpinions.foldl (fun component => ?_) input.events
        have first := sameOpinions_start { input with prior := prior } component
        have second := same component
        exact ⟨first.1.trans second.1, first.2.trans second.2⟩
      have reread :
          SameOpinions (newComponentTable (some output.snapshot))
            ((earlier ++ input.events).foldl foldComponents
              ComponentRecord.unobserved) := by
        rw [reduced.snapshot]
        intro component
        have first :=
          sameOpinions_stamp reduced.keyed { input with prior := prior }
            output.changed component
        have second := folded component
        exact ⟨first.1.trans second.1, first.2.trans second.2⟩
      have rest :=
        inductionHypothesis reread all
          (fun other member => produced other (by simp [member]))
          laterChained
      rw [List.forall_mem_cons, rest]
      simp only [JudgedThroughout]
      rw [reduced.snapshot, truthful_stamp_iff folded all]

/-- In a chain of reductions of acceptors' decisions on a new host, every
snapshot is truthful exactly if no statement of an owner turned round the
comparison with an opinion before it. -/
theorem corroborations_truthful_iff
    (hashes : Hashes) (inputs : List Input) (reductions : List Reduction)
    (produced : ∀ input ∈ inputs, ∀ event ∈ input.events, Produced event)
    (chained : reduceChain hashes none inputs = .ok reductions) :
    (∀ reduction ∈ reductions, reduction.output.snapshot.Truthful) ↔
      JudgedThroughout [] inputs :=
  chain_truthful_iff (fun _ => ⟨rfl, rfl⟩) (by simp) produced chained

/-- A batch of decisions about arrivals, on a new host. -/
def arrivalsInput (arrivals : List Arrival) : Input :=
  freshInput (fixturePolicy 1) [] fixtureBootID 1010 none
    (acceptAll (fun fact => some fact.eventID) State.new arrivals).1

def reduceArrival (arrivals : List Arrival) :
    Except ReduceError (List Reduction) :=
  reduceChain (fixtureHashes fun semantic => semantic.sources.length) none
    [arrivalsInput arrivals]

theorem arrivalsInput_produced (arrivals : List Arrival) :
    ∀ input ∈ [arrivalsInput arrivals], ∀ event ∈ input.events,
      Produced event := by
  intro input listed event member
  obtain rfl := List.mem_singleton.mp listed
  exact ⟨_, _, _, member⟩

def allTruthful (reductions : List Reduction) : Bool :=
  reductions.all fun reduction =>
    decide reduction.output.snapshot.Truthful

/-- A probe that speaks before its owner says the same is shown as
disagreeing. -/
theorem probeFirst_untruthful :
    ∃ reductions,
      reduceArrival probeFirst = .ok reductions ∧
        ¬ ∀ reduction ∈ reductions,
          reduction.output.snapshot.Truthful := by
  obtain ⟨reductions, chained, untruthful⟩ :=
    exists_of_yields (reduceArrival probeFirst)
      (fun reductions => !allTruthful reductions) (by decide +kernel)
  refine ⟨reductions, chained, ?_⟩
  simpa [allTruthful] using untruthful

theorem ownerFirst_judged :
    ∃ reductions,
      reduceArrival ownerFirst = .ok reductions ∧
        JudgedThroughout [] [arrivalsInput ownerFirst] := by
  obtain ⟨reductions, chained, truthful⟩ :=
    exists_of_yields (reduceArrival ownerFirst) allTruthful
      (by decide +kernel)
  have all :
      ∀ reduction ∈ reductions, reduction.output.snapshot.Truthful := by
    simpa [allTruthful] using truthful
  exact
    ⟨reductions, chained,
      (corroborations_truthful_iff _ [arrivalsInput ownerFirst] reductions
        (arrivalsInput_produced ownerFirst) chained).mp all⟩

end Hexroute.Reduce
