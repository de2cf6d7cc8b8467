import Hexroute.Accept.Decision

/-!
# Sources decide independently

What the acceptor decides about an arrival depends on its own source's stream
alone.  The host order enters only as the places given out, so two
interleavings of the same streams decide every stream alike, up to places.
-/

namespace Hexroute.Accept

open Hexroute.Connectivity
open Hexroute.Safety
open Hexroute.Lib

/-- The decision without its places in the host order. -/
def Acceptance.unplaced (acceptance : Acceptance) : Acceptance :=
  { acceptance with hostSequence := 0, foldPosition := 0 }

def Event.unplaced (event : Event) : Event :=
  { event with acceptance := event.acceptance.unplaced }

/-- The decisions about one source, without their places. -/
def stream (id : SourceID) (events : List Event) : List Event :=
  (events.filter (·.fact.sourceID = id)).map Event.unplaced

/-- A fold that does not look at places runs over the stream. -/
theorem foldl_stream
    {β : Type*} {step : β → Event → β}
    (insensitive : ∀ value event, step value event.unplaced = step value event)
    (id : SourceID) (events : List Event) (initial : β) :
    (stream id events).foldl step initial =
      (events.filter (·.fact.sourceID = id)).foldl step initial := by
  rw [stream, List.foldl_map]
  simp only [insensitive]

theorem decideSource_unplaced
    (left right : Nat) (known : Option SourceState) (fact : Fact)
    (digest : String) (role : SourceRole) :
    (decideSource left known fact digest role).1.unplaced =
        (decideSource right known fact digest role).1.unplaced ∧
      (decideSource left known fact digest role).2 =
        (decideSource right known fact digest role).2 := by
  unfold decideSource
  simp only
  split
  · exact ⟨rfl, rfl⟩
  · split
    · exact ⟨rfl, rfl⟩
    · exact ⟨rfl, rfl⟩

/-- One source's stream decided on its own. -/
def decideStream (known : Option SourceState) :
    List Screened → List Event × Option SourceState
  | [] => ([], known)
  | item :: rest =>
      let (acceptance, source) :=
        decideSource 0 known item.fact item.digest item.role
      let (events, final) := decideStream (some source) rest
      (⟨acceptance.unplaced, item.fact⟩ :: events, final)

/-- The decisions about a source are those about its stream alone. -/
theorem stream_orderAll
    (id : SourceID) (state : State) (items : List Screened) :
    stream id (orderAll state items).1 =
        (decideStream state.sources[id]?
          (items.filter (·.fact.sourceID = id))).1 ∧
      (orderAll state items).2.sources[id]? =
        (decideStream state.sources[id]?
          (items.filter (·.fact.sourceID = id))).2 := by
  induction items generalizing state with
  | nil =>
      exact ⟨rfl, rfl⟩
  | cons item rest inductionHypothesis =>
      obtain ⟨events, final⟩ :=
        inductionHypothesis (order state item.fact item.digest item.role).2
      rw [order_sources] at events final
      rw [orderAll_cons]
      by_cases own : item.fact.sourceID = id
      · subst own
        obtain ⟨decision, source⟩ :=
          decideSource_unplaced state.hostSequence 0
            state.sources[item.fact.sourceID]? item.fact item.digest
            item.role
        rw [if_pos rfl, source] at events final
        rw [List.filter_cons_of_pos (by simp)]
        refine ⟨?_, final⟩
        unfold stream at events ⊢
        rw [List.filter_cons_of_pos (by simp), List.map_cons, events]
        simp only [decideStream, Event.unplaced, ← decision]
        rfl
      · rw [if_neg own] at events final
        rw [List.filter_cons_of_neg (by simpa using own)]
        refine ⟨?_, final⟩
        rw [← events]
        unfold stream
        rw [List.filter_cons_of_neg (by simpa using own)]

/-- The same streams, arriving in another order across sources. -/
def Interleaved (left right : List Arrival) : Prop :=
  ∀ id : SourceID,
    left.filter (·.1.sourceID = id) = right.filter (·.1.sourceID = id)

/-- Neighbours of different sources may swap. -/
theorem interleaved_swap
    {first second : Arrival}
    (apart : first.1.sourceID ≠ second.1.sourceID) (rest : List Arrival) :
    Interleaved (first :: second :: rest) (second :: first :: rest) := by
  intro id
  by_cases own : first.1.sourceID = id
  · have other : second.1.sourceID ≠ id := own ▸ apart.symm
    simp [own, other]
  · simp [List.filter_cons, own]

theorem screened_filter
    (digest : Fact → Option String) (arrivals : List Arrival)
    (id : SourceID) :
    (screened digest arrivals).filter (·.fact.sourceID = id) =
      screened digest (arrivals.filter (·.1.sourceID = id)) := by
  unfold screened
  induction arrivals with
  | nil =>
      rfl
  | cons arrival rest inductionHypothesis =>
      rw [List.filterMap_cons, List.filter_cons]
      by_cases own : arrival.1.sourceID = id
      · rw [if_pos (by simpa using own), List.filterMap_cons]
        cases screen digest arrival.1 arrival.2 with
        | error _ =>
            exact inductionHypothesis
        | ok result =>
            simp only
            rw [List.filter_cons_of_pos (by simpa using own),
              inductionHypothesis]
      · rw [if_neg (by simpa using own)]
        cases screen digest arrival.1 arrival.2 with
        | error _ =>
            exact inductionHypothesis
        | ok result =>
            simp only
            rw [List.filter_cons_of_neg (by simpa using own),
              inductionHypothesis]

/-- Interleavings are decided alike, stream by stream. -/
theorem Interleaved.stream_eq
    {left right : List Arrival} (interleaved : Interleaved left right)
    (digest : Fact → Option String) (state : State) (id : SourceID) :
    stream id (acceptAll digest state left).1 =
      stream id (acceptAll digest state right).1 := by
  rw [acceptAll_eq_orderAll, acceptAll_eq_orderAll,
    (stream_orderAll id state _).1, (stream_orderAll id state _).1,
    screened_filter, screened_filter, interleaved id]

/-- What every decision says about its fact and role. -/
structure Event.Genuine (event : Event) : Prop where
  valid : validate event.fact = .ok ()
  offered : event.acceptance.outcome ≠ .rejected
  classified :
    ∃ declaration,
      connectivityByKey event.fact.sourceID event.fact.component =
          some declaration ∧
        declaration.role = event.acceptance.role
  placed :
    event.acceptance.outcome = .accepted →
      event.acceptance.hostSequence ≠ 0

theorem orderAll_genuine
    {state : State} {items : List Screened}
    (sound : ∀ item ∈ items, item.Sound) :
    ∀ event ∈ (orderAll state items).1, event.Genuine := by
  induction items generalizing state with
  | nil =>
      simp [orderAll]
  | cons item rest inductionHypothesis =>
      have own := sound item (by simp)
      have decided :=
        decideSource_decided state.hostSequence
          state.sources[item.fact.sourceID]? item.digest item.role
          own.positive
      rw [orderAll_cons]
      intro event member
      rcases List.mem_cons.mp member with rfl | later
      · refine ⟨own.valid, decided.offered, ?_, ?_⟩
        · obtain ⟨declaration, found, role⟩ := own.classified
          exact ⟨declaration, found, role.trans decided.role.symm⟩
        · intro accepted
          have placed := decided.hostSequence.trans (if_pos accepted)
          exact fun zero => Nat.succ_ne_zero _ (placed.symm.trans zero)
      · exact
          inductionHypothesis
            (fun other listed => sound other (List.mem_cons_of_mem _ listed))
            event later

end Hexroute.Accept
