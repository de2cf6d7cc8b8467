import Hexroute.Lib.Refusal
import Hexroute.Lib.StableSort

/-!
# The state series of an availability window

The evidence of a node is read as three series of changes, of the carrier, of
the transport and of sleep.  Each one is sorted by its instants, and equal
instants may come in any order.  The series are merged into states, one for
each instant at which something changes.
-/

namespace Hexroute.Slo

open Hexroute.Lib

/-! ## Evidence -/

/-- An observation of one component.  Times are nanoseconds since the zero
time. -/
structure Observation where
  time : Nat
  sequence : Nat
  ready : Bool
  deriving DecidableEq, Repr

structure Interval where
  startedAt : Nat
  endedAt : Option Nat
  deriving DecidableEq, Repr

structure Incident where
  id : Nat
  openedAt : Nat
  resolvedAt : Option Nat
  deriving DecidableEq, Repr

/-- What is stored for a node: the observations of its network and of its
tunnel, its sleep intervals and the incidents of its tunnel. -/
structure Evidence where
  carrier : List Observation
  transport : List Observation
  intervals : List Interval
  incidents : List Incident
  deriving DecidableEq, Repr

structure Signal where
  time : Nat
  ready : Bool
  deriving DecidableEq, Repr

structure TwilightState where
  time : Nat
  awake : Bool
  carrierAvailable : Bool
  transportReady : Bool
  incident : Option Nat
  deriving DecidableEq, Repr

inductive SloError where
  | invalid
  | leadingStateUnknown
  | unattributedFailure
  | tooManyStateChanges
  deriving DecidableEq, Repr

def maxCalculationPoints : Nat := 4096

/-- The order of `occurred_at, sequence`. -/
def Observation.place (observation : Observation) : Nat ×ₗ Nat :=
  toLex (observation.time, observation.sequence)

/-- How the database and the sorts put equal entries. -/
structure Orders where
  observations : Arrangement Observation.place
  intervals : Arrangement Interval.startedAt
  incidents : Arrangement Incident.openedAt
  signals : Arrangement Signal.time

/-- Sorts that keep the order they find. -/
def stableOrders : Orders :=
  ⟨.stable _, .stable _, .stable _, .stable _⟩

/-! ## Series -/

def Observation.signal (observation : Observation) : Signal :=
  ⟨observation.time, observation.ready⟩

/-- The observations within a window. -/
def observedWithin (observations : List Observation) (start stop : Nat) :
    List Observation :=
  observations.filter fun observation =>
    decide (start < observation.time) && decide (observation.time < stop)

/-- The last observation at or before the start, and those within the
window. -/
def componentSignals (orders : Orders) (observations : List Observation)
    (start stop : Nat) : List Signal :=
  let leading :=
    (orders.observations.sort
      (observations.filter fun observation =>
        observation.time ≤ start)).getLast?.toList
  let inside :=
    (orders.observations.sort
      (observedWithin observations start stop)).take
        (maxCalculationPoints + 1)
  orders.signals.sort ((leading ++ inside).map Observation.signal)

/-- The intervals that a window meets. -/
def meeting (intervals : List Interval) (start stop : Nat) :
    List Interval :=
  intervals.filter fun interval =>
    decide (interval.startedAt < stop) &&
      interval.endedAt.all fun ending => decide (start < ending)

def Interval.changes (interval : Interval) (start stop : Nat) :
    List Signal :=
  (if start < interval.startedAt then [⟨interval.startedAt, false⟩]
    else []) ++
  (interval.endedAt.toList.filter fun ending =>
    decide (start < ending) && decide (ending < stop)).map (⟨·, true⟩)

/-- The node is awake at the start unless an interval has begun by then. -/
def sleepChanges (orders : Orders) (intervals : List Interval)
    (start stop : Nat) : List Signal :=
  let read :=
    (orders.intervals.sort (meeting intervals start stop)).take
      maxCalculationPoints
  orders.signals.sort
    (⟨start, read.all fun interval => start < interval.startedAt⟩ ::
      read.flatMap (·.changes start stop))

def incidentSpans (orders : Orders) (incidents : List Incident)
    (start stop : Nat) : List Incident :=
  (orders.incidents.sort
    (incidents.filter fun incident =>
      decide (incident.openedAt < stop) &&
        incident.resolvedAt.all fun resolved => decide (start < resolved))).take
    maxCalculationPoints

def Incident.covers (incident : Incident) (time : Nat) : Bool :=
  decide (incident.openedAt ≤ time) &&
    incident.resolvedAt.all fun resolved => decide (time < resolved)

def incidentAt (incidents : List Incident) (time : Nat) : Option Nat :=
  (incidents.find? (·.covers time)).map Incident.id

def opensBy (series : List Signal) (time : Nat) : Bool :=
  series.any fun signal => signal.time ≤ time

/-- The last change before the first one that comes after an instant. -/
def valueAt (series : List Signal) (time : Nat) : Bool :=
  ((series.takeWhile fun signal => signal.time ≤ time).getLast?.map
    Signal.ready).getD false

/-! ## The merge -/

structure Series where
  carrier : List Signal
  transport : List Signal
  asleep : List Signal

def Series.all (series : Series) : List Signal :=
  series.carrier ++ series.transport ++ series.asleep

def Series.state (series : Series) (incident : Option Nat) (time : Nat) :
    TwilightState where
  time := time
  awake := valueAt series.asleep time
  carrierAvailable := valueAt series.carrier time
  transportReady := valueAt series.transport time
  incident := incident

/-- Eligible time that is not good. -/
def TwilightState.fails (state : TwilightState) : Bool :=
  state.awake && state.carrierAvailable && !state.transportReady

def Series.stateAt (series : Series) (incidents : List Incident)
    (time : Nat) : Except SloError TwilightState :=
  if (series.state none time).fails then
    match incidentAt incidents time with
    | none => .error .unattributedFailure
    | some incident => .ok (series.state (some incident) time)
  else .ok (series.state none time)

/-- One state for every new instant. -/
def mergeFrom (series : Series) (incidents : List Incident) :
    Nat → Option Nat → List Nat → Except SloError (List TwilightState)
  | _, _, [] => pure []
  | count, previous, time :: rest =>
      if ∃ last ∈ previous, time ≤ last then
        mergeFrom series incidents count (some time) rest
      else do
        let state ← series.stateAt incidents time
        refuse (maxCalculationPoints < count + 1) .tooManyStateChanges
        let states ← mergeFrom series incidents (count + 1) (some time) rest
        pure (state :: states)

def Series.instants (series : Series) (start : Nat) : List Nat :=
  sortBy id (series.all.map fun signal => max signal.time start)

def merge (series : Series) (incidents : List Incident) (start : Nat) :
    Except SloError (List TwilightState) := do
  refuse (!opensBy series.carrier start || !opensBy series.transport start)
    .leadingStateUnknown
  let states ← mergeFrom series incidents 0 none (series.instants start)
  refuse (states.head?.all fun state => start < state.time)
    .leadingStateUnknown
  pure states

def Evidence.series (evidence : Evidence) (orders : Orders)
    (start stop : Nat) : Series where
  carrier := componentSignals orders evidence.carrier start stop
  transport := componentSignals orders evidence.transport start stop
  asleep := sleepChanges orders evidence.intervals start stop

/-- The states of one window of a node. -/
def twilightStates (orders : Orders) (evidence : Evidence)
    (start stop : Nat) : Except SloError (List TwilightState) := do
  refuse (start = 0 ∨ stop ≤ start) .invalid
  let series := evidence.series orders start stop
  refuse
    (series.carrier.head?.all (fun signal => start < signal.time) ||
      series.transport.head?.all fun signal => start < signal.time)
    .leadingStateUnknown
  merge series (incidentSpans orders evidence.incidents start stop) start

/-! ## What a merge returns -/

section Merge

variable {series : Series} {incidents : List Incident}

/-- A state that fails names an incident that covers its instant. -/
theorem Series.stateAt_eq_ok
    {time : Nat} {state : TwilightState}
    (built : series.stateAt incidents time = .ok state) :
    state = series.state state.incident time ∧
      if state.fails then
        ∃ incident ∈ incidents, incident.covers time ∧
          state.incident = some incident.id
      else state.incident = none := by
  unfold Series.stateAt at built
  split at built
  · rename_i fails
    split at built
    · cases built
    · rename_i id found
      cases built
      refine ⟨rfl, ?_⟩
      have still : (series.state (some id) time).fails = true := fails
      rw [if_pos still]
      obtain ⟨incident, first, rfl⟩ := Option.map_eq_some_iff.mp found
      have covers := List.find?_some first
      exact ⟨incident, List.mem_of_find?_eq_some first, covers, rfl⟩
  · rename_i passes
    cases built
    exact ⟨rfl, by rw [if_neg passes]; rfl⟩

/-- The states of the instants after the previous one, in order. -/
structure Merged (series : Series) (incidents : List Incident)
    (previous : Option Nat) (times : List Nat)
    (states : List TwilightState) : Prop where
  rising : states.Pairwise fun earlier later => earlier.time < later.time
  times :
    ∀ time, (∃ state ∈ states, state.time = time) ↔
      time ∈ times ∧ ∀ last ∈ previous, last < time
  built :
    ∀ state ∈ states, series.stateAt incidents state.time = .ok state

theorem merged_of_mergeFrom
    {count : Nat} {previous : Option Nat} {times : List Nat}
    {states : List TwilightState}
    (ordered : times.Pairwise (· ≤ ·))
    (above : ∀ last ∈ previous, ∀ time ∈ times, last ≤ time)
    (merges : mergeFrom series incidents count previous times = .ok states) :
    Merged series incidents previous times states ∧
      (states ≠ [] → count + states.length ≤ maxCalculationPoints) := by
  induction times generalizing count previous states with
  | nil =>
      rw [← pure_eq_ok_iff.mp merges]
      exact
        ⟨⟨List.Pairwise.nil, by simp, by simp⟩, fun some => absurd rfl some⟩
  | cons time rest inductionHypothesis =>
      obtain ⟨later, tail⟩ := List.pairwise_cons.mp ordered
      have onwards : ∀ last ∈ some time, ∀ next ∈ rest, last ≤ next := by
        intro last isLast next member
        cases isLast
        exact later next member
      unfold mergeFrom at merges
      split at merges
      · rename_i repeated
        obtain ⟨last, isLast, low⟩ := repeated
        have same : time = last :=
          Nat.le_antisymm low (above last isLast time List.mem_cons_self)
        subst same
        obtain ⟨merged, size⟩ := inductionHypothesis tail onwards merges
        refine ⟨⟨merged.rising, ?_, merged.built⟩, size⟩
        intro wanted
        rw [merged.times, List.mem_cons, Option.mem_def.mp isLast]
        constructor
        · rintro ⟨member, more⟩
          exact ⟨Or.inr member, more⟩
        · rintro ⟨rfl | member, more⟩
          · exact absurd (more wanted rfl) (Nat.lt_irrefl _)
          · exact ⟨member, more⟩
      · rename_i fresh
        obtain ⟨state, built, merges⟩ := bind_eq_ok_iff.mp merges
        obtain ⟨_, few, merges⟩ := bind_eq_ok_iff.mp merges
        obtain ⟨states, merges, returned⟩ := bind_eq_ok_iff.mp merges
        obtain ⟨merged, size⟩ := inductionHypothesis tail onwards merges
        rw [← pure_eq_ok_iff.mp returned]
        have isTime : state.time = time := by
          rw [(Series.stateAt_eq_ok built).1]
          rfl
        have after : ∀ last ∈ previous, last < time := by
          intro last isLast
          by_contra low
          exact fresh ⟨last, isLast, Nat.not_lt.mp low⟩
        refine ⟨⟨?_, ?_, ?_⟩, ?_⟩
        · refine List.pairwise_cons.mpr ⟨?_, merged.rising⟩
          intro other member
          rw [isTime]
          exact ((merged.times _).mp ⟨other, member, rfl⟩).2 time rfl
        · intro wanted
          constructor
          · rintro ⟨other, member, rfl⟩
            rcases List.mem_cons.mp member with rfl | inner
            · rw [isTime]
              exact ⟨List.mem_cons_self, after⟩
            · obtain ⟨listed, more⟩ :=
                (merged.times _).mp ⟨other, inner, rfl⟩
              refine ⟨List.mem_cons_of_mem _ listed, ?_⟩
              intro last isLast
              exact (after last isLast).trans (more time rfl)
          · rintro ⟨member, more⟩
            by_cases same : wanted = time
            · exact ⟨state, List.mem_cons_self, isTime.trans same.symm⟩
            have inRest := (List.mem_cons.mp member).resolve_left same
            obtain ⟨other, listed, isOther⟩ :=
              (merged.times wanted).mpr
                ⟨inRest, fun last isLast => by
                  cases isLast
                  have low := later wanted inRest
                  omega⟩
            exact ⟨other, List.mem_cons_of_mem _ listed, isOther⟩
        · intro other member
          rcases List.mem_cons.mp member with rfl | inner
          · rw [isTime]
            exact built
          · exact merged.built other inner
        · intro _
          have bound := refuse_eq_ok_iff.mp few
          cases states with
          | nil =>
              rw [List.length_singleton]
              omega
          | cons _ _ =>
              have more := size (List.cons_ne_nil _ _)
              simp only [List.length_cons] at more ⊢
              omega

/-- A series that is returned: its states stand at the instants of the merged
series, the first one at the start of the window. -/
structure Returned (orders : Orders) (evidence : Evidence)
    (start stop : Nat) (states : List TwilightState) : Prop where
  positive : 0 < start
  proper : start < stop
  leads :
    opensBy (evidence.series orders start stop).carrier start ∧
      opensBy (evidence.series orders start stop).transport start
  merged :
    Merged (evidence.series orders start stop)
      (incidentSpans orders evidence.incidents start stop) none
      ((evidence.series orders start stop).instants start) states
  few : states.length ≤ maxCalculationPoints
  opens : ∃ first rest, states = first :: rest ∧ first.time ≤ start

theorem returned_of_twilightStates
    {orders : Orders} {evidence : Evidence} {start stop : Nat}
    {states : List TwilightState}
    (built : twilightStates orders evidence start stop = .ok states) :
    Returned orders evidence start stop states := by
  unfold twilightStates at built
  obtain ⟨_, valid, built⟩ := bind_eq_ok_iff.mp built
  obtain ⟨_, _, built⟩ := bind_eq_ok_iff.mp built
  have proper := refuse_eq_ok_iff.mp valid
  unfold merge at built
  obtain ⟨_, opens, built⟩ := bind_eq_ok_iff.mp built
  obtain ⟨merged, merges, built⟩ := bind_eq_ok_iff.mp built
  obtain ⟨_, leads, returned⟩ := bind_eq_ok_iff.mp built
  cases pure_eq_ok_iff.mp returned
  obtain ⟨facts, size⟩ :=
    merged_of_mergeFrom
      (sortBy_ordered ((evidence.series orders start stop).all.map
        fun signal => max signal.time start))
      (by simp) merges
  have first : ¬ (states.head?.all fun state => decide (start < state.time)) := by
    simpa using refuse_eq_ok_iff.mp leads
  cases states with
  | nil => exact absurd rfl first
  | cons head rest =>
      refine ⟨by omega, by omega, ?_, facts, ?_, head, rest, rfl, ?_⟩
      · have both := refuse_eq_ok_iff.mp opens
        simpa using both
      · have bound := size (List.cons_ne_nil _ _)
        omega
      · simpa using first

end Merge

end Hexroute.Slo
