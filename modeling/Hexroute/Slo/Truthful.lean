import Hexroute.Slo.Read

/-!
# What the availability series says

A returned series says at every instant what the stored evidence says, if the
change that a sort puts last at an instant is the one that holds from there
on.  Touching, nested and empty sleep intervals and observations of one
instant may come in another order.
-/

namespace Hexroute.Slo

open Hexroute.Lib

/-! ## What is claimed -/

/-- The last entry at or before an instant. -/
def LastUpTo {α : Type} (key : α → Nat) (entries : List α) (time : Nat)
    (entry : α) : Prop :=
  ∃ before after, entries = before ++ entry :: after ∧ key entry ≤ time ∧
    ∀ later ∈ after, time < key later

def Latest (observations : List Observation) (time : Nat)
    (observation : Observation) : Prop :=
  observation ∈ observations ∧ observation.time ≤ time ∧
    ∀ other ∈ observations, other.time ≤ time →
      other.place ≤ observation.place

def Interval.Covers (interval : Interval) (time : Nat) : Prop :=
  interval.startedAt ≤ time ∧ ∀ ending ∈ interval.endedAt, time < ending

def Asleep (intervals : List Interval) (time : Nat) : Prop :=
  ∃ interval ∈ intervals, interval.Covers time

structure Truthful (evidence : Evidence) (start stop : Nat)
    (states : List TwilightState) : Prop where
  agrees :
    ∀ time, start ≤ time → time < stop →
      ∃ state, LastUpTo TwilightState.time states time state ∧
        (state.awake = true ↔ ¬ Asleep evidence.intervals time) ∧
        (∃ observation, Latest evidence.carrier time observation ∧
          state.carrierAvailable = observation.ready) ∧
        ∃ observation, Latest evidence.transport time observation ∧
          state.transportReady = observation.ready
  names :
    ∀ state ∈ states, state.fails →
      ∃ incident ∈ evidence.incidents, incident.covers state.time ∧
        state.incident = some incident.id

/-! ## What the sorts may do -/

/-- The signal that is put last at an instant is that of the greatest
sequence there, or says the same. -/
def Observed (observations : List Observation) (signals : List Signal)
    (start : Nat) : Prop :=
  ∀ signal, LastUpTo Signal.time signals signal.time signal →
    start < signal.time →
      ∃ observation ∈ observations, observation.time = signal.time ∧
        observation.ready = signal.ready ∧
        ∀ other ∈ observations, other.time = signal.time →
          other.sequence ≤ observation.sequence

/-- An end that is put last at an instant lies in no interval, and a start
that is put last lies in one. -/
def Slept (intervals : List Interval) (changes : List Signal) (start : Nat) :
    Prop :=
  ∀ change, LastUpTo Signal.time changes change.time change →
    start < change.time →
      (change.ready = true ↔ ¬ Asleep intervals change.time)

structure Right (orders : Orders) (evidence : Evidence) (start stop : Nat) :
    Prop where
  carrier :
    Observed evidence.carrier
      (componentSignals orders evidence.carrier start stop) start
  transport :
    Observed evidence.transport
      (componentSignals orders evidence.transport start stop) start
  asleep :
    Slept evidence.intervals
      (sleepChanges orders evidence.intervals start stop) start

/-- No query of the window reaches its limit. -/
structure Uncut (evidence : Evidence) (start stop : Nat) : Prop where
  carrier :
    (observedWithin evidence.carrier start stop).length ≤
      maxCalculationPoints + 1
  transport :
    (observedWithin evidence.transport start stop).length ≤
      maxCalculationPoints + 1
  intervals :
    (meeting evidence.intervals start stop).length ≤ maxCalculationPoints

/-! ## Last entries -/

section Last

variable {α : Type} {key : α → Nat} {entries : List α} {time : Nat}

theorem exists_lastUpTo (some : ∃ entry ∈ entries, key entry ≤ time) :
    ∃ entry, LastUpTo key entries time entry := by
  induction entries with
  | nil =>
      obtain ⟨_, member, _⟩ := some
      exact absurd member List.not_mem_nil
  | cons head rest inductionHypothesis =>
      by_cases later : ∃ entry ∈ rest, key entry ≤ time
      · obtain ⟨entry, before, after, split, facts⟩ :=
          inductionHypothesis later
        refine ⟨entry, head :: before, after, ?_, facts⟩
        rw [split]
        rfl
      · obtain ⟨entry, member, low⟩ := some
        have isHead : entry = head := by
          rcases List.mem_cons.mp member with same | inRest
          · exact same
          · exact absurd ⟨entry, inRest, low⟩ later
        subst isHead
        refine ⟨entry, [], rest, rfl, low, ?_⟩
        intro other inRest
        by_contra high
        exact later ⟨other, inRest, Nat.not_lt.mp high⟩

theorem LastUpTo.mem {entry : α} (last : LastUpTo key entries time entry) :
    entry ∈ entries := by
  obtain ⟨before, after, rfl, _⟩ := last
  exact List.mem_append_right _ List.mem_cons_self

theorem LastUpTo.low {entry : α} (last : LastUpTo key entries time entry) :
    key entry ≤ time := by
  obtain ⟨_, _, _, low, _⟩ := last
  exact low

theorem LastUpTo.le
    {entry other : α} (last : LastUpTo key entries time entry)
    (ordered : entries.Pairwise fun left right => key left ≤ key right)
    (member : other ∈ entries) (low : key other ≤ time) :
    key other ≤ key entry := by
  obtain ⟨before, after, rfl, _, above⟩ := last
  rcases List.mem_append.mp member with earlier | inRest
  · exact
      (List.pairwise_append.mp ordered).2.2 other earlier entry
        List.mem_cons_self
  rcases List.mem_cons.mp inRest with rfl | later
  · exact le_refl _
  · exact absurd low (Nat.not_le.mpr (above other later))

/-- The last entry stays the last one down to its own instant. -/
theorem LastUpTo.down
    {entry : α} (last : LastUpTo key entries time entry) {earlier : Nat}
    (low : key entry ≤ earlier) (below : earlier ≤ time) :
    LastUpTo key entries earlier entry := by
  obtain ⟨before, after, split, _, above⟩ := last
  exact
    ⟨before, after, split, low,
      fun later member => lt_of_le_of_lt below (above later member)⟩

end Last

theorem valueAt_eq
    {series : List Signal} {time : Nat} {signal : Signal}
    (ordered :
      series.Pairwise fun left right => left.time ≤ right.time)
    (last : LastUpTo Signal.time series time signal) :
    valueAt series time = signal.ready := by
  obtain ⟨before, after, rfl, atTime, above⟩ := last
  have early : ∀ other ∈ before, other.time ≤ time := by
    intro other member
    exact
      ((List.pairwise_append.mp ordered).2.2 other member signal
        List.mem_cons_self).trans atTime
  have none : after.takeWhile (fun other => decide (other.time ≤ time)) = [] := by
    cases after with
    | nil => rfl
    | cons next rest =>
        apply List.takeWhile_cons_of_neg
        have high := above next List.mem_cons_self
        simpa using high
  unfold valueAt
  rw [List.takeWhile_append_of_pos (by simpa using early),
    List.takeWhile_cons_of_pos (by simpa using atTime), none]
  simp

/-! ## Components -/

section Component

variable {orders : Orders} {observations : List Observation}
  {start stop : Nat}

theorem place_le_iff {left right : Observation} :
    left.place ≤ right.place ↔
      left.time < right.time ∨
        left.time = right.time ∧ left.sequence ≤ right.sequence :=
  Prod.Lex.toLex_le_toLex

/-- The leading observation is the greatest one up to the start. -/
theorem latest_of_leading
    {leading : Observation}
    (found :
      (orders.observations.sort
        (observations.filter fun observation =>
          observation.time ≤ start)).getLast? = some leading) :
    Latest observations start leading := by
  have kept :=
    orders.observations.perm
      (observations.filter fun observation => observation.time ≤ start)
  have ordered :=
    orders.observations.ordered
      (observations.filter fun observation => observation.time ≤ start)
  have member := kept.mem_iff.mp (List.mem_of_getLast? found)
  obtain ⟨listed, low⟩ := List.mem_filter.mp member
  refine ⟨listed, of_decide_eq_true low, ?_⟩
  intro other known early
  have inSorted :=
    kept.mem_iff.mpr (List.mem_filter.mpr ⟨known, decide_eq_true early⟩)
  obtain ⟨init, split⟩ := List.getLast?_eq_some_iff.mp found
  rw [split] at ordered inSorted
  rcases List.mem_append.mp inSorted with inInit | isLast
  · exact
      (List.pairwise_append.mp ordered).2.2 other inInit leading
        List.mem_cons_self
  · rw [List.mem_singleton.mp isLast]

theorem mem_observedWithin {observation : Observation} :
    observation ∈ observedWithin observations start stop ↔
      observation ∈ observations ∧ start < observation.time ∧
        observation.time < stop := by
  unfold observedWithin
  rw [List.mem_filter, Bool.and_eq_true, decide_eq_true_eq,
    decide_eq_true_eq]

/-- Signals are those of the leading observation and of the window. -/
theorem mem_componentSignals
    (uncut :
      (observedWithin observations start stop).length ≤
        maxCalculationPoints + 1)
    {signal : Signal} :
    signal ∈ componentSignals orders observations start stop ↔
      (∃ leading, Latest observations start leading ∧
        (orders.observations.sort
          (observations.filter fun observation =>
            observation.time ≤ start)).getLast? = some leading ∧
        leading.signal = signal) ∨
      ∃ observation ∈ observedWithin observations start stop,
        observation.signal = signal := by
  have kept :=
    orders.observations.perm (observedWithin observations start stop)
  have whole :
      (orders.observations.sort
        (observedWithin observations start stop)).take
          (maxCalculationPoints + 1) =
        orders.observations.sort (observedWithin observations start stop) :=
    List.take_of_length_le (by rw [kept.length_eq]; exact uncut)
  unfold componentSignals
  dsimp only
  rw [whole, (orders.signals.perm _).mem_iff, List.map_append,
    List.mem_append, List.mem_map, List.mem_map]
  constructor
  · rintro (⟨leading, found, rfl⟩ | ⟨observation, member, rfl⟩)
    · have isLast := Option.mem_toList.mp found
      exact Or.inl ⟨leading, latest_of_leading isLast, isLast, rfl⟩
    · exact Or.inr ⟨observation, kept.mem_iff.mp member, rfl⟩
  · rintro (⟨leading, _, found, rfl⟩ | ⟨observation, member, rfl⟩)
    · exact Or.inl ⟨leading, Option.mem_toList.mpr found, rfl⟩
    · exact Or.inr ⟨observation, kept.mem_iff.mpr member, rfl⟩

theorem componentSignals_ordered :
    (componentSignals orders observations start stop).Pairwise
      fun left right => left.time ≤ right.time :=
  orders.signals.ordered _

/-- A component says the latest observation at every instant exactly when the
signals that are put last do. -/
theorem component_iff
    (uncut :
      (observedWithin observations start stop).length ≤
        maxCalculationPoints + 1)
    (opens :
      opensBy (componentSignals orders observations start stop) start) :
    (∀ time, start ≤ time → time < stop →
      ∃ observation, Latest observations time observation ∧
        valueAt (componentSignals orders observations start stop) time =
          observation.ready) ↔
      Observed observations
        (componentSignals orders observations start stop) start := by
  have within :
      ∀ {other : Observation} {time : Nat} {signal : Signal},
        LastUpTo Signal.time
            (componentSignals orders observations start stop) time signal →
          other ∈ observations → start < other.time → other.time ≤ time →
            time < stop → other.time ≤ signal.time := by
    intro other time signal last known inside low high
    have listed := mem_observedWithin.mpr ⟨known, inside, low.trans_lt high⟩
    exact
      last.le componentSignals_ordered
        ((mem_componentSignals uncut).mpr (Or.inr ⟨other, listed, rfl⟩)) low
  constructor
  · intro agrees signal last inside
    have source := (mem_componentSignals uncut).mp last.mem
    rcases source with ⟨leading, latest, _, rfl⟩ | ⟨own, member, rfl⟩
    · exact absurd latest.2.1 (Nat.not_le.mpr inside)
    obtain ⟨known, _, early⟩ := mem_observedWithin.mp member
    obtain ⟨observation, latest, value⟩ :=
      agrees own.time inside.le early
    have ready := (valueAt_eq componentSignals_ordered last).symm.trans value
    have below := place_le_iff.mp (latest.2.2 own known (le_refl _))
    have low := latest.2.1
    have sameTime : observation.time = own.time := by omega
    refine ⟨observation, latest.1, sameTime, ready.symm, ?_⟩
    intro other listed same
    have place := place_le_iff.mp (latest.2.2 other listed same.le)
    have isSame : other.time = own.time := same
    omega
  · intro observed time from' below
    have some :
        ∃ signal ∈ componentSignals orders observations start stop,
          signal.time ≤ time := by
      obtain ⟨signal, member, low⟩ := List.any_eq_true.mp opens
      exact ⟨signal, member, (of_decide_eq_true low).trans from'⟩
    obtain ⟨signal, last⟩ := exists_lastUpTo some
    have low : signal.time ≤ time := last.low
    rw [valueAt_eq componentSignals_ordered last]
    by_cases inside : start < signal.time
    · obtain ⟨observation, known, sameTime, ready, greatest⟩ :=
        observed signal (last.down (le_refl _) low) inside
      refine ⟨observation, ⟨known, by omega, ?_⟩, ready.symm⟩
      intro other listed early
      apply place_le_iff.mpr
      by_cases leads : other.time ≤ start
      · omega
      · have bound := within last listed (by omega) early below
        by_cases same : other.time = signal.time
        · have least := greatest other listed same
          omega
        · omega
    · rcases (mem_componentSignals uncut).mp last.mem with
        ⟨leading, latest, _, rfl⟩ | ⟨own, member, rfl⟩
      swap
      · exact absurd (mem_observedWithin.mp member).2.1 inside
      refine ⟨leading, ⟨latest.1, low, ?_⟩, rfl⟩
      intro other listed early
      by_cases leads : other.time ≤ start
      · exact latest.2.2 other listed leads
      · have bound := within last listed (by omega) early below
        exact absurd latest.2.1 (by
          have same : leading.signal.time = leading.time := rfl
          omega)

end Component

/-! ## Sleep -/

section Sleep

variable {orders : Orders} {intervals : List Interval} {start stop : Nat}

theorem mem_meeting {interval : Interval} :
    interval ∈ meeting intervals start stop ↔
      interval ∈ intervals ∧ interval.startedAt < stop ∧
        ∀ ending ∈ interval.endedAt, start < ending := by
  unfold meeting
  rw [List.mem_filter, Bool.and_eq_true, decide_eq_true_eq,
    Option.all_eq_true]
  simp only [decide_eq_true_eq, Option.mem_def]

theorem mem_changes {interval : Interval} {change : Signal} :
    change ∈ interval.changes start stop ↔
      change = ⟨interval.startedAt, false⟩ ∧ start < interval.startedAt ∨
        ∃ ending ∈ interval.endedAt, change = ⟨ending, true⟩ ∧
          start < ending ∧ ending < stop := by
  unfold Interval.changes
  rw [List.mem_append]
  refine or_congr ?_ ?_
  · split
    · rename_i inside
      simp [inside]
    · rename_i outside
      simp [outside]
  · simp only [List.mem_map, List.mem_filter, Option.mem_toList,
      Bool.and_eq_true, decide_eq_true_eq]
    constructor
    · rintro ⟨ending, ⟨ends, bounds⟩, rfl⟩
      exact ⟨ending, ends, rfl, bounds⟩
    · rintro ⟨ending, ends, rfl, bounds⟩
      exact ⟨ending, ⟨ends, bounds⟩, rfl⟩

/-- A window that opens in an interval meets it. -/
theorem asleep_iff_meeting (proper : start < stop) :
    Asleep intervals start ↔
      ∃ interval ∈ meeting intervals start stop,
        interval.startedAt ≤ start := by
  constructor
  · rintro ⟨interval, known, begun, going⟩
    exact
      ⟨interval,
        mem_meeting.mpr ⟨known, lt_of_le_of_lt begun proper, going⟩, begun⟩
  · rintro ⟨interval, member, begun⟩
    obtain ⟨known, _, going⟩ := mem_meeting.mp member
    exact ⟨interval, known, begun, going⟩

/-- Changes are the opening one and those of the intervals. -/
theorem mem_sleepChanges
    (proper : start < stop)
    (uncut : (meeting intervals start stop).length ≤ maxCalculationPoints)
    {change : Signal} :
    change ∈ sleepChanges orders intervals start stop ↔
      (change.time = start ∧
        (change.ready = true ↔ ¬ Asleep intervals start)) ∨
      ∃ interval ∈ meeting intervals start stop,
        change ∈ interval.changes start stop := by
  have kept := orders.intervals.perm (meeting intervals start stop)
  have whole :
      (orders.intervals.sort (meeting intervals start stop)).take
          maxCalculationPoints =
        orders.intervals.sort (meeting intervals start stop) :=
    List.take_of_length_le (by rw [kept.length_eq]; exact uncut)
  have opening :
      ((orders.intervals.sort (meeting intervals start stop)).all
        fun interval => decide (start < interval.startedAt)) = true ↔
        ¬ Asleep intervals start := by
    rw [asleep_iff_meeting proper, List.all_eq_true]
    constructor
    · rintro later ⟨interval, member, begun⟩
      have after :=
        of_decide_eq_true (later interval (kept.mem_iff.mpr member))
      omega
    · intro awake interval member
      apply decide_eq_true
      by_contra begun
      exact
        awake ⟨interval, kept.mem_iff.mp member, Nat.not_lt.mp begun⟩
  unfold sleepChanges
  dsimp only
  rw [whole, (orders.signals.perm _).mem_iff, List.mem_cons,
    List.mem_flatMap]
  refine or_congr ?_ ?_
  · constructor
    · rintro rfl
      exact ⟨rfl, opening⟩
    · rintro ⟨time, ready⟩
      obtain ⟨_, value⟩ := change
      cases time
      congr 1
      exact Bool.eq_iff_iff.mpr (ready.trans opening.symm)
  · constructor
    · rintro ⟨interval, member, listed⟩
      exact ⟨interval, kept.mem_iff.mp member, listed⟩
    · rintro ⟨interval, member, listed⟩
      exact ⟨interval, kept.mem_iff.mpr member, listed⟩

theorem sleepChanges_ordered :
    (sleepChanges orders intervals start stop).Pairwise
      fun left right => left.time ≤ right.time :=
  orders.signals.ordered _

/-- Nothing starts or ends between the last change and an instant. -/
theorem asleep_iff_of_last
    (proper : start < stop)
    (uncut : (meeting intervals start stop).length ≤ maxCalculationPoints)
    {time : Nat} {change : Signal}
    (last :
      LastUpTo Signal.time (sleepChanges orders intervals start stop) time
        change)
    (from' : start ≤ change.time) (below : time < stop) :
    Asleep intervals time ↔ Asleep intervals change.time := by
  have low : change.time ≤ time := last.low
  have none :
      ∀ {other : Signal} {interval : Interval},
        interval ∈ meeting intervals start stop →
          other ∈ interval.changes start stop → other.time ≤ time →
            other.time ≤ change.time := by
    intro other interval member listed early
    exact
      last.le sleepChanges_ordered
        ((mem_sleepChanges proper uncut).mpr
          (Or.inr ⟨interval, member, listed⟩))
        early
  constructor
  · rintro ⟨interval, known, begun, going⟩
    refine ⟨interval, known, ?_, ?_⟩
    · by_contra after
      have member : interval ∈ meeting intervals start stop :=
        mem_meeting.mpr
          ⟨known, lt_of_le_of_lt begun below,
            fun ending ends => by
              have later := going ending ends
              omega⟩
      have bound :=
        none member (mem_changes.mpr (Or.inl ⟨rfl, by omega⟩)) begun
      exact after bound
    · intro ending ends
      exact lt_of_le_of_lt low (going ending ends)
  · rintro ⟨interval, known, begun, going⟩
    refine ⟨interval, known, begun.trans low, ?_⟩
    intro ending ends
    by_contra ended
    have after := going ending ends
    have member : interval ∈ meeting intervals start stop :=
      mem_meeting.mpr
        ⟨known, by omega,
          fun other isEnd => by
            cases ends.symm.trans isEnd
            omega⟩
    have bound :=
      none member
        (mem_changes.mpr (Or.inr ⟨ending, ends, rfl, by omega, by omega⟩))
        (Nat.not_lt.mp ended)
    have same : ending ≤ change.time := bound
    omega

theorem time_of_mem_sleepChanges
    (proper : start < stop)
    (uncut : (meeting intervals start stop).length ≤ maxCalculationPoints)
    {change : Signal}
    (member : change ∈ sleepChanges orders intervals start stop) :
    start ≤ change.time ∧ change.time < stop ∧
      (change.time = start →
        (change.ready = true ↔ ¬ Asleep intervals start)) := by
  rcases (mem_sleepChanges proper uncut).mp member with
    ⟨time, ready⟩ | ⟨interval, listed, inChanges⟩
  · exact ⟨time.ge, by omega, fun _ => ready⟩
  rcases mem_changes.mp inChanges with ⟨rfl, after⟩ | ⟨ending, ends, rfl, bounds⟩
  · have begun := (mem_meeting.mp listed).2.1
    exact ⟨after.le, begun, fun same => absurd same after.ne'⟩
  · exact ⟨bounds.1.le, bounds.2, fun same => absurd same bounds.1.ne'⟩

/-- The series says whether the node is awake exactly when the changes that
are put last do. -/
theorem sleep_iff
    (proper : start < stop)
    (uncut : (meeting intervals start stop).length ≤ maxCalculationPoints) :
    (∀ time, start ≤ time → time < stop →
      (valueAt (sleepChanges orders intervals start stop) time = true ↔
        ¬ Asleep intervals time)) ↔
      Slept intervals (sleepChanges orders intervals start stop) start := by
  constructor
  · intro agrees change last inside
    have bounds := time_of_mem_sleepChanges proper uncut last.mem
    have value := agrees change.time inside.le bounds.2.1
    rwa [valueAt_eq sleepChanges_ordered last] at value
  · intro slept time from' below
    have some :
        ∃ change ∈ sleepChanges orders intervals start stop,
          change.time ≤ time := by
      by_cases asleep : Asleep intervals start
      · refine ⟨⟨start, false⟩, ?_, from'⟩
        exact
          (mem_sleepChanges proper uncut).mpr
            (Or.inl ⟨rfl, by simp [asleep]⟩)
      · refine ⟨⟨start, true⟩, ?_, from'⟩
        exact
          (mem_sleepChanges proper uncut).mpr
            (Or.inl ⟨rfl, by simp [asleep]⟩)
    obtain ⟨change, last⟩ := exists_lastUpTo some
    have bounds := time_of_mem_sleepChanges proper uncut last.mem
    have low : change.time ≤ time := last.low
    rw [valueAt_eq sleepChanges_ordered last,
      asleep_iff_of_last proper uncut last bounds.1 below]
    by_cases inside : start < change.time
    · exact slept change (last.down (le_refl _) low) inside
    · have same : change.time = start := by omega
      rw [same]
      exact bounds.2.2 same

end Sleep

/-! ## States -/

section States

variable {orders : Orders} {evidence : Evidence} {start stop : Nat}
  {states : List TwilightState}

theorem Returned.exists_state
    (returned : Returned orders evidence start stop states) {time : Nat}
    (from' : start ≤ time) :
    ∃ state, LastUpTo TwilightState.time states time state := by
  obtain ⟨first, rest, rfl, low⟩ := returned.opens
  exact exists_lastUpTo ⟨first, List.mem_cons_self, low.trans from'⟩

/-- A series has the same value at an instant and at the state that stands
there. -/
theorem Returned.valueAt_state
    (returned : Returned orders evidence start stop states) {time : Nat}
    (from' : start ≤ time) {state : TwilightState}
    (last : LastUpTo TwilightState.time states time state)
    {series : List Signal}
    (part :
      ∀ signal ∈ series, signal ∈ (evidence.series orders start stop).all)
    (ordered : series.Pairwise fun left right => left.time ≤ right.time)
    (opens : ∃ signal ∈ series, signal.time ≤ start) :
    valueAt series state.time = valueAt series time := by
  have low : state.time ≤ time := last.low
  obtain ⟨first, member, leads⟩ := opens
  obtain ⟨signal, lastSignal⟩ :=
    @exists_lastUpTo _ Signal.time series time
      ⟨first, member, leads.trans from'⟩
  have early : signal.time ≤ time := lastSignal.low
  have listed :
      max signal.time start ∈
        (evidence.series orders start stop).instants start := by
    unfold Series.instants
    refine (sortBy_perm _).mem_iff.mpr ?_
    exact
      List.mem_map.mpr ⟨signal, part signal lastSignal.mem, rfl⟩
  obtain ⟨other, inStates, isTime⟩ :=
    (returned.merged.times _).mpr ⟨listed, by simp⟩
  have bound : other.time ≤ state.time :=
    last.le (returned.merged.rising.imp le_of_lt) inStates (by omega)
  rw [valueAt_eq ordered lastSignal,
    valueAt_eq ordered (lastSignal.down (by omega) low)]

theorem Returned.opens_asleep
    (returned : Returned orders evidence start stop states)
    (uncut : Uncut evidence start stop) :
    ∃ signal ∈ (evidence.series orders start stop).asleep,
      signal.time ≤ start := by
  have value : ∃ ready : Bool,
      (ready = true ↔ ¬ Asleep evidence.intervals start) := by
    by_cases asleep : Asleep evidence.intervals start
    · exact ⟨false, by simp [asleep]⟩
    · exact ⟨true, by simp [asleep]⟩
  obtain ⟨ready, facts⟩ := value
  exact
    ⟨⟨start, ready⟩,
      (mem_sleepChanges returned.proper uncut.intervals).mpr
        (Or.inl ⟨rfl, facts⟩),
      le_refl _⟩

/-- The state that stands at an instant has the values of the series there. -/
theorem Returned.state_values
    (returned : Returned orders evidence start stop states)
    (uncut : Uncut evidence start stop) {time : Nat} (from' : start ≤ time)
    {state : TwilightState}
    (last : LastUpTo TwilightState.time states time state) :
    state.awake =
        valueAt (sleepChanges orders evidence.intervals start stop) time ∧
      state.carrierAvailable =
        valueAt (componentSignals orders evidence.carrier start stop) time ∧
      state.transportReady =
        valueAt
          (componentSignals orders evidence.transport start stop) time := by
  have built := (Series.stateAt_eq_ok (returned.merged.built state last.mem)).1
  have opened :
      ∀ {series : List Signal}, opensBy series start = true →
        ∃ signal ∈ series, signal.time ≤ start := by
    intro series opens
    obtain ⟨signal, member, low⟩ := List.any_eq_true.mp opens
    exact ⟨signal, member, of_decide_eq_true low⟩
  have asleep :=
    @Returned.valueAt_state _ _ _ _ _ returned time from' state last
      (evidence.series orders start stop).asleep
      (fun _ member => List.mem_append_right _ member)
      sleepChanges_ordered (returned.opens_asleep uncut)
  have carrier :=
    @Returned.valueAt_state _ _ _ _ _ returned time from' state last
      (evidence.series orders start stop).carrier
      (fun _ member => List.mem_append_left _ (List.mem_append_left _ member))
      componentSignals_ordered (opened returned.leads.1)
  have transport :=
    @Returned.valueAt_state _ _ _ _ _ returned time from' state last
      (evidence.series orders start stop).transport
      (fun _ member => List.mem_append_left _ (List.mem_append_right _ member))
      componentSignals_ordered (opened returned.leads.2)
  refine ⟨?_, ?_, ?_⟩
  · rw [built]
    exact asleep
  · rw [built]
    exact carrier
  · rw [built]
    exact transport

/-- Every state that fails names a stored incident. -/
theorem Returned.names
    (returned : Returned orders evidence start stop states)
    {state : TwilightState} (member : state ∈ states) (fails : state.fails) :
    ∃ incident ∈ evidence.incidents, incident.covers state.time ∧
      state.incident = some incident.id := by
  have facts :=
    (Series.stateAt_eq_ok (returned.merged.built state member)).2
  rw [if_pos fails] at facts
  obtain ⟨incident, listed, covers, named⟩ := facts
  refine ⟨incident, ?_, covers, named⟩
  have read := List.mem_of_mem_take listed
  exact
    (List.mem_filter.mp ((orders.incidents.perm _).mem_iff.mp read)).1

end States

section Example

/-- A node that is ready and sleeps at some times. -/
def readyEvidence (intervals : List Interval) : Evidence where
  carrier := [⟨5, 1, true⟩]
  transport := [⟨5, 1, true⟩]
  intervals := intervals
  incidents := []

theorem uncut_ready (intervals : List Interval)
    (few : intervals.length ≤ maxCalculationPoints) :
    Uncut (readyEvidence intervals) 10 100 := by
  have none :
      (observedWithin [⟨5, 1, true⟩] 10 100).length ≤
        maxCalculationPoints + 1 := by
    decide
  exact ⟨none, none, (List.length_filter_le _ _).trans few⟩

end Example

end Hexroute.Slo
