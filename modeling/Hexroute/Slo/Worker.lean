import Hexroute.Lib.AppendNew
import Hexroute.Lib.History
import Hexroute.Slo.Read

/-!
# Hourly aggregates

A pass of the worker calculates every closed hour of its lookback that has no
aggregate yet.  An hour that cannot be measured is left for a later pass, and
an hour that has an aggregate is never looked at again.
-/

namespace Hexroute.Slo

open Hexroute.Lib

/-! ## The calculation -/

/-- An hour in nanoseconds. -/
def hour : Nat := 3600 * 1000000000

def millisecond : Nat := 1000000

inductive LinkRole where
  | exclusion
  | failure
  | recovery
  deriving DecidableEq, Repr

def LinkRole.rank : LinkRole → Nat
  | .exclusion => 0
  | .failure => 1
  | .recovery => 2

structure IncidentLink where
  incident : Nat
  role : LinkRole
  deriving DecidableEq, Repr

/-- A request for an hour of a node. -/
structure Request where
  windowStart : Nat
  windowEnd : Nat
  computedAt : Nat
  deriving DecidableEq, Repr

structure Figures where
  eligible : Nat
  good : Nat
  bad : Nat
  excluded : Nat
  links : List IncidentLink
  deriving DecidableEq, Repr

structure Aggregate where
  request : Request
  figures : Figures
  deriving DecidableEq, Repr

def Request.valid (request : Request) : Bool :=
  request.windowStart ≠ 0 && request.windowEnd ≠ 0 &&
    request.windowStart < request.windowEnd && request.computedAt ≠ 0 &&
    request.windowEnd ≤ request.computedAt &&
    request.windowEnd - request.windowStart = hour &&
    request.windowStart % hour = 0

structure Tally where
  good : Nat
  bad : Nat
  links : List IncidentLink
  deriving DecidableEq, Repr

def addLink (links : List IncidentLink) (incident : Option Nat)
    (role : LinkRole) : List IncidentLink :=
  match incident with
  | none => links
  | some incident => appendNew links [⟨incident, role⟩]

/-- When a state ends: at the next one or with the window. -/
def endOf (request : Request) (rest : List TwilightState) : Nat :=
  match rest with
  | [] => request.windowEnd
  | next :: _ => min request.windowEnd next.time

def Tally.add (tally : Tally) (state : TwilightState) (length : Nat) :
    Except SloError Tally :=
  if state.awake && state.carrierAvailable then
    if state.transportReady then
      .ok
        { tally with
          good := tally.good + length
          links := addLink tally.links state.incident .recovery }
    else if state.incident = none then .error .invalid
    else
      .ok
        { tally with
          bad := tally.bad + length
          links := addLink tally.links state.incident .failure }
  else
    .ok
      { tally with links := addLink tally.links state.incident .exclusion }

def tallyFrom (request : Request) (tally : Tally) :
    List TwilightState → Except SloError Tally
  | [] => .ok tally
  | state :: rest =>
      let start := max state.time request.windowStart
      if endOf request rest ≤ start ∨ request.windowEnd ≤ start then
        tallyFrom request tally rest
      else do
        let added ← tally.add state (endOf request rest - start)
        tallyFrom request added rest

def sortedLinks (links : List IncidentLink) : List IncidentLink :=
  sortBy (fun link => toLex (link.incident, link.role.rank)) links

/-- The figures in milliseconds, each one rounded down. -/
def Tally.figures (tally : Tally) (window : Nat) : Figures where
  eligible := (tally.good + tally.bad) / millisecond
  good := tally.good / millisecond
  bad := tally.bad / millisecond
  excluded := window - (tally.good + tally.bad) / millisecond
  links := sortedLinks tally.links

def calculateTwilight (request : Request) (states : List TwilightState) :
    Except SloError Aggregate := do
  refuse
    (!request.valid || states.isEmpty ||
      decide (maxCalculationPoints < states.length))
    .invalid
  refuse
    (¬ (∀ state ∈ states, state.time ≠ 0) ∨
      ¬ states.IsChain fun earlier later => earlier.time < later.time)
    .invalid
  refuse (states.head?.all fun state => request.windowStart < state.time)
    .invalid
  let tally ← tallyFrom request ⟨0, 0, []⟩ states
  let window :=
    (request.windowEnd - request.windowStart) / millisecond
  refuse (window < (tally.figures window).eligible) .invalid
  pure ⟨request, tally.figures window⟩

/-- What is stored only. -/
def Aggregate.valid (aggregate : Aggregate) : Bool :=
  aggregate.request.valid &&
    aggregate.figures.good + aggregate.figures.bad ≤
      aggregate.figures.eligible &&
    aggregate.figures.links.length ≤ maxCalculationPoints &&
    aggregate.figures.links.Nodup

/-! ## Passes -/

/-- The worker with its lookback of at most seven days. -/
structure Worker where
  lookback : Nat
  positive : 0 < lookback
  bounded : lookback ≤ 7 * 24 * hour

/-- A pass: its time, the active nodes, what is stored of each node, and how
many windows it comes to before something fails.  It is not of the first week
of all times. -/
structure Pass (worker : Worker) where
  time : Nat
  nodes : List Nat
  evidence : Nat → Evidence
  orders : Orders
  reach : Nat
  late : worker.lookback + 2 * hour ≤ time

/-- The aggregates by node and start of the hour. -/
abbrev Aggregates := Nat → Nat → Option Aggregate

section Model

variable {worker : Worker}

namespace Pass

def newest (pass : Pass worker) : Nat := pass.time - pass.time % hour

def oldest (pass : Pass worker) : Nat :=
  pass.newest - worker.lookback - (pass.newest - worker.lookback) % hour

/-- The closed hours of the lookback. -/
def hours (pass : Pass worker) : List Nat :=
  (List.range ((pass.newest - pass.oldest) / hour)).map fun index =>
    pass.oldest + index * hour

def windows (pass : Pass worker) : List (Nat × Nat) :=
  ((pass.nodes.take 64).flatMap fun node =>
    pass.hours.map fun start => (node, start)).take pass.reach

/-- What the evidence of a pass gives for an hour. -/
def measure (pass : Pass worker) (node start : Nat) :
    Except SloError Aggregate := do
  let states ←
    twilightStates pass.orders (pass.evidence node) start (start + hour)
  calculateTwilight ⟨start, start + hour, pass.time⟩ states

/-- One window: an hour that has an aggregate or cannot be measured is left,
and any other error ends the pass. -/
def window (pass : Pass worker) (node start : Nat)
    (aggregates : Aggregates) : Except SloError Aggregates :=
  if (aggregates node start).isSome then .ok aggregates
  else
    match
      twilightStates pass.orders (pass.evidence node) start (start + hour)
    with
    | .error .invalid => .error .invalid
    | .error _ => .ok aggregates
    | .ok states => do
        let aggregate ←
          calculateTwilight ⟨start, start + hour, pass.time⟩ states
        refuse (!aggregate.valid) .invalid
        pure
          (Function.update aggregates node
            (Function.update (aggregates node) start (some aggregate)))

def run (pass : Pass worker) :
    List (Nat × Nat) → Aggregates → Aggregates
  | [], aggregates => aggregates
  | (node, start) :: rest, aggregates =>
      match pass.window node start aggregates with
      | .error _ => aggregates
      | .ok after => pass.run rest after

end Pass

def Aggregates.next (aggregates : Aggregates) (pass : Pass worker) :
    Aggregates :=
  pass.run pass.windows aggregates

/-- No hour has an aggregate at first. -/
abbrev aggregatesAfter (passes : List (Pass worker)) : Aggregates :=
  stateAfter Aggregates.next (fun _ _ => none) passes

/-! ## What is claimed -/

/-- After a pass the aggregate of an hour is what the evidence of the pass
gives, and no returned series is refused. -/
structure Follows (passes : List (Pass worker)) (last : Pass worker)
    (node start : Nat) : Prop where
  stored :
    (aggregatesAfter (passes ++ [last]) node start).map Aggregate.figures =
      (last.measure node start).toOption.map Aggregate.figures
  accepted :
    ∀ (pass : Pass worker) (hourStart : Nat), hourStart ∈ pass.hours →
      ∀ (orders : Orders) (evidence : Evidence) (states : List TwilightState),
        twilightStates orders evidence hourStart (hourStart + hour) =
            .ok states →
          ∃ aggregate,
            calculateTwilight
              ⟨hourStart, hourStart + hour, pass.time⟩ states =
                .ok aggregate

/-- What the first pass gave that came to an hour and could measure it. -/
def firstMeasured (passes : List (Pass worker)) (node start : Nat) :
    Option Aggregate :=
  passes.findSome? fun pass =>
    if (node, start) ∈ pass.windows then (pass.measure node start).toOption
    else none

/-! ## The calculator takes what the reader returns -/

/-- A failure names its incident. -/
def TwilightState.Named (state : TwilightState) : Prop :=
  state.fails = true → state.incident ≠ none

theorem addLink_nodup
    {links : List IncidentLink} (distinct : links.Nodup)
    (incident : Option Nat) (role : LinkRole) :
    (addLink links incident role).Nodup := by
  cases incident with
  | none => exact distinct
  | some incident => exact appendNew_nodup distinct

theorem addLink_length
    (links : List IncidentLink) (incident : Option Nat) (role : LinkRole) :
    (addLink links incident role).length ≤ links.length + 1 := by
  cases incident with
  | none => exact Nat.le_succ _
  | some incident =>
      simp only [addLink, appendNew_cons, appendNew_nil]
      split
      · exact Nat.le_succ _
      · simp

/-- A tally that came from another one within `length` of time and by `count`
states. -/
structure Tally.Grown (before after : Tally) (length count : Nat) :
    Prop where
  time : after.good + after.bad ≤ before.good + before.bad + length
  links : after.links.length ≤ before.links.length + count
  distinct : before.links.Nodup → after.links.Nodup

theorem Tally.add_grown
    {state : TwilightState} (named : state.Named) (tally : Tally)
    (length : Nat) :
    ∃ added, tally.add state length = .ok added ∧
      tally.Grown added length 1 := by
  unfold Tally.add
  split
  · rename_i eligible
    split
    · refine ⟨_, rfl, ?_, addLink_length _ _ _, ?_⟩
      · simp only
        omega
      · intro distinct
        exact addLink_nodup distinct _ _
    · rename_i unready
      have fails : state.fails = true := by
        unfold TwilightState.fails
        rw [eligible, Bool.eq_false_iff.mpr unready]
        rfl
      rw [if_neg (named fails)]
      refine ⟨_, rfl, ?_, addLink_length _ _ _, ?_⟩
      · simp only
        omega
      · intro distinct
        exact addLink_nodup distinct _ _
  · refine ⟨_, rfl, ?_, addLink_length _ _ _, ?_⟩
    · simp only
      omega
    · intro distinct
      exact addLink_nodup distinct _ _

/-- What is left of the window from the first state on. -/
def remaining (request : Request) (states : List TwilightState) : Nat :=
  match states with
  | [] => 0
  | state :: _ => request.windowEnd - max state.time request.windowStart

/-- The stretches of a rising series lie side by side in the window. -/
theorem tallyFrom_grown
    (request : Request) {states : List TwilightState} (tally : Tally)
    (rising : states.Pairwise fun earlier later => earlier.time < later.time)
    (named : ∀ state ∈ states, state.Named) :
    ∃ result, tallyFrom request tally states = .ok result ∧
      tally.Grown result (remaining request states) states.length := by
  induction states generalizing tally with
  | nil =>
      exact ⟨tally, rfl, Nat.le_refl _, Nat.le_refl _, id⟩
  | cons state rest inductionHypothesis =>
      obtain ⟨first, tail⟩ := List.pairwise_cons.mp rising
      have others : ∀ other ∈ rest, other.Named := fun other member =>
        named other (List.mem_cons_of_mem _ member)
      have beside :
          remaining request rest ≤ remaining request (state :: rest) ∧
            (endOf request rest - max state.time request.windowStart) +
                remaining request rest ≤
              remaining request (state :: rest) := by
        cases rest with
        | nil =>
            simp only [remaining, endOf]
            omega
        | cons next _ =>
            have later := first next List.mem_cons_self
            simp only [remaining, endOf]
            omega
      unfold tallyFrom
      simp only
      split
      · obtain ⟨result, tallied, grown⟩ :=
          inductionHypothesis tally tail others
        refine ⟨result, tallied, ?_, ?_, grown.distinct⟩
        · have time := grown.time
          omega
        · have links := grown.links
          rw [List.length_cons]
          omega
      · obtain ⟨added, adds, step⟩ :=
          Tally.add_grown (named state List.mem_cons_self) tally
            (endOf request rest - max state.time request.windowStart)
        obtain ⟨result, tallied, grown⟩ :=
          inductionHypothesis added tail others
        refine ⟨result, ?_, ?_, ?_, ?_⟩
        · rw [adds]
          exact tallied
        · have one := step.time
          have time := grown.time
          omega
        · have one := step.links
          have links := grown.links
          rw [List.length_cons]
          omega
        · intro distinct
          exact grown.distinct (step.distinct distinct)

section Returned

variable {orders : Orders} {evidence : Evidence} {start stop : Nat}
  {states : List TwilightState}

theorem Returned.named
    (returned : Returned orders evidence start stop states) :
    ∀ state ∈ states, state.Named := by
  intro state member fails
  have shape := (Series.stateAt_eq_ok (returned.merged.built state member)).2
  rw [if_pos fails] at shape
  obtain ⟨incident, _, _, isIncident⟩ := shape
  rw [isIncident]
  exact Option.some_ne_none _

/-- No state stands before the start of the window. -/
theorem Returned.start_le
    (returned : Returned orders evidence start stop states) :
    ∀ state ∈ states, start ≤ state.time := by
  intro state member
  have listed :=
    ((returned.merged.times state.time).mp ⟨state, member, rfl⟩).1
  obtain ⟨signal, _, isTime⟩ :=
    List.mem_map.mp ((sortBy_perm _).mem_iff.mp listed)
  rw [← isTime]
  exact Nat.le_max_right _ _

/-- A returned series gives an aggregate that can be stored. -/
theorem Returned.calculated
    (returned : Returned orders evidence start stop states)
    {request : Request} (valid : request.valid = true)
    (begins : request.windowStart = start) :
    ∃ aggregate, calculateTwilight request states = .ok aggregate ∧
      aggregate.valid = true := by
  obtain ⟨first, rest, rfl, opens⟩ := returned.opens
  obtain ⟨tally, tallied, grown⟩ :=
    tallyFrom_grown request ⟨0, 0, []⟩ returned.merged.rising returned.named
  have inside :
      tally.good + tally.bad ≤ request.windowEnd - request.windowStart := by
    have time := grown.time
    simp only [remaining] at time
    omega
  have eligible :
      (tally.good + tally.bad) / millisecond ≤
        (request.windowEnd - request.windowStart) / millisecond :=
    Nat.div_le_div_right inside
  have few := returned.few
  let window := (request.windowEnd - request.windowStart) / millisecond
  refine ⟨⟨request, tally.figures window⟩, ?_, ?_⟩
  · unfold calculateTwilight
    refine bind_eq_ok_iff.mpr ⟨⟨⟩, refuse_eq_ok_iff.mpr ?_, ?_⟩
    · rw [valid]
      simpa using few
    refine bind_eq_ok_iff.mpr ⟨⟨⟩, refuse_eq_ok_iff.mpr ?_, ?_⟩
    · rw [not_or, not_not, not_not]
      refine ⟨?_, returned.merged.rising.isChain⟩
      intro state member
      have low := returned.start_le state member
      have positive := returned.positive
      omega
    refine bind_eq_ok_iff.mpr ⟨⟨⟩, refuse_eq_ok_iff.mpr ?_, ?_⟩
    · rw [begins]
      simpa using opens
    refine bind_eq_ok_iff.mpr ⟨tally, tallied, ?_⟩
    exact
      bind_eq_ok_iff.mpr
        ⟨⟨⟩, refuse_eq_ok_iff.mpr (Nat.not_lt.mpr eligible), rfl⟩
  · have distinct := grown.distinct List.nodup_nil
    have number := grown.links
    unfold Aggregate.valid
    simp only [valid, Bool.true_and, Bool.and_eq_true, decide_eq_true_eq]
    refine ⟨⟨?_, ?_⟩, ?_⟩
    · exact Nat.div_add_div_le_add_div
    · rw [show (tally.figures window).links = sortedLinks tally.links from rfl]
      rw [sortedLinks, (sortBy_perm _).length_eq]
      exact number.trans (by simpa using few)
    · exact (sortBy_perm _).nodup_iff.mpr distinct

end Returned

/-- The window of a merge is not what it refuses. -/
theorem mergeFrom_ne_invalid
    {series : Series} {incidents : List Incident} (times : List Nat)
    (count : Nat) (previous : Option Nat) :
    mergeFrom series incidents count previous times ≠ .error .invalid := by
  induction times generalizing count previous with
  | nil =>
      intro refused
      cases refused
  | cons time rest inductionHypothesis =>
      unfold mergeFrom
      split
      · exact inductionHypothesis _ _
      · intro refused
        rcases bind_eq_error_iff.mp refused with unbuilt | ⟨_, _, refused⟩
        · unfold Series.stateAt at unbuilt
          split at unbuilt
          · split at unbuilt <;> cases unbuilt
          · cases unbuilt
        rcases bind_eq_error_iff.mp refused with many | ⟨_, _, refused⟩
        · cases (refuse_eq_error_iff.mp many).2
        rcases bind_eq_error_iff.mp refused with inner | ⟨_, _, refused⟩
        · exact inductionHypothesis _ _ inner
        · cases refused

theorem twilightStates_ne_invalid
    (orders : Orders) (evidence : Evidence) {start stop : Nat}
    (positive : 0 < start) (proper : start < stop) :
    twilightStates orders evidence start stop ≠ .error .invalid := by
  intro refused
  unfold twilightStates at refused
  rcases bind_eq_error_iff.mp refused with improper | ⟨_, _, refused⟩
  · have bounds := (refuse_eq_error_iff.mp improper).1
    omega
  rcases bind_eq_error_iff.mp refused with unled | ⟨_, _, refused⟩
  · cases (refuse_eq_error_iff.mp unled).2
  unfold merge at refused
  rcases bind_eq_error_iff.mp refused with unled | ⟨_, _, refused⟩
  · cases (refuse_eq_error_iff.mp unled).2
  rcases bind_eq_error_iff.mp refused with unmerged | ⟨_, _, refused⟩
  · exact mergeFrom_ne_invalid _ _ _ unmerged
  rcases bind_eq_error_iff.mp refused with unled | ⟨_, _, refused⟩
  · cases (refuse_eq_error_iff.mp unled).2
  · cases refused

/-! ## What passes leave -/

namespace Pass

variable {pass : Pass worker} {node start : Nat}

/-- The hours of a pass are whole, closed and not the first of all times. -/
theorem of_mem_hours (listed : start ∈ pass.hours) :
    0 < start ∧ start % hour = 0 ∧ start + hour ≤ pass.time := by
  obtain ⟨index, bound, rfl⟩ := List.mem_map.mp listed
  have late := pass.late
  have small := Nat.mod_lt pass.time (show 0 < hour by decide)
  have whole := Nat.div_mul_le_self (pass.newest - pass.oldest) hour
  have steps :
      (index + 1) * hour ≤ (pass.newest - pass.oldest) / hour * hour :=
    Nat.mul_le_mul_right hour (List.mem_range.mp bound)
  have newestLe : pass.newest ≤ pass.time := Nat.sub_le _ _
  have above : worker.lookback + hour ≤ pass.newest := by
    unfold Pass.newest
    omega
  have rest :=
    Nat.mod_lt (pass.newest - worker.lookback) (show 0 < hour by decide)
  have isOldest :
      pass.oldest =
        pass.newest - worker.lookback -
          (pass.newest - worker.lookback) % hour :=
    rfl
  have oldestLe : pass.oldest ≤ pass.newest := by omega
  have aligned : pass.oldest % hour = 0 := by
    rw [isOldest]
    exact Nat.sub_mod_eq_zero_of_mod_eq (Nat.mod_mod _ _).symm
  rw [Nat.add_mul, Nat.one_mul] at steps
  refine ⟨by omega, ?_, by omega⟩
  rw [Nat.add_mul_mod_self_right, aligned]

theorem request_valid (listed : start ∈ pass.hours) :
    Request.valid ⟨start, start + hour, pass.time⟩ = true := by
  obtain ⟨positive, aligned, closed⟩ := of_mem_hours listed
  have nonzero : 0 < hour := by decide
  simp only [Request.valid, Bool.and_eq_true, decide_eq_true_eq, ne_eq]
  omega

/-- A window fills the hour unless it has an aggregate or cannot be
measured. -/
theorem window_eq (listed : start ∈ pass.hours) (aggregates : Aggregates) :
    ∃ after, pass.window node start aggregates = .ok after ∧
      ∀ otherNode otherStart,
        after otherNode otherStart =
          if (otherNode, otherStart) = (node, start) then
            (aggregates node start).or (pass.measure node start).toOption
          else aggregates otherNode otherStart := by
  have kept {value : Option Aggregate}
      (same : (aggregates node start).or value = aggregates node start)
      (otherNode otherStart : Nat) :
      aggregates otherNode otherStart =
        if (otherNode, otherStart) = (node, start) then
          (aggregates node start).or value
        else aggregates otherNode otherStart := by
    split
    · rename_i here
      cases here
      exact same.symm
    · rfl
  unfold window
  split
  · rename_i present
    obtain ⟨aggregate, stored⟩ := Option.isSome_iff_exists.mp present
    exact ⟨_, rfl, kept (by rw [stored]; rfl)⟩
  · rename_i absent
    have empty : aggregates node start = none := by simpa using absent
    unfold measure
    split
    · rename_i refused
      exact
        absurd refused
          (twilightStates_ne_invalid _ _ (of_mem_hours listed).1
            (Nat.lt_add_of_pos_right (by decide)))
    · rename_i refused
      rw [refused]
      exact ⟨_, rfl, kept (by rw [empty]; rfl)⟩
    · rename_i states built
      rw [built]
      obtain ⟨aggregate, calculated, valid⟩ :=
        (returned_of_twilightStates built).calculated
          (request_valid listed) rfl
      refine
        ⟨Function.update aggregates node
          (Function.update (aggregates node) start (some aggregate)), ?_, ?_⟩
      · rw [calculated, ok_bind, valid]
        rfl
      · intro otherNode otherStart
        rw [ok_bind, calculated, empty]
        by_cases sameNode : otherNode = node
        · subst sameNode
          by_cases sameStart : otherStart = start
          · subst sameStart
            simp [Except.toOption]
          · simp [sameStart]
        · simp [sameNode]

theorem run_eq
    {windows : List (Nat × Nat)}
    (listed : ∀ window ∈ windows, window.2 ∈ pass.hours)
    (aggregates : Aggregates) (node start : Nat) :
    pass.run windows aggregates node start =
      (aggregates node start).or
        (if (node, start) ∈ windows then
          (pass.measure node start).toOption
        else none) := by
  induction windows generalizing aggregates with
  | nil => simp [run]
  | cons window rest inductionHypothesis =>
      obtain ⟨after, ran, shape⟩ :=
        @window_eq worker pass window.1 window.2
          (listed window List.mem_cons_self) aggregates
      unfold run
      simp only [ran]
      rw [inductionHypothesis
        (fun other member => listed other (List.mem_cons_of_mem _ member)),
        shape]
      by_cases here : (node, start) = window
      · subst here
        cases aggregates node start <;>
          cases (pass.measure node start).toOption <;> simp
      · rw [if_neg here]
        simp [here]

end Pass

theorem aggregatesAfter_eq
    (passes : List (Pass worker)) (node start : Nat) :
    aggregatesAfter passes node start = firstMeasured passes node start := by
  induction passes using List.reverseRecOn with
  | nil => rfl
  | append_singleton earlier pass inductionHypothesis =>
      have listed : ∀ window ∈ pass.windows, window.2 ∈ pass.hours := by
        intro window member
        obtain ⟨_, _, inHours⟩ :=
          List.mem_flatMap.mp (List.mem_of_mem_take member)
        obtain ⟨_, isHour, rfl⟩ := List.mem_map.mp inHours
        exact isHour
      rw [aggregatesAfter] at inductionHypothesis
      rw [aggregatesAfter, stateAfter_snoc, Aggregates.next,
        Pass.run_eq listed, inductionHypothesis, firstMeasured,
        firstMeasured, List.findSome?_append]
      simp

end Model

/-! ## A failure that is seen late -/

/-- The tunnel is ready all the time. -/
def healthyHour : Evidence where
  carrier := [⟨3 * hour, 1, true⟩]
  transport := [⟨3 * hour, 2, true⟩]
  intervals := []
  incidents := []

/-- It fails in the middle of the fifth hour, with its incident. -/
def halfHour : Evidence where
  carrier := healthyHour.carrier
  transport := healthyHour.transport ++ [⟨5 * hour + hour / 2, 3, false⟩]
  intervals := []
  incidents := [⟨7, 5 * hour + hour / 2, none⟩]

def hourlyWorker : Worker where
  lookback := hour
  positive := by decide
  bounded := by decide

def passOver (evidence : Evidence) (time : Nat)
    (late : hourlyWorker.lookback + 2 * hour ≤ time) :
    Pass hourlyWorker where
  time := time
  nodes := [1]
  evidence := fun _ => evidence
  orders := stableOrders
  reach := 1
  late := late

end Hexroute.Slo
