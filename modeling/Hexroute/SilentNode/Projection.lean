import Mathlib
import Hexroute.Lib.History
import Hexroute.Lib.Refusal
import Hexroute.Lib.StableSort

/-!
# Projecting sleep events onto sleep intervals

The cloud worker turns the sleep events that ingest stored into sleep
intervals.  A pass takes the oldest events that no interval names yet and
projects them one by one, each in its own transaction.  A start opens an
interval unless its node has one open, an end closes the open interval of its
node or leaves an empty one.  An event counts as projected when an interval
names it.
-/

namespace Hexroute.SilentNode

open Lib

/-- A stored sleep event.  Ingest stores no other payloads than a start or an
end under the sleep schema. -/
structure SleepEvent where
  id : Nat
  node : Nat
  occurredAt : Int
  sequence : Nat
  starts : Bool
deriving DecidableEq

/-- A row of `sleep_intervals`. -/
structure Interval where
  id : Nat
  node : Nat
  startedAt : Int
  endedAt : Option Int
  startEvent : Option Nat
  endEvent : Option Nat
deriving DecidableEq

structure Store where
  events : List SleepEvent
  intervals : List Interval
deriving DecidableEq

inductive Refusal where
  | invalidSleepEvent
deriving DecidableEq

/-- The order of the pending query: `occurred_at, sequence, event_id`. -/
def SleepEvent.place (event : SleepEvent) : Int ×ₗ Nat ×ₗ Nat :=
  toLex (event.occurredAt, toLex (event.sequence, event.id))

def Interval.names (interval : Interval) (event : Nat) : Bool :=
  interval.startEvent == some event || interval.endEvent == some event

def Interval.openFor (interval : Interval) (node : Nat) : Bool :=
  interval.node == node && interval.endedAt.isNone

namespace Store

def consumed (store : Store) (event : Nat) : Bool :=
  store.intervals.any (·.names event)

def hasOpen (store : Store) (node : Nat) : Bool :=
  store.intervals.any (·.openFor node)

/-- The open interval of a node, the latest started first. -/
def openOf (store : Store) (node : Nat) : Option Interval :=
  (sortBy (fun interval => -interval.startedAt)
    (store.intervals.filter (·.openFor node))).head?

/-- The sleep events that no interval names, oldest first. -/
def pending (store : Store) : List SleepEvent :=
  (sortBy SleepEvent.place store.events).filter fun event =>
    !store.consumed event.id

/-- Insert a row; one under its key already wins. -/
def insert (store : Store) (interval : Interval) : Store :=
  if store.intervals.any (·.id == interval.id) then store
  else { store with intervals := interval :: store.intervals }

/-- End the interval under a key with an event. -/
def close (store : Store) (key : Nat) (event : SleepEvent) : Store :=
  { store with
    intervals := store.intervals.map fun interval =>
      if interval.id = key then
        { interval with
          endedAt := some event.occurredAt
          endEvent := some event.id }
      else interval }

end Store

namespace SleepEvent

/-- The interval that a start opens. -/
def opened (event : SleepEvent) : Interval where
  id := event.id
  node := event.node
  startedAt := event.occurredAt
  endedAt := none
  startEvent := some event.id
  endEvent := none

/-- The empty interval of an end that finds no open one. -/
def alone (event : SleepEvent) : Interval where
  id := event.id
  node := event.node
  startedAt := event.occurredAt
  endedAt := some event.occurredAt
  startEvent := none
  endEvent := some event.id

end SleepEvent

def projectSleepStart (store : Store) (event : SleepEvent) : Store :=
  if store.hasOpen event.node then store else store.insert event.opened

def projectSleepEnd (store : Store) (event : SleepEvent) :
    Except Refusal Store :=
  match store.openOf event.node with
  | none => .ok (store.insert event.alone)
  | some interval => do
      refuse (event.occurredAt < interval.startedAt)
        Refusal.invalidSleepEvent
      return store.close interval.id event

section Passes

variable (mac : Nat → Bool)

/-- Project one event in a transaction; `mac` is the kind of every node. -/
def projectSleepEvent (store : Store) (event : SleepEvent) :
    Except Refusal Store := do
  refuse (!mac event.node) Refusal.invalidSleepEvent
  if event.starts then
    return projectSleepStart store event
  else
    projectSleepEnd store event

/-- What a pass returns, and the store it leaves: transactions that were
committed before the failing one stand. -/
structure Pass where
  projected : Nat
  failed : Bool
  store : Store
deriving DecidableEq

def projectEach (store : Store) : List SleepEvent → Pass
  | [] => ⟨0, false, store⟩
  | event :: rest =>
      match projectSleepEvent mac store event with
      | .error _ => ⟨0, true, store⟩
      | .ok after =>
          let pass := projectEach after rest
          { pass with projected := pass.projected + 1 }

def maxPendingSleepBatch : Nat :=
  500

/-- The limits a pass accepts. -/
def validLimit (limit : Nat) : Prop :=
  0 < limit ∧ limit ≤ maxPendingSleepBatch

instance (limit : Nat) : Decidable (validLimit limit) :=
  inferInstanceAs (Decidable (_ ∧ _))

def projectPendingSleepEvents (store : Store) (limit : Nat) : Pass :=
  if validLimit limit then
    projectEach mac store (store.pending.take limit)
  else ⟨0, true, store⟩

/-- What happens to the tables: ingest stores events, or a pass runs. -/
inductive Step where
  | arrive (group : List SleepEvent)
  | pass (limit : Nat)

def next (store : Store) : Step → Store
  | .arrive group => { store with events := store.events ++ group }
  | .pass limit => (projectPendingSleepEvents mac store limit).store

/-- The tables after a history that began with empty ones. -/
abbrev after (steps : List Step) : Store :=
  stateAfter (next mac) ⟨[], []⟩ steps

end Passes

/-! ## Arrivals in order -/

namespace Store

/-- The last event of the node in the order of the pending query is a
start. -/
def lastStarts (store : Store) (node : Nat) : Prop :=
  ∃ event ∈ store.events, event.node = node ∧ event.starts = true ∧
    ∀ other ∈ store.events, other.node = node → other.place ≤ event.place

instance (store : Store) (node : Nat) : Decidable (store.lastStarts node) :=
  inferInstanceAs (Decidable (∃ event ∈ store.events, _))

/-- Between two starts of a node lies an end of it. -/
def Alternates (events : List SleepEvent) : Prop :=
  ∀ early ∈ events, ∀ late ∈ events, early.node = late.node →
    early.starts = true → late.starts = true → early.place < late.place →
      ∃ ending ∈ events, ending.node = late.node ∧ ending.starts = false ∧
        early.place < ending.place ∧ ending.place < late.place

instance (events : List SleepEvent) : Decidable (Alternates events) :=
  inferInstanceAs (Decidable (∀ early ∈ events, _))

/-- The events are fit to be stored: they are new, of mac nodes, later than
every projected event of their node, and no end is missing between two
starts. -/
structure Accepts (mac : Nat → Bool) (store : Store)
    (group : List SleepEvent) : Prop where
  fresh : ((store.events ++ group).map (·.id)).Nodup
  macs : ∀ event ∈ group, mac event.node = true
  later :
    ∀ event ∈ group, ∀ other ∈ store.events, other.node = event.node →
      store.consumed other.id = true → other.place < event.place
  alternates : Alternates (store.events ++ group)

end Store

/-- The condition on a step: arriving events are fit to be stored, and passes
have a valid limit. -/
def InOrder (mac : Nat → Bool) (store : Store) : Step → Prop
  | .arrive group => store.Accepts mac group
  | .pass limit => validLimit limit

/-- What arrivals in order keep: of every node a beginning of its events is
projected, and it has an open interval exactly when the last of these is a
start. -/
structure Store.Ordered (mac : Nat → Bool) (store : Store) : Prop where
  distinct : (store.events.map (·.id)).Nodup
  macs : ∀ event ∈ store.events, mac event.node = true
  alternates : Alternates store.events
  keys : (store.intervals.map (·.id)).Nodup
  keyed : ∀ interval ∈ store.intervals, store.consumed interval.id = true
  known :
    ∀ id, store.consumed id = true → ∃ event ∈ store.events, event.id = id
  behind :
    ∀ done ∈ store.events, ∀ waiting ∈ store.events,
      done.node = waiting.node → store.consumed done.id = true →
      store.consumed waiting.id = false → done.place < waiting.place
  asleep :
    ∀ interval ∈ store.intervals, interval.endedAt = none →
      ∃ event ∈ store.events, interval = event.opened ∧
        event.starts = true ∧ store.consumed event.id = true ∧
        ∀ other ∈ store.events, other.node = event.node →
          store.consumed other.id = true → other.place ≤ event.place
  awake :
    ∀ event ∈ store.events, event.starts = true →
      store.consumed event.id = true →
      (∀ other ∈ store.events, other.node = event.node →
        store.consumed other.id = true → other.place ≤ event.place) →
      event.opened ∈ store.intervals

variable {mac : Nat → Bool} {store : Store}

theorem SleepEvent.occurredAt_le_of_place_le
    {early late : SleepEvent} (before : early.place ≤ late.place) :
    early.occurredAt ≤ late.occurredAt := by
  rcases Prod.Lex.le_iff.mp before with earlier | ⟨same, _⟩
  · exact le_of_lt earlier
  · exact le_of_eq same

theorem SleepEvent.id_eq_of_place_eq
    {left right : SleepEvent} (same : left.place = right.place) :
    left.id = right.id :=
  congrArg (fun place => (ofLex (ofLex place).2).2) same

namespace Store

variable {event : SleepEvent} {interval : Interval}

theorem insert_eq
    (fresh : ∀ other ∈ store.intervals, other.id ≠ interval.id) :
    store.insert interval =
      { store with intervals := interval :: store.intervals } := by
  refine if_neg fun taken => ?_
  obtain ⟨other, member, same⟩ := List.any_eq_true.mp taken
  exact fresh other member (beq_iff_eq.mp same)

/-- A new interval names its event. -/
theorem consumed_cons
    (names : ∀ id, interval.names id = true ↔ id = event.id) (id : Nat) :
    Store.consumed ⟨store.events, interval :: store.intervals⟩ id = true ↔
      store.consumed id = true ∨ id = event.id := by
  rw [consumed, List.any_cons, Bool.or_eq_true, names, or_comm]
  rfl

theorem close_keys (key : Nat) :
    (store.close key event).intervals.map (·.id) =
      store.intervals.map (·.id) := by
  rw [close, List.map_map]
  refine List.map_congr_left fun other _ => ?_
  simp only [Function.comp_apply]
  split <;> rfl

/-- A closed interval names the event that ends it, and the others as
before. -/
theorem consumed_close
    (keys : (store.intervals.map (·.id)).Nodup)
    (member : interval ∈ store.intervals)
    (unended : interval.endEvent = none) (id : Nat) :
    (store.close interval.id event).consumed id = true ↔
      store.consumed id = true ∨ id = event.id := by
  have key : ∀ other ∈ store.intervals, other.id = interval.id →
      other = interval := fun other otherMember same =>
    List.inj_on_of_nodup_map keys otherMember member same
  simp only [consumed, close, List.any_map, List.any_eq_true,
    Function.comp_apply]
  constructor
  · rintro ⟨other, otherMember, isNamed⟩
    split at isNamed
    · rename_i same
      obtain rfl := key other otherMember same
      simp only [Interval.names, Bool.or_eq_true, beq_iff_eq,
        Option.some.injEq] at isNamed
      rcases isNamed with started | ended
      · refine .inl ⟨_, otherMember, ?_⟩
        simp [Interval.names, started]
      · exact .inr ended.symm
    · exact .inl ⟨other, otherMember, isNamed⟩
  · rintro (⟨other, otherMember, isNamed⟩ | rfl)
    · refine ⟨other, otherMember, ?_⟩
      split
      · rename_i same
        obtain rfl := key other otherMember same
        simp only [Interval.names, unended, Bool.or_eq_true, beq_iff_eq,
          reduceCtorEq, or_false] at isNamed ⊢
        exact .inl isNamed
      · exact isNamed
    · exact ⟨_, member, by simp [Interval.names]⟩

end Store

namespace Store.Ordered

theorem eq_of_id_eq
    (ordered : store.Ordered mac) {left right : SleepEvent}
    (leftMember : left ∈ store.events) (rightMember : right ∈ store.events)
    (same : left.id = right.id) : left = right :=
  List.inj_on_of_nodup_map ordered.distinct leftMember rightMember same

/-- A node has one open interval at most. -/
theorem open_unique
    (ordered : store.Ordered mac) {left right : Interval}
    (leftMember : left ∈ store.intervals)
    (rightMember : right ∈ store.intervals) (leftOpen : left.endedAt = none)
    (rightOpen : right.endedAt = none) (same : left.node = right.node) :
    left = right := by
  obtain ⟨first, firstMember, rfl, _, firstDone, firstLast⟩ :=
    ordered.asleep left leftMember leftOpen
  obtain ⟨second, secondMember, rfl, _, secondDone, secondLast⟩ :=
    ordered.asleep right rightMember rightOpen
  have places : first.place = second.place :=
    le_antisymm (secondLast first firstMember same firstDone)
      (firstLast second secondMember same.symm secondDone)
  rw [ordered.eq_of_id_eq firstMember secondMember
    (SleepEvent.id_eq_of_place_eq places)]

/-- The oldest waiting event of a node comes to be named, and the intervals
open from then on are those of other nodes and the one it opens. -/
theorem consume
    {after : Store} {event : SleepEvent} (ordered : store.Ordered mac)
    (member : event ∈ store.events)
    (waiting : store.consumed event.id = false)
    (first :
      ∀ other ∈ store.events, other.node = event.node →
        store.consumed other.id = false → event.place ≤ other.place)
    (same : after.events = store.events)
    (names :
      ∀ id, after.consumed id = true ↔
        store.consumed id = true ∨ id = event.id)
    (keys : (after.intervals.map (·.id)).Nodup)
    (keyed :
      ∀ interval ∈ after.intervals, interval.id = event.id ∨
        ∃ other ∈ store.intervals, other.id = interval.id)
    (opens :
      ∀ interval, interval.endedAt = none →
        (interval ∈ after.intervals ↔
          (interval ∈ store.intervals ∧ interval.node ≠ event.node) ∨
            (event.starts = true ∧ interval = event.opened))) :
    after.Ordered mac := by
  have done : after.consumed event.id = true := (names _).mpr (.inr rfl)
  have before : ∀ other ∈ store.events, other.node = event.node →
      store.consumed other.id = true → other.place < event.place :=
    fun other otherMember node otherDone =>
      ordered.behind other otherMember event member node otherDone waiting
  constructor
  case distinct => exact same ▸ ordered.distinct
  case macs => exact same ▸ ordered.macs
  case alternates => exact same ▸ ordered.alternates
  case keys => exact keys
  case keyed =>
    intro interval intervalMember
    rcases keyed interval intervalMember with own | ⟨other, old, key⟩
    · exact (names _).mpr (.inr own)
    · exact (names _).mpr (.inl (key ▸ ordered.keyed other old))
  case known =>
    rw [same]
    intro id named
    rcases (names _).mp named with old | rfl
    · exact ordered.known id old
    · exact ⟨event, member, rfl⟩
  case behind =>
    rw [same]
    intro early earlyMember late lateMember node earlyDone lateWaiting
    have lateOld : store.consumed late.id = false ∧ late.id ≠ event.id := by
      rw [← Bool.not_eq_true, names] at lateWaiting
      simpa using lateWaiting
    rcases (names _).mp earlyDone with old | new
    · exact ordered.behind early earlyMember late lateMember node old
        lateOld.1
    · obtain rfl := ordered.eq_of_id_eq earlyMember member new
      refine lt_of_le_of_ne
        (first late lateMember node.symm lateOld.1) fun places => ?_
      exact lateOld.2 (SleepEvent.id_eq_of_place_eq places).symm
  case asleep =>
    rw [same]
    intro interval intervalMember isOpen
    rcases (opens interval isOpen).mp intervalMember with
      ⟨old, elsewhere⟩ | ⟨starts, rfl⟩
    · obtain ⟨start, startMember, rfl, starts, startDone, last⟩ :=
        ordered.asleep interval old isOpen
      refine ⟨start, startMember, rfl, starts,
        (names _).mpr (.inl startDone), ?_⟩
      intro other otherMember node otherDone
      rcases (names _).mp otherDone with oldDone | new
      · exact last other otherMember node oldDone
      · obtain rfl := ordered.eq_of_id_eq otherMember member new
        exact absurd node.symm elsewhere
    · refine ⟨event, member, rfl, starts, done, ?_⟩
      intro other otherMember node otherDone
      rcases (names _).mp otherDone with oldDone | new
      · exact (before other otherMember node oldDone).le
      · rw [ordered.eq_of_id_eq otherMember member new]
  case awake =>
    rw [same]
    intro start startMember starts startDone last
    refine (opens start.opened rfl).mpr ?_
    rcases (names _).mp startDone with oldDone | new
    · have elsewhere : start.node ≠ event.node := fun node =>
        absurd (last event member node.symm done)
          (not_le_of_gt (before start startMember node oldDone))
      refine .inl ⟨ordered.awake start startMember starts oldDone ?_,
        elsewhere⟩
      exact fun other otherMember node otherDone =>
        last other otherMember node ((names _).mpr (.inl otherDone))
    · obtain rfl := ordered.eq_of_id_eq startMember member new
      exact .inr ⟨starts, rfl⟩

end Store.Ordered

/-! ## Projecting the oldest pending event -/

/-- The event comes to be projected, and nothing else does. -/
structure Takes (mac : Nat → Bool) (store : Store) (event : SleepEvent)
    (after : Store) : Prop where
  events : after.events = store.events
  ordered : after.Ordered mac
  names :
    ∀ id, after.consumed id = true ↔
      store.consumed id = true ∨ id = event.id

/-- The event is the oldest of its node that waits. -/
structure Store.Oldest (store : Store) (event : SleepEvent) : Prop where
  member : event ∈ store.events
  waiting : store.consumed event.id = false
  first :
    ∀ other ∈ store.events, other.node = event.node →
      store.consumed other.id = false → event.place ≤ other.place

namespace Store

variable {event : SleepEvent}

theorem Ordered.key_ne
    (ordered : store.Ordered mac) (oldest : store.Oldest event)
    {interval : Interval} (member : interval ∈ store.intervals) :
    interval.id ≠ event.id := by
  intro same
  have taken := ordered.keyed interval member
  rw [same, oldest.waiting] at taken
  exact Bool.noConfusion taken

theorem Ordered.takes_insert
    (ordered : store.Ordered mac) (oldest : store.Oldest event)
    {interval : Interval} (own : interval.id = event.id)
    (names : ∀ id, interval.names id = true ↔ id = event.id)
    (lone :
      ∀ other ∈ store.intervals, other.endedAt = none →
        other.node ≠ event.node)
    (opens :
      ∀ other : Interval, other.endedAt = none →
        (other = interval ↔
          event.starts = true ∧ other = event.opened)) :
    Takes mac store event (store.insert interval) := by
  have named := @consumed_cons store event interval names
  rw [insert_eq fun other member =>
    own ▸ ordered.key_ne oldest member]
  refine ⟨rfl, ordered.consume oldest.member oldest.waiting oldest.first rfl
    named ?_ ?_ ?_, named⟩
  · refine List.nodup_cons.mpr ⟨fun taken => ?_, ordered.keys⟩
    obtain ⟨other, member, same⟩ := List.mem_map.mp taken
    exact ordered.key_ne oldest member (same.trans own)
  · intro other member
    rcases List.mem_cons.mp member with rfl | old
    · exact .inl own
    · exact .inr ⟨other, old, rfl⟩
  · intro other isOpen
    rw [List.mem_cons, opens other isOpen, or_comm]
    exact or_congr_left
      ⟨fun old => ⟨old, lone other old isOpen⟩, fun old => old.1⟩

theorem Ordered.takes_close
    (ordered : store.Ordered mac) (oldest : store.Oldest event)
    (ends : event.starts = false) {start : SleepEvent}
    (member : start.opened ∈ store.intervals)
    (node : start.node = event.node) :
    Takes mac store event (store.close start.id event) := by
  have key : ∀ other ∈ store.intervals, other.id = start.id →
      other = start.opened := fun other otherMember same =>
    List.inj_on_of_nodup_map ordered.keys otherMember member same
  have named :=
    @consumed_close store event start.opened ordered.keys member rfl
  refine ⟨rfl, ordered.consume oldest.member oldest.waiting oldest.first rfl
    named ?_ ?_ ?_, named⟩
  · exact (close_keys start.id).symm ▸ ordered.keys
  · intro other otherMember
    obtain ⟨old, oldMember, rfl⟩ := List.mem_map.mp otherMember
    refine .inr ⟨old, oldMember, ?_⟩
    split <;> rfl
  · intro other isOpen
    simp only [ends, Bool.false_eq_true, false_and, or_false]
    constructor
    · intro otherMember
      obtain ⟨old, oldMember, rfl⟩ := List.mem_map.mp otherMember
      by_cases same : old.id = start.id
      · simp [same] at isOpen
      · rw [if_neg same] at isOpen ⊢
        refine ⟨oldMember, fun oldNode => same ?_⟩
        rw [ordered.open_unique oldMember member isOpen rfl
          (oldNode.trans node.symm)]
        rfl
    · rintro ⟨old, elsewhere⟩
      refine List.mem_map.mpr ⟨other, old, if_neg fun same => ?_⟩
      exact elsewhere (key other old same ▸ node)

theorem openFor_iff {interval : Interval} {node : Nat} :
    interval.openFor node = true ↔
      interval.node = node ∧ interval.endedAt = none := by
  simp [Interval.openFor]

theorem mem_of_openOf
    {node : Nat} {interval : Interval}
    (found : store.openOf node = some interval) :
    interval ∈ store.intervals ∧ interval.node = node ∧
      interval.endedAt = none := by
  have sorted := (sortBy_perm _).mem_iff.mp (List.mem_of_head? found)
  rw [List.mem_filter, openFor_iff] at sorted
  exact sorted

theorem closed_of_openOf
    {node : Nat} (none : store.openOf node = none) :
    ∀ interval ∈ store.intervals, interval.endedAt = Option.none →
      interval.node ≠ node := by
  intro interval member isOpen same
  have sorted : interval ∈ sortBy (fun interval : Interval =>
      -interval.startedAt) (store.intervals.filter (·.openFor node)) :=
    (sortBy_perm _).mem_iff.mpr
      (List.mem_filter.mpr ⟨member, openFor_iff.mpr ⟨same, isOpen⟩⟩)
  rw [List.head?_eq_none_iff.mp none] at sorted
  exact absurd sorted List.not_mem_nil

/-- A start that is the oldest to wait finds no interval of its node open:
the end between it and the start that opened one would wait as well. -/
theorem Ordered.closed_of_oldest_start
    (ordered : store.Ordered mac) (oldest : store.Oldest event)
    (starts : event.starts = true) :
    ∀ interval ∈ store.intervals, interval.endedAt = none →
      interval.node ≠ event.node := by
  intro interval member isOpen node
  obtain ⟨start, startMember, rfl, startStarts, startDone, last⟩ :=
    ordered.asleep interval member isOpen
  obtain ⟨ending, endingMember, endingNode, _, after, before⟩ :=
    ordered.alternates start startMember event oldest.member node
      startStarts starts
      (ordered.behind start startMember event oldest.member node startDone
        oldest.waiting)
  by_cases endingDone : store.consumed ending.id = true
  · exact absurd (last ending endingMember (endingNode.trans node.symm)
      endingDone) (not_le_of_gt after)
  · exact absurd (oldest.first ending endingMember endingNode
      (Bool.not_eq_true _ ▸ endingDone)) (not_le_of_gt before)

theorem Ordered.projectSleepStart_takes
    (ordered : store.Ordered mac) (oldest : store.Oldest event)
    (starts : event.starts = true) :
    Takes mac store event (projectSleepStart store event) := by
  have lone := ordered.closed_of_oldest_start oldest starts
  have closed : store.hasOpen event.node = false := by
    rw [hasOpen, List.any_eq_false]
    intro interval member isOpen
    obtain ⟨node, notEnded⟩ := openFor_iff.mp isOpen
    exact lone interval member notEnded node
  rw [projectSleepStart, if_neg (by simp [closed])]
  refine ordered.takes_insert oldest rfl ?_ lone ?_
  · intro id
    simpa [Interval.names, SleepEvent.opened] using eq_comm
  · intro other _
    simp [starts]

theorem Ordered.projectSleepEnd_takes
    (ordered : store.Ordered mac) (oldest : store.Oldest event)
    (ends : event.starts = false) :
    ∃ after, projectSleepEnd store event = .ok after ∧
      Takes mac store event after := by
  rw [projectSleepEnd]
  split
  · rename_i none
    refine ⟨_, rfl, ordered.takes_insert oldest rfl ?_
      (closed_of_openOf none) ?_⟩
    · intro id
      simpa [Interval.names, SleepEvent.alone] using eq_comm
    · intro other isOpen
      simp only [ends, Bool.false_eq_true, false_and, iff_false]
      rintro rfl
      exact Option.some_ne_none _ isOpen
  · rename_i interval found
    obtain ⟨member, node, isOpen⟩ := mem_of_openOf found
    obtain ⟨start, startMember, rfl, _, startDone, _⟩ :=
      ordered.asleep interval member isOpen
    have inTime : ¬ event.occurredAt < start.opened.startedAt :=
      not_lt_of_ge (SleepEvent.occurredAt_le_of_place_le
        (ordered.behind start startMember event oldest.member node startDone
          oldest.waiting).le)
    refine ⟨store.close start.id event, ?_,
      ordered.takes_close oldest ends member node⟩
    simp only [refuse, if_neg inTime]
    rfl

/-- The oldest event that waits is projected, whatever it is. -/
theorem Ordered.projectSleepEvent_takes
    (ordered : store.Ordered mac) (oldest : store.Oldest event) :
    ∃ after, projectSleepEvent mac store event = .ok after ∧
      Takes mac store event after := by
  have isMac : mac event.node = true := ordered.macs event oldest.member
  cases starts : event.starts with
  | true =>
      exact ⟨_, by simp [projectSleepEvent, isMac, starts, refuse],
        ordered.projectSleepStart_takes oldest starts⟩
  | false =>
      obtain ⟨after, projected, takes⟩ :=
        ordered.projectSleepEnd_takes oldest starts
      exact ⟨after, by simp [projectSleepEvent, isMac, starts, refuse,
        projected], takes⟩

end Store

/-! ## Passes -/

theorem mem_pending {event : SleepEvent} :
    event ∈ store.pending ↔
      event ∈ store.events ∧ store.consumed event.id = false := by
  simp [Store.pending, (sortBy_perm store.events).mem_iff]

theorem Store.oldest_of_pending
    {event : SleepEvent} {rest : List SleepEvent}
    (first : store.pending = event :: rest) : store.Oldest event := by
  have placed : (event :: rest).Pairwise fun early late =>
      early.place ≤ late.place :=
    first ▸ (sortBy_ordered store.events).filter _
  obtain ⟨member, waiting⟩ := mem_pending.mp (first ▸ List.mem_cons_self)
  refine ⟨member, waiting, fun other otherMember _ otherWaiting => ?_⟩
  have listed : other ∈ event :: rest :=
    first ▸ mem_pending.mpr ⟨otherMember, otherWaiting⟩
  rcases List.mem_cons.mp listed with rfl | later
  · exact le_rfl
  · exact List.rel_of_pairwise_cons placed later

theorem Takes.pending
    {event : SleepEvent} {rest : List SleepEvent} {after : Store}
    (ordered : store.Ordered mac) (takes : Takes mac store event after)
    (first : store.pending = event :: rest) : after.pending = rest := by
  have ids : ((event :: rest).map (·.id)).Nodup := by
    have sublist : store.pending.Sublist (sortBy SleepEvent.place
      store.events) := List.filter_sublist
    refine first ▸ (sublist.map _).nodup ?_
    exact ((sortBy_perm store.events).map _).nodup_iff.mpr ordered.distinct
  have filtered : after.pending =
      store.pending.filter fun other => other.id ≠ event.id := by
    rw [Store.pending, takes.events, Store.pending, List.filter_filter]
    refine List.filter_congr fun other _ => ?_
    have named := takes.names other.id
    have waits : after.consumed other.id = false ↔
        store.consumed other.id = false ∧ other.id ≠ event.id := by
      rw [← Bool.not_eq_true, named]
      simp
    rw [Bool.eq_iff_iff]
    simp [waits, and_comm]
  rw [filtered, first, List.filter_cons_of_neg (by simp)]
  refine List.filter_eq_self.mpr fun other member => ?_
  have apart := (List.nodup_cons.mp ids).1
  simp only [decide_eq_true_eq]
  exact fun same => apart (List.mem_map.mpr ⟨other, member, same⟩)

/-- A beginning of the pending events is projected without an error. -/
theorem projectEach_spec
    (batch rest : List SleepEvent) :
    ∀ {store : Store}, store.Ordered mac → store.pending = batch ++ rest →
      ∃ after : Store,
        projectEach mac store batch = ⟨batch.length, false, after⟩ ∧
        after.events = store.events ∧ after.Ordered mac ∧
        after.pending = rest := by
  induction batch with
  | nil =>
      intro store ordered waiting
      exact ⟨store, rfl, rfl, ordered, waiting⟩
  | cons event batch inductionHypothesis =>
      intro store ordered waiting
      obtain ⟨middle, projected, takes⟩ :=
        ordered.projectSleepEvent_takes (Store.oldest_of_pending waiting)
      obtain ⟨after, passed, events, afterOrdered, left⟩ :=
        inductionHypothesis takes.ordered (takes.pending ordered waiting)
      refine ⟨after, ?_, events.trans takes.events, afterOrdered, left⟩
      simp [projectEach, projected, passed]

theorem projectPendingSleepEvents_spec
    (ordered : store.Ordered mac) {limit : Nat} (valid : validLimit limit) :
    ∃ after : Store,
      projectPendingSleepEvents mac store limit =
        ⟨(store.pending.take limit).length, false, after⟩ ∧
      after.events = store.events ∧ after.Ordered mac ∧
      after.pending = store.pending.drop limit := by
  rw [projectPendingSleepEvents, if_pos valid]
  exact projectEach_spec _ _ ordered (List.take_append_drop limit _).symm

/-! ## Histories -/

/-- An arriving event waits, so a projected one was stored before. -/
theorem Store.Ordered.mem_of_consumed
    {group : List SleepEvent} (ordered : store.Ordered mac)
    (accepts : store.Accepts mac group) {event : SleepEvent}
    (member : event ∈ store.events ++ group)
    (done : store.consumed event.id = true) : event ∈ store.events := by
  obtain ⟨old, oldMember, same⟩ := ordered.known event.id done
  have equal : old = event :=
    List.inj_on_of_nodup_map accepts.fresh
      (List.mem_append_left _ oldMember) member same
  exact equal ▸ oldMember

theorem Store.Ordered.arrive
    {group : List SleepEvent} (ordered : store.Ordered mac)
    (accepts : store.Accepts mac group) :
    (next mac store (.arrive group)).Ordered mac := by
  have stored {event : SleepEvent} :
      event ∈ store.events ++ group → store.consumed event.id = true →
        event ∈ store.events :=
    ordered.mem_of_consumed accepts
  constructor
  case distinct => exact accepts.fresh
  case macs =>
    intro event member
    rcases List.mem_append.mp member with old | new
    · exact ordered.macs event old
    · exact accepts.macs event new
  case alternates => exact accepts.alternates
  case keys => exact ordered.keys
  case keyed => exact ordered.keyed
  case known =>
    intro id named
    obtain ⟨event, member, same⟩ := ordered.known id named
    exact ⟨event, List.mem_append_left _ member, same⟩
  case behind =>
    intro done doneMember waiting waitingMember node isDone waits
    rcases List.mem_append.mp waitingMember with old | new
    · exact ordered.behind done (stored doneMember isDone) waiting old node
        isDone waits
    · exact accepts.later waiting new done (stored doneMember isDone) node
        isDone
  case asleep =>
    intro interval member isOpen
    obtain ⟨event, eventMember, same, starts, done, last⟩ :=
      ordered.asleep interval member isOpen
    refine ⟨event, List.mem_append_left _ eventMember, same, starts, done,
      fun other otherMember node otherDone => ?_⟩
    exact last other (stored otherMember otherDone) node otherDone
  case awake =>
    intro event member starts done last
    refine ordered.awake event (stored member done) starts done ?_
    exact fun other otherMember =>
      last other (List.mem_append_left _ otherMember)

theorem ordered_empty : Store.Ordered mac ⟨[], []⟩ := by
  constructor <;> simp [Store.consumed, Store.Alternates]

theorem Store.Ordered.next
    (ordered : store.Ordered mac) {step : Step}
    (met : InOrder mac store step) : (next mac store step).Ordered mac := by
  cases step with
  | arrive group =>
      exact ordered.arrive met
  | pass limit =>
      obtain ⟨after, passed, _, afterOrdered, _⟩ :=
        projectPendingSleepEvents_spec ordered met
      simpa only [SilentNode.next, passed] using afterOrdered

theorem ordered_after
    {steps : List Step}
    (each : EachStep (next mac) ⟨[], []⟩ (InOrder mac) steps) :
    (after mac steps).Ordered mac :=
  each.invariant (Store.Ordered mac) ordered_empty
    fun _ _ ordered met => ordered.next met

/-- With nothing pending, a node has an open interval exactly when its last
event is a start. -/
theorem Store.Ordered.hasOpen_iff
    (ordered : store.Ordered mac) (settled : store.pending = [])
    (node : Nat) : store.hasOpen node = true ↔ store.lastStarts node := by
  have done : ∀ event ∈ store.events, store.consumed event.id = true := by
    intro event member
    by_contra waits
    have waiting := mem_pending.mpr ⟨member, Bool.not_eq_true _ ▸ waits⟩
    rw [settled] at waiting
    exact List.not_mem_nil waiting
  constructor
  · intro isOpen
    obtain ⟨interval, member, found⟩ := List.any_eq_true.mp isOpen
    obtain ⟨rfl, notEnded⟩ := openFor_iff.mp found
    obtain ⟨event, eventMember, rfl, starts, _, last⟩ :=
      ordered.asleep interval member notEnded
    exact ⟨event, eventMember, rfl, starts, fun other otherMember same =>
      last other otherMember same (done other otherMember)⟩
  · rintro ⟨event, member, rfl, starts, last⟩
    have opened := ordered.awake event member starts (done event member)
      fun other otherMember same _ => last other otherMember same
    exact List.any_eq_true.mpr
      ⟨_, opened, openFor_iff.mpr ⟨rfl, rfl⟩⟩

/-- When the events of every node arrive in order, a pass that changes nothing
leaves a node with an open interval exactly when its last event is a start. -/
theorem asleep_iff_last_starts
    (mac : Nat → Bool) (steps : List Step)
    (each : EachStep (next mac) ⟨[], []⟩ (InOrder mac) steps)
    (limit : Nat) (valid : validLimit limit)
    (quiet : next mac (after mac steps) (.pass limit) = after mac steps)
    (node : Nat) :
    (after mac steps).hasOpen node = true ↔
      (after mac steps).lastStarts node := by
  have ordered := ordered_after each
  refine ordered.hasOpen_iff ?_ node
  obtain ⟨last, passed, _, _, left⟩ :=
    projectPendingSleepEvents_spec ordered valid
  have same : last = after mac steps := by
    simpa only [next, passed] using quiet
  have length := congrArg List.length (same ▸ left)
  rw [List.length_drop] at length
  have positive : 0 < limit := valid.1
  exact List.length_eq_zero_iff.mp (by omega)

/-- A Mac falls asleep and its start is projected. -/
def asleepSteps : List Step :=
  [.arrive [⟨1, 0, 10, 1, true⟩], .pass 100]

theorem asleepSteps_inOrder :
    EachStep (next fun _ => true) ⟨[], []⟩ (InOrder fun _ => true)
      asleepSteps := by
  refine (eachStep_nil.snoc ?_).snoc ?_
  · exact ⟨by decide, by decide, by decide, by decide⟩
  · exact (by decide : validLimit 100)

theorem asleep_after_start :
    (after (fun _ => true) asleepSteps).lastStarts 0 :=
  (asleep_iff_last_starts (fun _ => true) asleepSteps asleepSteps_inOrder
    100 (by decide) (by decide +kernel) 0).mp (by decide +kernel)

/-- An end that arrives before its start is projected as an empty interval,
and the start then opens an interval that nothing closes. -/
def swappedSteps : List Step :=
  [.arrive [⟨2, 0, 20, 2, false⟩], .pass 100,
    .arrive [⟨1, 0, 10, 1, true⟩], .pass 100]

theorem awake_node_left_open :
    next (fun _ => true) (after (fun _ => true) swappedSteps) (.pass 100) =
      after (fun _ => true) swappedSteps ∧
    (after (fun _ => true) swappedSteps).hasOpen 0 = true ∧
    ¬ (after (fun _ => true) swappedSteps).lastStarts 0 := by
  decide +kernel

theorem Store.Ordered.pending_passes
    {limits : List Nat} (valid : ∀ limit ∈ limits, validLimit limit) :
    ∀ {store : Store}, store.Ordered mac →
      ((limits.map Step.pass).foldl (SilentNode.next mac)
        store).pending.length ≤ store.pending.length - limits.length := by
  induction limits with
  | nil =>
      intro store _
      exact le_rfl
  | cons limit limits inductionHypothesis =>
      intro store ordered
      rw [List.forall_mem_cons] at valid
      obtain ⟨middle, passed, _, middleOrdered, left⟩ :=
        projectPendingSleepEvents_spec ordered valid.1
      have bound := inductionHypothesis valid.2 middleOrdered
      rw [left, List.length_drop] at bound
      have positive : 0 < limit := valid.1.1
      simp only [List.map_cons, List.foldl_cons, SilentNode.next, passed,
        List.length_cons]
      omega

/-- When the events of every node arrive in order, every pass returns without
an error and projects an event if one is pending, and as many passes as
events are pending leave none. -/
theorem passes_consume_pending
    (mac : Nat → Bool) (steps : List Step)
    (each : EachStep (next mac) ⟨[], []⟩ (InOrder mac) steps) :
    (∀ limit, validLimit limit →
      (projectPendingSleepEvents mac (after mac steps) limit).failed =
        false ∧
      ((after mac steps).pending ≠ [] →
        (next mac (after mac steps) (.pass limit)).pending.length <
          (after mac steps).pending.length)) ∧
    (∀ limits : List Nat, (∀ limit ∈ limits, validLimit limit) →
      (after mac steps).pending.length ≤ limits.length →
        (after mac (steps ++ limits.map .pass)).pending = []) := by
  have ordered := ordered_after each
  constructor
  · intro limit valid
    obtain ⟨last, passed, _, _, left⟩ :=
      projectPendingSleepEvents_spec ordered valid
    refine ⟨by rw [passed], fun waiting => ?_⟩
    have some := List.length_pos_iff.mpr waiting
    have positive : 0 < limit := valid.1
    simp only [next, passed, left, List.length_drop]
    omega
  · intro limits valid enough
    have bound := Store.Ordered.pending_passes valid ordered
    rw [after, stateAfter, List.foldl_append]
    exact List.length_eq_zero_iff.mp (by
      rw [Nat.sub_eq_zero_of_le enough] at bound
      exact Nat.le_zero.mp bound)

theorem asleepSteps_keep_passing :
    (projectPendingSleepEvents (fun _ => true)
      (after (fun _ => true) asleepSteps) 100).failed = false :=
  ((passes_consume_pending (fun _ => true) asleepSteps
    asleepSteps_inOrder).1 100 (by decide)).1

/-- An end from before the open interval of its node arrives late, with an
event of another node. -/
def blockedSteps : List Step :=
  [.arrive [⟨1, 0, 10, 1, true⟩], .pass 100,
    .arrive [⟨2, 0, 5, 2, false⟩, ⟨3, 1, 20, 1, true⟩]]

/-- Every pass fails on the late end and leaves the tables as they are, with
the event of the other node pending. -/
theorem late_end_stops_passes :
    projectPendingSleepEvents (fun _ => true)
        (after (fun _ => true) blockedSteps) 100 =
      ⟨0, true, after (fun _ => true) blockedSteps⟩ ∧
    ⟨3, 1, 20, 1, true⟩ ∈ (after (fun _ => true) blockedSteps).pending := by
  decide +kernel

end Hexroute.SilentNode
