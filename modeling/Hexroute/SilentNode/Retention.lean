import Hexroute.SilentNode.Projection

/-!
# Retention of sleep events and intervals

Retention deletes old events by when they were received and old intervals by
when they ended, each in batches.  An interval forgets a deleted event that it
names.  An event that outlives the intervals that name it is pending again,
and the next pass projects it once more.
-/

namespace Hexroute.SilentNode

open Lib

/-! ## A run of the retention worker -/

def maxBatchSize : Nat := 5000

/-- A run: the cutoff for details, the size of a batch, when the events were
received, and the events of the other detail schemas. -/
structure Run where
  cutoff : Int
  batchSize : Nat
  receivedAt : Nat → Int
  others : List Nat
  positive : 0 < batchSize
  bounded : batchSize ≤ maxBatchSize

/-- `ON DELETE SET NULL` of the two events. -/
def Interval.forget (interval : Interval) (deleted : List Nat) : Interval :=
  { interval with
    startEvent := interval.startEvent.filter (· ∉ deleted)
    endEvent := interval.endEvent.filter (· ∉ deleted) }

namespace Run

/-- The first events that were received before the cutoff, of all detail
schemas. -/
def detailEvents (run : Run) (store : Store) : List Nat :=
  ((sortBy (fun id => toLex (run.receivedAt id, id))
    (store.events.map (·.id) ++ run.others)).filter fun id =>
      run.receivedAt id < run.cutoff).take run.batchSize

def expired (run : Run) (interval : Interval) : Bool :=
  interval.endedAt.any (· < run.cutoff)

/-- The first intervals that ended before the cutoff. -/
def sleepIntervals (run : Run) (store : Store) : List Nat :=
  ((sortBy
    (fun interval => toLex (interval.endedAt.getD run.cutoff, interval.id))
    (store.intervals.filter run.expired)).take run.batchSize).map (·.id)

def deleteDetailEvents (run : Run) (store : Store) : Store where
  events := store.events.filter (·.id ∉ run.detailEvents store)
  intervals := store.intervals.map (·.forget (run.detailEvents store))

def deleteSleepIntervals (run : Run) (store : Store) : Store :=
  { store with
    intervals :=
      store.intervals.filter (·.id ∉ run.sleepIntervals store) }

/-- What a run does to the events and intervals of sleep. -/
def once (run : Run) (store : Store) : Store :=
  run.deleteSleepIntervals (run.deleteDetailEvents store)

/-- The intervals that a run deletes. -/
def deletedIntervals (run : Run) (store : Store) : List Nat :=
  run.sleepIntervals (run.deleteDetailEvents store)

end Run

/-- Whether an interval of the node holds a time. -/
def Store.sleepingAt (store : Store) (node : Nat) (time : Int) : Bool :=
  store.intervals.any fun interval =>
    interval.node == node && decide (interval.startedAt ≤ time) &&
      interval.endedAt.all fun ending => decide (time < ending)

/-- Passes of the projection with given limits. -/
abbrev passes (mac : Nat → Bool) (store : Store) (limits : List Nat) :
    Store :=
  stateAfter (next mac) store (limits.map Step.pass)

/-- Ingest stores an event under a key only once. -/
def Stored (store : Store) : Step → Prop
  | .arrive group => ((store.events ++ group).map (·.id)).Nodup
  | .pass _ => True

/-- A run deletes no event that is pending, and with an interval all events
that it names. -/
structure Run.Careful (run : Run) (store : Store) : Prop where
  settled :
    ∀ event ∈ store.events, event.id ∈ run.detailEvents store →
      store.consumed event.id = true
  whole :
    ∀ interval ∈ store.intervals,
      interval.id ∈ run.deletedIntervals store →
        ∀ event ∈ store.events, interval.names event.id = true →
          event.id ∈ run.detailEvents store

/-! ## What the projection sees -/

/-- The pending events, and the key and start of the open interval of every
node. -/
structure View where
  waiting : List SleepEvent
  openOf : Nat → Option (Nat × Int)

def Store.view (store : Store) : View where
  waiting := store.pending
  openOf := fun node =>
    (store.openOf node).map fun interval =>
      (interval.id, interval.startedAt)

namespace View

def take (view : View) (event : SleepEvent)
    (now : Option (Nat × Int)) : View where
  waiting := view.waiting.filter fun other => other.id ≠ event.id
  openOf := Function.update view.openOf event.node now

/-- Project an event on what is seen; `none` is a refusal. -/
def project (mac : Nat → Bool) (view : View) (event : SleepEvent) :
    Option View :=
  if mac event.node then
    match view.openOf event.node with
    | none =>
        some
          (view.take event
            (if event.starts then some (event.id, event.occurredAt)
            else none))
    | some (_, startedAt) =>
        if event.starts then some view
        else if event.occurredAt < startedAt then none
        else some (view.take event none)
  else none

def projectEach (mac : Nat → Bool) (view : View) :
    List SleepEvent → View
  | [] => view
  | event :: rest =>
      match view.project mac event with
      | none => view
      | some after => after.projectEach mac rest

def next (mac : Nat → Bool) (view : View) (limit : Nat) : View :=
  if validLimit limit then
    view.projectEach mac (view.waiting.take limit)
  else view

end View

/-- What the projection relies on: an event that waits has no interval under
its key, and a node has one open interval at most, which names no end. -/
structure Store.Sound (store : Store) : Prop where
  ids : (store.events.map (·.id)).Nodup
  keys : (store.intervals.map (·.id)).Nodup
  lone :
    ∀ one ∈ store.intervals, ∀ other ∈ store.intervals,
      one.endedAt = none → other.endedAt = none → one.node = other.node →
        one = other
  unended :
    ∀ interval ∈ store.intervals, interval.endedAt = none →
      interval.endEvent = none
  fresh :
    ∀ event ∈ store.events, store.consumed event.id = false →
      ∀ interval ∈ store.intervals, interval.id ≠ event.id

variable {mac : Nat → Bool} {store left : Store} {event : SleepEvent}

/-- The node has an open interval under a key, with a start. -/
def Store.Opens (store : Store) (node : Nat) (opened : Nat × Int) : Prop :=
  ∃ interval ∈ store.intervals, interval.node = node ∧
    interval.endedAt = none ∧ interval.id = opened.1 ∧
    interval.startedAt = opened.2

theorem Store.openOf_eq_none_iff {node : Nat} :
    store.view.openOf node = none ↔
      ∀ interval ∈ store.intervals, interval.endedAt = none →
        interval.node ≠ node := by
  rw [Store.view, Option.map_eq_none_iff]
  constructor
  · exact closed_of_openOf
  · intro closed
    by_contra present
    obtain ⟨interval, found⟩ := Option.ne_none_iff_exists'.mp present
    obtain ⟨member, isNode, isOpen⟩ := mem_of_openOf found
    exact closed interval member isOpen isNode

theorem Store.hasOpen_eq (store : Store) (node : Nat) :
    store.hasOpen node = (store.view.openOf node).isSome := by
  rw [Bool.eq_iff_iff, Option.isSome_iff_ne_none, ne_eq,
    Store.openOf_eq_none_iff, Store.hasOpen, List.any_eq_true]
  constructor
  · rintro ⟨interval, member, isOpen⟩ closed
    obtain ⟨isNode, unended⟩ := openFor_iff.mp isOpen
    exact closed interval member unended isNode
  · intro some
    by_contra none
    refine some fun interval member unended isNode => none ?_
    exact ⟨interval, member, openFor_iff.mpr ⟨isNode, unended⟩⟩

namespace Store.Sound

theorem openOf_eq_some_iff
    (sound : store.Sound) {node : Nat} {opened : Nat × Int} :
    store.view.openOf node = some opened ↔ store.Opens node opened := by
  rw [Store.view, Option.map_eq_some_iff]
  constructor
  · rintro ⟨interval, found, rfl⟩
    obtain ⟨member, isNode, isOpen⟩ := mem_of_openOf found
    exact ⟨interval, member, isNode, isOpen, rfl, rfl⟩
  · rintro ⟨interval, member, isNode, isOpen, isKey, isStart⟩
    cases found : store.openOf node with
    | none =>
        exact absurd isNode (closed_of_openOf found interval member isOpen)
    | some other =>
        obtain ⟨otherMember, otherNode, otherOpen⟩ := mem_of_openOf found
        have same : other = interval :=
          sound.lone other otherMember interval member otherOpen isOpen
            (otherNode.trans isNode.symm)
        exact ⟨other, rfl, by rw [same, isKey, isStart]⟩

/-- The event of a step is named from then on, and its node has the interval
open that the step leaves. -/
theorem view_take
    (sound : store.Sound) (soundAfter : left.Sound)
    (sameEvents : left.events = store.events) (now : Option (Nat × Int))
    (names :
      ∀ id, left.consumed id = true ↔
        store.consumed id = true ∨ id = event.id)
    (opens :
      ∀ node opened, left.Opens node opened ↔
        (store.Opens node opened ∧ node ≠ event.node) ∨
          (node = event.node ∧ now = some opened)) :
    left.view = store.view.take event now := by
  have waiting :
      left.pending =
        store.pending.filter fun other => other.id ≠ event.id := by
    rw [Store.pending, sameEvents, Store.pending, List.filter_filter]
    refine List.filter_congr fun other _ => ?_
    have named := names other.id
    rw [Bool.eq_iff_iff]
    cases before : store.consumed other.id <;>
      cases later : left.consumed other.id <;> simp_all
  have seen : left.view.openOf =
      Function.update store.view.openOf event.node now := by
    funext node
    refine Option.ext fun opened => ?_
    rw [soundAfter.openOf_eq_some_iff, opens]
    by_cases here : node = event.node
    · subst here
      simp
    · rw [Function.update_of_ne here, sound.openOf_eq_some_iff]
      simp [here]
  rw [View.take, ← seen, Store.view, waiting]
  rfl

/-! ### One event -/

theorem insert_eq
    (sound : store.Sound) (waits : event ∈ store.pending)
    {interval : Interval} (own : interval.id = event.id) :
    store.insert interval =
      { store with intervals := interval :: store.intervals } := by
  obtain ⟨member, waiting⟩ := mem_pending.mp waits
  exact
    Store.insert_eq fun other otherMember =>
      own ▸ sound.fresh event member waiting other otherMember

theorem insert
    (sound : store.Sound) (waits : event ∈ store.pending)
    {interval : Interval} (own : interval.id = event.id)
    (names : ∀ id, interval.names id = true ↔ id = event.id)
    (unended : interval.endedAt = none → interval.endEvent = none)
    (lone :
      interval.endedAt = none →
        ∀ other ∈ store.intervals, other.endedAt = none →
          other.node ≠ interval.node) :
    Store.Sound ⟨store.events, interval :: store.intervals⟩ := by
  obtain ⟨member, waiting⟩ := mem_pending.mp waits
  constructor
  case ids => exact sound.ids
  case keys =>
    refine List.nodup_cons.mpr ⟨fun taken => ?_, sound.keys⟩
    obtain ⟨other, otherMember, same⟩ := List.mem_map.mp taken
    exact
      sound.fresh event member waiting other otherMember (same.trans own)
  case lone =>
    intro one oneMember other otherMember oneOpen otherOpen same
    rcases List.mem_cons.mp oneMember with rfl | oneOld <;>
      rcases List.mem_cons.mp otherMember with rfl | otherOld
    · rfl
    · exact absurd same.symm (lone oneOpen other otherOld otherOpen)
    · exact absurd same (lone otherOpen one oneOld oneOpen)
    · exact sound.lone one oneOld other otherOld oneOpen otherOpen same
  case unended =>
    intro other otherMember isOpen
    rcases List.mem_cons.mp otherMember with rfl | old
    · exact unended isOpen
    · exact sound.unended other old isOpen
  case fresh =>
    intro other otherMember otherWaits kept keptMember
    have apart :
        ¬ (store.consumed other.id = true ∨ other.id = event.id) := by
      rw [← Store.consumed_cons names, otherWaits]
      exact Bool.false_ne_true
    rw [not_or, Bool.not_eq_true] at apart
    rcases List.mem_cons.mp keptMember with rfl | old
    · rw [own]
      exact Ne.symm apart.2
    · exact sound.fresh other otherMember apart.1 kept old

/-- An end closes the open interval of its node. -/
theorem close
    (sound : store.Sound) {interval : Interval}
    (found : store.openOf event.node = some interval) :
    (store.close interval.id event).Sound ∧
      (∀ id, (store.close interval.id event).consumed id = true ↔
        store.consumed id = true ∨ id = event.id) ∧
      ∀ node opened, (store.close interval.id event).Opens node opened ↔
        store.Opens node opened ∧ node ≠ event.node := by
  obtain ⟨member, isNode, isOpen⟩ := mem_of_openOf found
  have key : ∀ other ∈ store.intervals, other.id = interval.id →
      other = interval := fun other otherMember same =>
    List.inj_on_of_nodup_map sound.keys otherMember member same
  have named :=
    @Store.consumed_close store event interval sound.keys member
      (sound.unended interval member isOpen)
  -- An interval that is open afterwards is an old one of another node.
  have old {other : Interval}
      (otherMember : other ∈ (store.close interval.id event).intervals)
      (otherOpen : other.endedAt = none) :
      other ∈ store.intervals ∧ other.id ≠ interval.id := by
    obtain ⟨before, beforeMember, rfl⟩ := List.mem_map.mp otherMember
    by_cases same : before.id = interval.id
    · simp [same] at otherOpen
    · rw [if_neg same]
      exact ⟨beforeMember, same⟩
  refine ⟨⟨sound.ids, ?_, ?_, ?_, ?_⟩, named, ?_⟩
  · exact (Store.close_keys interval.id).symm ▸ sound.keys
  · intro one oneMember other otherMember oneOpen otherOpen
    exact
      sound.lone one (old oneMember oneOpen).1 other
        (old otherMember otherOpen).1 oneOpen otherOpen
  · intro other otherMember otherOpen
    exact sound.unended other (old otherMember otherOpen).1 otherOpen
  · intro other otherMember otherWaits kept keptMember
    have apart :
        ¬ (store.consumed other.id = true ∨ other.id = event.id) := by
      rw [← named, otherWaits]
      exact Bool.false_ne_true
    rw [not_or, Bool.not_eq_true] at apart
    obtain ⟨before, beforeMember, rfl⟩ := List.mem_map.mp keptMember
    have freshKey := sound.fresh other otherMember apart.1 before beforeMember
    split <;> exact freshKey
  · intro node opened
    constructor
    · rintro ⟨other, otherMember, otherNode, otherOpen, isOpened⟩
      obtain ⟨oldMember, otherKey⟩ := old otherMember otherOpen
      refine ⟨⟨other, oldMember, otherNode, otherOpen, isOpened⟩, ?_⟩
      intro here
      refine otherKey (congrArg Interval.id ?_)
      exact
        sound.lone other oldMember interval member otherOpen isOpen
          (otherNode.trans (here.trans isNode.symm))
    · rintro ⟨⟨other, otherMember, otherNode, otherOpen, isOpened⟩, apart⟩
      refine ⟨other, ?_, otherNode, otherOpen, isOpened⟩
      refine List.mem_map.mpr ⟨other, otherMember, if_neg fun same => ?_⟩
      rw [key other otherMember same, isNode] at otherNode
      exact apart otherNode.symm

end Store.Sound

/-- The result of a projection is what a view shows: both refuse, or the
store that is left is sound and has the view. -/
def Shown (store : Store) (result : Except Refusal Store) :
    Option View → Prop
  | none => result = .error .invalidSleepEvent
  | some view =>
      ∃ after, result = .ok after ∧ after.view = view ∧ after.Sound ∧
        after.events = store.events

namespace Store.Sound

/-- A new interval of a node that has none open is all that its event
changes. -/
theorem insert_shown
    (sound : store.Sound) (waits : event ∈ store.pending)
    (closed : store.view.openOf event.node = none)
    {interval : Interval} {now : Option (Nat × Int)}
    (own : interval.id = event.id) (isNode : interval.node = event.node)
    (names : ∀ id, interval.names id = true ↔ id = event.id)
    (unended : interval.endedAt = none → interval.endEvent = none)
    (opens :
      ∀ opened : Nat × Int,
        (interval.endedAt = none ∧ interval.id = opened.1 ∧
          interval.startedAt = opened.2) ↔ now = some opened) :
    Shown store (.ok (store.insert interval))
      (some (store.view.take event now)) := by
  have lone := Store.openOf_eq_none_iff.mp closed
  have after :=
    sound.insert waits own names unended fun _ => isNode.symm ▸ lone
  rw [sound.insert_eq waits own]
  refine ⟨_, rfl, ?_, after, rfl⟩
  refine sound.view_take after rfl _ (Store.consumed_cons names) ?_
  intro node opened
  constructor
  · rintro ⟨other, member, otherNode, isOpen, isOpened⟩
    rcases List.mem_cons.mp member with rfl | old
    · have isNow := (opens opened).mp ⟨isOpen, isOpened⟩
      exact .inr ⟨otherNode.symm.trans isNode, isNow⟩
    · refine .inl ⟨⟨other, old, otherNode, isOpen, isOpened⟩, ?_⟩
      rw [← otherNode]
      exact lone other old isOpen
  · rintro (⟨⟨other, old, isOpened⟩, _⟩ | ⟨rfl, isNow⟩)
    · exact ⟨other, List.mem_cons_of_mem _ old, isOpened⟩
    · have isOpened := (opens opened).mpr isNow
      exact ⟨interval, List.mem_cons_self, isNode, isOpened⟩

theorem projectSleepStart_shown
    (sound : store.Sound) (waits : event ∈ store.pending)
    (closed : store.view.openOf event.node = none) :
    Shown store (.ok (projectSleepStart store event))
      (some (store.view.take event (some (event.id, event.occurredAt)))) := by
  have isNone : store.hasOpen event.node = false := by
    rw [Store.hasOpen_eq, closed]
    rfl
  have names : ∀ id, event.opened.names id = true ↔ id = event.id := by
    intro id
    simpa [Interval.names, SleepEvent.opened] using eq_comm
  rw [projectSleepStart, isNone, if_neg Bool.false_ne_true]
  refine sound.insert_shown waits closed rfl rfl names (fun _ => rfl) ?_
  intro opened
  constructor
  · rintro ⟨_, isKey, isStart⟩
    exact congrArg some (Prod.ext isKey isStart)
  · intro isNow
    cases isNow
    exact ⟨rfl, rfl, rfl⟩

theorem projectSleepEnd_shown
    (sound : store.Sound) (waits : event ∈ store.pending)
    (closed : store.view.openOf event.node = none) :
    Shown store (projectSleepEnd store event)
      (some (store.view.take event none)) := by
  have absent : store.openOf event.node = none :=
    Option.map_eq_none_iff.mp closed
  have names : ∀ id, event.alone.names id = true ↔ id = event.id := by
    intro id
    simpa [Interval.names, SleepEvent.alone] using eq_comm
  have ended : event.alone.endedAt ≠ none := Option.some_ne_none _
  simp only [projectSleepEnd, absent]
  refine
    sound.insert_shown waits closed rfl rfl names
      (fun isOpen => absurd isOpen ended) ?_
  intro opened
  constructor
  · intro isOpened
    exact absurd isOpened.1 ended
  · intro isNow
    cases isNow

/-- A step of the projection is a step on what it sees. -/
theorem projectSleepEvent_shown
    (sound : store.Sound) (waits : event ∈ store.pending) :
    Shown store (projectSleepEvent mac store event)
      (store.view.project mac event) := by
  unfold projectSleepEvent View.project
  cases isMac : mac event.node with
  | false => rfl
  | true =>
      rw [if_pos rfl]
      cases seen : store.view.openOf event.node with
      | none =>
          cases starts : event.starts with
          | true => exact sound.projectSleepStart_shown waits seen
          | false => exact sound.projectSleepEnd_shown waits seen
      | some opened =>
          obtain ⟨interval, found, rfl⟩ := Option.map_eq_some_iff.mp seen
          cases starts : event.starts with
          | true =>
              have isSome : store.hasOpen event.node = true := by
                rw [Store.hasOpen_eq, seen]
                rfl
              refine ⟨store, ?_, rfl, sound, rfl⟩
              simp [projectSleepStart, isSome, refuse, pure, Except.pure,
                bind, Except.bind]
          | false =>
              by_cases early : event.occurredAt < interval.startedAt
              · simp [Shown, projectSleepEnd, found, early, refuse, bind,
                  Except.bind]
              · obtain ⟨after, named, opens⟩ := sound.close found
                simp only [early, if_false, Bool.false_eq_true]
                refine ⟨store.close interval.id event, ?_, ?_, after, rfl⟩
                · simp [projectSleepEnd, found, early, refuse, bind,
                    Except.bind, pure, Except.pure]
                · refine sound.view_take after rfl none named ?_
                  intro node opened
                  rw [opens]
                  simp

/-! ### Passes -/

end Store.Sound

/-- A step takes its own event only. -/
theorem View.waits_of_project
    {view seen : View} (projected : view.project mac event = some seen)
    {other : SleepEvent} (waits : other ∈ view.waiting)
    (apart : other.id ≠ event.id) : other ∈ seen.waiting := by
  have taken (now : Option (Nat × Int)) :
      other ∈ (view.take event now).waiting :=
    List.mem_filter.mpr ⟨waits, decide_eq_true apart⟩
  unfold View.project at projected
  split at projected
  · split at projected
    · cases projected
      exact taken _
    · split at projected
      · cases projected
        exact waits
      · split at projected
        · cases projected
        · cases projected
          exact taken _
  · cases projected

namespace Store.Sound

theorem projectEach_shown
    {batch : List SleepEvent} (sound : store.Sound)
    (distinct : (batch.map (·.id)).Nodup)
    (waits : ∀ event ∈ batch, event ∈ store.pending) :
    (projectEach mac store batch).store.view =
        store.view.projectEach mac batch ∧
      (projectEach mac store batch).store.Sound ∧
      (projectEach mac store batch).store.events = store.events := by
  induction batch generalizing store with
  | nil => exact ⟨rfl, sound, rfl⟩
  | cons event rest inductionHypothesis =>
      obtain ⟨apart, restDistinct⟩ := List.nodup_cons.mp distinct
      have shown :=
        @projectSleepEvent_shown mac store event sound
          (waits event List.mem_cons_self)
      unfold projectEach View.projectEach
      cases seen : store.view.project mac event with
      | none =>
          rw [seen] at shown
          rw [show projectSleepEvent mac store event = _ from shown]
          exact ⟨rfl, sound, rfl⟩
      | some view =>
          rw [seen] at shown
          obtain ⟨after, projected, rfl, soundAfter, events⟩ := shown
          rw [projected]
          have left : ∀ other ∈ rest, other ∈ after.pending := by
            intro other member
            refine
              View.waits_of_project seen
                (waits other (List.mem_cons_of_mem _ member)) ?_
            intro same
            exact apart (List.mem_map.mpr ⟨other, member, same⟩)
          obtain ⟨views, still, same⟩ :=
            inductionHypothesis soundAfter restDistinct left
          exact ⟨views, still, same.trans events⟩

theorem next_shown (sound : store.Sound) (limit : Nat) :
    (SilentNode.next mac store (.pass limit)).view =
        store.view.next mac limit ∧
      (SilentNode.next mac store (.pass limit)).Sound ∧
      (SilentNode.next mac store (.pass limit)).events = store.events := by
  unfold SilentNode.next View.next
  simp only [projectPendingSleepEvents]
  split
  · refine sound.projectEach_shown ?_ ?_
    · have sublist :
          (store.pending.take limit).Sublist
            (sortBy SleepEvent.place store.events) :=
        (List.take_sublist _ _).trans List.filter_sublist
      refine (sublist.map _).nodup ?_
      exact ((sortBy_perm store.events).map _).nodup_iff.mpr sound.ids
    · intro event member
      exact List.mem_of_mem_take member
  · exact ⟨rfl, sound, rfl⟩

theorem passes_shown (sound : store.Sound) (limits : List Nat) :
    (passes mac store limits).view =
        limits.foldl (View.next mac) store.view ∧
      (passes mac store limits).Sound ∧
      (passes mac store limits).events = store.events := by
  induction limits using List.reverseRecOn with
  | nil => exact ⟨rfl, sound, rfl⟩
  | append_singleton earlier limit inductionHypothesis =>
      obtain ⟨view, still, same⟩ := inductionHypothesis
      obtain ⟨nextView, nextSound, nextSame⟩ :=
        @next_shown mac (passes mac store earlier) still limit
      rw [passes, List.map_append, List.map_singleton, stateAfter_snoc,
        List.foldl_append, ← view]
      exact ⟨nextView, nextSound, nextSame.trans same⟩

end Store.Sound

/-! ## What a run leaves -/

section Once

variable {run : Run}

theorem Interval.names_forget
    (interval : Interval) (deleted : List Nat) (id : Nat) :
    (interval.forget deleted).names id = true ↔
      interval.names id = true ∧ id ∉ deleted := by
  simp only [Interval.names, Interval.forget, Bool.or_eq_true, beq_iff_eq,
    Option.filter_eq_some_iff, decide_eq_true_eq]
  tauto

theorem Run.mem_once_intervals {interval : Interval} :
    interval ∈ (run.once store).intervals ↔
      ∃ old ∈ store.intervals,
        old.id ∉ run.deletedIntervals store ∧
          old.forget (run.detailEvents store) = interval := by
  simp only [Run.once, Run.deleteSleepIntervals, List.mem_filter,
    Run.deleteDetailEvents, List.mem_map]
  constructor
  · rintro ⟨⟨old, member, rfl⟩, kept⟩
    exact ⟨old, member, of_decide_eq_true kept, rfl⟩
  · rintro ⟨old, member, kept, rfl⟩
    exact ⟨⟨old, member, rfl⟩, decide_eq_true kept⟩

/-- Only an interval that has ended is deleted. -/
theorem Store.Sound.open_kept
    (sound : store.Sound) {interval : Interval}
    (member : interval ∈ store.intervals) (isOpen : interval.endedAt = none) :
    interval.id ∉ run.deletedIntervals store := by
  intro deleted
  obtain ⟨ended, taken, same⟩ := List.mem_map.mp deleted
  have listed :=
    (sortBy_perm _).mem_iff.mp (List.mem_of_mem_take taken)
  obtain ⟨endedMember, expired⟩ := List.mem_filter.mp listed
  obtain ⟨old, oldMember, rfl⟩ := List.mem_map.mp endedMember
  have equal : old = interval :=
    List.inj_on_of_nodup_map sound.keys oldMember member same
  rw [equal] at expired
  simp [Run.expired, Interval.forget, isOpen] at expired

/-- After a careful run an event that is left waits as it did before. -/
theorem Run.Careful.waits_iff
    (careful : run.Careful store) (member : event ∈ store.events) :
    (event.id ∉ run.detailEvents store ∧
        (run.once store).consumed event.id = false) ↔
      store.consumed event.id = false := by
  have named : (run.once store).consumed event.id = true ↔
      ∃ old ∈ store.intervals, old.id ∉ run.deletedIntervals store ∧
        old.names event.id = true ∧
          event.id ∉ run.detailEvents store := by
    rw [Store.consumed, List.any_eq_true]
    constructor
    · rintro ⟨interval, kept, names⟩
      obtain ⟨old, oldMember, left, rfl⟩ := Run.mem_once_intervals.mp kept
      exact
        ⟨old, oldMember, left, (Interval.names_forget _ _ _).mp names⟩
    · rintro ⟨old, oldMember, left, names⟩
      exact
        ⟨_, Run.mem_once_intervals.mpr ⟨old, oldMember, left, rfl⟩,
          (Interval.names_forget _ _ _).mpr names⟩
  rw [← Bool.not_eq_true, ← Bool.not_eq_true, named]
  constructor
  · rintro ⟨kept, unnamed⟩ consumed
    obtain ⟨old, oldMember, names⟩ := List.any_eq_true.mp consumed
    by_cases left : old.id ∈ run.deletedIntervals store
    · exact kept (careful.whole old oldMember left event member names)
    · exact unnamed ⟨old, oldMember, left, names, kept⟩
  · intro waits
    refine ⟨fun deleted => waits (careful.settled event member deleted), ?_⟩
    rintro ⟨old, oldMember, _, names, _⟩
    exact waits (List.any_eq_true.mpr ⟨old, oldMember, names⟩)

theorem Store.Sound.once
    (sound : store.Sound) (careful : run.Careful store) :
    (run.once store).Sound := by
  constructor
  case ids =>
    exact (List.filter_sublist.map _).nodup sound.ids
  case keys =>
    have same :
        (store.intervals.map
          (·.forget (run.detailEvents store))).map (·.id) =
          store.intervals.map (·.id) := by
      rw [List.map_map]
      rfl
    refine (List.filter_sublist.map _).nodup ?_
    exact same ▸ sound.keys
  case lone =>
    intro one oneMember other otherMember oneOpen otherOpen same
    obtain ⟨first, firstMember, _, rfl⟩ :=
      Run.mem_once_intervals.mp oneMember
    obtain ⟨second, secondMember, _, rfl⟩ :=
      Run.mem_once_intervals.mp otherMember
    rw [sound.lone first firstMember second secondMember oneOpen otherOpen
      same]
  case unended =>
    intro interval member isOpen
    obtain ⟨old, oldMember, _, rfl⟩ := Run.mem_once_intervals.mp member
    rw [Interval.forget, sound.unended old oldMember isOpen]
    rfl
  case fresh =>
    intro event member waits interval kept
    obtain ⟨oldEvent, notDeleted⟩ := List.mem_filter.mp member
    obtain ⟨old, oldMember, _, rfl⟩ := Run.mem_once_intervals.mp kept
    have waited :=
      (careful.waits_iff oldEvent).mp ⟨of_decide_eq_true notDeleted, waits⟩
    exact sound.fresh event oldEvent waited old oldMember

/-- The projection sees nothing of a careful run. -/
theorem Store.Sound.once_view
    (sound : store.Sound) (careful : run.Careful store) :
    (run.once store).view = store.view := by
  have waiting : (run.once store).pending = store.pending := by
    have events :
        (run.once store).events =
          store.events.filter (·.id ∉ run.detailEvents store) :=
      rfl
    rw [Store.pending, Store.pending, events, sortBy_filter,
      List.filter_filter]
    refine List.filter_congr fun event member => ?_
    have same :=
      careful.waits_iff ((sortBy_perm store.events).mem_iff.mp member)
    rw [Bool.eq_iff_iff]
    simpa [and_comm] using same
  have opens : (run.once store).view.openOf = store.view.openOf := by
    funext node
    refine Option.ext fun opened => ?_
    rw [(sound.once careful).openOf_eq_some_iff, sound.openOf_eq_some_iff]
    constructor
    · rintro ⟨interval, member, isOpened⟩
      obtain ⟨old, oldMember, _, rfl⟩ := Run.mem_once_intervals.mp member
      exact ⟨old, oldMember, isOpened⟩
    · rintro ⟨old, oldMember, isNode, isOpen, isOpened⟩
      exact
        ⟨_, Run.mem_once_intervals.mpr
          ⟨old, oldMember, sound.open_kept oldMember isOpen, rfl⟩,
          isNode, isOpen, isOpened⟩
  rw [Store.view, waiting]
  rw [Store.view] at opens
  simp only at opens
  rw [opens]
  rfl

end Once

/-! ## Keys and times of intervals -/

/-- The keys and times of the intervals have a property. -/
def Store.Bears (store : Store) (key : Nat → Prop) (date : Int → Prop) :
    Prop :=
  ∀ interval ∈ store.intervals, key interval.id ∧ date interval.startedAt ∧
    ∀ ending ∈ interval.endedAt, date ending

section Bears

variable {key : Nat → Prop} {date : Int → Prop}

theorem Store.Bears.insert
    (bears : store.Bears key date) {interval : Interval}
    (keyed : key interval.id) (dated : date interval.startedAt)
    (ended : ∀ ending ∈ interval.endedAt, date ending) :
    (store.insert interval).Bears key date := by
  unfold Store.insert
  split
  · exact bears
  · intro other member
    rcases List.mem_cons.mp member with rfl | old
    · exact ⟨keyed, dated, ended⟩
    · exact bears other old

theorem Store.Bears.projectSleepEvent
    (bears : store.Bears key date)
    (fits : key event.id ∧ date event.occurredAt)
    (projected : projectSleepEvent mac store event = .ok left) :
    left.Bears key date := by
  obtain ⟨_, _, projected⟩ := bind_eq_ok_iff.mp projected
  cases starts : event.starts with
  | true =>
      rw [starts, if_pos rfl] at projected
      cases projected
      unfold projectSleepStart
      split
      · exact bears
      · exact bears.insert fits.1 fits.2 (by simp [SleepEvent.opened])
  | false =>
      rw [starts, if_neg Bool.false_ne_true] at projected
      unfold projectSleepEnd at projected
      split at projected
      · cases projected
        refine bears.insert fits.1 fits.2 ?_
        intro ending isEnding
        cases isEnding
        exact fits.2
      · obtain ⟨_, _, projected⟩ := bind_eq_ok_iff.mp projected
        cases projected
        intro other member
        obtain ⟨old, oldMember, rfl⟩ := List.mem_map.mp member
        obtain ⟨keyed, dated, ended⟩ := bears old oldMember
        split
        · refine ⟨keyed, dated, ?_⟩
          intro ending isEnding
          cases isEnding
          exact fits.2
        · exact ⟨keyed, dated, ended⟩

theorem Store.Bears.projectEach
    {batch : List SleepEvent} (bears : store.Bears key date)
    (fits : ∀ event ∈ batch, key event.id ∧ date event.occurredAt) :
    (projectEach mac store batch).store.Bears key date := by
  induction batch generalizing store with
  | nil => exact bears
  | cons event rest inductionHypothesis =>
      unfold SilentNode.projectEach
      split
      · exact bears
      · rename_i after projected
        refine
          inductionHypothesis
            (bears.projectSleepEvent (fits event List.mem_cons_self)
              projected) ?_
        intro other member
        exact fits other (List.mem_cons_of_mem _ member)

theorem Store.Bears.pass
    (bears : store.Bears key date)
    (fits : ∀ event ∈ store.events, key event.id ∧ date event.occurredAt)
    (limit : Nat) : (next mac store (.pass limit)).Bears key date := by
  simp only [SilentNode.next, projectPendingSleepEvents]
  split
  · refine bears.projectEach fun event member => fits event ?_
    exact (mem_pending.mp (List.mem_of_mem_take member)).1
  · exact bears

theorem Store.Bears.passes
    (bears : store.Bears key date) (sound : store.Sound)
    (fits : ∀ event ∈ store.events, key event.id ∧ date event.occurredAt)
    (limits : List Nat) : (passes mac store limits).Bears key date := by
  induction limits using List.reverseRecOn with
  | nil => exact bears
  | append_singleton earlier limit inductionHypothesis =>
      obtain ⟨_, _, same⟩ := @Store.Sound.passes_shown mac store sound earlier
      rw [SilentNode.passes, List.map_append, List.map_singleton,
        stateAfter_snoc]
      exact inductionHypothesis.pass (same.symm ▸ fits) limit

theorem Store.Bears.once
    {run : Run} (bears : store.Bears key date) :
    (run.once store).Bears key date := by
  intro interval member
  obtain ⟨old, oldMember, _, rfl⟩ := Run.mem_once_intervals.mp member
  exact bears old oldMember

end Bears

/-- Later than all times of the intervals, a node sleeps exactly when it has
an open one. -/
theorem Store.sleepingAt_eq
    {time : Int} (bears : store.Bears (fun _ => True) (· < time))
    (node : Nat) :
    store.sleepingAt node time = (store.view.openOf node).isSome := by
  rw [← Store.hasOpen_eq, Store.sleepingAt, Store.hasOpen]
  rw [Bool.eq_iff_iff, List.any_eq_true, List.any_eq_true]
  refine exists_congr fun interval => and_congr_right fun member => ?_
  obtain ⟨_, started, ended⟩ := bears interval member
  cases isEnd : interval.endedAt with
  | none => simp [Interval.openFor, isEnd, le_of_lt started]
  | some ending =>
      have past := ended ending isEnd
      simp [Interval.openFor, isEnd, le_of_lt past]

/-! ## Histories -/

/-- The store is sound, and its intervals have keys and times of events. -/
structure Store.Recorded (store : Store) : Prop where
  sound : store.Sound
  bears :
    store.Bears (fun id => ∃ event ∈ store.events, event.id = id)
      (fun time => ∃ event ∈ store.events, event.occurredAt = time)

theorem Store.Recorded.arrive
    (recorded : store.Recorded) {group : List SleepEvent}
    (stored : ((store.events ++ group).map (·.id)).Nodup) :
    Store.Recorded ⟨store.events ++ group, store.intervals⟩ := by
  constructor
  case sound =>
    refine
      ⟨stored, recorded.sound.keys, recorded.sound.lone,
        recorded.sound.unended, ?_⟩
    intro event member waits interval intervalMember
    rcases List.mem_append.mp member with old | new
    · exact recorded.sound.fresh event old waits interval intervalMember
    · obtain ⟨⟨other, otherMember, isKey⟩, _⟩ :=
        recorded.bears interval intervalMember
      rw [List.map_append, List.nodup_append] at stored
      rw [← isKey]
      exact
        stored.2.2 _ (List.mem_map_of_mem otherMember) _
          (List.mem_map_of_mem new)
  case bears =>
    intro interval member
    obtain ⟨⟨other, otherMember, isKey⟩, ⟨dated, datedMember, isDate⟩,
      ended⟩ := recorded.bears interval member
    refine
      ⟨⟨other, List.mem_append_left _ otherMember, isKey⟩,
        ⟨dated, List.mem_append_left _ datedMember, isDate⟩, ?_⟩
    intro ending isEnding
    obtain ⟨last, lastMember, isLast⟩ := ended ending isEnding
    exact ⟨last, List.mem_append_left _ lastMember, isLast⟩

theorem Store.Recorded.next
    (recorded : store.Recorded) {step : Step} (stored : Stored store step) :
    (next mac store step).Recorded := by
  cases step with
  | arrive group => exact recorded.arrive stored
  | pass limit =>
      obtain ⟨_, sound, same⟩ := @Store.Sound.next_shown mac store
        recorded.sound limit
      refine ⟨sound, ?_⟩
      rw [same]
      refine recorded.bears.pass ?_ limit
      intro event member
      exact ⟨⟨event, member, rfl⟩, ⟨event, member, rfl⟩⟩

theorem recorded_after
    {steps : List Step}
    (stored : EachStep (next mac) ⟨[], []⟩ Stored steps) :
    (after mac steps).Recorded := by
  refine
    stored.invariant Store.Recorded ?_
      fun _ _ recorded each => recorded.next each
  constructor
  · constructor <;> simp
  · intro interval member
    cases member

/-- A run that deletes no pending event, and with an interval all events that
it names, changes no later answer whether a node sleeps. -/
theorem sleepingAt_eq_without_run
    (mac : Nat → Bool) (steps : List Step)
    (stored : EachStep (next mac) ⟨[], []⟩ Stored steps) (run : Run)
    (careful : run.Careful (after mac steps))
    (limits : List Nat) (node : Nat) (time : Int)
    (later :
      ∀ event ∈ (after mac steps).events,
        event.occurredAt < time) :
    (passes mac (run.once (after mac steps)) limits).sleepingAt
        node time =
      (passes mac (after mac steps) limits).sleepingAt
        node time := by
  have recorded := recorded_after stored
  have soundOnce := recorded.sound.once careful
  have early :
      (after mac steps).Bears (fun _ => True) (· < time) := by
    intro interval member
    obtain ⟨_, ⟨event, isEvent, isDate⟩, ended⟩ :=
      recorded.bears interval member
    refine ⟨trivial, isDate ▸ later event isEvent, ?_⟩
    intro ending isEnding
    obtain ⟨last, lastMember, isLast⟩ := ended ending isEnding
    exact isLast ▸ later last lastMember
  rw [Store.sleepingAt_eq
      (early.once.passes soundOnce
        (fun event member =>
          ⟨trivial, later event (List.mem_of_mem_filter member)⟩) limits),
    Store.sleepingAt_eq
      (early.passes recorded.sound
        (fun event member => ⟨trivial, later event member⟩) limits),
    (soundOnce.passes_shown limits).1,
    (recorded.sound.passes_shown limits).1,
    recorded.sound.once_view careful]

/-! ## A start that comes back -/

/-- A node slept from 10 to 20; both events came with one upload. -/
def sleptSteps : List Step :=
  [.arrive [⟨2, 0, 10, 1, true⟩, ⟨1, 0, 20, 2, false⟩], .pass 100]

theorem sleptSteps_stored :
    EachStep (next fun _ => true) ⟨[], []⟩ Stored sleptSteps := by
  refine (eachStep_nil.snoc ?_).snoc trivial
  exact (by decide : ([2, 1] : List Nat).Nodup)

def runOf (batchSize : Nat) (positive : 0 < batchSize)
    (bounded : batchSize ≤ maxBatchSize) : Run where
  cutoff := 100
  batchSize := batchSize
  receivedAt := fun _ => 30
  others := []
  positive := positive
  bounded := bounded

/-- A batch of one takes the end and the interval, and the start is projected
again. -/
theorem deleted_end_wakes_start :
    (passes (fun _ => true)
        ((runOf 1 (by decide) (by decide)).once
          (after (fun _ => true) sleptSteps)) [100]).sleepingAt 0 500 =
        true ∧
      (passes (fun _ => true) (after (fun _ => true) sleptSteps)
        [100]).sleepingAt 0 500 = false := by
  decide +kernel

theorem whole_sleep_stays_deleted :
    (passes (fun _ => true)
        ((runOf 2 (by decide) (by decide)).once
          (after (fun _ => true) sleptSteps)) [100]).sleepingAt 0 500 =
      (passes (fun _ => true) (after (fun _ => true) sleptSteps)
        [100]).sleepingAt 0 500 := by
  refine
    sleepingAt_eq_without_run (fun _ => true) sleptSteps sleptSteps_stored
      (runOf 2 (by decide) (by decide)) ⟨?_, ?_⟩ [100] 0 500 ?_
  · decide +kernel
  · decide +kernel
  · decide +kernel

end Hexroute.SilentNode
