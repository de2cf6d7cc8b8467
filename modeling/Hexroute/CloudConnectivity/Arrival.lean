import Hexroute.Lib.History
import Hexroute.Lib.StableSort

/-!
# The cloud projection and the order of arrival

A host uploads connectivity projections as events.  A pass selects events
that lie after the stored position of their node and folds them one by one,
each in a transaction of its own.  A fold replaces what is stored for the node
unless it is at or past the event, and it notes a lineage reset if the stored
snapshot generation is above that of the event.
-/

namespace Hexroute.CloudConnectivity

open Hexroute.Lib

/-! ## Events and tables -/

/-- What a projection says apart from its components and classes. -/
structure Summary where
  snapshotGeneration : Nat
  reducerVersion : Nat
  bundleGeneration : Nat
  rootGeneration : Nat
  userGeneration : Nat
  aggregate : String
  authorization : String
  authorizationReason : String
  openGaps : Nat
  gapOverflow : Bool
  sourceConflicts : Nat
  awaitingBaseline : Nat
  conflictOverflow : Bool
  deriving DecidableEq, Repr

structure Component where
  component : String
  state : String
  freshness : String
  diffReason : String
  deriving DecidableEq, Repr

structure ProposalClass where
  proposalClass : String
  count : Nat
  deriving DecidableEq, Repr

/-- A stored event with its decoded projection. -/
structure Event where
  id : Nat
  node : Nat
  session : Nat
  sequence : Nat
  occurredAt : Int
  summary : Summary
  components : List Component
  proposalClasses : List ProposalClass
  deriving DecidableEq, Repr

/-- A row of `connectivity_snapshots`. -/
structure Row where
  eventID : Nat
  session : Nat
  sequence : Nat
  observedAt : Int
  summary : Summary
  lineageReset : Bool
  updatedAt : Int
  deriving DecidableEq, Repr

def Event.position (event : Event) : Int ×ₗ Nat :=
  toLex (event.occurredAt, event.sequence)

def Row.position (row : Row) : Int ×ₗ Nat :=
  toLex (row.observedAt, row.sequence)

def Row.of (event : Event) (reset : Bool) : Row where
  eventID := event.id
  session := event.session
  sequence := event.sequence
  observedAt := event.occurredAt
  summary := event.summary
  lineageReset := reset
  updatedAt := event.occurredAt

structure Tables where
  snapshots : Nat → Option Row
  components : Nat → List Component
  proposalClasses : Nat → List ProposalClass

namespace Tables

def empty : Tables where
  snapshots _ := none
  components _ := []
  proposalClasses _ := []

/-- All that is stored for a node. -/
def view (tables : Tables) (node : Nat) :
    Option Row × List Component × List ProposalClass :=
  (tables.snapshots node, tables.components node, tables.proposalClasses node)

/-- A node that is not at or past the position of an event. -/
def Behind (tables : Tables) (event : Event) : Prop :=
  ∀ row ∈ tables.snapshots event.node, row.position < event.position

instance (tables : Tables) (event : Event) :
    Decidable (tables.Behind event) :=
  inferInstanceAs (Decidable (∀ _ ∈ _, _))

/-- The stored snapshot generation is above that of an event. -/
def resets (tables : Tables) (event : Event) : Bool :=
  match tables.snapshots event.node with
  | none => false
  | some row =>
      event.summary.snapshotGeneration < row.summary.snapshotGeneration

def fold (tables : Tables) (event : Event) : Tables :=
  if tables.Behind event then
    { snapshots :=
        Function.update tables.snapshots event.node
          (some (.of event (tables.resets event)))
      components :=
        Function.update tables.components event.node event.components
      proposalClasses :=
        Function.update tables.proposalClasses event.node
          event.proposalClasses }
  else tables

end Tables

/-! ## Passes -/

/-- The events, the tables and the passes that are under way, each with the
events it has still to fold. -/
structure System where
  events : List Event
  tables : Tables
  running : List (List Event)

def System.empty : System := ⟨[], .empty, []⟩

/-- An event arrives, a pass selects, or the pass at some place folds its next
event, where it may fail. -/
inductive Step where
  | arrive (event : Event)
  | select (limit : Nat) (ties : Event → Nat)
  | fold (place : Nat) (succeeds : Bool)

def maxProjectionBatch : Nat := 200

/-- Events have identities, and sequences in their sessions. -/
def Event.Apart (event other : Event) : Prop :=
  event.id ≠ other.id ∧
    (event.node, event.session, event.sequence) ≠
      (other.node, other.session, other.sequence)

instance (event other : Event) : Decidable (event.Apart other) :=
  inferInstanceAs (Decidable (_ ∧ _))

theorem Event.Apart.symm {event other : Event} (apart : event.Apart other) :
    other.Apart event :=
  ⟨apart.1.symm, apart.2.symm⟩

instance : Std.Symm Event.Apart :=
  ⟨fun _ _ => Event.Apart.symm⟩

namespace System

/-- The order of the query; the database may put ties in any order. -/
def order (ties : Event → Nat) (event : Event) :
    Nat ×ₗ (Int ×ₗ Nat) ×ₗ Nat :=
  toLex (event.node, toLex (event.position, ties event))

def pending (system : System) : List Event :=
  system.events.filter fun event => system.tables.Behind event

def pendingEvents (system : System) (limit : Nat) (ties : Event → Nat) :
    List Event :=
  (sortBy (order ties) system.pending).take limit

def next (system : System) : Step → System
  | .arrive event =>
      if ∀ stored ∈ system.events, event.Apart stored then
        { system with events := system.events ++ [event] }
      else system
  | .select limit ties =>
      if limit = 0 ∨ maxProjectionBatch < limit then system
      else
        { system with
          running := system.running ++ [system.pendingEvents limit ties] }
  | .fold place succeeds =>
      match system.running[place]? with
      | some (event :: rest) =>
          if succeeds then
            { system with
              tables := system.tables.fold event
              running := system.running.set place rest }
          else { system with running := system.running.set place [] }
      | _ => system

/-- A pass finds nothing pending. -/
def Quiet (system : System) : Prop :=
  ∃ limit ties, 0 < limit ∧ limit ≤ maxProjectionBatch ∧
    system.pendingEvents limit ties = []

end System

abbrev systemAfter (steps : List Step) : System :=
  stateAfter System.next .empty steps

/-- Events that may be stored together. -/
structure EventSet where
  events : List Event
  apart : events.Pairwise Event.Apart

/-- A history stores just these events, and then a pass finds nothing. -/
structure Settles (set : EventSet) (steps : List Step) : Prop where
  stored : ∀ event, event ∈ (systemAfter steps).events ↔ event ∈ set.events
  quiet : (systemAfter steps).Quiet

/-- The greatest event of its node. -/
def EventSet.Greatest (set : EventSet) (event : Event) : Prop :=
  event ∈ set.events ∧
    ∀ other ∈ set.events, other.node = event.node →
      other.position ≤ event.position

/-- What is stored for a node does not depend on the history, it is that of
the greatest event of the node, and its position never moves back. -/
structure OrderFree (set : EventSet) : Prop where
  same :
    ∀ first second, Settles set first → Settles set second →
      ∀ node,
        (systemAfter first).tables.view node =
          (systemAfter second).tables.view node
  greatest :
    ∀ steps, Settles set steps → ∀ event, set.Greatest event →
      ∃ reset,
        (systemAfter steps).tables.view event.node =
          (some (.of event reset), event.components, event.proposalClasses)
  forward :
    ∀ before rest : List Step, ∀ node row,
      (systemAfter before).tables.snapshots node = some row →
        ∃ later,
          (systemAfter (before ++ rest)).tables.snapshots node =
            some later ∧ row.position ≤ later.position

/-- One event of a node lies after all the others, and no other one has a
greater snapshot generation. -/
def EventSet.Determined (set : EventSet) : Prop :=
  ∀ event ∈ set.events, ∃ last ∈ set.events, last.node = event.node ∧
    ∀ other ∈ set.events, other.node = event.node → other ≠ last →
      other.position < last.position ∧
        other.summary.snapshotGeneration ≤ last.summary.snapshotGeneration

/-! ## One fold -/

/-- What is stored for a node after an event of it was folded. -/
def Event.view (event : Event) (reset : Bool) :
    Option Row × List Component × List ProposalClass :=
  (some (.of event reset), event.components, event.proposalClasses)

namespace Tables

variable {tables : Tables} {event other : Event} {node : Nat}

theorem view_fold (behind : tables.Behind event) :
    (tables.fold event).view event.node =
      event.view (tables.resets event) := by
  unfold fold view
  rw [if_pos behind]
  dsimp only
  rw [Function.update_self, Function.update_self, Function.update_self]
  rfl

theorem view_fold_of_ne (differs : node ≠ event.node) :
    (tables.fold event).view node = tables.view node := by
  unfold fold
  split
  · unfold view
    dsimp only
    rw [Function.update_of_ne differs, Function.update_of_ne differs,
      Function.update_of_ne differs]
  · rfl

theorem fold_of_not_behind (past : ¬ tables.Behind event) :
    tables.fold event = tables :=
  if_neg past

theorem forward_fold {row : Row} (found : tables.snapshots node = some row) :
    ∃ later, (tables.fold event).snapshots node = some later ∧
      row.position ≤ later.position := by
  by_cases behind : tables.Behind event
  · by_cases same : node = event.node
    · subst same
      have view := view_fold behind
      exact
        ⟨_, congrArg Prod.fst view, (behind row found).le⟩
    · have view := @view_fold_of_ne tables _ _ same
      exact ⟨row, (congrArg Prod.fst view).trans found, le_refl _⟩
  · rw [fold_of_not_behind behind]
    exact ⟨row, found, le_refl _⟩

theorem behind_of_fold (behind : (tables.fold event).Behind other) :
    tables.Behind other := by
  intro row found
  obtain ⟨later, stored, below⟩ := @forward_fold _ event _ _ found
  exact lt_of_le_of_lt below (behind later stored)

theorem not_behind_fold : ¬ (tables.fold event).Behind event := by
  by_cases behind : tables.Behind event
  · intro still
    have view := view_fold behind
    exact (still _ (congrArg Prod.fst view)).false
  · rwa [fold_of_not_behind behind]

end Tables

/-! ## Where the stored rows come from -/

/-- Nothing is stored for the node, or what one of its events says; a reset
comes from an earlier event with a greater generation. -/
def System.Explains (system : System) (node : Nat) : Prop :=
  system.tables.view node = (none, [], []) ∨
    ∃ event ∈ system.events, event.node = node ∧
      ∃ reset : Bool, system.tables.view node = event.view reset ∧
        (reset = true →
          ∃ other ∈ system.events, other.node = node ∧
            other.position < event.position ∧
            event.summary.snapshotGeneration <
              other.summary.snapshotGeneration)

structure System.Traced (system : System) : Prop where
  running :
    ∀ items ∈ system.running, ∀ event ∈ items, event ∈ system.events
  explains : ∀ node, system.Explains node
  apart : system.events.Pairwise Event.Apart

namespace System

variable {system : System} {event : Event}

theorem Explains.fold
    {node : Nat} (explains : system.Explains node)
    (stored : event ∈ system.events) (running : List (List Event)) :
    Explains ⟨system.events, system.tables.fold event, running⟩ node := by
  by_cases behind : system.tables.Behind event
  swap
  · rw [Tables.fold_of_not_behind behind]
    exact explains
  by_cases same : node = event.node
  swap
  · unfold Explains
    rw [Tables.view_fold_of_ne same]
    exact explains
  subst same
  refine Or.inr ⟨event, stored, rfl, _, Tables.view_fold behind, ?_⟩
  intro resets
  rcases explains with none | ⟨other, known, whose, _, held, _⟩
  · have absent : system.tables.snapshots event.node = Option.none :=
      congrArg Prod.fst none
    unfold Tables.resets at resets
    rw [absent] at resets
    cases resets
  · have row : system.tables.snapshots event.node = some (.of other _) :=
      congrArg Prod.fst held
    refine ⟨other, known, whose, behind _ row, ?_⟩
    unfold Tables.resets at resets
    rw [row] at resets
    exact of_decide_eq_true resets

theorem Explains.arrive
    {node : Nat} (explains : system.Explains node) (event : Event) :
    Explains { system with events := system.events ++ [event] } node := by
  rcases explains with
    none | ⟨other, known, whose, reset, held, cause⟩
  · exact Or.inl none
  · refine
      Or.inr
        ⟨other, List.mem_append_left _ known, whose, reset, held, ?_⟩
    intro resets
    obtain ⟨earlier, member, facts⟩ := cause resets
    exact ⟨earlier, List.mem_append_left _ member, facts⟩

theorem mem_of_mem_pendingEvents
    {limit : Nat} {ties : Event → Nat}
    (member : event ∈ system.pendingEvents limit ties) :
    event ∈ system.pending :=
  (sortBy_perm _).mem_iff.mp (List.mem_of_mem_take member)

theorem Traced.next (traced : system.Traced) (step : Step) :
    (system.next step).Traced := by
  cases step with
  | arrive event =>
      unfold System.next
      dsimp only
      split
      · rename_i apart
        refine ⟨?_, fun node => (traced.explains node).arrive event, ?_⟩
        · intro items member other listed
          exact
            List.mem_append_left _
              (traced.running items member other listed)
        · refine List.pairwise_append.mpr ⟨traced.apart, ?_, ?_⟩
          · exact List.pairwise_singleton _ _
          · intro stored known added single
            rw [List.mem_singleton.mp single]
            exact (apart stored known).symm
      · exact traced
  | select limit ties =>
      unfold System.next
      dsimp only
      split
      · exact traced
      · refine ⟨?_, traced.explains, traced.apart⟩
        intro items member event listed
        rcases List.mem_append.mp member with old | added
        · exact traced.running items old event listed
        · rw [List.mem_singleton.mp added] at listed
          exact
            (List.mem_filter.mp (mem_of_mem_pendingEvents listed)).1
  | fold place succeeds =>
      unfold System.next
      dsimp only
      split
      · rename_i event rest found
        have held := traced.running _ (List.mem_of_getElem? found)
        have kept :
            ∀ left : List Event, left ⊆ event :: rest →
              ∀ items ∈ system.running.set place left,
                ∀ event ∈ items, event ∈ system.events := by
          intro left within items member other listed
          rcases List.mem_or_eq_of_mem_set member with old | rfl
          · exact traced.running items old other listed
          · exact held other (within listed)
        split
        · refine ⟨kept rest (List.subset_cons_self _ _), ?_, traced.apart⟩
          intro node
          exact (traced.explains node).fold (held event List.mem_cons_self) _
        · exact
            ⟨kept [] (List.nil_subset _), traced.explains, traced.apart⟩
      · exact traced

theorem traced_after (steps : List Step) : (systemAfter steps).Traced := by
  refine stateAfter_invariant Traced ?_ (fun _ step traced => traced.next step)
    steps
  refine ⟨?_, fun _ => Or.inl rfl, List.Pairwise.nil⟩
  intro items member
  exact absurd member List.not_mem_nil

theorem forward_next
    {node : Nat} {row : Row}
    (found : system.tables.snapshots node = some row) (step : Step) :
    ∃ later, (system.next step).tables.snapshots node = some later ∧
      row.position ≤ later.position := by
  cases step with
  | arrive event =>
      unfold System.next
      dsimp only
      split <;> exact ⟨row, found, le_refl _⟩
  | select limit ties =>
      unfold System.next
      dsimp only
      split <;> exact ⟨row, found, le_refl _⟩
  | fold place succeeds =>
      unfold System.next
      dsimp only
      split
      · split
        · exact Tables.forward_fold found
        · exact ⟨row, found, le_refl _⟩
      · exact ⟨row, found, le_refl _⟩

theorem forward_after
    {before : List Step} {node : Nat} {row : Row}
    (found : (systemAfter before).tables.snapshots node = some row)
    (rest : List Step) :
    ∃ later,
      (systemAfter (before ++ rest)).tables.snapshots node = some later ∧
        row.position ≤ later.position := by
  induction rest using List.reverseRecOn with
  | nil =>
      rw [List.append_nil]
      exact ⟨row, found, le_refl _⟩
  | append_singleton rest step inductionHypothesis =>
      obtain ⟨middle, stored, below⟩ := inductionHypothesis
      obtain ⟨later, follows, above⟩ := forward_next stored step
      refine ⟨later, ?_, below.trans above⟩
      rw [← List.append_assoc]
      unfold systemAfter
      rw [stateAfter_snoc]
      exact follows

/-- Nothing is pending where a pass finds nothing. -/
theorem Quiet.past
    (quiet : system.Quiet) (stored : event ∈ system.events) :
    ¬ system.tables.Behind event := by
  intro behind
  obtain ⟨limit, ties, positive, _, nothing⟩ := quiet
  have member : event ∈ sortBy (order ties) system.pending :=
    (sortBy_perm _).mem_iff.mpr
      (List.mem_filter.mpr ⟨stored, decide_eq_true behind⟩)
  unfold pendingEvents at nothing
  rw [List.take_eq_nil_iff] at nothing
  rcases nothing with zero | empty
  · omega
  · rw [empty] at member
    exact List.not_mem_nil member

end System

/-- In a settled history the greatest event of a node is stored. -/
theorem view_of_settled
    {set : EventSet} {steps : List Step} (settles : Settles set steps)
    {last : Event} (known : last ∈ set.events)
    (after :
      ∀ other ∈ set.events, other.node = last.node → other ≠ last →
        other.position < last.position) :
    ∃ reset : Bool,
      (systemAfter steps).tables.view last.node = last.view reset ∧
        (reset = true →
          ∃ other ∈ set.events, other.node = last.node ∧ other ≠ last ∧
            last.summary.snapshotGeneration <
              other.summary.snapshotGeneration) := by
  have stored := (settles.stored last).mpr known
  have past := settles.quiet.past stored
  rcases (System.traced_after steps).explains last.node with
    nothing | ⟨event, member, whose, reset, held, cause⟩
  · have absent : (systemAfter steps).tables.snapshots last.node = none :=
      congrArg Prod.fst nothing
    refine absurd ?_ past
    intro row found
    rw [absent] at found
    cases found
  -- The stored event is not before the greatest one, so it is that one.
  have same : event = last := by
    by_contra differs
    have below :=
      after event ((settles.stored event).mp member) whose differs
    refine past ?_
    intro row found
    have stands :
        (systemAfter steps).tables.snapshots last.node =
          some (.of event reset) :=
      congrArg Prod.fst held
    rw [stands] at found
    cases found
    exact below
  subst same
  refine ⟨reset, held, ?_⟩
  intro resets
  obtain ⟨other, listed, own, before, greater⟩ := cause resets
  refine ⟨other, (settles.stored other).mp listed, own, ?_, greater⟩
  rintro rfl
  exact before.false

theorem view_of_no_event
    {set : EventSet} {steps : List Step} (settles : Settles set steps)
    {node : Nat} (absent : ∀ event ∈ set.events, event.node ≠ node) :
    (systemAfter steps).tables.view node = (none, [], []) := by
  rcases (System.traced_after steps).explains node with
    nothing | ⟨event, member, whose, _⟩
  · exact nothing
  · exact absurd whose (absent event ((settles.stored event).mp member))

theorem orderFree_of_determined
    {set : EventSet} (determined : set.Determined) : OrderFree set := by
  have view :
      ∀ steps, Settles set steps → ∀ event ∈ set.events,
        ∃ last ∈ set.events, last.node = event.node ∧
          (∀ other ∈ set.events, other.node = event.node → other ≠ last →
            other.position < last.position) ∧
          (systemAfter steps).tables.view event.node = last.view false := by
    intro steps settles event member
    obtain ⟨last, known, whose, facts⟩ := determined event member
    have after :
        ∀ other ∈ set.events, other.node = event.node → other ≠ last →
          other.position < last.position :=
      fun other listed own differs => (facts other listed own differs).1
    rw [← whose] at after ⊢
    refine ⟨last, known, rfl, after, ?_⟩
    obtain ⟨reset, held, cause⟩ := view_of_settled settles known after
    cases reset with
    | false => exact held
    | true =>
        obtain ⟨other, listed, own, differs, greater⟩ := cause rfl
        have least := (facts other listed (own.trans whose) differs).2
        omega
  constructor
  case same =>
    intro first second settlesFirst settlesSecond node
    by_cases some : ∃ event ∈ set.events, event.node = node
    · obtain ⟨event, member, rfl⟩ := some
      obtain ⟨last, known, whose, after, held⟩ :=
        view first settlesFirst event member
      obtain ⟨other, listed, own, later, stands⟩ :=
        view second settlesSecond event member
      have same : last = other := by
        by_contra differs
        exact
          (later last known whose differs).asymm
            (after other listed own (Ne.symm differs))
      rw [held, stands, same]
    · have absent : ∀ event ∈ set.events, event.node ≠ node :=
        fun event member own => some ⟨event, member, own⟩
      rw [view_of_no_event settlesFirst absent,
        view_of_no_event settlesSecond absent]
  case greatest =>
    rintro steps settles event ⟨member, greatest⟩
    obtain ⟨last, known, whose, after, held⟩ := view steps settles event member
    have same : event = last := by
      by_contra differs
      exact
        (after event member rfl differs).not_ge (greatest last known whose)
    subst same
    exact ⟨false, held⟩
  case forward =>
    intro before rest node row found
    exact System.forward_after found rest

/-! ## Histories that settle -/

namespace System

variable {system : System}

theorem stateAfter_arrive
    {events : List Event}
    (apart : (system.events ++ events).Pairwise Event.Apart) :
    stateAfter System.next system (events.map .arrive) =
      { system with events := system.events ++ events } := by
  induction events generalizing system with
  | nil =>
      rw [List.append_nil]
      rfl
  | cons event rest inductionHypothesis =>
      have joined :
          ((system.events ++ [event]) ++ rest).Pairwise Event.Apart := by
        rwa [List.append_assoc]
      have fresh : ∀ stored ∈ system.events, event.Apart stored := by
        intro stored known
        exact
          ((List.pairwise_append.mp apart).2.2 stored known event
            List.mem_cons_self).symm
      have first :
          system.next (.arrive event) =
            { system with events := system.events ++ [event] } :=
        if_pos fresh
      change
        stateAfter System.next (system.next (.arrive event))
          (rest.map .arrive) = _
      rw [first, inductionHypothesis joined, List.append_assoc]
      rfl

/-- A pass over one event, which nothing comes between. -/
def single (system : System) : List Step :=
  [.select 1 fun _ => 0, .fold system.running.length true]

theorem stateAfter_single (some : system.pending ≠ []) :
    ∃ event ∈ system.pending, ∃ running,
      stateAfter System.next system system.single =
        ⟨system.events, system.tables.fold event, running⟩ := by
  have kept := @sortBy_perm _ _ _ (order fun _ => 0) system.pending
  cases sorted : sortBy (order fun _ => 0) system.pending with
  | nil =>
      rw [sorted] at kept
      exact absurd kept.nil_eq.symm some
  | cons event rest =>
      rw [sorted] at kept
      refine ⟨event, kept.mem_iff.mp List.mem_cons_self, ?_⟩
      have selects : system.pendingEvents 1 (fun _ => 0) = [event] := by
        unfold pendingEvents
        rw [sorted]
        rfl
      have first :
          system.next (.select 1 fun _ => 0) =
            { system with running := system.running ++ [[event]] } := by
        unfold System.next
        dsimp only
        rw [selects]
        exact if_neg (by decide)
      refine ⟨(system.running ++ [[event]]).set system.running.length [], ?_⟩
      change
        (system.next (.select 1 fun _ => 0)).next
          (.fold system.running.length true) = _
      rw [first]
      unfold System.next
      dsimp only
      rw [List.getElem?_concat_length]
      rfl

theorem pending_fold_lt
    {event : Event} (member : event ∈ system.pending)
    (running : List (List Event)) :
    (pending ⟨system.events, system.tables.fold event, running⟩).length <
      system.pending.length := by
  have within :
      pending ⟨system.events, system.tables.fold event, running⟩ =
        system.pending.filter fun other =>
          (system.tables.fold event).Behind other := by
    unfold pending
    rw [List.filter_filter]
    apply List.filter_congr
    intro other _
    rw [← Bool.decide_and]
    apply decide_eq_decide.mpr
    exact ⟨fun behind => ⟨behind, Tables.behind_of_fold behind⟩, And.left⟩
  rw [within]
  apply List.length_filter_lt_length_iff_exists.mpr
  refine ⟨event, member, ?_⟩
  simp [Tables.not_behind_fold]

/-- Passes fold all that is pending and leave the other nodes. -/
theorem exists_quiet (system : System) :
    ∃ steps,
      (stateAfter System.next system steps).Quiet ∧
      (stateAfter System.next system steps).events = system.events ∧
      ∀ node, (∀ event ∈ system.pending, event.node ≠ node) →
        (stateAfter System.next system steps).tables.view node =
          system.tables.view node := by
  induction measure : system.pending.length using Nat.strong_induction_on
    generalizing system with
  | _ length inductionHypothesis =>
  by_cases none : system.pending = []
  · refine ⟨[], ⟨1, fun _ => 0, by decide, by decide, ?_⟩, rfl, ?_⟩
    · unfold pendingEvents
      rw [stateAfter_nil, none]
      rfl
    · intro node _
      rfl
  obtain ⟨event, member, running, first⟩ := stateAfter_single none
  obtain ⟨steps, quiet, events, views⟩ :=
    inductionHypothesis _ (measure ▸ pending_fold_lt member running) _ rfl
  refine ⟨system.single ++ steps, ?_⟩
  rw [stateAfter_append, first]
  refine ⟨quiet, events, ?_⟩
  intro node free
  rw [views, Tables.view_fold_of_ne (free event member).symm]
  intro other listed
  have behind := (List.mem_filter.mp listed).2
  refine free other (List.mem_filter.mpr ⟨(List.mem_filter.mp listed).1, ?_⟩)
  exact
    decide_eq_true (Tables.behind_of_fold (of_decide_eq_true behind))

/-- An event that arrives where nothing is pending is folded next. -/
theorem arrive_alone
    {event : Event} (past : ∀ stored ∈ system.events,
      ¬ system.tables.Behind stored)
    (behind : system.tables.Behind event)
    (apart : (system.events ++ [event]).Pairwise Event.Apart) :
    ∃ steps running,
      stateAfter System.next system steps =
        ⟨system.events ++ [event], system.tables.fold event, running⟩ := by
  have arrived := stateAfter_arrive apart
  have alone :
      pending { system with events := system.events ++ [event] } =
        [event] := by
    unfold pending
    dsimp only
    rw [List.filter_append, List.filter_eq_nil_iff.mpr, List.nil_append,
      List.filter_cons_of_pos, List.filter_nil]
    · exact decide_eq_true behind
    · intro stored known holds
      exact past stored known (of_decide_eq_true holds)
  have some :
      pending { system with events := system.events ++ [event] } ≠ [] := by
    rw [alone]
    exact List.cons_ne_nil _ _
  obtain ⟨folded, member, running, reached⟩ := stateAfter_single some
  rw [alone] at member
  rw [List.mem_singleton.mp member] at reached
  refine
    ⟨[event].map .arrive ++
        single { system with events := system.events ++ [event] },
      running, ?_⟩
  rw [stateAfter_append, arrived]
  exact reached

end System

section Converse

variable {set : EventSet} {last : Event}

/-- Where the greatest event of its node is stored, the rest may come. -/
theorem exists_settles
    (greatest : set.Greatest last) {steps : List Step} {rest : List Event}
    {reset : Bool}
    (stored : ((systemAfter steps).events ++ rest).Perm set.events)
    (held : (systemAfter steps).tables.view last.node = last.view reset) :
    ∃ more, Settles set (steps ++ more) ∧
      (systemAfter (steps ++ more)).tables.view last.node =
        last.view reset := by
  have apart :
      ((systemAfter steps).events ++ rest).Pairwise Event.Apart :=
    (stored.pairwise_iff Event.Apart.symm).mpr set.apart
  have arrived := System.stateAfter_arrive apart
  obtain ⟨more, quiet, events, views⟩ :=
    System.exists_quiet
      { systemAfter steps with events := (systemAfter steps).events ++ rest }
  refine ⟨rest.map .arrive ++ more, ?_⟩
  have reached :
      systemAfter (steps ++ (rest.map .arrive ++ more)) =
        stateAfter System.next
          { systemAfter steps with
            events := (systemAfter steps).events ++ rest } more := by
    unfold systemAfter at arrived ⊢
    rw [stateAfter_append, stateAfter_append, arrived]
  refine ⟨⟨?_, ?_⟩, ?_⟩
  · intro event
    rw [reached, events]
    exact stored.mem_iff
  · rw [reached]
    exact quiet
  rw [reached, views]
  · exact held
  intro event member own
  obtain ⟨known, behind⟩ := List.mem_filter.mp member
  have row :
      (systemAfter steps).tables.snapshots event.node =
        some (.of last reset) := by
    rw [own]
    exact congrArg Prod.fst held
  have above : last.position < event.position :=
    of_decide_eq_true behind _ row
  exact
    above.not_ge (greatest.2 event (stored.mem_iff.mp known) own)

/-- The greatest event of a node may be the first one to be folded. -/
theorem exists_settles_first (greatest : set.Greatest last) :
    ∃ steps, Settles set steps ∧
      (systemAfter steps).tables.view last.node = last.view false := by
  have behind : Tables.empty.Behind last := fun _ found => by cases found
  obtain ⟨steps, running, reached⟩ :=
    @System.arrive_alone .empty last
      (fun _ known => absurd known List.not_mem_nil) behind
      (List.pairwise_singleton _ _)
  have stored :
      ((systemAfter steps).events ++ set.events.erase last).Perm
        set.events := by
    unfold systemAfter
    rw [reached]
    exact (List.perm_cons_erase greatest.1).symm
  have held :
      (systemAfter steps).tables.view last.node = last.view false := by
    unfold systemAfter
    rw [reached]
    exact Tables.view_fold behind
  obtain ⟨more, settles, view⟩ := exists_settles greatest stored held
  exact ⟨steps ++ more, settles, view⟩

/-- It may come right after any earlier one. -/
theorem exists_settles_after
    (greatest : set.Greatest last) {other : Event}
    (known : other ∈ set.events) (own : other.node = last.node)
    (before : other.position < last.position) :
    ∃ steps, Settles set steps ∧
      (systemAfter steps).tables.view last.node =
        last.view
          (decide (last.summary.snapshotGeneration <
            other.summary.snapshotGeneration)) := by
  have differs : other ≠ last := by
    rintro rfl
    exact before.false
  have parted :
      ([other, last] ++ (set.events.erase last).erase other).Perm
        set.events := by
    have inner : other ∈ set.events.erase last :=
      (List.mem_erase_of_ne differs).mpr known
    have swapped := List.Perm.swap last other
      ((set.events.erase last).erase other)
    exact
      (swapped.trans ((List.perm_cons_erase inner).symm.cons last)).trans
        (List.perm_cons_erase greatest.1).symm
  have apart : [other, last].Pairwise Event.Apart := by
    have whole := (parted.pairwise_iff Event.Apart.symm).mpr set.apart
    exact (List.pairwise_append.mp whole).1
  have fresh : Tables.empty.Behind other := fun _ found => by cases found
  obtain ⟨first, running, reached⟩ :=
    @System.arrive_alone .empty other
      (fun _ member => absurd member List.not_mem_nil) fresh
      (List.pairwise_singleton _ _)
  have row :
      (Tables.empty.fold other).snapshots last.node =
        some (.of other false) := by
    rw [← own]
    exact congrArg Prod.fst (Tables.view_fold fresh)
  have behind : (Tables.empty.fold other).Behind last := by
    intro held found
    rw [row] at found
    cases found
    exact before
  obtain ⟨second, still, ends⟩ :=
    @System.arrive_alone ⟨[other], Tables.empty.fold other, running⟩ last
      (by
        intro event member
        rw [List.mem_singleton.mp member]
        exact @Tables.not_behind_fold .empty other)
      behind apart
  have both :
      systemAfter (first ++ second) =
        ⟨[other, last], (Tables.empty.fold other).fold last, still⟩ := by
    unfold systemAfter
    rw [stateAfter_append, reached]
    exact ends
  have resets :
      (Tables.empty.fold other).resets last =
        decide (last.summary.snapshotGeneration <
          other.summary.snapshotGeneration) := by
    unfold Tables.resets
    rw [row]
    rfl
  obtain ⟨more, settles, view⟩ :=
    @exists_settles set last greatest (first ++ second)
      ((set.events.erase last).erase other) _
      (by rw [both]; exact parted)
      (by rw [both]; exact Tables.view_fold behind)
  rw [resets] at view
  exact ⟨first ++ second ++ more, settles, view⟩

theorem EventSet.exists_greatest {event : Event} (member : event ∈ set.events) :
    ∃ last, set.Greatest last ∧ last.node = event.node := by
  have some :
      ((set.events.filter (·.node = event.node)).toFinset).Nonempty :=
    ⟨event, by simp [member]⟩
  obtain ⟨last, listed, greatest⟩ :=
    Finset.exists_max_image _ Event.position some
  have facts : last ∈ set.events ∧ last.node = event.node := by
    simpa using listed
  refine ⟨last, ⟨facts.1, ?_⟩, facts.2⟩
  intro other known own
  refine greatest other ?_
  simp [known, own.trans facts.2]

theorem EventSet.eq_of_id_eq
    {event other : Event} (member : event ∈ set.events)
    (known : other ∈ set.events) (same : event.id = other.id) :
    event = other := by
  by_contra differs
  exact (set.apart.forall member known differs).1 same

theorem determined_of_orderFree (free : OrderFree set) :
    set.Determined := by
  intro event member
  obtain ⟨last, greatest, whose⟩ := set.exists_greatest member
  refine ⟨last, greatest.1, whose, ?_⟩
  intro other known own differs
  have within := greatest.2 other known (own.trans whose.symm)
  obtain ⟨steps, settles, held⟩ := exists_settles_first greatest
  have before : other.position < last.position := by
    refine lt_of_le_of_ne within fun tie => ?_
    -- Both are greatest, and only one of them can be stored.
    have rival : set.Greatest other := by
      refine ⟨known, ?_⟩
      intro third listed ownThird
      rw [tie]
      exact
        greatest.2 third listed
          (ownThird.trans (own.trans whose.symm))
    obtain ⟨reset, stands⟩ := free.greatest steps settles other rival
    rw [own.trans whose.symm, held] at stands
    have same : last.id = other.id :=
      congrArg (fun view => (view.1.map Row.eventID).getD 0) stands
    exact differs (set.eq_of_id_eq known greatest.1 same.symm)
  refine ⟨before, ?_⟩
  by_contra lower
  obtain ⟨others, settlesAfter, stands⟩ :=
    exists_settles_after greatest known (own.trans whose.symm) before
  have same := free.same steps others settles settlesAfter last.node
  rw [held, stands, decide_eq_true (Nat.lt_of_not_le lower)] at same
  have flags : false = true :=
    congrArg (fun view => (view.1.map Row.lineageReset).getD false) same
  cases flags

end Converse

/-- What the cloud stores does not depend on the order of arrival exactly when
each node has one last event and none of the others has a greater snapshot
generation. -/
theorem orderFree_iff_determined (set : EventSet) :
    OrderFree set ↔ set.Determined :=
  ⟨determined_of_orderFree, orderFree_of_determined⟩

section Example

def plainSummary (generation : Nat) : Summary :=
  ⟨generation, 1, 1, 1, 1, "ready", "allowed", "none", 0, false, 0, 0, false⟩

def plainEvent (id sequence generation : Nat) : Event :=
  ⟨id, 1, 1, sequence, sequence, plainSummary generation, [], []⟩

/-- The second event has a lower generation than the first one. -/
def restarted : EventSet where
  events := [plainEvent 1 1 5, plainEvent 2 2 3]
  apart := by decide

theorem restarted_depends_on_order : ¬ OrderFree restarted := by
  intro free
  have quiet :
      ∀ steps, (systemAfter steps).pendingEvents 1 (fun _ => 0) = [] →
        (systemAfter steps).Quiet :=
    fun _ nothing => ⟨1, fun _ => 0, by decide, by decide, nothing⟩
  have together :
      Settles restarted
        [.arrive (plainEvent 1 1 5), .select 1 fun _ => 0, .fold 0 true,
          .arrive (plainEvent 2 2 3), .select 1 fun _ => 0,
          .fold 1 true] := by
    refine ⟨fun event => ?_, quiet _ (by decide +kernel)⟩
    rfl
  have reversed :
      Settles restarted
        [.arrive (plainEvent 2 2 3), .select 1 fun _ => 0, .fold 0 true,
          .arrive (plainEvent 1 1 5)] := by
    refine ⟨fun event => ?_, quiet _ (by decide +kernel)⟩
    exact (List.Perm.swap _ _ []).mem_iff
  have same := free.same _ _ together reversed 1
  have flags :=
    congrArg (fun view => (view.1.map Row.lineageReset).getD false) same
  revert flags
  decide +kernel

end Example

end Hexroute.CloudConnectivity
