import Hexroute.Host.Steps
import Hexroute.Lineage.Held

/-!
# One process of the runtime

What a process has done since startup is a list of ordered arrivals: the ones
it journalled and queued, then the ones whose journal write failed.  Its
acceptor, its queue, its read model and the checkpoints it seals are all
functions of that list and of the position it started from.
-/

namespace Hexroute.Host

open Hexroute.Connectivity
open Hexroute.Lib
open Hexroute.Accept (Event Screened State orderAll)
open Hexroute.Lineage (Checkpoint Operation Store)
open Hexroute.Reduce (Describes InStep)

/-- The checkpoint carries a snapshot of the acceptor's position. -/
structure SealedAt (checkpoint : Checkpoint) (state : State) : Prop where
  describes : Describes checkpoint.snapshot state
  watermarks : checkpoint.sourceWatermarks = checkpoint.snapshot.sources
  consumedTo :
    checkpoint.consumedTo = checkpoint.snapshot.consumedFoldPosition

theorem SealedAt.same
    {checkpoint : Checkpoint} {left right : State}
    (sealed : SealedAt checkpoint left) (same : left.Same right) :
    SealedAt checkpoint right :=
  { sealed with describes := sealed.describes.same same }

/-- The process started at `origin`, has journalled `items`, has ordered
`lost` without journalling them, and has folded the first `folded` items. -/
structure Process
    (digest : Fact → Option String) (origin : State)
    (items lost : List Screened) (folded : Nat) (runtime : Runtime) :
    Prop where
  wellFormed : origin.WellFormed
  passes : ∀ item ∈ items ++ lost, Passes digest item
  acceptor : runtime.acceptor = (orderAll origin (items ++ lost)).2
  bound : folded ≤ items.length
  pending : runtime.pending = (orderAll origin items).1.drop folded
  inStep :
    ∀ input,
      InStep (runtime.reduction input)
        (orderAll origin (items.take folded)).2

/-- Whether a reduction starts in step depends only on the prior snapshot
and the watermarks. -/
theorem inStep_congr
    {left right : Reduce.Input} {state : State} (inStep : InStep left state)
    (prior : left.prior = right.prior)
    (consumed : left.priorConsumed = right.priorConsumed)
    (folded : left.priorFolded = right.priorFolded) :
    InStep right state := by
  obtain ⟨starts, folds, mirrors⟩ := inStep
  refine ⟨?_, ?_, ?_⟩
  · simpa [Reduce.start, prior, consumed] using starts
  · simpa [Reduce.start, prior, folded] using folds
  · simpa [Reduce.start, prior] using mirrors

/-- The tail of a run is a run from where the head left. -/
theorem orderAll_drop
    (state : State) (items : List Screened) (count : Nat) :
    (orderAll state items).1.drop count =
      (orderAll (orderAll state (items.take count)).2
        (items.drop count)).1 := by
  by_cases short : items.length ≤ count
  · have ended : (orderAll state items).1.length ≤ count := by
      rw [Accept.orderAll_length]
      exact short
    rw [List.drop_eq_nil_of_le short, List.drop_eq_nil_of_le ended]
    rfl
  · have whole :=
      Accept.orderAll_append state (items.take count) (items.drop count)
    rw [List.take_append_drop] at whole
    rw [whole]
    apply List.drop_left'
    rw [Accept.orderAll_length, List.length_take]
    omega

@[simp]
theorem orderAll_facts (state : State) (items : List Screened) :
    (orderAll state items).1.map Event.fact = items.map Screened.fact := by
  induction items generalizing state with
  | nil =>
      rfl
  | cons item rest inductionHypothesis =>
      rw [Accept.orderAll_cons, List.map_cons, List.map_cons,
        inductionHypothesis]

/-- A process that starts over begins at a position without sources. -/
theorem process_of_startOver
    {digest : Fact → Option String} {origin : State} {runtime : Runtime}
    (sources : origin.sources = ∅) (acceptor : runtime.acceptor = origin)
    (consumed : runtime.consumed = origin.foldPosition)
    (accepted : runtime.accepted = origin.hostSequence)
    (snapshot : runtime.snapshot = none) (pending : runtime.pending = []) :
    Process digest origin [] [] 0 runtime := by
  constructor
  · intro id source found
    simp [sources] at found
  · simp
  · exact acceptor
  · exact le_rfl
  · exact pending
  · intro input
    simp only [List.take_nil, orderAll]
    refine ⟨?_, ?_, ?_⟩
    · simp [Reduce.start, Runtime.reduction, snapshot, accepted]
    · simp [Reduce.start, Runtime.reduction, snapshot, consumed]
    · intro id
      simp only [Reduce.start, Runtime.reduction, snapshot,
        Reduce.newSourceTable, sources, Std.ExtTreeMap.getElem?_empty]
      exact Option.Rel.none

namespace Process

variable {digest : Fact → Option String} {origin : State}
  {items lost : List Screened} {folded : Nat} {runtime : Runtime}

theorem sound (process : Process digest origin items lost folded runtime) :
    ∀ item ∈ items, item.Sound :=
  fun item member => (process.passes item (by simp [member])).sound

/-- Journalling more arrivals, and perhaps losing one. -/
theorem extend
    (process : Process digest origin items lost folded runtime)
    {next : Runtime} {written : List Screened} {missed : Option Screened}
    (passes : ∀ item ∈ written ++ missed.toList, Passes digest item)
    (snapshot : next.snapshot = runtime.snapshot)
    (consumed : next.consumed = runtime.consumed)
    (accepted : next.accepted = runtime.accepted)
    (pending :
      next.pending =
        runtime.pending ++ (orderAll runtime.acceptor written).1)
    (acceptor :
      next.acceptor =
        (orderAll runtime.acceptor (written ++ missed.toList)).2)
    (early : lost ≠ [] → written = []) :
    Process digest origin (items ++ written) (lost ++ missed.toList) folded
      next := by
  have reordered :
      items ++ written ++ (lost ++ missed.toList) =
        items ++ lost ++ (written ++ missed.toList) := by
    by_cases none : lost = []
    · simp [none]
    · simp [early none]
  have within : items.take folded = (items ++ written).take folded := by
    rw [List.take_append_of_le_length process.bound]
  constructor
  · exact process.wellFormed
  · rw [reordered]
    intro item member
    rcases List.mem_append.mp member with old | new
    · exact process.passes item old
    · exact passes item new
  · rw [acceptor, process.acceptor, reordered,
      Accept.orderAll_append origin (items ++ lost)]
  · rw [List.length_append]
    exact Nat.le_add_right_of_le process.bound
  · rw [pending, process.pending, process.acceptor,
      Accept.orderAll_append origin items written]
    by_cases none : lost = []
    · rw [none, List.append_nil, List.drop_append_of_le_length]
      rw [Accept.orderAll_length]
      exact process.bound
    · simp [early none, orderAll]
  · intro input
    rw [← within]
    exact
      inStep_congr (process.inStep input) snapshot.symm accepted.symm
        consumed.symm

/-- A successful reduction of the queue describes everything journalled. -/
theorem describes
    (process : Process digest origin items lost folded runtime)
    {environment : Environment} {input : TickInput} {output : Reduce.Output}
    (reduces :
      Reduce.reduce environment.digests.toHashes (runtime.reduction input) =
        .ok output) :
    Describes output.snapshot (orderAll origin items).2 := by
  have before : ∀ item ∈ items.take folded, item.Sound :=
    fun item member => process.sound item (List.mem_of_mem_take member)
  have after : ∀ item ∈ items.drop folded, item.Sound :=
    fun item member => process.sound item (List.mem_of_mem_drop member)
  have described :=
    Reduce.describes_of_reduce reduces (process.inStep input)
      (Accept.orderAll_wellFormed before process.wellFormed) after
      (by rw [← orderAll_drop]; exact process.pending)
  have whole :=
    Accept.orderAll_append origin (items.take folded) (items.drop folded)
  rw [List.take_append_drop] at whole
  rw [whole]
  exact described

/-- A tick leaves the process as it was, or folds its whole queue; whatever
checkpoint it stores is sealed at that position. -/
theorem tick
    (process : Process digest origin items lost folded runtime)
    (environment : Environment) (fires : Operation → Boundary → Bool)
    (id : Option String) (input : TickInput) :
    let next := (runtime.tick environment fires id input).2.2
    (∃ folded', Process digest origin items lost folded' next) ∧
      ∀ checkpoint,
        next.store.Holds checkpoint →
          runtime.store.Holds checkpoint ∨
            SealedAt checkpoint (orderAll origin items).2 := by
  intro next
  rcases Runtime.tick_cases environment fires id runtime input with
    kept | ⟨output, store, parent, broken, reduces, ticks, stored⟩
  · have same : next = runtime := kept
    rw [same]
    exact ⟨⟨folded, process⟩, fun _ => Or.inl⟩
  · have described := process.describes reduces
    have next_eq : next = _ := ticks
    rw [next_eq]
    refine ⟨⟨items.length, ?_⟩, ?_⟩
    · constructor
      · exact process.wellFormed
      · exact process.passes
      · exact process.acceptor
      · exact le_rfl
      · rw [List.drop_eq_nil_of_le (Accept.orderAll_length origin items).le]
        rfl
      · intro later
        rw [List.take_length]
        exact described.inStep (Runtime.reduction _ later)
    · intro checkpoint holds
      rcases stored checkpoint holds with old | carries
      · exact Or.inl old
      · right
        refine ⟨?_, ?_, ?_⟩
        · rw [carries.snapshot]
          exact described
        · rw [carries.snapshot, carries.watermarks]
        · rw [carries.snapshot, carries.consumedTo]

end Process

end Hexroute.Host
