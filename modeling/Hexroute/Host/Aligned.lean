import Hexroute.Host.Fixture
import Hexroute.Host.Steps
import Hexroute.Reduce.Failure

/-!
# A failed journal write and the queue

The reduction refuses a queue whose fold positions have a hole.  The acceptor
hands out a position before the journal is written, so a failed write spends
a position no event of the queue carries.  The queue stays foldable exactly
as long as no later write succeeds.
-/

namespace Hexroute.Host

open Hexroute.Connectivity
open Hexroute.Lib
open Hexroute.Accept (Event Screened State orderAll)
open Hexroute.Lineage (Operation)
open Hexroute.Reduce (InOrder ReduceError nextConsumed)

/-- The reduction stopped at an event out of order. -/
def OutOfOrder (failure : Option RuntimeError) : Prop :=
  ∃ error : ReduceError,
    error.outOfOrder = true ∧ failure = some (.reduction error)

/-- The queue continues the folded and the accepted watermark without a
hole, and no tick finds it out of order. -/
structure Aligned (environment : Environment) (runtime : Runtime) : Prop where
  folds :
    runtime.pending.map (·.acceptance.foldPosition) =
      List.range' (runtime.consumed + 1) runtime.pending.length
  hosts :
    (acceptedOf runtime.pending).map (·.acceptance.hostSequence) =
      List.range' (runtime.accepted + 1) (acceptedOf runtime.pending).length
  ticks :
    ∀ fires id input,
      ¬OutOfOrder (runtime.tick environment fires id input).2.1

/-- The watermarks of the read model, and how far the acceptor is ahead of
the queue: level with it, or past it once a write has failed. -/
structure Tracks (missed : Bool) (runtime : Runtime) : Prop where
  inOrder : InOrder runtime.accepted runtime.consumed runtime.pending
  snapshot :
    ∀ snapshot ∈ runtime.snapshot,
      snapshot.consumedHostSequence = runtime.accepted ∧
        snapshot.consumedFoldPosition = runtime.consumed
  level :
    missed = false →
      runtime.acceptor.foldPosition =
          runtime.consumed + runtime.pending.length ∧
        runtime.acceptor.hostSequence =
          runtime.pending.foldl nextConsumed runtime.accepted
  ahead :
    missed = true →
      runtime.consumed + runtime.pending.length <
        runtime.acceptor.foldPosition

theorem Tracks.start_eq
    {missed : Bool} {runtime : Runtime} (tracks : Tracks missed runtime)
    (input : TickInput) :
    (Reduce.start (runtime.reduction input)).consumed = runtime.accepted ∧
      (Reduce.start (runtime.reduction input)).folded = runtime.consumed := by
  have known := tracks.snapshot
  unfold Reduce.start Runtime.reduction
  cases held : runtime.snapshot with
  | none =>
      simp
  | some snapshot =>
      simpa using known snapshot held

theorem Tracks.aligned
    {missed : Bool} {runtime : Runtime} (tracks : Tracks missed runtime)
    (environment : Environment) : Aligned environment runtime := by
  have orders := inOrder_iff.mp tracks.inOrder
  refine ⟨orders.1, orders.2.1, ?_⟩
  rintro fires id input ⟨error, kind, failed⟩
  have starts := tracks.start_eq input
  have reduces :
      Reduce.reduce environment.digests.toHashes (runtime.reduction input) ≠
        .error error := by
    apply Reduce.reduce_ne_outOfOrder kind
    rw [starts.1, starts.2]
    exact tracks.inOrder
  unfold Runtime.tick at failed
  split at failed
  · simp at failed
  · split at failed
    · rename_i other reduced
      obtain rfl : other = error := by simpa using failed
      exact reduces reduced
    · split at failed
      · simp at failed
      · simp only [Runtime.checkpoint] at failed
        repeat' split at failed
        all_goals simp at failed

/-- What a reduction of an aligned queue consumes. -/
theorem Tracks.consumes
    {missed : Bool} {runtime : Runtime} (tracks : Tracks missed runtime)
    {environment : Environment} {input : TickInput} {output : Reduce.Output}
    (reduces :
      Reduce.reduce environment.digests.toHashes (runtime.reduction input) =
        .ok output) :
    output.snapshot.consumedFoldPosition =
        runtime.consumed + runtime.pending.length ∧
      output.snapshot.consumedHostSequence =
        runtime.pending.foldl nextConsumed runtime.accepted := by
  obtain ⟨tables, reduced⟩ := Reduce.reduce_eq_ok_iff.mp reduces
  have starts := tracks.start_eq input
  rw [reduced.snapshot]
  simp only [Reduce.stamp, Reduce.render, reduced.tables_eq,
    Reduce.Tables.afterAll_folded, Reduce.Tables.afterAll_consumed, starts.1,
    starts.2]
  exact ⟨rfl, rfl⟩

theorem Tracks.tick
    {missed : Bool} {runtime : Runtime} (tracks : Tracks missed runtime)
    (environment : Environment) (fires : Operation → Boundary → Bool)
    (id : Option String) (input : TickInput) :
    Tracks missed (runtime.tick environment fires id input).2.2 := by
  rcases Runtime.tick_cases environment fires id runtime input with
    kept | ⟨output, store, parent, broken, reduces, folded, _⟩
  · rw [kept]
    exact tracks
  · have consumed := tracks.consumes reduces
    rw [folded]
    refine ⟨trivial, ?_, ?_, ?_⟩
    · intro snapshot held
      obtain rfl : output.snapshot = snapshot := by
        simpa [Runtime.folded] using held
      exact ⟨rfl, rfl⟩
    · intro level
      have kept := tracks.level level
      exact ⟨kept.1.trans consumed.1.symm, kept.2.trans consumed.2.symm⟩
    · intro ahead
      have kept := tracks.ahead ahead
      simp only [Runtime.folded, List.length_nil, Nat.add_zero]
      rw [consumed.1]
      exact kept

/-- Ordering more arrivals keeps the queue foldable, as long as the ones
that are queued come before every one that is lost. -/
theorem Tracks.extend
    {missed : Bool} {runtime next : Runtime} (tracks : Tracks missed runtime)
    {written : List Screened} {lost : Option Screened}
    (sound : ∀ item ∈ written ++ lost.toList, item.Sound)
    (accepted : next.accepted = runtime.accepted)
    (consumed : next.consumed = runtime.consumed)
    (snapshot : next.snapshot = runtime.snapshot)
    (pending :
      next.pending =
        runtime.pending ++ (orderAll runtime.acceptor written).1)
    (acceptor :
      next.acceptor =
        (orderAll runtime.acceptor (written ++ lost.toList)).2)
    (early : missed = true → written = []) :
    Tracks (missed || lost.isSome) next := by
  have orders :=
    Reduce.orderAll_inOrder runtime.acceptor
      fun item member => sound item (List.mem_append_left _ member)
  have position :
      next.acceptor.foldPosition =
        runtime.acceptor.foldPosition + written.length +
          lost.toList.length := by
    have all := (Reduce.orderAll_inOrder runtime.acceptor sound).2.2
    rw [Accept.orderAll_length, List.length_append] at all
    rw [acceptor, all]
    omega
  have length :
      next.pending.length = runtime.pending.length + written.length := by
    rw [pending, List.length_append, Accept.orderAll_length]
  cases missed with
  | false =>
      have level := tracks.level rfl
      constructor
      · rw [accepted, consumed, pending, Reduce.inOrder_append, ← level.1,
          ← level.2]
        exact ⟨tracks.inOrder, orders.1⟩
      · rw [accepted, consumed, snapshot]
        exact tracks.snapshot
      · intro kept
        have none : lost = none := by simpa using kept
        rw [none] at position acceptor
        rw [consumed, length, position, level.1]
        refine ⟨by simp; omega, ?_⟩
        rw [acceptor, accepted, pending, List.foldl_append, ← level.2]
        simpa using orders.2.1
      · intro gone
        obtain ⟨item, rfl⟩ : ∃ item, lost = some item := by
          simpa [Option.isSome_iff_exists] using gone
        rw [consumed, length, position, level.1]
        simp
        omega
  | true =>
      have ahead := tracks.ahead rfl
      obtain rfl := early rfl
      have same : next.pending = runtime.pending := by
        simpa [orderAll] using pending
      constructor
      · rw [accepted, consumed, same]
        exact tracks.inOrder
      · rw [accepted, consumed, snapshot]
        exact tracks.snapshot
      · simp
      · intro _
        rw [consumed, same, position]
        omega

/-- A publication keeps the queue foldable, unless it writes after an earlier
write has failed. -/
theorem Tracks.publish
    {missed : Bool} {runtime : Runtime} (tracks : Tracks missed runtime)
    (environment : Environment) (offers : List Offer) (domain : Domain) :
    let attempts := (Step.publish offers domain).attempts environment runtime
    let next := (runtime.publish environment offers domain).2.2
    if missed = true ∧ true ∈ attempts then
      ¬Aligned environment next
    else
      Tracks (missed || decide (false ∈ attempts)) next := by
  intro attempts next
  by_cases reached :
      runtime.enabled = true ∧ ∃ journal,
        runtime.journals domain = some journal
  · obtain ⟨enabled, journal, known⟩ := reached
    obtain ⟨after, written, lost, published, attempted, publishes⟩ :=
      Runtime.publish_eq environment offers enabled known
    have sound : ∀ item ∈ written ++ lost.toList, item.Sound :=
      fun item member => (published.passes item member).sound
    have wrote : true ∈ attempts ↔ written ≠ [] := by
      simp [attempts, attempted, List.mem_replicate]
    have failed : decide (false ∈ attempts) = lost.isSome := by
      cases lost <;> simp [attempts, attempted, List.mem_replicate]
    have next_eq : next = _ := publishes
    split
    · rename_i late
      have ahead := tracks.ahead late.1
      intro aligned
      have folds := aligned.folds
      rw [next_eq] at folds
      simp only [published.pending, List.map_append, List.length_append,
        Accept.orderAll_length, ← List.range'_append_1] at folds
      have continues :=
        (List.append_inj folds (by simp)).2
      cases written with
      | nil =>
          exact wrote.mp late.2 rfl
      | cons item rest =>
          have handed :=
            (Reduce.orderAll_inOrder runtime.acceptor
              fun other member =>
                sound other (List.mem_append_left _ member)).1
          rw [Accept.orderAll_cons] at handed continues
          have given := handed.1.folded
          have expected :=
            (List.cons.inj (continues.trans List.range'_succ)).1
          simp only at given expected
          omega
    · rename_i inTime
      rw [failed, next_eq]
      refine
        tracks.extend sound rfl rfl rfl published.pending published.acceptor
          ?_
      intro earlier
      by_contra some
      exact inTime ⟨earlier, wrote.mpr some⟩
  · obtain ⟨attempted, publishes⟩ :=
      Runtime.publish_unreached environment runtime offers domain reached
    have none : attempts = [] := attempted
    have same : next = runtime := publishes
    simpa [none, same] using tracks

/-- Startup leaves the acceptor level with the queue. -/
theorem tracks_of_start
    {environment : Environment} {arrangement : Arrangement}
    {base runtime : Runtime} (fresh : base.pending = [])
    (empty : base.snapshot = none)
    (starts : base.start environment arrangement = .ok runtime) :
    Tracks false runtime := by
  simp only [Runtime.start, bind_eq_ok_iff, mapError_eq_ok_iff] at starts
  obtain ⟨resume, _, starts⟩ := starts
  split at starts
  · rename_i checkpoint _
    simp only [Runtime.resumeFrom, Runtime.resumeUnfolded, bind_eq_ok_iff,
      mapError_eq_ok_iff, pure_eq_ok_iff] at starts
    obtain ⟨acceptor, restored, ⟨events, final⟩, accepts, rfl⟩ := starts
    obtain ⟨items, passes, _, orders⟩ := reaccept_spec accepts
    have counters := restoreAcceptor_counters restored
    have ordered :=
      Reduce.orderAll_inOrder acceptor
        fun item member => (passes item member).sound
    rw [orders, counters.1, counters.2] at ordered
    simp only [fresh, List.nil_append]
    exact
      ⟨ordered.1, by simp,
        fun _ => ⟨ordered.2.2, ordered.2.1⟩, by simp⟩
  · simp only [Runtime.startOver, bind_eq_ok_iff, mapError_eq_ok_iff,
      pure_eq_ok_iff, Accept.restore] at starts
    obtain ⟨_, ⟨_, _, rfl⟩, _, _, rfl⟩ := starts
    refine ⟨?_, ?_, ?_, ?_⟩
    · simp only [fresh]
      exact trivial
    · simp [empty]
    · simp [fresh]
    · simp

theorem tracks_of_new
    {environment : Environment} {arrangement : Arrangement}
    {options : Options} {runtime : Runtime}
    (starts : Runtime.new environment arrangement options = .ok runtime) :
    Tracks false runtime := by
  unfold Runtime.new at starts
  split at starts
  · obtain rfl := pure_eq_ok_iff.mp starts
    exact ⟨trivial, by simp, fun _ => ⟨rfl, rfl⟩, by simp⟩
  · simp only [bind_eq_ok_iff] at starts
    obtain ⟨_, _, starts⟩ := starts
    split at starts
    · simp at starts
    · simp only [bind_eq_ok_iff] at starts
      obtain ⟨_, _, starts⟩ := starts
      exact tracks_of_start rfl rfl starts

section Runs

variable (environment : Environment)

/-- No write succeeds after one that failed. -/
def NoneAfterFailure (attempts : List Bool) : Prop :=
  attempts.Pairwise fun earlier later => later = true → earlier = true

/-- One call either writes too late, or leaves a state the read model
tracks. -/
theorem Tracks.step
    {missed : Bool} {runtime : Runtime} (tracks : Tracks missed runtime)
    (step : Step) :
    let attempts := step.attempts environment runtime
    let next := runtime.step environment step
    if missed = true ∧ true ∈ attempts then
      ¬Aligned environment next
    else
      Tracks (missed || decide (false ∈ attempts)) next := by
  cases step with
  | publish offers domain =>
      exact tracks.publish environment offers domain
  | tick input id fires =>
      simpa [Step.attempts, Runtime.step] using
        tracks.tick environment fires id input

/-- A call stops at its first failed write. -/
theorem Step.attempts_noneAfterFailure (runtime : Runtime) (step : Step) :
    NoneAfterFailure (step.attempts environment runtime) := by
  cases step with
  | tick input id fires =>
      exact List.Pairwise.nil
  | publish offers domain =>
      by_cases reached :
          runtime.enabled = true ∧ ∃ journal,
            runtime.journals domain = some journal
      · obtain ⟨enabled, journal, known⟩ := reached
        obtain ⟨_, written, lost, _, attempts, _⟩ :=
          Runtime.publish_eq environment offers enabled known
        rw [attempts, NoneAfterFailure, List.pairwise_append]
        refine ⟨?_, ?_, ?_⟩
        · simp [List.pairwise_replicate]
        · simp [List.pairwise_replicate]
        · intro earlier before later after succeeds
          have failed := List.eq_of_mem_replicate after
          rw [failed] at succeeds
          exact absurd succeeds (by decide)
      · rw [(Runtime.publish_unreached environment runtime offers domain
          reached).1]
        exact List.Pairwise.nil

theorem noneAfterFailure_append {first second : List Bool} :
    NoneAfterFailure (first ++ second) ↔
      NoneAfterFailure first ∧ NoneAfterFailure second ∧
        (false ∈ first → true ∉ second) := by
  rw [NoneAfterFailure, List.pairwise_append]
  refine and_congr_right fun _ => and_congr_right fun _ => ?_
  constructor
  · intro apart failed succeeds
    exact absurd (apart false failed true succeeds rfl) (by decide)
  · intro apart earlier before later after succeeds
    rw [succeeds] at after
    by_contra failed
    rw [Bool.not_eq_true] at failed
    rw [failed] at before
    exact apart before after

/-- From a state the read model tracks, the queue stays aligned along a run
exactly when nothing is written after a failed write. -/
theorem aligned_run_iff
    {missed : Bool} {runtime : Runtime} (tracks : Tracks missed runtime)
    (steps : List Step) :
    (∀ done, done <+: steps →
        Aligned environment (runtime.run environment done)) ↔
      (missed = true → true ∉ appends environment runtime steps) ∧
        NoneAfterFailure (appends environment runtime steps) := by
  induction steps generalizing missed runtime with
  | nil =>
      simp only [List.prefix_nil, forall_eq, appends, List.flatMap_nil,
        List.not_mem_nil, not_false_eq_true, implies_true, true_and]
      exact
        ⟨fun _ => List.Pairwise.nil, fun _ => tracks.aligned environment⟩
  | cons step rest inductionHypothesis =>
      have split :
          (∀ done, done <+: step :: rest →
              Aligned environment (runtime.run environment done)) ↔
            ∀ done, done <+: rest →
              Aligned environment
                ((runtime.step environment step).run environment done) := by
        constructor
        · intro all done short
          exact all (step :: done) (List.cons_prefix_cons.mpr ⟨rfl, short⟩)
        · intro all done short
          rcases List.prefix_cons_iff.mp short with
            rfl | ⟨later, rfl, shorter⟩
          · exact tracks.aligned environment
          · exact all later shorter
      have stepped := tracks.step environment step
      have single := step.attempts_noneAfterFailure environment runtime
      have attempts :
          appends environment runtime (step :: rest) =
            step.attempts environment runtime ++
              appends environment runtime rest :=
        rfl
      rw [split, attempts, noneAfterFailure_append, List.mem_append]
      simp only at stepped
      by_cases late :
          missed = true ∧ true ∈ step.attempts environment runtime
      · rw [if_pos late] at stepped
        constructor
        · intro all
          exact absurd (all [] (List.nil_prefix)) stepped
        · rintro ⟨never, _⟩
          exact absurd (Or.inl late.2) (never late.1)
      · rw [if_neg late] at stepped
        rw [inductionHypothesis stepped, appends_step, Bool.or_eq_true,
          decide_eq_true_eq]
        constructor
        · rintro ⟨never, rest⟩
          refine ⟨?_, single, rest, fun failed => never (Or.inr failed)⟩
          intro before
          rintro (own | later)
          · exact late ⟨before, own⟩
          · exact never (Or.inl before) later
        · rintro ⟨never, _, rest, apart⟩
          refine ⟨?_, rest⟩
          rintro (before | failed)
          · exact fun later => never before (Or.inr later)
          · exact apart failed

end Runs

/-- From whatever startup leaves, the queue keeps consecutive positions from
the watermarks on and no tick stops out of order, exactly when no journal
write of the run succeeds after one that failed. -/
theorem queue_stays_aligned_iff
    (environment : Environment) (arrangement : Arrangement)
    (options : Options) (runtime : Runtime) (steps : List Step)
    (starts : Runtime.new environment arrangement options = .ok runtime) :
    (∀ done, done <+: steps →
        Aligned environment (runtime.run environment done)) ↔
      NoneAfterFailure (appends environment runtime steps) := by
  rw [aligned_run_iff environment (tracks_of_new starts)]
  simp

/-- The first write fails and the second succeeds. -/
def writeAfterFailure : List Step :=
  [.publish [(fixtureBaseline .dns 1, false)] .root,
    .publish [(fixtureBaseline .dns 2, true)] .root]

/-- After it the queue starts at position two over a watermark of zero, and
the next tick refuses it. -/
theorem write_after_failure_wedges :
    ∃ runtime,
      Runtime.new fixtureEnvironment hostOrder fixtureOptions = .ok runtime ∧
        let wedged := runtime.run fixtureEnvironment writeAfterFailure
        wedged.consumed = 0 ∧
          wedged.pending.map (·.acceptance.foldPosition) = [2] ∧
            (wedged.tick fixtureEnvironment Lineage.noFaults
                (some "checkpoint") fixtureTick).2.1 =
              some (.reduction (.foldOutOfOrder 1 2)) := by
  obtain ⟨runtime, starts, wedged⟩ :=
    exists_of_yields
      (Runtime.new fixtureEnvironment hostOrder fixtureOptions)
      (fun runtime =>
        let wedged := runtime.run fixtureEnvironment writeAfterFailure
        decide
          (wedged.consumed = 0 ∧
            wedged.pending.map (·.acceptance.foldPosition) = [2] ∧
              (wedged.tick fixtureEnvironment Lineage.noFaults
                  (some "checkpoint") fixtureTick).2.1 =
                some (.reduction (.foldOutOfOrder 1 2))))
      (by decide +kernel)
  exact ⟨runtime, starts, of_decide_eq_true wedged⟩

/-- The second write fails after the first succeeded. -/
def failureAfterWrite : List Step :=
  [.publish [(fixtureBaseline .dns 1, true), (fixtureBaseline .dns 2, false)]
      .root]

theorem queue_stays_aligned_iff_failure_after_write :
    ∃ runtime,
      Runtime.new fixtureEnvironment hostOrder fixtureOptions = .ok runtime ∧
        appends fixtureEnvironment runtime failureAfterWrite =
            [true, false] ∧
          Aligned fixtureEnvironment
            (runtime.run fixtureEnvironment failureAfterWrite) := by
  obtain ⟨runtime, starts, attempts⟩ :=
    exists_of_yields
      (Runtime.new fixtureEnvironment hostOrder fixtureOptions)
      (fun runtime =>
        decide
          (appends fixtureEnvironment runtime failureAfterWrite =
            [true, false]))
      (by decide +kernel)
  have results := of_decide_eq_true attempts
  refine ⟨runtime, starts, results, ?_⟩
  apply
    (queue_stays_aligned_iff fixtureEnvironment hostOrder fixtureOptions
      runtime failureAfterWrite starts).mpr _ failureAfterWrite
      (List.prefix_refl _)
  rw [results, NoneAfterFailure]
  decide

end Hexroute.Host
