import Hexroute.Host.Epoch
import Hexroute.Host.Fixture

/-!
# Restarting over the journals

A restart restores the acceptor from the newest provable checkpoint and
accepts again what the journals hold beyond it, in the order of host
sequences.  Arrivals that were not accepted have no host sequence, so they
come first whatever their place was.  The restart reproduces what it reads
exactly when no arrival beyond the checkpoint, other than the first, was of
that kind.
-/

namespace Hexroute.Host

open Hexroute.Connectivity
open Hexroute.Lib
open Hexroute.Accept (Event Screened State orderAll)
open Hexroute.Lineage (Checkpoint LineageBreak Resume Store)

section Startup

variable {environment : Environment} {arrangement : Arrangement}
  {options : Options} {stopped restarted : Runtime}

/-- Startup options that bring the runtime up over what a stopped process
left. -/
structure Restarts (options : Options) (stopped : Runtime) : Prop where
  enabled : options.enabled = true
  preconditions : options.preconditions.missing = ""
  bootID : options.bootID ≠ ""
  random : options.random = true
  checkpoints : options.checkpoints = some stopped.store
  root : options.rootJournal ≠ none
  journals : options.journals = stopped.journals

/-- Such a startup goes straight to the stored lineage. -/
theorem new_eq_start (restarts : Restarts options stopped) :
    Runtime.new environment arrangement options =
      Runtime.start environment arrangement
        { enabled := true
          bootID := options.bootID
          store := stopped.store
          journals := stopped.journals
          acceptor := State.new } := by
  have ready :
      ¬(options.bootID = "" ∨ options.rootJournal = none ∨
        options.random = false) := by
    simp [restarts.bootID, restarts.root, restarts.random]
  rw [Runtime.new, restarts.enabled, restarts.checkpoints]
  simp only [Bool.not_true, Bool.false_eq_true, if_false,
    refuse_bind_of_not (not_not.mpr restarts.preconditions),
    refuse_bind_of_not ready, restarts.journals]

/-- The checkpoint startup continues from, if there is one. -/
def Resume.chosen (resume : Resume) : Option Checkpoint :=
  resume.checkpoint.filter fun _ => resume.usable

/-- A startup that continued from a checkpoint. -/
structure Resumed
    (environment : Environment) (arrangement : Arrangement)
    (stopped : Runtime) (checkpoint : Checkpoint) (origin : State)
    (restarted : Runtime) : Prop where
  restores :
    Reduce.restoreAcceptor checkpoint.snapshot checkpoint.sourceWatermarks =
      .ok origin
  accepts :
    reaccept environment.digest origin
        (arrangement.arrange
          (recordsBeyond stopped.journals checkpoint.consumedTo)) =
      .ok (restarted.pending, restarted.acceptor)
  enabled : restarted.enabled = true
  store : restarted.store = stopped.store
  journals : restarted.journals = stopped.journals
  snapshot : restarted.snapshot = some checkpoint.snapshot

/-- A startup that began above everything the journals hold. -/
structure StartedOver (stopped restarted : Runtime) : Prop where
  acceptor :
    restarted.acceptor =
      { hostSequence := (highestIssued stopped.journals).1
        foldPosition := (highestIssued stopped.journals).2
        sources := ∅ }
  consumed : restarted.consumed = (highestIssued stopped.journals).2
  accepted : restarted.accepted = (highestIssued stopped.journals).1
  snapshot : restarted.snapshot = none
  pending : restarted.pending = []
  store : restarted.store = stopped.store
  journals : restarted.journals = stopped.journals

/-- What a successful startup went through. -/
theorem new_cases
    (restarts : Restarts options stopped)
    (starts : Runtime.new environment arrangement options = .ok restarted) :
    ∃ resume,
      stopped.store.resume environment.digests environment.size
          environment.depth = .ok resume ∧
        match Resume.chosen resume with
        | some checkpoint =>
            ∃ origin,
              Resumed environment arrangement stopped checkpoint origin
                restarted
        | none => StartedOver stopped restarted := by
  rw [new_eq_start restarts] at starts
  simp only [Runtime.start, bind_eq_ok_iff, mapError_eq_ok_iff] at starts
  obtain ⟨resume, resumes, starts⟩ := starts
  refine ⟨resume, resumes, ?_⟩
  unfold Resume.chosen
  cases chosen : resume.checkpoint.filter fun _ => resume.usable with
  | some checkpoint =>
      simp only [chosen, Runtime.resumeFrom, Runtime.resumeUnfolded,
        bind_eq_ok_iff, mapError_eq_ok_iff, pure_eq_ok_iff] at starts
      obtain ⟨origin, restores, ⟨events, final⟩, accepts, rfl⟩ := starts
      exact ⟨origin, restores, accepts, rfl, rfl, rfl, rfl⟩
  | none =>
      simp only [chosen, Runtime.startOver, bind_eq_ok_iff,
        mapError_eq_ok_iff, pure_eq_ok_iff, Accept.restore] at starts
      obtain ⟨_, ⟨_, _, rfl⟩, _, _, rfl⟩ := starts
      exact ⟨rfl, rfl, rfl, rfl, rfl, rfl, rfl⟩

/-- Startup continues from a checkpoint when all the records beyond it are
accepted again. -/
theorem new_of_resume
    {resume : Resume} {checkpoint : Checkpoint} {origin : State}
    (restarts : Restarts options stopped)
    (resumes :
      stopped.store.resume environment.digests environment.size
        environment.depth = .ok resume)
    (chosen : Resume.chosen resume = some checkpoint)
    (restores :
      Reduce.restoreAcceptor checkpoint.snapshot
        checkpoint.sourceWatermarks = .ok origin)
    {events : List Event} {final : State}
    (accepts :
      reaccept environment.digest origin
        (arrangement.arrange
          (recordsBeyond stopped.journals checkpoint.consumedTo)) =
        .ok (events, final)) :
    ∃ restarted,
      Runtime.new environment arrangement options = .ok restarted ∧
        restarted.acceptor = final ∧ restarted.pending = events := by
  rw [Resume.chosen] at chosen
  rw [new_eq_start restarts]
  simp only [Runtime.start, resumes, Except.mapError, ok_bind, chosen,
    Runtime.resumeFrom, restores, Runtime.resumeUnfolded, accepts]
  exact ⟨_, rfl, rfl, rfl⟩

/-- Everything a domain's journal holds. -/
def heldBy (journals : Domain → Option Journal) (domain : Domain) :
    List Record :=
  match journals domain with
  | none => []
  | some journal => journal.records

theorem foldl_max_bounds (values : List Nat) (start : Nat) :
    start ≤ values.foldl max start ∧
      ∀ value ∈ values, value ≤ values.foldl max start := by
  induction values generalizing start with
  | nil =>
      simp
  | cons head tail inductionHypothesis =>
      have later := inductionHypothesis (max start head)
      rw [List.foldl_cons, List.forall_mem_cons]
      exact
        ⟨(le_max_left _ _).trans later.1, (le_max_right _ _).trans later.1,
          later.2⟩

theorem newest_le_highestIssued
    {journals : Domain → Option Journal} {domain : Domain}
    {journal : Journal} {newest : Record}
    (held : journals domain = some journal)
    (last : journal.newest = some newest) :
    newest.hostSequence ≤ (highestIssued journals).1 ∧
      newest.foldPosition ≤ (highestIssued journals).2 := by
  have member :
      newest ∈
        [Domain.root, Domain.user].filterMap fun domain =>
          (journals domain).bind Journal.newest := by
    rw [List.mem_filterMap]
    refine ⟨domain, ?_, ?_⟩
    · cases domain <;> simp
    · rw [held]
      exact last
  exact
    ⟨(foldl_max_bounds _ 0).2 _ (List.mem_map_of_mem member),
      (foldl_max_bounds _ 0).2 _ (List.mem_map_of_mem member)⟩

/-- The newest record of a journal has its highest position. -/
theorem foldPosition_le_newest
    {journal : Journal} {record : Record}
    (rising :
      journal.records.Pairwise fun earlier later =>
        earlier.foldPosition < later.foldPosition)
    (member : record ∈ journal.records) :
    ∃ newest,
      journal.newest = some newest ∧
        record.foldPosition ≤ newest.foldPosition := by
  unfold Journal.newest
  cases run : journal.records.getLast? with
  | none =>
      rw [List.getLast?_eq_none_iff] at run
      simp [run] at member
  | some newest =>
      refine ⟨newest, rfl, ?_⟩
      obtain ⟨earlier, split⟩ := List.getLast?_eq_some_iff.mp run
      rw [split] at rising member
      rcases List.mem_append.mp member with before | own
      · have lower :=
          (List.pairwise_append.mp rising).2.2 record before newest (by simp)
        exact lower.le
      · rw [List.mem_singleton.mp own]

/-- Starting over begins an epoch above everything held, provided that the
newest records carry the highest host sequence. -/
theorem epoch_of_startedOver
    (again : StartedOver stopped restarted)
    (rising :
      ∀ domain journal,
        stopped.journals domain = some journal →
          journal.records.Pairwise fun earlier later =>
            earlier.foldPosition < later.foldPosition)
    (hosts :
      ∀ domain, ∀ record ∈ heldBy stopped.journals domain,
        record.hostSequence ≤ (highestIssued stopped.journals).1) :
    Epoch environment.digest restarted.acceptor [] []
      (heldBy stopped.journals) stopped.store restarted := by
  constructor
  · intro id source found
    simp [again.acceptor] at found
  · simp
  · intro domain record member
    have host := hosts domain record member
    rw [again.acceptor]
    refine ⟨?_, host⟩
    unfold heldBy at member
    cases held : stopped.journals domain with
    | none =>
        simp [held] at member
    | some journal =>
        rw [held] at member
        obtain ⟨newest, last, lower⟩ :=
          foldPosition_le_newest (rising domain journal held) member
        exact lower.trans (newest_le_highestIssued held last).2
  · intro domain
    unfold heldBy
    cases held : stopped.journals domain with
    | none =>
        exact List.Pairwise.nil
    | some journal =>
        exact rising domain journal held
  · intro domain journal held
    rw [again.journals] at held
    simp [heldBy, held, orderAll]
  · simp
  · intro checkpoint holds
    rw [again.store] at holds
    exact Or.inl holds
  · refine ⟨0, restarted.acceptor, 0, le_rfl, Accept.State.Same.refl _, ?_⟩
    apply process_of_startOver
    · rw [again.acceptor]
    · rfl
    · rw [again.consumed, again.acceptor]
    · rw [again.accepted, again.acceptor]
    · exact again.snapshot
    · exact again.pending

/-- Continuing from a checkpoint of the epoch continues the epoch, provided
that the journals' order and the order of host sequences agree beyond it. -/
theorem Epoch.resumed
    {base : State} {all lost : List Screened} {old : Domain → List Record}
    {inherited : Store} {checkpoint : Checkpoint} {origin : State}
    {count : Nat}
    (epoch : Epoch environment.digest base all lost old inherited stopped)
    (bound : count ≤ all.length)
    (sealed : SealedAt checkpoint (orderAll base (all.take count)).2)
    (only :
      OnlyFirstUnaccepted
        (recordsBeyond stopped.journals checkpoint.consumedTo))
    (resumed :
      Resumed environment arrangement stopped checkpoint origin restarted) :
    Epoch environment.digest base all [] old inherited restarted := by
  have cut := epoch.consumedTo_eq bound sealed
  obtain ⟨tail, _, sound⟩ := epoch.tail count
  have before : ∀ item ∈ all.take count, item.Sound :=
    fun item member => epoch.sound item (List.mem_of_mem_take member)
  have wellFormed :=
    Accept.orderAll_wellFormed before epoch.wellFormed
  have same : origin.Same (orderAll base (all.take count)).2 := by
    obtain ⟨other, restores, same⟩ := epoch.restores sealed
    obtain rfl : origin = other :=
      Except.ok.inj (resumed.restores.symm.trans restores)
    exact same
  have ordered :
      orderAll origin (all.drop count) =
        (restarted.pending, restarted.acceptor) := by
    have accepts := resumed.accepts
    rw [cut] at only accepts
    rw [epoch.arranged only arrangement, tail] at accepts
    have passes :
        ∀ record ∈
            (orderAll (orderAll base (all.take count)).2
              (all.drop count)).1.map recordOf,
          Passes environment.digest record.screened := by
      intro record member
      rw [← tail] at member
      exact
        epoch.beyond_passes ((epoch.beyond_perm count).mem_iff.mpr member)
    rw [reaccept_of_passes passes, orderAll_screened _ sound] at accepts
    exact Except.ok.inj accepts
  have acceptor := congrArg Prod.snd ordered
  have pending := congrArg Prod.fst ordered
  simp only at acceptor pending
  refine
    { epoch with
      records := ?_
      journalled := ?_
      sealed := ?_
      process := ⟨count, origin, 0, bound, same, ?_⟩ }
  · rw [resumed.journals]
    exact epoch.records
  · rw [resumed.journals]
    exact epoch.journalled
  · rw [resumed.store]
    exact epoch.sealed
  · constructor
    · exact same.symm.wellFormed wellFormed
    · intro item member
      rw [List.append_nil] at member
      exact epoch.passes item (List.mem_of_mem_drop member)
    · rw [List.append_nil, acceptor]
    · exact Nat.zero_le _
    · rw [List.drop_zero, pending]
    · intro input
      have described := sealed.describes.same same.symm
      rw [List.take_zero]
      exact
        inStep_congr
          (described.inStep (restarted.reduction input))
          (by simp [Runtime.reduction, resumed.snapshot]) rfl rfl

end Startup

section FirstStart

variable {environment : Environment} {arrangement : Arrangement}
  {options : Options} {runtime : Runtime}

/-- Nothing has been stored or journalled yet. -/
structure Fresh (options : Options) : Prop where
  enabled : options.enabled = true
  store : options.checkpoints = some Store.empty
  journals :
    ∀ domain journal,
      options.journals domain = some journal → journal.records = []

/-- What a first start finds. -/
def Options.blank (options : Options) : Runtime :=
  { enabled := true
    bootID := options.bootID
    store := Store.empty
    journals := options.journals
    acceptor := State.new }

/-- A startup that succeeds passed the checks made before the store is
read. -/
theorem restarts_of_new
    {stopped : Runtime} (enabled : options.enabled = true)
    (store : options.checkpoints = some stopped.store)
    (journals : options.journals = stopped.journals)
    (starts : Runtime.new environment arrangement options = .ok runtime) :
    Restarts options stopped := by
  rw [Runtime.new, enabled, store] at starts
  simp only [Bool.not_true, Bool.false_eq_true, if_false, bind_eq_ok_iff,
    refuse_eq_ok_iff, not_not, not_or] at starts
  obtain ⟨_, preconditions, _, ⟨bootID, root, random⟩, _⟩ := starts
  exact
    ⟨enabled, preconditions, bootID, by simpa using random, store, root,
      journals⟩

theorem not_holds_empty (checkpoint : Checkpoint) :
    ¬Store.empty.Holds checkpoint := by
  rintro ⟨id, found⟩
  simp [Store.empty, Directory.empty] at found

/-- A first start begins an epoch with empty journals. -/
theorem epoch_of_new
    (fresh : Fresh options)
    (starts : Runtime.new environment arrangement options = .ok runtime) :
    Epoch environment.digest runtime.acceptor [] []
      (heldBy options.journals) Store.empty runtime := by
  have restarts : Restarts options options.blank :=
    restarts_of_new fresh.enabled fresh.store rfl starts
  obtain ⟨resume, resumes, started⟩ := new_cases restarts starts
  have chosen : Resume.chosen resume = none := by
    unfold Resume.chosen
    cases found : resume.checkpoint with
    | none =>
        rfl
    | some checkpoint =>
        exact
          absurd (Lineage.holds_of_resume resumes found)
            (not_holds_empty checkpoint)
  rw [chosen] at started
  have empty (domain : Domain) : heldBy options.journals domain = [] := by
    unfold heldBy
    cases held : options.journals domain with
    | none =>
        rfl
    | some journal =>
        exact fresh.journals domain journal held
  apply epoch_of_startedOver started
  · intro domain journal held
    rw [fresh.journals domain journal held]
    exact List.Pairwise.nil
  · intro domain record member
    have none : record ∈ heldBy options.journals domain := member
    rw [empty domain] at none
    exact absurd none List.not_mem_nil

end FirstStart

section Reproduction

variable {environment : Environment} {base : State} {all : List Screened}
  {old : Domain → List Record} {inherited : Store} {runtime : Runtime}

/-- Calls whose journal writes all succeed continue the epoch. -/
theorem Epoch.run
    (epoch : Epoch environment.digest base all [] old inherited runtime)
    (steps : List Step)
    (succeeds : false ∉ appends environment runtime steps) :
    ∃ more,
      Epoch environment.digest base (all ++ more) [] old inherited
        (runtime.run environment steps) := by
  induction steps generalizing all runtime with
  | nil =>
      exact ⟨[], by rw [List.append_nil]; exact epoch⟩
  | cons step rest inductionHypothesis =>
      rw [appends, List.flatMap_cons, List.mem_append, not_or] at succeeds
      have later :
          false ∉
            appends environment (runtime.step environment step) rest := by
        rw [appends_step]
        exact succeeds.2
      have stepped :
          ∃ more,
            Epoch environment.digest base (all ++ more) [] old inherited
              (runtime.step environment step) := by
        cases step with
        | tick input id fires =>
            refine ⟨[], ?_⟩
            rw [List.append_nil]
            exact epoch.tick input id fires
        | publish offers domain =>
            by_cases reached :
                runtime.enabled = true ∧ ∃ journal,
                  runtime.journals domain = some journal
            · obtain ⟨enabled, journal, known⟩ := reached
              obtain ⟨written, missed, published, none⟩ :=
                epoch.publish enabled known (fun some => absurd rfl some)
              refine ⟨written, ?_⟩
              rw [none succeeds.1] at published
              exact published
            · refine ⟨[], ?_⟩
              rw [Runtime.step, List.append_nil,
                (Runtime.publish_unreached environment runtime offers domain
                  reached).2]
              exact epoch
      obtain ⟨more, stepped⟩ := stepped
      obtain ⟨further, ran⟩ := inductionHypothesis stepped later
      refine ⟨more ++ further, ?_⟩
      rw [← List.append_assoc]
      exact ran

/-- The restart leaves the acceptor where the stopped process left it, and
decides about every record as it was journalled. -/
structure Reproduces
    (arrangement : Arrangement) (stopped : Runtime)
    (checkpoint : Checkpoint) (restarted : Runtime) : Prop where
  acceptor : restarted.acceptor.Same stopped.acceptor
  records :
    restarted.pending.map recordOf =
      arrangement.arrange
        (recordsBeyond stopped.journals checkpoint.consumedTo)

/-- The records that never entered the accepted order come first, the latest
of them before the others. -/
def latestFirst : Arrangement where
  arrange records :=
    sortBy Record.hostSequence (sortBy Record.foldPosition records).reverse
  perm records :=
    (sortBy_perm _).trans
      ((List.reverse_perm _).trans (sortBy_perm records))
  ordered _ := sortBy_ordered _

variable {checkpoint : Checkpoint} {count : Nat} {lost : List Screened}
  {stopped : Runtime}

/-- When some later record was not accepted, the arrangement that puts the
latest such record first starts at a wrong position. -/
theorem Epoch.latestFirst_head
    (epoch : Epoch environment.digest base all lost old inherited stopped)
    (later :
      ¬OnlyFirstUnaccepted
        (recordsBeyond stopped.journals (base.foldPosition + count))) :
    ∃ first rest,
      latestFirst.arrange
          (recordsBeyond stopped.journals (base.foldPosition + count)) =
          first :: rest ∧
        base.foldPosition + count + 1 < first.foldPosition := by
  have beyond := epoch.beyond_perm count
  obtain ⟨cut, _, sound⟩ := epoch.tail count
  have hosts :=
    orderAll_host (orderAll base (all.take count)).2 sound
  have positions :=
    orderAll_rising (orderAll base (all.take count)).2 sound
  have lowest :
      ∀ event ∈ (orderAll base all).1.drop count,
        base.foldPosition + count < event.acceptance.foldPosition := by
    have after := orderAll_filter_after base epoch.sound count
    intro event member
    rw [← after, List.mem_filter] at member
    simpa using member.2
  rw [← cut] at hosts positions
  generalize (orderAll base all).1.drop count = events at *
  have sorted :
      sortBy Record.foldPosition
          (recordsBeyond stopped.journals (base.foldPosition + count)) =
        events.map recordOf := by
    apply
      eq_of_perm_of_rising ((sortBy_perm _).trans beyond) (sortBy_ordered _)
    rw [List.pairwise_map]
    exact positions
  simp only [OnlyFirstUnaccepted, not_forall] at later
  obtain ⟨record, member, earlier, before, lower, refused⟩ := later
  rw [beyond.mem_iff, List.mem_map] at member before
  obtain ⟨event, listed, rfl⟩ := member
  obtain ⟨former, listedBefore, rfl⟩ := before
  have zero : (recordOf event).hostSequence = 0 := by
    by_contra some
    exact refused ((hosts event listed).mpr some)
  have above :
      base.foldPosition + count + 1 < (recordOf event).foldPosition := by
    have below := lowest former listedBefore
    simp only [recordOf] at lower ⊢
    omega
  have arranged :
      latestFirst.arrange
          (recordsBeyond stopped.journals (base.foldPosition + count)) =
        sortBy Record.hostSequence (events.map recordOf).reverse := by
    simp only [latestFirst, sorted]
  have inside :
      recordOf event ∈
        under Record.hostSequence 0 (events.map recordOf).reverse := by
    simp only [under, List.mem_filter, List.mem_reverse, decide_eq_true_eq]
    exact ⟨List.mem_map_of_mem listed, zero⟩
  have falling :
      (under Record.hostSequence 0
          (events.map recordOf).reverse).Pairwise
        fun earlier later => later.foldPosition < earlier.foldPosition := by
    apply List.Pairwise.filter
    rw [List.pairwise_reverse, List.pairwise_map]
    exact positions
  cases unaccepted :
      under Record.hostSequence 0 (events.map recordOf).reverse with
  | nil =>
      rw [unaccepted] at inside
      exact absurd inside List.not_mem_nil
  | cons first rest =>
      obtain ⟨more, headed⟩ :=
        sortBy_head (fun entry _ => Nat.zero_le entry.hostSequence)
          unaccepted
      refine ⟨first, more, arranged.trans headed, ?_⟩
      rw [unaccepted] at inside falling
      rcases List.mem_cons.mp inside with own | later
      · rw [← own]
        exact above
      · have higher := (List.pairwise_cons.mp falling).1 _ later
        omega

/-- A restart from a checkpoint of the epoch orders the records beyond it
again, from a position that differs at most in the order of pending
baselines. -/
theorem Epoch.restart
    (epoch : Epoch environment.digest base all lost old inherited stopped)
    (bound : count ≤ all.length)
    (sealed : SealedAt checkpoint (orderAll base (all.take count)).2)
    {options : Options} (restarts : Restarts options stopped)
    {resume : Resume}
    (resumes :
      stopped.store.resume environment.digests environment.size
        environment.depth = .ok resume)
    (chosen : Resume.chosen resume = some checkpoint)
    (arrangement : Arrangement) :
    ∃ origin restarted,
      origin.Same (orderAll base (all.take count)).2 ∧
        Runtime.new environment arrangement options = .ok restarted ∧
          (restarted.pending, restarted.acceptor) =
            orderAll origin
              ((arrangement.arrange
                (recordsBeyond stopped.journals
                  checkpoint.consumedTo)).map Record.screened) := by
  have cut := epoch.consumedTo_eq bound sealed
  obtain ⟨origin, restores, same⟩ := epoch.restores sealed
  have passes :
      ∀ record ∈
          arrangement.arrange
            (recordsBeyond stopped.journals checkpoint.consumedTo),
        Passes environment.digest record.screened := by
    intro record member
    have held := (arrangement.perm _).mem_iff.mp member
    rw [cut] at held
    exact epoch.beyond_passes held
  obtain ⟨restarted, starts, acceptor, pending⟩ :=
    new_of_resume restarts resumes chosen restores
      (reaccept_of_passes passes _)
  exact ⟨origin, restarted, same, starts, Prod.ext pending acceptor⟩

end Reproduction

/-- From an empty store and with every journal write successful, a usable
restart reproduces the acceptor and every journalled decision, in whatever
order the records are gathered, exactly when every record beyond the
checkpoint but the earliest was accepted. -/
theorem restart_reproduces_iff
    (environment : Environment) (first : Arrangement)
    (initial options : Options) (runtime : Runtime) (steps : List Step)
    (resume : Resume) (checkpoint : Checkpoint) (fresh : Fresh initial)
    (starts : Runtime.new environment first initial = .ok runtime)
    (succeeds : false ∉ appends environment runtime steps)
    (restarts : Restarts options (runtime.run environment steps))
    (resumes :
      (runtime.run environment steps).store.resume environment.digests
        environment.size environment.depth = .ok resume)
    (usable : resume.usable = true)
    (found : resume.checkpoint = some checkpoint) :
    (∀ arrangement : Arrangement,
        ∃ restarted,
          Runtime.new environment arrangement options = .ok restarted ∧
            Reproduces arrangement (runtime.run environment steps)
              checkpoint restarted) ↔
      OnlyFirstUnaccepted
        (recordsBeyond (runtime.run environment steps).journals
          checkpoint.consumedTo) := by
  obtain ⟨all, epoch⟩ := (epoch_of_new fresh starts).run steps succeeds
  rw [List.nil_append] at epoch
  have chosen : Resume.chosen resume = some checkpoint := by
    simp [Resume.chosen, found, usable]
  obtain ⟨count, bound, sealed⟩ :=
    (epoch.sealed checkpoint
      (Lineage.holds_of_resume resumes found)).resolve_left
      (not_holds_empty checkpoint)
  have cut := epoch.consumedTo_eq bound sealed
  obtain ⟨tail, final, sound⟩ := epoch.tail count
  obtain ⟨state, stands, acceptor⟩ := epoch.acceptor
  constructor
  · intro reproduces
    by_contra later
    rw [cut] at later
    obtain ⟨head, rest, arranged, beyond⟩ := epoch.latestFirst_head later
    obtain ⟨restarted, starts, reproduced⟩ := reproduces latestFirst
    obtain ⟨origin, other, same, restarted_eq, ordered⟩ :=
      epoch.restart bound sealed restarts resumes chosen latestFirst
    obtain rfl : restarted = other :=
      Except.ok.inj (starts.symm.trans restarted_eq)
    have records := reproduced.records
    rw [cut, arranged] at ordered records
    rw [List.map_cons, Accept.orderAll_cons, Prod.mk.injEq] at ordered
    rw [ordered.1, List.map_cons] at records
    have position := congrArg Record.foldPosition (List.cons.inj records).1
    have issued :
        origin.foldPosition = runtime.acceptor.foldPosition + count := by
      rw [same.foldPosition, ← sealed.describes.folded, ← sealed.consumedTo,
        cut]
    have given : origin.foldPosition + 1 = head.foldPosition := position
    omega
  · intro only arrangement
    obtain ⟨origin, restarted, same, restarted_eq, ordered⟩ :=
      epoch.restart bound sealed restarts resumes chosen arrangement
    rw [cut] at only ordered
    rw [epoch.arranged only arrangement, tail,
      orderAll_screened _ sound] at ordered
    obtain ⟨events, ended⟩ := Accept.orderAll_same same (all.drop count)
    rw [← ordered] at events ended
    refine ⟨restarted, restarted_eq, ?_, ?_⟩
    · rw [acceptor]
      rw [← final] at ended
      exact ended.trans stands.symm
    · rw [cut, epoch.arranged only arrangement, tail]
      exact map_recordOf_of_same events

/-- The options of a restart over what a process left. -/
def restartOptions (stopped : Runtime) : Options :=
  { fixtureOptions with
    checkpoints := some stopped.store
    rootJournal := stopped.journals .root
    userJournal := stopped.journals .user }

/-- After a checkpoint, a fact is accepted and another one under the same
identity refused. -/
def conflictAfterCheckpoint : List Step :=
  [.publish [(fixtureBaseline .dns 1, true)] .root,
    .tick fixtureTick (some "checkpoint") Lineage.noFaults,
    .publish
      [(fixtureBaseline .dns 2, true),
        ({ fixtureBaseline .dns 2 with eventID := fixtureEventID 9 }, true)]
      .root]

/-- A restart accepts the refused fact and refuses the accepted one, and ends
with another retry window. -/
theorem restart_swaps_conflict :
    ∃ runtime restarted,
      Runtime.new fixtureEnvironment hostOrder fixtureOptions = .ok runtime ∧
        let stopped := runtime.run fixtureEnvironment conflictAfterCheckpoint
        Runtime.new fixtureEnvironment hostOrder (restartOptions stopped) =
            .ok restarted ∧
          ((recordsBeyond stopped.journals 1).map
              fun record => (record.fact.eventID, record.outcome)) =
            [(fixtureEventID 2, .accepted), (fixtureEventID 9, .conflict)] ∧
          (restarted.pending.map
              fun event => (event.fact.eventID, event.acceptance.outcome)) =
            [(fixtureEventID 9, .accepted), (fixtureEventID 2, .conflict)] ∧
          (restarted.acceptor.sources["root.dns"]?.map (·.recent)) ≠
            stopped.acceptor.sources["root.dns"]?.map (·.recent) := by
  obtain ⟨runtime, starts, rest⟩ :=
    exists_of_yields
      (Runtime.new fixtureEnvironment hostOrder fixtureOptions)
      (fun runtime =>
        let stopped := runtime.run fixtureEnvironment conflictAfterCheckpoint
        yields
          (Runtime.new fixtureEnvironment hostOrder (restartOptions stopped))
          fun restarted =>
            decide
              (((recordsBeyond stopped.journals 1).map
                  fun record => (record.fact.eventID, record.outcome)) =
                [(fixtureEventID 2, .accepted),
                  (fixtureEventID 9, .conflict)] ∧
              (restarted.pending.map
                  fun event =>
                    (event.fact.eventID, event.acceptance.outcome)) =
                [(fixtureEventID 9, .accepted),
                  (fixtureEventID 2, .conflict)] ∧
              (restarted.acceptor.sources["root.dns"]?.map (·.recent)) ≠
                stopped.acceptor.sources["root.dns"]?.map (·.recent)))
      (by decide +kernel)
  obtain ⟨restarted, restarts, differs⟩ := exists_of_yields _ _ rest
  exact ⟨runtime, restarted, starts, restarts, of_decide_eq_true differs⟩

/-- After a checkpoint, a retry of the first fact and then a new one. -/
def retryAfterCheckpoint : List Step :=
  [.publish [(fixtureBaseline .dns 1, true)] .root,
    .tick fixtureTick (some "checkpoint") Lineage.noFaults,
    .publish
      [(fixtureBaseline .dns 1, true), (fixtureBaseline .dns 2, true)]
      .root]

theorem restart_reproduces_iff_retry :
    ∃ runtime resume checkpoint,
      Runtime.new fixtureEnvironment hostOrder fixtureOptions = .ok runtime ∧
        let stopped := runtime.run fixtureEnvironment retryAfterCheckpoint
        stopped.store.resume fixtureEnvironment.digests
              fixtureEnvironment.size fixtureEnvironment.depth =
            .ok resume ∧
          resume.checkpoint = some checkpoint ∧
          ((recordsBeyond stopped.journals checkpoint.consumedTo).map
              Record.outcome) =
            [.duplicate, .accepted] ∧
          ∀ arrangement : Arrangement,
            ∃ restarted,
              Runtime.new fixtureEnvironment arrangement
                  (restartOptions stopped) = .ok restarted ∧
                Reproduces arrangement stopped checkpoint restarted := by
  obtain ⟨runtime, starts, rest⟩ :=
    exists_of_yields
      (Runtime.new fixtureEnvironment hostOrder fixtureOptions)
      (fun runtime =>
        let stopped := runtime.run fixtureEnvironment retryAfterCheckpoint
        decide
            (appends fixtureEnvironment runtime retryAfterCheckpoint =
              [true, true, true]) &&
          (stopped.journals .root).isSome &&
          yields
            (stopped.store.resume fixtureEnvironment.digests
              fixtureEnvironment.size fixtureEnvironment.depth)
            fun resume =>
              resume.usable &&
                resume.checkpoint.any fun checkpoint =>
                  decide
                    (((recordsBeyond stopped.journals
                        checkpoint.consumedTo).map
                      fun record => (record.foldPosition, record.outcome)) =
                        [(2, .duplicate), (3, .accepted)]))
      (by decide +kernel)
  simp only [Bool.and_eq_true, decide_eq_true_eq] at rest
  obtain ⟨⟨attempts, rooted⟩, rest⟩ := rest
  obtain ⟨resume, resumes, rest⟩ := exists_of_yields _ _ rest
  rw [Bool.and_eq_true, Option.any_eq_true] at rest
  obtain ⟨usable, checkpoint, found, beyond⟩ := rest
  have records := of_decide_eq_true beyond
  have restarts :
      Restarts
        (restartOptions
          (runtime.run fixtureEnvironment retryAfterCheckpoint))
        (runtime.run fixtureEnvironment retryAfterCheckpoint) := by
    have boot : fixtureBootID ≠ "" := by decide
    refine ⟨rfl, rfl, boot, rfl, rfl, ?_, ?_⟩
    · exact Option.isSome_iff_ne_none.mp rooted
    · funext domain
      cases domain <;> rfl
  have only :
      OnlyFirstUnaccepted
        (recordsBeyond
          (runtime.run fixtureEnvironment retryAfterCheckpoint).journals
          checkpoint.consumedTo) := by
    have entry :
        ∀ record ∈
            recordsBeyond
              (runtime.run fixtureEnvironment retryAfterCheckpoint).journals
              checkpoint.consumedTo,
          record.foldPosition = 2 ∨
            record.foldPosition = 3 ∧ record.outcome = .accepted := by
      intro record member
      have listed := List.mem_map_of_mem
        (f := fun record : Record => (record.foldPosition, record.outcome))
        member
      rw [records] at listed
      simp only [List.mem_cons, Prod.mk.injEq, List.not_mem_nil,
        or_false] at listed
      exact listed.imp And.left id
    intro record member earlier before lower
    have own := entry record member
    have other := entry earlier before
    rcases own with first | second
    · omega
    · exact second.2
  have reproduces :=
    (restart_reproduces_iff fixtureEnvironment hostOrder fixtureOptions
      (restartOptions
        (runtime.run fixtureEnvironment retryAfterCheckpoint))
      runtime retryAfterCheckpoint resume checkpoint
      ⟨rfl, rfl, by rintro (_ | _) journal ⟨⟩ <;> rfl⟩ starts
      (by rw [attempts]; decide) restarts resumes usable found).mpr only
  refine ⟨runtime, resume, checkpoint, starts, resumes, found, ?_, reproduces⟩
  have outcomes := congrArg (List.map Prod.snd) records
  simpa [List.map_map, Function.comp_def] using outcomes

end Hexroute.Host
