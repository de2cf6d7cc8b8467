import Hexroute.Host.Restart

/-!
# No position is issued twice

A history of one host is calls of the runtime, restarts over what they left,
and losses of stored checkpoints.  Every position the acceptor hands out lies
above everything the journals hold, as long as each restart can read off the
journals how far the acceptor had come.
-/

namespace Hexroute.Host

open Hexroute.Connectivity
open Hexroute.Lib
open Hexroute.Accept (Screened State orderAll)
open Hexroute.Lineage (Checkpoint Store)

/-- One move of a history. -/
inductive Move where
  | call (step : Step)
  | restart (arrangement : Arrangement) (options : Options)
  | lose (store : Store)

/-- A host at one moment: its runtime, the store as the last start over found
it, and whether a journal write of the present process has failed. -/
structure World where
  runtime : Runtime
  inherited : Store
  failed : Bool

/-- The same options over what a process left. -/
def Options.upon (options : Options) (stopped : Runtime) : Options :=
  { options with
    enabled := true
    checkpoints := some stopped.store
    rootJournal := stopped.journals .root
    userJournal := stopped.journals .user }

theorem Options.upon_journals (options : Options) (stopped : Runtime) :
    (options.upon stopped).journals = stopped.journals := by
  funext domain
  cases domain <;> rfl

variable (environment : Environment)

/-- The checkpoint a restart would continue from. -/
def Runtime.resumable (runtime : Runtime) : Option Checkpoint :=
  match
    runtime.store.resume environment.digests environment.size
      environment.depth with
  | .error _ => none
  | .ok resume => Resume.chosen resume

/-- A restart that fails leaves a host that answers nothing. -/
def World.move (world : World) : Move → World
  | .call step =>
      { world with
        runtime := world.runtime.step environment step
        failed :=
          world.failed ||
            decide (false ∈ step.attempts environment world.runtime) }
  | .restart arrangement options =>
      match
        Runtime.new environment arrangement
          (options.upon world.runtime) with
      | .error _ =>
          { world with runtime := { world.runtime with enabled := false } }
      | .ok restarted =>
          { runtime := restarted
            inherited :=
              if (world.runtime.resumable environment).isSome then
                world.inherited
              else
                world.runtime.store
            failed := false }
  | .lose store =>
      { world with runtime := { world.runtime with store := store } }

/-- The newest records of the journals carry the highest host sequence. -/
def NewestCarryHighest (journals : Domain → Option Journal) : Prop :=
  ∀ domain, ∀ record ∈ heldBy journals domain,
    ∃ other journal newest,
      journals other = some journal ∧ journal.newest = some newest ∧
        record.hostSequence ≤ newest.hostSequence

/-- What each move has to meet. -/
def World.Allowed (world : World) : Move → Prop
  | .call step =>
      world.failed = true →
        true ∉ step.attempts environment world.runtime
  | .restart _ _ =>
      match world.runtime.resumable environment with
      | some checkpoint =>
          ¬world.inherited.Holds checkpoint ∧
            OnlyFirstUnaccepted
              (recordsBeyond world.runtime.journals checkpoint.consumedTo)
      | none => NewestCarryHighest world.runtime.journals
  | .lose store =>
      ∀ checkpoint,
        store.Holds checkpoint → world.runtime.store.Holds checkpoint

/-- Every move of a history meets its condition. -/
def World.AllAllowed (world : World) : List Move → Prop
  | [] => True
  | move :: rest =>
      world.Allowed environment move ∧
        (world.move environment move).AllAllowed rest

def World.history (world : World) (moves : List Move) : World :=
  moves.foldl (World.move environment) world

/-- Whatever is offered next, the positions it is given lie above everything
the journals hold. -/
def IssuesAbove (runtime : Runtime) : Prop :=
  ∀ fact domain acceptance next,
    Accept.accept environment.digest runtime.acceptor fact domain =
        .ok (acceptance, next) →
      ∀ holder, ∀ record ∈ heldBy runtime.journals holder,
        record.foldPosition < acceptance.foldPosition ∧
          (acceptance.hostSequence ≠ 0 →
            record.hostSequence < acceptance.hostSequence)

/-- The host is in the middle of an epoch. -/
def World.InEpoch (world : World) : Prop :=
  ∃ base all lost old,
    Epoch environment.digest base all lost old world.inherited
        world.runtime ∧
      (world.failed = false → lost = [])

variable {environment}

/-- Inside an epoch the acceptor stands above everything held. -/
theorem Epoch.issuesAbove
    {base : State} {all lost : List Screened} {old : Domain → List Record}
    {inherited : Store} {runtime : Runtime}
    (epoch :
      Epoch environment.digest base all lost old inherited runtime) :
    IssuesAbove environment runtime := by
  have highest :
      base.foldPosition + all.length ≤ runtime.acceptor.foldPosition ∧
        (orderAll base all).2.hostSequence ≤
          runtime.acceptor.hostSequence := by
    obtain ⟨state, same, stands⟩ := epoch.acceptor
    have sound : ∀ item ∈ lost, item.Sound := by
      obtain ⟨count, origin, folded, _, _, process⟩ := epoch.process
      exact fun item member =>
        (process.passes item (by simp [member])).sound
    rw [stands, orderAll_foldPosition state sound,
      orderAll_hostSequence state sound, same.foldPosition,
      same.hostSequence, orderAll_foldPosition base epoch.sound]
    omega
  have level :=
    orderAll_hostSequence base epoch.sound
  have bounds :
      ∀ holder, ∀ record ∈ heldBy runtime.journals holder,
        record.foldPosition ≤ runtime.acceptor.foldPosition ∧
          record.hostSequence ≤ runtime.acceptor.hostSequence := by
    intro holder record member
    unfold heldBy at member
    cases held : runtime.journals holder with
    | none =>
        simp [held] at member
    | some journal =>
        rw [held] at member
        simp only [epoch.records holder journal held] at member
        rcases List.mem_append.mp member with before | new
        · have low := epoch.below holder record before
          omega
        · obtain ⟨event, listed, rfl⟩ := List.mem_map.mp new
          have inside := List.mem_of_mem_filter listed
          have fold := (orderAll_fold_bounds epoch.sound inside).2
          have host := orderAll_host_le epoch.sound inside
          simp only [recordOf]
          omega
  intro fact domain acceptance next accepts holder record member
  have bound := bounds holder record member
  rcases accept_cases environment.digest runtime.acceptor fact domain with
    ⟨rejection, _, rejected⟩ | ⟨item, passes, _, _, _, ordered⟩
  · rw [rejected] at accepts
    exact absurd accepts (by simp)
  · rw [ordered] at accepts
    obtain rfl : _ = acceptance := congrArg Prod.fst (Except.ok.inj accepts)
    have counters :=
      Accept.order_spec runtime.acceptor item.digest item.role
        passes.sound.positive
    simp only at counters
    refine ⟨?_, ?_⟩
    · rw [counters.1]
      omega
    · intro given
      rw [counters.2.2.1] at given ⊢
      split at given
      · rename_i accepted
        rw [if_pos accepted]
        omega
      · exact absurd rfl given

namespace World.InEpoch

variable {world : World}

theorem call
    (inEpoch : world.InEpoch environment) (step : Step)
    (allowed : world.Allowed environment (.call step)) :
    (world.move environment (.call step)).InEpoch environment := by
  obtain ⟨base, all, lost, old, epoch, none⟩ := inEpoch
  cases step with
  | tick input id fires =>
      refine ⟨base, all, lost, old, epoch.tick input id fires, ?_⟩
      intro unfailed
      apply none
      simpa [World.move, Step.attempts] using unfailed
  | publish offers domain =>
      by_cases reached :
          world.runtime.enabled = true ∧ ∃ journal,
            world.runtime.journals domain = some journal
      · obtain ⟨enabled, journal, known⟩ := reached
        have inTime :
            lost ≠ [] →
              true ∉
                (Step.publish offers domain).attempts environment
                  world.runtime := by
          intro some
          apply allowed
          by_contra unfailed
          exact some (none (by simpa using unfailed))
        obtain ⟨written, missed, published, unmissed⟩ :=
          epoch.publish enabled known inTime
        refine
          ⟨base, all ++ written, lost ++ missed, old, published, ?_⟩
        intro unfailed
        simp only [World.move, Bool.or_eq_false_iff,
          decide_eq_false_iff_not] at unfailed
        rw [none unfailed.1, unmissed unfailed.2]
        rfl
      · obtain ⟨attempts, unchanged⟩ :=
          Runtime.publish_unreached environment world.runtime offers domain
            reached
        refine ⟨base, all, lost, old, ?_, ?_⟩
        · simp only [World.move, Runtime.step, unchanged]
          exact epoch
        · intro unfailed
          apply none
          simpa [World.move, attempts] using unfailed

/-- A loss takes checkpoints away and adds none. -/
theorem lose
    (inEpoch : world.InEpoch environment) (store : Store)
    (allowed : world.Allowed environment (.lose store)) :
    (world.move environment (.lose store)).InEpoch environment := by
  obtain ⟨base, all, lost, old, epoch, none⟩ := inEpoch
  refine ⟨base, all, lost, old, ?_, none⟩
  obtain ⟨count, origin, folded, bound, same, process⟩ := epoch.process
  exact
    { epoch with
      sealed := fun checkpoint holds =>
        epoch.sealed checkpoint (allowed checkpoint holds)
      process := ⟨count, origin, folded, bound, same, { process with }⟩ }

theorem restart
    (inEpoch : world.InEpoch environment) (arrangement : Arrangement)
    (options : Options)
    (allowed : world.Allowed environment (.restart arrangement options)) :
    (world.move environment (.restart arrangement options)).InEpoch
      environment := by
  obtain ⟨base, all, lost, old, epoch, none⟩ := inEpoch
  cases starts :
      Runtime.new environment arrangement (options.upon world.runtime) with
  | error error =>
      simp only [World.move, starts]
      refine ⟨base, all, lost, old, ?_, none⟩
      obtain ⟨count, origin, folded, bound, same, process⟩ := epoch.process
      exact
        { epoch with
          process :=
            ⟨count, origin, folded, bound, same, { process with }⟩ }
  | ok restarted =>
      have restarts :
          Restarts (options.upon world.runtime) world.runtime :=
        restarts_of_new rfl rfl (options.upon_journals world.runtime) starts
      obtain ⟨resume, resumes, started⟩ := new_cases restarts starts
      have resumable :
          world.runtime.resumable environment = Resume.chosen resume := by
        simp [Runtime.resumable, resumes]
      simp only [World.Allowed, resumable] at allowed
      cases chosen : Resume.chosen resume with
      | some checkpoint =>
          rw [chosen] at started allowed
          obtain ⟨origin, resumed⟩ := started
          have found : resume.checkpoint = some checkpoint := by
            have kept := Option.eq_some_of_filter_eq_some chosen
            exact kept
          obtain ⟨count, bound, sealed⟩ :=
            (epoch.sealed checkpoint
              (Lineage.holds_of_resume resumes found)).resolve_left
              allowed.1
          refine ⟨base, all, [], old, ?_, fun _ => rfl⟩
          simp only [World.move, starts, resumable, chosen,
            Option.isSome_some, if_true]
          exact epoch.resumed bound sealed allowed.2 resumed
      | none =>
          rw [chosen] at started allowed
          have again : StartedOver world.runtime restarted := started
          refine
            ⟨restarted.acceptor, [], [], heldBy world.runtime.journals, ?_,
              fun _ => rfl⟩
          simp only [World.move, starts, resumable, chosen,
            Option.isSome_none, Bool.false_eq_true, if_false]
          apply epoch_of_startedOver again
          · exact fun domain journal held => epoch.journal_rising held
          · intro domain record member
            obtain ⟨other, journal, newest, held, last, lower⟩ :=
              allowed domain record member
            exact lower.trans (newest_le_highestIssued held last).1

theorem history
    (inEpoch : world.InEpoch environment) (moves : List Move)
    (allowed : world.AllAllowed environment moves) :
    (world.history environment moves).InEpoch environment := by
  induction moves generalizing world with
  | nil =>
      exact inEpoch
  | cons move rest inductionHypothesis =>
      have moved : (world.move environment move).InEpoch environment := by
        cases move with
        | call step =>
            exact inEpoch.call step allowed.1
        | restart arrangement options =>
            exact inEpoch.restart arrangement options allowed.1
        | lose store =>
            exact inEpoch.lose store allowed.1
      exact inductionHypothesis moved allowed.2

end World.InEpoch

/-- A fact, and a retry of it, before any checkpoint. -/
def retryBeforeCheckpoint : List Move :=
  [.call (.publish [(fixtureBaseline .dns 1, true)] .root),
    .call (.publish [(fixtureBaseline .dns 1, true)] .root),
    .restart hostOrder fixtureOptions]

/-- A fact that is accepted, and a restart before any checkpoint. -/
def factBeforeCheckpoint : List Move :=
  [.call (.publish [(fixtureBaseline .dns 1, true)] .root),
    .restart hostOrder fixtureOptions]

end Hexroute.Host
