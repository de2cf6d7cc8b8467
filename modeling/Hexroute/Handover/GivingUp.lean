import Hexroute.Handover.Rules

/-!
# Giving the tunnel up

A release that relinquishes the tunnel is not to be undone: until a run begins
this runtime neither starts its tunnel nor places the claim.  Only the process
that releases knows that it relinquishes, so what takes the tunnel back after
a failure, or after a restart, is what can break this.
-/

namespace Hexroute.Handover

open Hexroute.Lib

/-- Nothing that was given up was taken again. -/
def Settled (facts : Facts) : Prop :=
  facts.undone = false

/-- Nothing was taken again, and whether the tunnel is given up is known. -/
def Quiet (given : Bool) (facts : Facts) : Prop :=
  Settled facts ∧ facts.givenUp = given

section GivingUp

variable {facts : Facts} {outside : Outside} {transaction : Transaction}
  {world : World} {session : Session} {outcome : Outcome} {reason : Reason}
  {given : Bool}

theorem Settled.quiet (settled : Settled facts) : Quiet facts.givenUp facts :=
  ⟨settled, rfl⟩

/-- What was not given up may be taken. -/
theorem Quiet.taken (quiet : Quiet false facts) :
    (facts.undone || facts.givenUp) = false := by
  rw [show facts.undone = false from quiet.1, quiet.2]
  rfl

theorem Quiet.started (quiet : Quiet false facts) (pid : Nat) :
    Quiet false (facts.started pid) :=
  ⟨quiet.taken, quiet.2⟩

theorem Quiet.placed (quiet : Quiet false facts) (session : Session) :
    Quiet false (facts.placed session) :=
  ⟨quiet.taken, quiet.2⟩

theorem Quiet.written
    (quiet : Quiet given facts) (session : Option Session) :
    Quiet given { facts with session := session } :=
  quiet

/-! ## Handing over -/

/-- Aborting a handover takes nothing. -/
theorem quiet_abortSession {pid : Nat} (quiet : Quiet given world.toFacts) :
    Holds (Quiet given)
      (abortSession outside transaction outcome session pid reason) world
      fun _ _ => True := by
  have stops :
      Holds (Quiet given) (stopStarted outside transaction pid reason) world
        fun _ _ => True := by
    unfold stopStarted
    split
    · refine
        holds_bind (holds_stopTunnel quiet quiet) fun answer after now _ => ?_
      cases answer with
      | none => exact holds_pure now trivial
      | some _ => exact holds_pure now trivial
    · exact holds_pure quiet trivial
  refine holds_bind stops fun _ stopped now _ => ?_
  refine
    holds_bind ((attempt_perform .releaseClaim _).holds now fun _ _ => now)
      fun _ freed freedNow _ => ?_
  exact
    holds_close freedNow (freedNow.written _) fun _ facts => facts.written none

theorem quiet_rehearse (quiet : Quiet given world.toFacts) :
    Holds (Quiet given) (rehearse outside transaction outcome session) world
      fun _ _ => True := by
  refine holds_bind (holds_prove quiet) fun proved after now _ => ?_
  exact holds_close now (now.written _) fun _ facts => facts.written none

theorem quiet_proveStarted {pid : Nat} (quiet : Quiet given world.toFacts) :
    Holds (Quiet given)
      (proveStarted outside transaction outcome session pid) world
      fun _ _ => True := by
  refine holds_bind (holds_prove quiet) fun proved after now _ => ?_
  dsimp only
  split
  · exact quiet_abortSession now
  · exact holds_close now (now.written _) fun _ facts => facts.written none

theorem quiet_startOwn (quiet : Quiet false world.toFacts) :
    Holds (Quiet false) (startOwn outside transaction outcome session) world
      fun _ _ => True := by
  refine
    holds_bind (holds_advance quiet (quiet.written _))
      fun reached after now facts => ?_
  obtain ⟨rfl, _⟩ := facts
  refine
    holds_bind (attempt_startTunnel.attempted now fun _ _ => now.started _)
      fun answer last lastNow _ => ?_
  cases answer with
  | none => exact quiet_abortSession lastNow
  | some pid => exact quiet_proveStarted lastNow

theorem quiet_handOver (quiet : Quiet false world.toFacts) :
    Holds (Quiet false) (handOver outside transaction outcome session) world
      fun _ _ => True := by
  refine
    holds_bind (holds_advance quiet (quiet.written _))
      fun reached after now facts => ?_
  obtain ⟨rfl, _⟩ := facts
  refine
    holds_bind ((attempt_place _).caught now fun _ _ => now.placed _)
      fun refused placed placedNow _ => ?_
  cases refused with
  | some error => exact quiet_abortSession placedNow
  | none =>
      refine
        holds_bind (attempt_possess.caught placedNow fun _ _ => placedNow)
          fun refused last lastNow _ => ?_
      cases refused with
      | some error => exact quiet_abortSession lastNow
      | none => exact quiet_startOwn lastNow

/-- A run that begins may take the tunnel, and a rehearsal takes nothing. -/
theorem settled_run
    {id : String} {rehearsal : Bool} (settled : Settled world.toFacts) :
    Holds Settled (run outside transaction id rehearsal) world
      fun _ _ => True := by
  refine holds_reject settled fun _ => ?_
  refine holds_reject settled fun _ => ?_
  refine holds_reject settled fun _ => ?_
  refine
    holds_bind (holds_beginSession settled fun _ => settled)
      fun session begun now facts => ?_
  obtain ⟨rfl, _, same⟩ := facts
  dsimp only
  split
  · exact (quiet_rehearse now.quiet).weaken fun _ quiet => quiet.1
  · rename_i real
    have taken : Quiet false begun.toFacts := by
      refine ⟨now, ?_⟩
      rw [same]
      change (world.givenUp && !(true && !rehearsal)) = false
      rw [Bool.eq_false_of_not_eq_true real]
      exact Bool.and_false _
    exact (quiet_handOver taken).weaken fun _ quiet => quiet.1

/-! ## Releasing without giving up -/

theorem quiet_keep (quiet : Quiet false world.toFacts) :
    Holds (Quiet false) (keep outside outcome session reason) world
      fun _ _ => True := by
  refine
    holds_bind (holds_ensureOwn quiet quiet.started) fun _ _ now _ => ?_
  exact holds_close now (now.written _) fun _ facts => facts.written none

theorem quiet_retaken (session : Session) :
    Retaken (Quiet false) session where
  written := fun _ _ _ quiet => quiet.written _
  placed := fun _ quiet => quiet.placed session
  started := fun _ quiet _ => quiet.started
  cleared := fun _ quiet => quiet.written none

theorem quiet_awaitOwner
    (quiet : Quiet given world.toFacts)
    (allowed : transaction.relinquish = true ∨ given = false) :
    Holds (Quiet given) (awaitOwner outside transaction outcome session) world
      fun _ _ => True := by
  refine
    holds_awaitOwner quiet (fun _ now => now.written _)
      (fun _ now => now.written none) fun returns => ?_
  obtain rfl : given = false := allowed.resolve_left returns
  exact quiet_retaken session

theorem quiet_giveBack
    (quiet : Quiet given world.toFacts)
    (allowed :
      (transaction.relinquish = true ∧
          ∀ time, outside.fate .releaseClaim time ≠ .fails) ∨
        given = false) :
    Holds (Quiet given) (giveBack outside transaction outcome session) world
      fun _ _ => True := by
  refine
    holds_bind (holds_advance quiet (quiet.written _))
      fun reached after now facts => ?_
  obtain ⟨rfl, _⟩ := facts
  rcases allowed with ⟨relinquish, willing⟩ | rfl
  · refine
      holds_bind
        ((attempt_willing _ (willing after.time)).caught now fun _ _ => now)
        fun refused last lastNow answered => ?_
    rcases answered with ⟨_, rfl, _⟩ | ⟨_, _, refuses, _⟩
    · exact quiet_awaitOwner lastNow (Or.inl relinquish)
    · exact refuses.elim
  · refine
      holds_bind
        ((attempt_perform .releaseClaim _).caught now fun _ _ => now)
        fun refused last lastNow _ => ?_
    cases refused with
    | none => exact quiet_awaitOwner lastNow (Or.inr rfl)
    | some error => exact holds_restore (quiet_retaken _) lastNow

/-! ## Giving up -/

/-- Looking for this runtime's tunnel does not fail, nor does giving the claim
back. -/
def Steadfast (outside : Outside) : Prop :=
  ∀ time,
    outside.fate .ownRunning time ≠ .fails ∧
      outside.fate .releaseClaim time ≠ .fails

theorem steadfast_ownRunning (steadfast : Steadfast outside) :
    Attempt (ownRunning outside) world
      (fun running => running = world.own.head?) (fun _ => False)
      world.toFacts := by
  refine
    Attempt.after_look (attempt_willing id (steadfast world.time).1)
      fun _ after _ same => ends_get_bind ?_
  exact ⟨congrArg (fun facts => facts.own.head?) same, same⟩

/-- The facts stay, and a failure leaves something running. -/
def StillRuns {α : Type}
    (settles : Facts → Prop) (answer : Except (Stop HandoverError) α)
    (after : World) : Prop :=
  settles after.toFacts ∧
    ∀ error, answer = .error (.failed error) → after.own ≠ []

/-- What comes after this runtime's tunnel was looked for knows what runs. -/
theorem ends_ownRunning_bind
    {α : Type} {continuation : Option Nat → Program α}
    (steadfast : Steadfast outside) (settled : Settled world.toFacts)
    (later :
      ∀ after : World, Settled after.toFacts →
        Ends (continuation after.own.head?) after (StillRuns Settled)) :
    Ends (ownRunning outside >>= continuation) world (StillRuns Settled) := by
  rw [ends_bind]
  refine
    Ends.mono (steadfast_ownRunning steadfast) fun answer after facts => ?_
  cases answer with
  | error stop =>
      cases stop with
      | failed error => exact facts.1.elim
      | crashed => exact ⟨facts ▸ settled, nofun⟩
      | exhausted => exact ⟨facts ▸ settled, nofun⟩
  | ok running =>
      obtain ⟨rfl, same⟩ := facts
      have unchanged : after.own = world.own := congrArg Facts.own same
      rw [← unchanged]
      exact later after (same ▸ settled)

/-- Waiting is given up only while something still runs. -/
theorem steadfast_waitUntilGone
    (steadfast : Steadfast outside) (settled : Settled world.toFacts)
    {rounds : Nat} (runs : 0 < rounds ∨ world.own ≠ []) :
    Ends (waitUntilGone outside (ownRunning outside) rounds) world
      (StillRuns Settled) := by
  induction rounds generalizing world with
  | zero =>
      refine ⟨settled, fun _ _ => ?_⟩
      exact runs.resolve_left (lt_irrefl 0)
  | succ rounds inductionHypothesis =>
      unfold waitUntilGone
      refine ends_ownRunning_bind steadfast settled fun after now => ?_
      cases running : after.own with
      | nil => exact ⟨now, nofun⟩
      | cons pid others =>
          have remains : after.own ≠ [] := running ▸ List.cons_ne_nil _ _
          refine ends_get_bind ?_
          unfold reject
          split
          · exact ⟨now, fun _ _ => remains⟩
          · exact inductionHypothesis now (Or.inr remains)

/-- Stopping this runtime's tunnel fails only while it still runs. -/
theorem steadfast_stopOwn
    (steadfast : Steadfast outside) (settled : Settled world.toFacts) :
    Ends (stopOwn outside transaction) world (StillRuns Settled) := by
  unfold stopOwn
  refine ends_ownRunning_bind steadfast settled fun after now => ?_
  cases running : after.own with
  | nil => exact ⟨now, nofun⟩
  | cons pid others =>
      dsimp only [List.head?_cons]
      rw [ends_bind]
      refine
        Ends.mono (attempt_perform .stopOwn _) fun answer stopped facts => ?_
      cases answer with
      | error stop =>
          cases stop with
          | failed error =>
              have same : stopped.own = after.own :=
                congrArg Facts.own facts.2
              refine ⟨facts.2 ▸ now, fun _ _ => ?_⟩
              rw [same, running]
              exact List.cons_ne_nil _ _
          | crashed => exact ⟨facts ▸ now, nofun⟩
          | exhausted => exact ⟨facts ▸ now, nofun⟩
      | ok _ =>
          refine
            steadfast_waitUntilGone steadfast ?_ (Or.inl (Nat.succ_pos _))
          rw [facts.2]
          exact now

/-- What still runs is seen running and not started again. -/
theorem steadfast_keep
    (steadfast : Steadfast outside) (settled : Settled world.toFacts)
    (runs : world.own ≠ []) :
    Holds Settled (keep outside outcome session reason) world
      fun _ _ => True := by
  have sees :
      Holds Settled (attempted (ownRunning outside)) world fun answer _ =>
        answer = some world.own.head? := by
    refine
      ends_attempted
        (Ends.mono (steadfast_ownRunning steadfast) fun answer after facts => ?_)
    have kept : after.toFacts = world.toFacts → Settled after.toFacts :=
      fun same => same ▸ settled
    cases answer with
    | ok running => exact ⟨kept facts.2, trivial, congrArg some facts.1⟩
    | error stop =>
        cases stop with
        | failed error => exact facts.1.elim
        | crashed => exact ⟨kept facts, trivial⟩
        | exhausted => exact ⟨kept facts, trivial⟩
  have ensures :
      Holds Settled (ensureOwn outside) world fun _ _ => True := by
    refine holds_bind sees fun answer seen now is => ?_
    cases head : world.own.head? with
    | none => exact absurd (List.head?_eq_none_iff.mp head) runs
    | some pid =>
        rw [is, head]
        exact holds_pure now trivial
  refine holds_bind ensures fun _ _ now _ => ?_
  exact holds_close now now fun _ facts => facts

/-- A release gives the tunnel up for good if looking for the tunnel and
giving the claim back do not fail. -/
theorem settled_release
    {id : String} (settled : Settled world.toFacts)
    (allowed :
      inFlight world.session ∨
        (transaction.relinquish = true ∧ Steadfast outside) ∨
          transaction.relinquish = false ∧ world.givenUp = false) :
    Holds Settled (release outside transaction id) world
      fun _ _ => True := by
  refine holds_reject settled fun _ => ?_
  refine holds_reject settled fun _ => ?_
  refine holds_reject settled fun _ => ?_
  refine holds_reject settled fun _ => ?_
  refine
    holds_bind (holds_beginSession settled fun _ => settled)
      fun session begun now facts => ?_
  obtain ⟨rfl, free, same⟩ := facts
  rcases allowed.resolve_left free with ⟨gives, steadfast⟩ | ⟨keeps, none⟩
  · refine
      holds_bind (holds_advance now now) fun _ stopping stoppingNow facts => ?_
    obtain ⟨rfl, _⟩ := facts
    have stops :
        Holds Settled (caught (stopOwn outside transaction)) stopping
          fun refused after => refused ≠ none → after.own ≠ [] := by
      refine
        ends_caught
          (Ends.mono (steadfast_stopOwn steadfast stoppingNow)
            fun answer after facts => ?_)
      cases answer with
      | ok _ => exact ⟨facts.1, trivial, fun some => absurd rfl some⟩
      | error stop =>
          cases stop with
          | failed error =>
              exact ⟨facts.1, trivial, fun _ => facts.2 error rfl⟩
          | crashed => exact ⟨facts.1, trivial⟩
          | exhausted => exact ⟨facts.1, trivial⟩
    refine holds_bind stops fun refused stopped stoppedNow remains => ?_
    cases refused with
    | some error => exact steadfast_keep steadfast stoppedNow (remains nofun)
    | none =>
        exact
          (quiet_giveBack stoppedNow.quiet
              (Or.inl ⟨gives, fun time => (steadfast time).2⟩)).weaken
            fun _ quiet => quiet.1
  · have quiet : Quiet false begun.toFacts := by
      refine ⟨now, ?_⟩
      rw [same]
      change (world.givenUp && _) = false
      rw [none]
      rfl
    refine Holds.weaken ?_ fun _ (quiet : Quiet false _) => quiet.1
    refine
      holds_bind (holds_advance quiet (quiet.written _))
        fun _ stopping stoppingNow facts => ?_
    obtain ⟨rfl, _⟩ := facts
    have unyielded :
        (stopping.givenUp || transaction.relinquish) = false := by
      rw [stoppingNow.2, keeps]
      rfl
    have stops :=
      @holds_stopOwn (Quiet false) outside stopping transaction stoppingNow
        ⟨stoppingNow.1, unyielded⟩ fun _ => ⟨stoppingNow.1, unyielded⟩
    refine
      holds_bind (stops.caught fun _ now => now)
        fun refused stopped stoppedNow _ => ?_
    cases refused with
    | some error => exact quiet_keep stoppedNow
    | none => exact quiet_giveBack stoppedNow (Or.inr rfl)

/-! ## Aborting -/

theorem settled_abort
    (settled : Settled world.toFacts)
    (allowed :
      ∀ session, world.session = some session → session.kind = .release →
        session.phase ≠ .prepared → world.givenUp = false) :
    Holds Settled (abort outside transaction) world fun _ _ => True := by
  refine
    holds_bind (holds_readSession settled) fun found seen now facts => ?_
  obtain ⟨rfl, same⟩ := facts
  have given : seen.givenUp = world.givenUp := congrArg Facts.givenUp same
  cases is : world.session with
  | none => exact holds_pure now trivial
  | some session =>
      dsimp only
      cases kind : session.kind with
      | handover =>
          exact
            Safely.map
              ((quiet_abortSession now.quiet).weaken fun _ quiet => quiet.1)
      | release =>
          refine Safely.map (holds_reject now fun _ => ?_)
          have quiet (past : session.phase ≠ .prepared) :
              Quiet false seen.toFacts :=
            ⟨now, given.trans (allowed session is kind past)⟩
          dsimp only
          split
          · refine
              holds_bind (holds_clear now now) fun _ _ clearedNow _ => ?_
            exact holds_pure clearedNow trivial
          · rename_i phase
            exact
              (quiet_keep (quiet (by rw [phase]; nofun))).weaken
                fun _ quiet => quiet.1
          · rename_i past _
            exact
              (holds_restore (quiet_retaken _) (quiet past)).weaken
                fun _ quiet => quiet.1

end GivingUp

/-! ## Every history -/

/-- A release that gives the tunnel up finds what runs and gives the claim
back without a failure.  After it, until a run begins, no other release is
made, and no abort of a release that got further than being recorded.  A
release that finds another session in flight is refused. -/
def GivesUpCleanly (world : World) : Step → Prop
  | .release outside transaction _ =>
      inFlight world.session ∨
        (transaction.relinquish = true ∧ Steadfast outside) ∨
          transaction.relinquish = false ∧ world.givenUp = false
  | .abort _ _ =>
      ∀ session, world.session = some session → session.kind = .release →
        session.phase ≠ .prepared → world.givenUp = false
  | _ => True

theorem settled_next
    {world : World} {step : Step} (settled : Settled world.toFacts)
    (cleanly : GivesUpCleanly world step) :
    Settled (world.next step).toFacts := by
  cases step with
  | run outside transaction id rehearsal => exact (settled_run settled).left
  | release outside transaction id =>
      exact (settled_release settled cleanly).left
  | abort outside transaction => exact (settled_abort settled cleanly).left
  | othersPlace transaction => exact settled
  | ownDies pid => exact settled
  | ownerStarts pid =>
      rw [facts_ownerStarts]
      exact settled
  | ownerDies pid => exact settled

/-- The claim file cannot be removed. -/
def Outside.keepsClaim : Outside :=
  { Outside.smooth with
    fate := fun operation _ =>
      if operation = .releaseClaim then .fails else .done }

end Hexroute.Handover
