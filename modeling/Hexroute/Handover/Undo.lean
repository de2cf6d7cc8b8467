import Hexroute.Handover.Rules

/-!
# What an abort removes

Aborting a transaction removes whatever claim is there.  That it is the claim
the transaction placed follows from what was there when the transaction began:
no claim, and nobody else who places one while it is in flight.
-/

namespace Hexroute.Handover

open Hexroute.Lib

/-- The claim, if there is one, was placed by a transaction that places
claims. -/
def Placed (session : Session) (claim : Option Claim) : Prop :=
  ∀ present, claim = some present →
    present.placer = some session.serial ∧ session.rehearsal = false

/-- Every claim an abort removed was placed by the transaction it aborted, and
a handover on disk that is no rehearsal placed the claim there is. -/
structure Undoing (facts : Facts) : Prop where
  removed :
    ∀ removal ∈ facts.removals,
      removal.placer = some removal.aborted ∧ removal.rehearsal = false
  placed :
    ∀ session, facts.session = some session → session.kind = .handover →
      session.rehearsal = false → Placed session facts.claim

section Undoing

variable {facts : Facts} {outside : Outside} {transaction : Transaction}
  {world : World} {session : Session} {outcome : Outcome}

theorem placed_none : Placed session none := nofun

theorem Undoing.written
    (undoing : Undoing facts)
    (safe :
      session.kind = .handover → session.rehearsal = false →
        Placed session facts.claim) :
    Undoing { facts with session := some session } where
  removed := undoing.removed
  placed := by
    rintro _ ⟨⟩ is real
    exact safe is real

theorem Undoing.advanced
    (undoing : Undoing facts) (placed : Placed session facts.claim)
    (phase : Phase) :
    Undoing { facts with session := some { session with phase := phase } } :=
  undoing.written fun _ _ => placed

theorem Undoing.cleared (undoing : Undoing facts) :
    Undoing { facts with session := none } where
  removed := undoing.removed
  placed := nofun

theorem Undoing.started (undoing : Undoing facts) (pid : Nat) :
    Undoing (facts.started pid) where
  removed := undoing.removed
  placed := undoing.placed

theorem Undoing.stopped (undoing : Undoing facts) (pid : Nat) :
    Undoing { facts with own := facts.own.filter (· ≠ pid) } where
  removed := undoing.removed
  placed := undoing.placed

theorem Undoing.unclaimed (undoing : Undoing facts) :
    Undoing { facts with claim := none } where
  removed := undoing.removed
  placed := fun _ _ _ _ => placed_none

/-! ## Aborting a handover -/

theorem undoing_stopStarted
    {pid : Nat} {reason : Reason} (undoing : Undoing world.toFacts) :
    Holds Undoing (stopStarted outside transaction pid reason) world
      fun _ after => after.claim = world.claim := by
  unfold stopStarted
  split
  · refine
      holds_bind (holds_stopTunnel undoing (undoing.stopped pid))
        fun answer after now same => ?_
    have claim : after.claim = world.claim := by rw [same]
    cases answer with
    | none => exact holds_pure now claim
    | some _ => exact holds_pure now claim
  · exact holds_pure undoing rfl

theorem undoing_abortSession
    {pid : Nat} {reason : Reason} (undoing : Undoing world.toFacts)
    (placed : Placed session world.claim) :
    Holds Undoing (abortSession outside transaction outcome session pid reason)
      world fun _ _ => True := by
  refine
    holds_bind (undoing_stopStarted undoing) fun _ stopped now claim => ?_
  have released :
      Undoing
        { stopped.toFacts with
          claim := none
          removals := removal session stopped.claim ++ stopped.removals } := by
    refine ⟨?_, fun _ _ _ _ => placed_none⟩
    intro removed member
    rcases List.mem_append.mp member with new | old
    · obtain ⟨present, is, rfl⟩ := List.mem_map.mp new
      rw [claim, Option.mem_toList] at is
      exact placed present is
    · exact now.removed removed old
  refine
    holds_bind
      ((attempt_perform .releaseClaim _).holds now fun _ _ => released)
      fun _ freed freedNow facts => ?_
  have none : freed.claim = none := by rw [facts.2]
  exact
    holds_close freedNow
      (freedNow.advanced (none ▸ placed_none) .aborted)
      fun _ => Undoing.cleared

/-! ## Handing over -/

/-- A rehearsal places and removes nothing. -/
theorem undoing_rehearse
    (undoing : Undoing world.toFacts) (rehearsal : session.rehearsal = true) :
    Holds Undoing (rehearse outside transaction outcome session) world
      fun _ _ => True := by
  refine holds_bind (holds_prove undoing) fun proved after now _ => ?_
  refine holds_close now (now.written fun _ real => ?_) fun _ => Undoing.cleared
  rw [show session.rehearsal = false from real] at rehearsal
  cases rehearsal

theorem undoing_proveStarted
    {pid : Nat} (undoing : Undoing world.toFacts)
    (placed : Placed session world.claim) :
    Holds Undoing (proveStarted outside transaction outcome session pid) world
      fun _ _ => True := by
  refine holds_bind (holds_prove undoing) fun proved after now same => ?_
  rw [← show after.claim = world.claim from congrArg Facts.claim same]
    at placed
  dsimp only
  split
  · exact undoing_abortSession now placed
  · exact
      holds_close now (now.advanced placed .proven) fun _ => Undoing.cleared

theorem undoing_startOwn
    (undoing : Undoing world.toFacts)
    (placed : Placed session world.claim) :
    Holds Undoing (startOwn outside transaction outcome session) world
      fun _ _ => True := by
  refine
    holds_bind (holds_advance undoing (undoing.advanced placed .started))
      fun reached after now facts => ?_
  obtain ⟨rfl, same⟩ := facts
  rw [← show after.claim = world.claim by rw [same]] at placed
  refine
    holds_bind
      (attempt_startTunnel.attempted now fun _ _ => now.started _)
      fun answer last lastNow started => ?_
  rcases started with ⟨pid, rfl, _, sameStarted⟩ | ⟨rfl, sameStarted⟩
  · refine undoing_proveStarted lastNow ?_
    rw [sameStarted]
    exact placed
  · refine undoing_abortSession lastNow ?_
    rw [sameStarted]
    exact placed

/-- A handover that begins without a claim removes only its own. -/
theorem undoing_handOver
    (undoing : Undoing world.toFacts) (free : world.claim = none)
    (real : session.rehearsal = false) :
    Holds Undoing (handOver outside transaction outcome session) world
      fun _ _ => True := by
  have placed : Placed session world.claim := free ▸ placed_none
  refine
    holds_bind (holds_advance undoing (undoing.advanced placed .claimed))
      fun reached after now facts => ?_
  obtain ⟨rfl, same⟩ := facts
  rw [← show after.claim = world.claim by rw [same]] at placed
  have stored :
      after.session = some { session with phase := .claimed } := by
    rw [same]
  have claims :
      Undoing (after.toFacts.placed { session with phase := .claimed }) := by
    refine ⟨now.removed, ?_⟩
    intro other is _ _
    rw [show other = _ from Option.some.inj (is.symm.trans stored)]
    rintro _ ⟨⟩
    exact ⟨rfl, real⟩
  refine
    holds_bind ((attempt_place _).caught now fun _ _ => claims)
      fun answer attempted attemptedNow answered => ?_
  rcases answered with ⟨_, rfl, _, done⟩ | ⟨error, rfl, _, kept⟩
  · have mine : Placed session attempted.claim := by
      rw [done]
      rintro _ ⟨⟩
      exact ⟨rfl, real⟩
    refine
      holds_bind (attempt_possess.caught attemptedNow fun _ _ => attemptedNow)
        fun answer last lastNow answered => ?_
    have kept : last.toFacts = attempted.toFacts := by
      rcases answered with ⟨_, _, _, same⟩ | ⟨_, _, _, same⟩ <;> exact same
    rw [← show last.claim = attempted.claim by rw [kept]] at mine
    cases answer with
    | none => exact undoing_startOwn lastNow mine
    | some error => exact undoing_abortSession lastNow mine
  · refine undoing_abortSession attemptedNow ?_
    rw [kept]
    exact placed

theorem undoing_run
    {id : String} {rehearsal : Bool} (undoing : Undoing world.toFacts)
    (free :
      rehearsal = false → inFlight world.session ∨ world.claim = none) :
    Holds Undoing (run outside transaction id rehearsal) world
      fun _ _ => True := by
  refine holds_reject undoing fun _ => ?_
  refine holds_reject undoing fun _ => ?_
  refine holds_reject undoing fun _ => ?_
  refine
    holds_bind (holds_beginSession undoing fun begins => ?_)
      fun session begun now facts => ?_
  · refine ⟨undoing.removed, ?_⟩
    rintro _ ⟨⟩ _ real
    rw [show world.claim = none from (free real).resolve_left begins]
    exact placed_none
  obtain ⟨rfl, begins, same⟩ := facts
  dsimp only
  split
  · rename_i rehearses
    exact undoing_rehearse now rehearses
  · rename_i real
    rw [Bool.not_eq_true] at real
    refine undoing_handOver now ?_ real
    rw [same]
    exact (free real).resolve_left begins

/-! ## Releasing -/

/-- The session on disk is a release's. -/
def Releasing (facts : Facts) : Prop :=
  Undoing facts ∧
    ∀ session, facts.session = some session → session.kind = .release

theorem Releasing.written
    (releasing : Releasing facts) (mine : session.kind = .release)
    (phase : Phase) :
    Releasing
      { facts with session := some { session with phase := phase } } := by
  constructor
  · refine releasing.1.written fun other => ?_
    rw [show session.kind = .handover from other] at mine
    cases mine
  · rintro _ ⟨⟩
    exact mine

theorem Releasing.cleared (releasing : Releasing facts) :
    Releasing { facts with session := none } :=
  ⟨releasing.1.cleared, nofun⟩

theorem Releasing.started (releasing : Releasing facts) (pid : Nat) :
    Releasing (facts.started pid) :=
  ⟨releasing.1.started pid, releasing.2⟩

theorem Releasing.placed (releasing : Releasing facts) (session : Session) :
    Releasing (facts.placed session) := by
  refine ⟨⟨releasing.1.removed, ?_⟩, releasing.2⟩
  intro other is handover
  rw [releasing.2 other is] at handover
  cases handover

theorem releasing_keep
    {reason : Reason} (releasing : Releasing world.toFacts)
    (mine : session.kind = .release) :
    Holds Releasing (keep outside outcome session reason) world
      fun _ _ => True := by
  refine
    holds_bind (holds_ensureOwn releasing releasing.started)
      fun _ _ now _ => ?_
  exact holds_close now (now.written mine .aborted) fun _ => Releasing.cleared

theorem releasing_retaken (mine : session.kind = .release) :
    Retaken Releasing session where
  written := fun _ phase _ releasing => releasing.written mine phase
  placed := fun _ releasing => releasing.placed session
  started := fun _ releasing _ => releasing.started
  cleared := fun _ releasing => releasing.cleared

theorem releasing_awaitOwner
    (releasing : Releasing world.toFacts) (mine : session.kind = .release) :
    Holds Releasing (awaitOwner outside transaction outcome session) world
      fun _ _ => True :=
  holds_awaitOwner releasing (fun _ now => now.written mine .proven)
    (fun _ now => now.cleared) fun _ => releasing_retaken mine

theorem releasing_giveBack
    (releasing : Releasing world.toFacts) (mine : session.kind = .release) :
    Holds Releasing (giveBack outside transaction outcome session) world
      fun _ _ => True := by
  refine
    holds_bind (holds_advance releasing (releasing.written mine .released))
      fun _ advanced now facts => ?_
  obtain ⟨rfl, _⟩ := facts
  refine
    holds_bind
      ((attempt_perform .releaseClaim _).caught now fun _ _ =>
        ⟨now.1.unclaimed, now.2⟩)
      fun answer after afterNow _ => ?_
  cases answer with
  | none => exact releasing_awaitOwner afterNow mine
  | some error => exact holds_restore (releasing_retaken mine) afterNow

theorem undoing_release
    {id : String} (undoing : Undoing world.toFacts) :
    Holds Undoing (release outside transaction id) world fun _ _ => True := by
  refine holds_reject undoing fun _ => ?_
  refine holds_reject undoing fun _ => ?_
  refine holds_reject undoing fun _ => ?_
  refine holds_reject undoing fun _ => ?_
  refine
    holds_bind (holds_beginSession undoing fun _ => ?_)
      fun session begun now facts => ?_
  · refine ⟨undoing.removed, ?_⟩
    rintro _ ⟨⟩ handover
    cases handover
  obtain ⟨rfl, _, same⟩ := facts
  have releasing : Releasing begun.toFacts := by
    refine ⟨now, ?_⟩
    rw [same]
    rintro _ ⟨⟩
    rfl
  refine Holds.weaken ?_ fun _ (now : Releasing _) => now.1
  refine
    holds_bind (holds_advance releasing (releasing.written rfl .stopping))
      fun _ stopping stoppingNow facts => ?_
  obtain ⟨rfl, _⟩ := facts
  have stops :=
    @holds_stopOwn Releasing outside stopping transaction stoppingNow
      ⟨⟨stoppingNow.1.removed, stoppingNow.1.placed⟩, stoppingNow.2⟩
      fun _ => ⟨⟨stoppingNow.1.removed, stoppingNow.1.placed⟩, stoppingNow.2⟩
  refine
    holds_bind (stops.caught fun _ now => now)
      fun refused stopped stoppedNow _ => ?_
  cases refused with
  | some error => exact releasing_keep stoppedNow rfl
  | none => exact releasing_giveBack stoppedNow rfl

/-! ## Aborting -/

theorem releasing_abortRelease
    (releasing : Releasing world.toFacts) (mine : session.kind = .release) :
    Holds Releasing (abortRelease outside transaction outcome session) world
      fun _ _ => True := by
  refine holds_reject releasing fun _ => ?_
  dsimp only
  split
  · refine
      holds_bind (holds_clear releasing releasing.cleared)
        fun _ _ clearedNow _ => ?_
    exact holds_pure clearedNow trivial
  · exact releasing_keep releasing mine
  · exact holds_restore (releasing_retaken mine) releasing

/-- An abort of a rehearsal is harmless while there is no claim. -/
theorem undoing_abort
    (undoing : Undoing world.toFacts)
    (free :
      ∀ session, world.session = some session → session.kind = .handover →
        session.rehearsal = true → world.claim = none) :
    Holds Undoing (abort outside transaction) world fun _ _ => True := by
  refine
    holds_bind (holds_readSession undoing) fun found seen now facts => ?_
  obtain ⟨rfl, same⟩ := facts
  have claim : seen.claim = world.claim := congrArg Facts.claim same
  have stored : seen.session = world.session := congrArg Facts.session same
  cases is : world.session with
  | none => exact holds_pure now trivial
  | some session =>
      dsimp only
      cases kind : session.kind with
      | release =>
          have releasing : Releasing seen.toFacts := by
            refine ⟨now, ?_⟩
            intro other found
            rw [show other = session from
              Option.some.inj (found.symm.trans (stored.trans is))]
            exact kind
          exact
            Safely.map
              ((releasing_abortRelease releasing kind).weaken fun _ now =>
                now.1)
      | handover =>
          refine Safely.map (undoing_abortSession now ?_)
          rw [claim]
          cases mode : session.rehearsal with
          | true =>
              rw [free session is kind mode]
              exact placed_none
          | false => exact undoing.placed session is kind mode

end Undoing

/-! ## Every history -/

/-- A run that is no rehearsal is made without a claim, a rehearsal is aborted
without a claim, and nobody else places a claim beside a handover that is on
disk.  A run that finds another session in flight is refused. -/
def ClaimsAlone (world : World) : Step → Prop
  | .run _ _ _ rehearsal =>
      rehearsal = false → inFlight world.session ∨ world.claim = none
  | .abort _ _ =>
      ∀ session, world.session = some session → session.kind = .handover →
        session.rehearsal = true → world.claim = none
  | .othersPlace _ =>
      ∀ session, world.session = some session → session.kind = .handover →
        world.claim ≠ none
  | _ => True

theorem undoing_othersPlace
    {world : World} {transaction : String} (undoing : Undoing world.toFacts)
    (alone : ClaimsAlone world (.othersPlace transaction)) :
    Undoing (world.next (.othersPlace transaction)).toFacts := by
  refine ⟨undoing.removed, ?_⟩
  intro session is handover real present found
  obtain ⟨claim, there⟩ :=
    Option.ne_none_iff_exists'.mp (alone session is handover)
  rw [show (world.next (.othersPlace transaction)).claim = some claim by
    change some (world.claim.getD _) = _
    rw [there]
    rfl] at found
  exact undoing.placed session is handover real present (there.trans found)

theorem undoing_next
    {world : World} {step : Step} (undoing : Undoing world.toFacts)
    (alone : ClaimsAlone world step) :
    Undoing (world.next step).toFacts := by
  cases step with
  | run outside transaction id rehearsal =>
      exact (undoing_run undoing alone).left
  | release outside transaction id => exact (undoing_release undoing).left
  | abort outside transaction => exact (undoing_abort undoing alone).left
  | othersPlace transaction => exact undoing_othersPlace undoing alone
  | ownDies pid => exact undoing.stopped pid
  | ownerStarts pid =>
      rw [facts_ownerStarts]
      exact undoing
  | ownerDies pid => exact undoing

/-- In every history in which a transaction is alone in claiming, an abort
removes only a claim its own transaction placed, and a rehearsal none. -/
theorem abort_removes_own_claim
    {world : World} (reached : Reached ClaimsAlone world) :
    ∀ removal ∈ world.removals,
      removal.placer = some removal.aborted ∧ removal.rehearsal = false := by
  have undoing : Undoing world.toFacts := by
    induction reached with
    | fresh => exact ⟨fun _ member => absurd member List.not_mem_nil, nofun⟩
    | next _ met inductionHypothesis =>
        exact undoing_next inductionHypothesis met
  exact undoing.removed

/-- No traffic traverses the tunnel. -/
def Outside.unproved : Outside :=
  { Outside.smooth with traversed := fun _ => false }

/-- A handover that is not proved removes the claim it placed. -/
theorem unproved_handover_removes_its_claim :
    Reached ClaimsAlone
        (World.fresh.after [.run .unproved (.sample false) "first" false]) ∧
      (World.fresh.after
          [.run .unproved (.sample false) "first" false]).removals =
        [⟨some 0, 0, false⟩] ∧
      ∀ removal ∈
          (World.fresh.after
            [.run .unproved (.sample false) "first" false]).removals,
        removal.placer = some removal.aborted ∧ removal.rehearsal = false := by
  have reached :
      Reached ClaimsAlone
        (World.fresh.after [.run .unproved (.sample false) "first" false]) :=
    reached_after .fresh ⟨fun _ => Or.inr rfl, trivial⟩
  exact ⟨reached, by decide +kernel, abort_removes_own_claim reached⟩

/-- A run that is refused the claim of another holder removes it. -/
theorem refused_run_removes_others_claim :
    Reached (fun _ _ => True)
        (World.fresh.after
          [.othersPlace "other", .run .smooth (.sample false) "first" false]) ∧
      (World.fresh.after
          [.othersPlace "other",
            .run .smooth (.sample false) "first" false]).removals =
        [⟨none, 0, false⟩] := by
  refine ⟨reached_after .fresh ⟨trivial, trivial, trivial⟩, ?_⟩
  decide +kernel

end Hexroute.Handover
