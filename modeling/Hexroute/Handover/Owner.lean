import Hexroute.Handover.Rules

/-!
# One owner of the tunnel

This runtime's own tunnel runs only while the claim is there.  A start is made
under the claim, and the claim is given back after what runs was stopped, if
what runs is known: a run that is interrupted after the start leaves a session
that does not know it.
-/

namespace Hexroute.Handover

open Hexroute.Lib

/-- No tunnel of this runtime runs without the claim, and a release that stops
it has the claim. -/
structure Owned (facts : Facts) : Prop where
  claimed : facts.own ≠ [] → facts.claim ≠ none
  stopping :
    ∀ session, facts.session = some session → session.kind = .release →
      session.phase = .stopping → facts.claim ≠ none

section Owned

variable {facts : Facts} {outside : Outside} {transaction : Transaction}
  {world : World} {session : Session} {outcome : Outcome}

theorem Owned.written
    (owned : Owned facts)
    (safe :
      session.kind = .release → session.phase = .stopping →
        facts.claim ≠ none) :
    Owned { facts with session := some session } where
  claimed := owned.claimed
  stopping := by
    rintro _ ⟨⟩ is stops
    exact safe is stops

/-- A handover's session says nothing about a release. -/
theorem Owned.handover
    (owned : Owned facts) (mine : session.kind = .handover) (phase : Phase) :
    Owned { facts with session := some { session with phase := phase } } := by
  refine owned.written fun release => ?_
  rw [show session.kind = .release from release] at mine
  cases mine

theorem Owned.cleared (owned : Owned facts) :
    Owned { facts with session := none } where
  claimed := owned.claimed
  stopping := nofun

theorem owned_placed (session : Session) : Owned (facts.placed session) where
  claimed := fun _ => nofun
  stopping := fun _ _ _ _ => nofun

theorem Owned.started
    (owned : Owned facts) (claim : facts.claim ≠ none) (pid : Nat) :
    Owned (facts.started pid) where
  claimed := fun _ => claim
  stopping := owned.stopping

theorem Owned.stopped (owned : Owned facts) (pid : Nat) :
    Owned { facts with own := facts.own.filter (· ≠ pid) } where
  claimed := by
    intro some
    refine owned.claimed fun none => some ?_
    change facts.own.filter _ = []
    rw [none]
    rfl
  stopping := owned.stopping

/-! ## Aborting a handover -/

/-- Everything that runs is the process that would be stopped. -/
def Stoppable (transaction : Transaction) (own : List Nat) (pid : Nat) : Prop :=
  ∀ other ∈ own, other = pid ∧ 0 < pid ∧ transaction.hasTunnel = true

theorem owned_stopStarted
    {pid : Nat} {reason : Reason} (owned : Owned world.toFacts)
    (stoppable : Stoppable transaction world.own pid) :
    Holds Owned (stopStarted outside transaction pid reason) world
      fun _ after => after.toFacts = { world.toFacts with own := [] } := by
  have emptied :
      (0 < pid ∧ transaction.hasTunnel = true →
        world.own.filter (· ≠ pid) = []) ∧
        (¬ (0 < pid ∧ transaction.hasTunnel = true) → world.own = []) := by
    constructor
    · intro _
      rw [List.filter_eq_nil_iff]
      intro other member
      simpa using (stoppable other member).1
    · intro unable
      rw [List.eq_nil_iff_forall_not_mem]
      intro other member
      exact unable (stoppable other member).2
  unfold stopStarted
  split
  · rename_i able
    refine
      holds_bind (holds_stopTunnel owned (owned.stopped pid))
        fun answer after now same => ?_
    rw [emptied.1 able] at same
    cases answer with
    | none => exact holds_pure now same
    | some _ => exact holds_pure now same
  · rename_i unable
    refine holds_pure owned ?_
    rw [← emptied.2 unable]

/-- A handover is aborted safely if it knows everything that runs. -/
theorem owned_abortSession
    {pid : Nat} {reason : Reason} (owned : Owned world.toFacts)
    (stoppable : Stoppable transaction world.own pid)
    (handover :
      ∀ stored, world.session = some stored → stored.kind = .handover)
    (mine : session.kind = .handover) :
    Holds Owned (abortSession outside transaction outcome session pid reason)
      world fun _ _ => True := by
  refine
    holds_bind (owned_stopStarted owned stoppable)
      fun _ stopped now same => ?_
  have released :
      Owned
        { stopped.toFacts with
          claim := none
          removals := removal session stopped.claim ++ stopped.removals } := by
    rw [same]
    refine ⟨fun some => absurd rfl some, ?_⟩
    intro stored is release
    rw [handover stored is] at release
    cases release
  refine
    holds_bind
      ((attempt_perform .releaseClaim _).holds now fun _ _ => released)
      fun _ freed freedNow _ => ?_
  exact
    holds_close freedNow (freedNow.handover mine .aborted)
      fun _ => Owned.cleared

/-! ## Handing over -/

/-- The session on disk is a handover's. -/
def Handing (world : World) : Prop :=
  ∀ stored, world.session = some stored → stored.kind = .handover

theorem owned_rehearse
    (owned : Owned world.toFacts) (mine : session.kind = .handover) :
    Holds Owned (rehearse outside transaction outcome session) world
      fun _ _ => True := by
  refine holds_bind (holds_prove owned) fun proved after now _ => ?_
  exact
    holds_close now (now.handover mine _)
      fun _ => Owned.cleared

theorem owned_proveStarted
    {pid : Nat} (owned : Owned world.toFacts)
    (stoppable : Stoppable transaction world.own pid)
    (handing : Handing world) (mine : session.kind = .handover) :
    Holds Owned (proveStarted outside transaction outcome session pid) world
      fun _ _ => True := by
  refine holds_bind (holds_prove owned) fun proved after now same => ?_
  dsimp only
  split
  · refine owned_abortSession now ?_ ?_ mine
    · rw [show after.own = world.own from congrArg Facts.own same]
      exact stoppable
    · intro stored is
      rw [show after.session = world.session from
        congrArg Facts.session same] at is
      exact handing stored is
  · exact
      holds_close now (now.handover mine .proven)
        fun _ => Owned.cleared

/-- The tunnel is started under the claim while none of this runtime's
runs. -/
theorem owned_startOwn
    (owned : Owned world.toFacts) (nothing : world.own = [])
    (claimed : world.claim ≠ none) (mine : session.kind = .handover)
    (able : transaction.hasTunnel = true) :
    Holds Owned (startOwn outside transaction outcome session) world
      fun _ _ => True := by
  refine
    holds_bind (holds_advance owned (owned.handover mine .started))
      fun reached after now facts => ?_
  obtain ⟨rfl, same⟩ := facts
  have own : after.own = world.own := by rw [same]
  have claim : after.claim = world.claim := by rw [same]
  have handing : ∀ last : World, last.session = after.session →
      Handing last := by
    intro last session stored is
    rw [session, show after.session = _ from congrArg Facts.session same] at is
    cases is
    exact mine
  rw [← claim] at claimed
  refine
    holds_bind
      (attempt_startTunnel.attempted now fun _ _ => now.started claimed _)
      fun answer last lastNow started => ?_
  rcases started with ⟨pid, rfl, is, sameStarted⟩ | ⟨rfl, sameStarted⟩
  · refine
      owned_proveStarted lastNow ?_
        (handing last (by rw [sameStarted]; rfl)) mine
    intro other member
    rw [show last.own = _ from congrArg Facts.own sameStarted] at member
    change other ∈ _ :: after.own at member
    rw [own, nothing, List.mem_singleton] at member
    refine ⟨member.trans is.symm, ?_, able⟩
    omega
  · refine
      owned_abortSession lastNow ?_
        (handing last (congrArg Facts.session sameStarted)) mine
    intro other member
    rw [show last.own = after.own from congrArg Facts.own sameStarted, own,
      nothing] at member
    exact absurd member List.not_mem_nil

theorem owned_handOver
    (owned : Owned world.toFacts) (nothing : world.own = [])
    (mine : session.kind = .handover)
    (able : transaction.hasTunnel = true) :
    Holds Owned (handOver outside transaction outcome session) world
      fun _ _ => True := by
  refine
    holds_bind (holds_advance owned (owned.handover mine .claimed))
      fun reached after now facts => ?_
  obtain ⟨rfl, same⟩ := facts
  have own : after.own = [] := by rw [same, nothing]
  dsimp only
  have aborts :
      ∀ (last : World) (reason : Reason), Owned last.toFacts →
        last.own = after.own → last.session = after.session →
        Holds Owned
          (abortSession outside transaction { outcome with phase := .claimed }
            { session with phase := .claimed } 0 reason)
          last fun _ _ => True := by
    intro last reason lastNow unchanged stored
    refine owned_abortSession lastNow ?_ ?_ mine
    · intro other member
      rw [unchanged, own] at member
      exact absurd member List.not_mem_nil
    · intro kept is
      rw [stored, show after.session = _ from
        congrArg Facts.session same] at is
      cases is
      exact mine
  refine
    holds_bind
      ((attempt_place _).caught now fun _ _ => owned_placed _)
      fun answer placed placedNow answered => ?_
  rcases answered with ⟨_, rfl, _, done⟩ | ⟨error, rfl, _, kept⟩
  · have unchanged : placed.own = after.own := by
      rw [done]
      rfl
    have stored : placed.session = after.session := by
      rw [done]
      rfl
    have claimed : placed.claim ≠ none := by
      rw [show placed.claim = _ from congrArg Facts.claim done]
      nofun
    refine
      holds_bind (attempt_possess.caught placedNow fun _ _ => placedNow)
        fun answer last lastNow answered => ?_
    have kept : last.toFacts = placed.toFacts := by
      rcases answered with ⟨_, _, _, same⟩ | ⟨_, _, _, same⟩ <;> exact same
    cases answer with
    | none =>
        refine owned_startOwn lastNow ?_ ?_ mine able
        · rw [show last.own = placed.own from congrArg Facts.own kept,
            unchanged, own]
        · rw [show last.claim = placed.claim from congrArg Facts.claim kept]
          exact claimed
    | some error =>
        exact
          aborts last _ lastNow ((congrArg Facts.own kept).trans unchanged)
            ((congrArg Facts.session kept).trans stored)
  · exact
      aborts placed _ placedNow (congrArg Facts.own kept)
        (congrArg Facts.session kept)

/-- A run is safe if nothing of this runtime runs already. -/
theorem owned_run
    {id : String} {rehearsal : Bool} (owned : Owned world.toFacts)
    (nothing :
      rehearsal = false → inFlight world.session ∨ world.own = []) :
    Holds Owned (run outside transaction id rehearsal) world
      fun _ _ => True := by
  refine holds_reject owned fun _ => ?_
  refine holds_reject owned fun hasTunnel => ?_
  refine holds_reject owned fun _ => ?_
  refine
    holds_bind (holds_beginSession owned fun _ => ?_)
      fun session begun now facts => ?_
  · refine ⟨owned.claimed, ?_⟩
    rintro _ ⟨⟩ release
    cases release
  obtain ⟨rfl, free, same⟩ := facts
  dsimp only
  split
  · exact owned_rehearse now rfl
  · rename_i real
    rw [Bool.not_eq_true] at real
    refine owned_handOver now ?_ rfl ?_
    · rw [same]
      exact (nothing real).resolve_left free
    · rw [← Bool.not_eq_false]
      exact fun unable => hasTunnel ⟨real, unable⟩

/-! ## Releasing -/

theorem Owned.advanced
    (owned : Owned facts) {phase : Phase} (moves : phase ≠ .stopping) :
    Owned { facts with session := some { session with phase := phase } } :=
  owned.written fun _ stops => absurd stops moves

theorem owned_keep
    {reason : Reason} (owned : Owned world.toFacts)
    (claimed : world.claim ≠ none) :
    Holds Owned (keep outside outcome session reason) world
      fun _ _ => True := by
  refine
    holds_bind (holds_ensureOwn owned fun pid => owned.started claimed pid)
      fun _ _ now _ => ?_
  exact
    holds_close now (now.advanced nofun)
      fun _ => Owned.cleared

theorem owned_retaken (session : Session) : Retaken Owned session where
  written := fun _ _ moves owned => owned.advanced moves
  placed := fun _ _ => owned_placed session
  started := fun _ owned claim => owned.started claim
  cleared := fun _ owned => owned.cleared

theorem owned_awaitOwner (owned : Owned world.toFacts) :
    Holds Owned (awaitOwner outside transaction outcome session) world
      fun _ _ => True :=
  holds_awaitOwner owned (fun _ now => now.advanced nofun)
    (fun _ now => now.cleared) fun _ => owned_retaken session

/-- The claim is given back while nothing of this runtime runs. -/
theorem owned_giveBack
    (owned : Owned world.toFacts) (nothing : world.own = []) :
    Holds Owned (giveBack outside transaction outcome session) world
      fun _ _ => True := by
  refine
    holds_bind (holds_advance owned (owned.advanced nofun))
      fun _ advanced now facts => ?_
  obtain ⟨rfl, same⟩ := facts
  have released : Owned { advanced.toFacts with claim := none } := by
    rw [same]
    refine ⟨fun runs => absurd nothing runs, ?_⟩
    rintro _ ⟨⟩ _ stops
    cases stops
  refine
    holds_bind
      ((attempt_perform .releaseClaim _).caught now fun _ _ => released)
      fun answer after afterNow _ => ?_
  cases answer with
  | none => exact owned_awaitOwner afterNow
  | some error => exact holds_restore (owned_retaken _) afterNow

/-- A release is safe if it starts with the claim. -/
theorem owned_release
    {id : String} (owned : Owned world.toFacts)
    (claimed : inFlight world.session ∨ world.claim ≠ none) :
    Holds Owned (release outside transaction id) world fun _ _ => True := by
  refine holds_reject owned fun _ => ?_
  refine holds_reject owned fun _ => ?_
  refine holds_reject owned fun _ => ?_
  refine holds_reject owned fun _ => ?_
  refine
    holds_bind (holds_beginSession owned fun _ => ?_)
      fun session begun now facts => ?_
  · refine ⟨owned.claimed, ?_⟩
    rintro _ ⟨⟩ _ stops
    cases stops
  obtain ⟨rfl, free, same⟩ := facts
  have present : begun.claim ≠ none := by
    rw [same]
    exact claimed.resolve_left free
  refine
    holds_bind (holds_advance now (now.written fun _ _ => present))
      fun _ stopping stoppingNow facts => ?_
  obtain ⟨rfl, sameStopping⟩ := facts
  have stillPresent : stopping.claim ≠ none := by
    rw [sameStopping]
    exact present
  have stops :=
    @holds_stopOwn (fun facts => Owned facts ∧ facts.claim ≠ none) outside
      stopping transaction ⟨stoppingNow, stillPresent⟩
      ⟨⟨fun _ => stillPresent, fun _ _ _ _ => stillPresent⟩, stillPresent⟩
      fun _ =>
        ⟨⟨fun _ => stillPresent, fun _ _ _ _ => stillPresent⟩, stillPresent⟩
  refine
    holds_bind (stops.caught fun _ both => both.1)
      fun refused stopped stoppedNow facts => ?_
  cases refused with
  | some error => exact owned_keep stoppedNow facts.1.2
  | none =>
      obtain ⟨_, nothing⟩ := facts.2 rfl
      exact owned_giveBack stoppedNow nothing

/-! ## Aborting -/

theorem owned_abortRelease
    (owned : Owned world.toFacts) (is : world.session = some session)
    (release : session.kind = .release) :
    Holds Owned (abortRelease outside transaction outcome session) world
      fun _ _ => True := by
  refine holds_reject owned fun _ => ?_
  dsimp only
  split
  · refine
      holds_bind (holds_clear owned owned.cleared)
        fun _ _ clearedNow _ => ?_
    exact holds_pure clearedNow trivial
  · rename_i stops
    exact owned_keep owned (owned.stopping session is release stops)
  · exact holds_restore (owned_retaken _) owned

/-- An abort is safe if the handover it finds knows everything that runs. -/
theorem owned_abort
    (owned : Owned world.toFacts)
    (stoppable :
      ∀ session, world.session = some session → session.kind = .handover →
        Stoppable transaction world.own session.startedPID) :
    Holds Owned (abort outside transaction) world fun _ _ => True := by
  refine
    holds_bind (holds_readSession owned) fun found seen now facts => ?_
  obtain ⟨rfl, same⟩ := facts
  have own : seen.own = world.own := congrArg Facts.own same
  have stored : seen.session = world.session := congrArg Facts.session same
  cases is : world.session with
  | none => exact holds_pure now trivial
  | some session =>
      dsimp only
      cases kind : session.kind with
      | release =>
          exact
            Safely.map (owned_abortRelease now (stored.trans is) kind)
      | handover =>
          refine Safely.map (owned_abortSession now ?_ ?_ kind)
          · rw [own]
            exact stoppable session is kind
          · intro kept found
            rw [stored, is] at found
            cases found
            exact kind

end Owned

/-! ## Every history -/

/-- A run is made while nothing of this runtime runs, a release while there is
a claim, and an abort of a handover when the session knows every process that
runs.  A step that finds another session in flight is refused. -/
def KnowsWhatRuns (world : World) : Step → Prop
  | .run _ _ _ rehearsal =>
      rehearsal = false → inFlight world.session ∨ world.own = []
  | .release _ _ _ => inFlight world.session ∨ world.claim ≠ none
  | .abort _ transaction =>
      ∀ session, world.session = some session → session.kind = .handover →
        Stoppable transaction world.own session.startedPID
  | _ => True

theorem owned_next
    {world : World} {step : Step} (owned : Owned world.toFacts)
    (knows : KnowsWhatRuns world step) :
    Owned (world.next step).toFacts := by
  cases step with
  | run outside transaction id rehearsal => exact (owned_run owned knows).left
  | release outside transaction id => exact (owned_release owned knows).left
  | abort outside transaction => exact (owned_abort owned knows).left
  | othersPlace transaction =>
      exact ⟨fun _ => nofun, fun _ _ _ _ => nofun⟩
  | ownDies pid => exact owned.stopped pid
  | ownerStarts pid =>
      rw [facts_ownerStarts]
      exact owned
  | ownerDies pid => exact owned

/-- In every history whose steps know what runs, this runtime's tunnel runs
only while the claim is there. -/
theorem one_owner
    {world : World} (reached : Reached KnowsWhatRuns world) :
    world.own ≠ [] → world.claim ≠ none := by
  have owned : Owned world.toFacts := by
    induction reached with
    | fresh => exact ⟨fun runs => absurd rfl runs, nofun⟩
    | next _ met inductionHypothesis => exact owned_next inductionHypothesis met
  exact owned.claimed

/-- After a completed handover the tunnel runs under the claim. -/
theorem one_owner_after_handover :
    Reached KnowsWhatRuns
        (World.fresh.after [.run .smooth (.sample false) "first" false]) ∧
      (World.fresh.after [.run .smooth (.sample false) "first" false]).own ≠
        [] ∧
      (World.fresh.after [.run .smooth (.sample false) "first" false]).claim ≠
        none := by
  have reached :
      Reached KnowsWhatRuns
        (World.fresh.after [.run .smooth (.sample false) "first" false]) :=
    reached_after .fresh ⟨fun _ => Or.inr rfl, trivial⟩
  have runs :
      (World.fresh.after [.run .smooth (.sample false) "first" false]).own ≠
        [] := by
    decide +kernel
  exact ⟨reached, runs, one_owner reached runs⟩

/-- The process dies while it takes the proof of a tunnel it started. -/
def Outside.crashesProving : Outside :=
  { Outside.smooth with
    fate := fun operation _ =>
      if operation = .traversed then .crashes else .done }

/-- The session on disk does not know the process that was started: an abort
gives the claim back while it runs. -/
theorem abort_leaves_tunnel_without_claim :
    Reached (fun _ _ => True)
        (World.fresh.after
          [.run .crashesProving (.sample false) "first" false,
            .abort .smooth (.sample false)]) ∧
      (World.fresh.after
          [.run .crashesProving (.sample false) "first" false,
            .abort .smooth (.sample false)]).own ≠ [] ∧
      (World.fresh.after
          [.run .crashesProving (.sample false) "first" false,
            .abort .smooth (.sample false)]).claim = none := by
  refine ⟨reached_after .fresh ⟨trivial, trivial, trivial⟩, ?_, ?_⟩
  · decide +kernel
  · decide +kernel

end Hexroute.Handover
