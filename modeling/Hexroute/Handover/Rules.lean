import Hexroute.Handover.Life

/-!
# What the calls of a transaction leave

`Holds` says that an invariant of the facts holds however a program ends, so
at every point where a crash may land.  Most calls are all or nothing:
`Attempt` says what the facts are if the call succeeds, and that they are as
before if it does not.
-/

namespace Hexroute.Handover

open Hexroute.Lib

/-- An invariant of the facts holds however the program ends. -/
abbrev Holds {α : Type}
    (invariant : Facts → Prop) (program : Program α) (before : World)
    (promise : α → World → Prop) : Prop :=
  Safely (fun world => invariant world.toFacts) (fun _ => True) program before
    promise

/-- The call leaves these facts if it answers, and changes none otherwise. -/
def Attempt {α : Type}
    (program : Program α) (before : World) (answers : α → Prop)
    (refuses : HandoverError → Prop) (done : Facts) : Prop :=
  Ends program before fun answer after =>
    match answer with
    | .ok value => answers value ∧ after.toFacts = done
    | .error (.failed error) =>
        refuses error ∧ after.toFacts = before.toFacts
    | .error .crashed => after.toFacts = before.toFacts
    | .error .exhausted => after.toFacts = before.toFacts

section Rules

variable {invariant : Facts → Prop} {outside : Outside} {world : World}
  {α β : Type} {promise : α → World → Prop} {program : Program α}

theorem Holds.left (holds : Holds invariant program world promise) :
    invariant (left (program world)).toFacts := by
  unfold Holds Safely Ends at holds
  cases ran : program world with
  | ok value after =>
      rw [ran] at holds
      exact holds.1
  | error stop after =>
      rw [ran] at holds
      exact holds.1

theorem Holds.weaken
    {stronger : Facts → Prop} (holds : Holds stronger program world promise)
    (implies : ∀ facts, stronger facts → invariant facts) :
    Holds invariant program world promise := by
  refine Ends.mono holds fun answer after facts => ?_
  exact ⟨implies _ facts.1, facts.2⟩

/-- What holds however a program ends, holds when its failure is caught. -/
theorem Holds.caught
    {stronger : Facts → Prop} (holds : Holds stronger program world promise)
    (implies : ∀ facts, stronger facts → invariant facts) :
    Holds invariant (Lib.caught program) world fun refused after =>
      stronger after.toFacts ∧
        (refused = none → ∃ value, promise value after) := by
  refine ends_caught (Ends.mono holds fun answer after facts => ?_)
  cases answer with
  | ok value =>
      exact
        ⟨implies _ facts.1, trivial, facts.1, fun _ => ⟨value, facts.2.2⟩⟩
  | error stop =>
      cases stop with
      | failed error => exact ⟨implies _ facts.1, trivial, facts.1, nofun⟩
      | crashed => exact ⟨implies _ facts.1, trivial⟩
      | exhausted => exact ⟨implies _ facts.1, trivial⟩

theorem holds_pure
    {value : α} (now : invariant world.toFacts) (kept : promise value world) :
    Holds invariant (pure value) world promise :=
  safely_pure now trivial kept

theorem holds_fail
    {error : HandoverError} (now : invariant world.toFacts) :
    Holds invariant (fail error : Program α) world promise :=
  safely_throw now trivial

theorem holds_reject
    {condition : Prop} [Decidable condition] {error : HandoverError}
    {continuation : Unit → Program α} (now : invariant world.toFacts)
    (holds :
      ¬ condition → Holds invariant (continuation ()) world promise) :
    Holds invariant (reject condition error >>= continuation) world
      promise := by
  unfold reject
  by_cases met : condition
  · rw [if_pos met]
    exact holds_fail now
  · rw [if_neg met]
    exact holds met

theorem holds_bind
    {continuation : α → Program β}
    {promise : β → World → Prop} {middle : α → World → Prop}
    (first : Holds invariant program world middle)
    (second :
      ∀ value after, invariant after.toFacts → middle value after →
        Holds invariant (continuation value) after promise) :
    Holds invariant (program >>= continuation) world promise :=
  Safely.bind first fun value after now _ facts => second value after now facts

section Attempts

variable {answers : α → Prop} {refuses : HandoverError → Prop} {done : Facts}

/-- However an attempt ends, the invariant of the facts before holds after
it. -/
theorem Attempt.settled
    (attempt : Attempt program world answers refuses done)
    (now : invariant world.toFacts)
    (stays : ∀ value, answers value → invariant done) :
    Ends program world fun answer after =>
      invariant after.toFacts ∧
        match answer with
        | .ok value => answers value ∧ after.toFacts = done
        | .error (.failed error) =>
            refuses error ∧ after.toFacts = world.toFacts
        | .error .crashed => True
        | .error .exhausted => True := by
  have kept : ∀ after : World, after.toFacts = world.toFacts →
      invariant after.toFacts := fun after same => same ▸ now
  refine Ends.mono attempt fun answer after facts => ?_
  cases answer with
  | ok value =>
      have settled : invariant after.toFacts := by
        rw [facts.2]
        exact stays value facts.1
      exact ⟨settled, facts⟩
  | error stop =>
      cases stop with
      | failed error => exact ⟨kept after facts.2, facts⟩
      | crashed => exact ⟨kept after facts, trivial⟩
      | exhausted => exact ⟨kept after facts, trivial⟩

theorem Attempt.holds
    (attempt : Attempt program world answers refuses done)
    (now : invariant world.toFacts)
    (stays : ∀ value, answers value → invariant done) :
    Holds invariant program world fun value after =>
      answers value ∧ after.toFacts = done := by
  refine Ends.mono (attempt.settled now stays) fun answer after facts => ?_
  cases answer with
  | ok value => exact ⟨facts.1, trivial, facts.2⟩
  | error stop => cases stop <;> exact ⟨facts.1, trivial⟩

/-- The caller goes on after a failure. -/
theorem Attempt.attempted
    (attempt : Attempt program world answers refuses done)
    (now : invariant world.toFacts)
    (stays : ∀ value, answers value → invariant done) :
    Holds invariant (attempted program) world fun answer after =>
      (∃ value, answer = some value ∧ answers value ∧ after.toFacts = done) ∨
        answer = none ∧ after.toFacts = world.toFacts := by
  refine
    ends_attempted
      (Ends.mono (attempt.settled now stays) fun answer after facts => ?_)
  cases answer with
  | ok value =>
      exact ⟨facts.1, trivial, Or.inl ⟨value, rfl, facts.2⟩⟩
  | error stop =>
      cases stop with
      | failed error =>
          exact ⟨facts.1, trivial, Or.inr ⟨rfl, facts.2.2⟩⟩
      | crashed => exact ⟨facts.1, trivial⟩
      | exhausted => exact ⟨facts.1, trivial⟩

theorem Attempt.caught
    (attempt : Attempt program world answers refuses done)
    (now : invariant world.toFacts)
    (stays : ∀ value, answers value → invariant done) :
    Holds invariant (caught program) world fun refused after =>
      (∃ value, refused = none ∧ answers value ∧ after.toFacts = done) ∨
        ∃ error,
          refused = some error ∧ refuses error ∧
            after.toFacts = world.toFacts := by
  refine
    ends_caught
      (Ends.mono (attempt.settled now stays) fun answer after facts => ?_)
  cases answer with
  | ok value =>
      exact ⟨facts.1, trivial, Or.inl ⟨value, rfl, facts.2⟩⟩
  | error stop =>
      cases stop with
      | failed error =>
          exact ⟨facts.1, trivial, Or.inr ⟨error, rfl, facts.2⟩⟩
      | crashed => exact ⟨facts.1, trivial⟩
      | exhausted => exact ⟨facts.1, trivial⟩

/-- A part that changes nothing may come first. -/
theorem Attempt.after_look
    {γ : Type} {first : Program γ} {seen : γ → Prop}
    {continuation : γ → Program α}
    (look : Attempt first world seen refuses world.toFacts)
    (later :
      ∀ value after, seen value → after.toFacts = world.toFacts →
        Attempt (continuation value) after answers refuses done) :
    Attempt (first >>= continuation) world answers refuses done := by
  unfold Attempt
  rw [ends_bind]
  refine Ends.mono look fun answer middle facts => ?_
  cases answer with
  | error stop => cases stop <;> exact facts
  | ok value =>
      refine
        Ends.mono (later value middle facts.1 facts.2)
          fun answer after later => ?_
      cases answer with
      | ok value => exact later
      | error stop =>
          cases stop with
          | failed error => exact ⟨later.1, later.2.trans facts.2⟩
          | crashed => exact later.trans facts.2
          | exhausted => exact later.trans facts.2

theorem attempt_settle (fate : Fate) (effect : World → World) :
    Attempt (settle fate effect) world (fun _ => True)
      (fun error => error = .failedCall) (effect world).toFacts := by
  cases fate with
  | done => exact ⟨trivial, rfl⟩
  | fails => exact ⟨rfl, rfl⟩
  | crashes => exact rfl

theorem attempt_perform (operation : Operation) (effect : World → World) :
    Attempt (perform outside operation effect) world (fun _ => True)
      (fun error => error = .failedCall) (effect world).toFacts :=
  attempt_settle _ effect

/-- A call that does not fail. -/
theorem attempt_willing
    {operation : Operation} (effect : World → World)
    (willing : outside.fate operation world.time ≠ .fails) :
    Attempt (perform outside operation effect) world (fun _ => True)
      (fun _ => False) (effect world).toFacts := by
  unfold Attempt Ends perform
  cases fate : outside.fate operation world.time with
  | done => exact ⟨trivial, rfl⟩
  | fails => exact absurd fate willing
  | crashes => exact rfl

theorem Attempt.weaken
    {weaker : HandoverError → Prop}
    (attempt : Attempt program world answers refuses done)
    (weakens : ∀ error, refuses error → weaker error) :
    Attempt program world answers weaker done := by
  refine Ends.mono attempt fun answer after facts => ?_
  cases answer with
  | ok value => exact facts
  | error stop =>
      cases stop with
      | failed error => exact ⟨weakens error facts.1, facts.2⟩
      | crashed => exact facts
      | exhausted => exact facts

/-- The facts with a claim of the session. -/
def Facts.placed (facts : Facts) (session : Session) : Facts :=
  { facts with
    claim := some ⟨session.transaction, some session.serial⟩
    undone := facts.undone || facts.givenUp }

/-- A claim that is refused as held is held. -/
theorem attempt_place (session : Session) :
    Attempt (place outside session) world (fun _ => world.claim = none)
      (fun error => error = .held → world.claim ≠ none)
      (world.toFacts.placed session) := by
  have other :
      ∀ error : HandoverError, error = .failedCall →
        error = .held → world.claim ≠ none := by
    rintro _ rfl held
    cases held
  refine
    Attempt.after_look ((attempt_perform .readClaim id).weaken other)
      fun _ looked _ same => ?_
  have claim : looked.claim = world.claim := congrArg Facts.claim same
  refine ends_get_bind ?_
  unfold reject
  by_cases present : looked.claim ≠ none
  · rw [if_pos present]
    rw [claim] at present
    exact ⟨fun _ => present, rfl⟩
  · rw [if_neg present]
    rw [claim, not_not] at present
    refine
      Ends.mono ((attempt_perform .placeClaim _).weaken other)
        fun answer after facts => ?_
    cases answer with
    | error stop => cases stop <;> exact facts
    | ok _ =>
        refine ⟨present, facts.2.trans ?_⟩
        change looked.toFacts.placed session = _
        rw [same]

/-- The facts with one more tunnel of this runtime. -/
def Facts.started (facts : Facts) (pid : Nat) : Facts :=
  { facts with
    own := pid :: facts.own, undone := facts.undone || facts.givenUp }

theorem attempt_startTunnel :
    Attempt (startTunnel outside) world
      (fun pid => pid = outside.pid world.time + 1) (fun _ => True)
      (world.toFacts.started (outside.pid world.time + 1)) := by
  unfold Attempt startTunnel
  refine ends_get_bind ?_
  dsimp only
  rw [ends_bind]
  refine
    Ends.mono (attempt_perform .startTunnel _) fun answer after facts => ?_
  cases answer with
  | ok _ => exact ⟨rfl, facts.2⟩
  | error stop =>
      cases stop with
      | failed error => exact ⟨trivial, facts.2⟩
      | crashed => exact facts
      | exhausted => exact facts

end Attempts

/-- Stopping what runs succeeds, so it is gone if the call does not crash. -/
theorem holds_stopTunnel
    {pid : Nat} (now : invariant world.toFacts)
    (done :
      invariant
        { world.toFacts with own := world.own.filter (· ≠ pid) }) :
    Holds invariant (Lib.attempted (stopTunnel outside pid)) world
      fun _ after =>
        after.toFacts =
          { world.toFacts with own := world.own.filter (· ≠ pid) } := by
  refine ends_attempted ?_
  unfold Ends stopTunnel settle
  dsimp only
  by_cases runs : pid ∈ world.own
  · rw [if_pos runs]
    cases outside.fate .stopTunnel world.time with
    | done => exact ⟨done, trivial, rfl⟩
    | fails => exact ⟨done, trivial, rfl⟩
    | crashes => exact ⟨now, trivial⟩
  · rw [if_neg runs]
    cases outside.fate .stopTunnel world.time with
    | done => exact ⟨done, trivial, rfl⟩
    | fails =>
        refine ⟨now, trivial, ?_⟩
        have same : world.own.filter (· ≠ pid) = world.own := by
          rw [List.filter_eq_self]
          intro other member
          refine decide_eq_true ?_
          rintro rfl
          exact runs member
        rw [same]
    | crashes => exact ⟨now, trivial⟩

/-! ## Looking and waiting -/

theorem holds_look
    {operation : Operation} (now : invariant world.toFacts) :
    Holds invariant (perform outside operation id) world fun _ after =>
      after.toFacts = world.toFacts :=
  ((attempt_perform operation id).holds now fun _ _ => now).mono
    fun _ _ facts => facts.2

theorem holds_readSession (now : invariant world.toFacts) :
    Holds invariant (readSession outside) world fun session after =>
      session = world.session ∧ after.toFacts = world.toFacts :=
  holds_bind (holds_look now) fun _ _ now same =>
    safely_get_bind
      (holds_pure now ⟨congrArg Facts.session same, same⟩)

theorem holds_ownRunning (now : invariant world.toFacts) :
    Holds invariant (ownRunning outside) world fun running after =>
      running = world.own.head? ∧ after.toFacts = world.toFacts :=
  holds_bind (holds_look now) fun _ _ now same =>
    safely_get_bind
      (holds_pure now ⟨congrArg (fun facts => facts.own.head?) same, same⟩)

theorem holds_incumbentRunning (now : invariant world.toFacts) :
    Holds invariant (incumbentRunning outside) world fun _ after =>
      after.toFacts = world.toFacts :=
  holds_bind (holds_look now) fun _ _ now same =>
    safely_get_bind (holds_pure now same)

theorem attempt_ownRunning :
    Attempt (ownRunning outside) world
      (fun running => running = world.own.head?) (fun _ => True)
      world.toFacts := by
  refine
    Attempt.after_look
      ((attempt_perform .ownRunning id).weaken fun _ _ => trivial)
      fun _ after _ same => ends_get_bind ?_
  exact ⟨congrArg (fun facts => facts.own.head?) same, same⟩

theorem holds_waitUntilGone
    {running : Program (Option Nat)} {answers : Option Nat → Facts → Prop}
    (looks :
      ∀ world, invariant world.toFacts →
        Holds invariant running world fun answer after =>
          answers answer after.toFacts ∧ after.toFacts = world.toFacts)
    (rounds : Nat) (now : invariant world.toFacts) :
    Holds invariant (waitUntilGone outside running rounds) world
      fun _ after =>
        answers none after.toFacts ∧ after.toFacts = world.toFacts := by
  induction rounds generalizing world with
  | zero => exact holds_fail now
  | succ rounds inductionHypothesis =>
      refine holds_bind (looks world now) fun answer after lookedNow facts => ?_
      cases answer with
      | none => exact holds_pure lookedNow facts
      | some pid =>
          refine safely_get_bind (holds_reject lookedNow fun _ => ?_)
          refine (inductionHypothesis lookedNow).mono fun _ last gone => ?_
          exact ⟨gone.1, gone.2.trans facts.2⟩

theorem holds_possess
    {transaction : Transaction} (now : invariant world.toFacts) :
    Holds invariant (possess outside transaction) world fun _ after =>
      after.toFacts = world.toFacts := by
  refine
    holds_bind (holds_incumbentRunning now) fun answer seen seenNow same => ?_
  cases answer with
  | none => exact holds_pure seenNow same
  | some pid =>
      refine
        holds_bind
          ((attempt_perform .stopIncumbent _).holds seenNow
            fun _ _ => seenNow)
          fun _ stopped stoppedNow facts => ?_
      have waited :=
        @holds_waitUntilGone invariant outside stopped
          (incumbentRunning outside) (fun _ _ => True)
          (fun world now =>
            (holds_incumbentRunning now).mono fun _ _ same => ⟨trivial, same⟩)
          (transaction.policy.rounds transaction.policy.possession) stoppedNow
      exact waited.mono fun _ _ gone => gone.2.trans (facts.2.trans same)

/-- Taking the tunnel from its holder changes no fact, whether it succeeds or
not. -/
theorem attempt_possess {transaction : Transaction} :
    Attempt (possess outside transaction) world (fun _ => True)
      (fun _ => True) world.toFacts := by
  have holds :=
    @holds_possess (fun facts => facts = world.toFacts) outside world
      transaction rfl
  refine Ends.mono holds fun answer after facts => ?_
  cases answer with
  | ok value => exact ⟨trivial, facts.1⟩
  | error stop =>
      cases stop with
      | failed error => exact ⟨trivial, facts.1⟩
      | crashed => exact facts.1
      | exhausted => exact facts.1

theorem holds_proveWithin
    {needed : Int} (rounds consecutive : Nat)
    (now : invariant world.toFacts) :
    Holds invariant (proveWithin outside needed rounds consecutive) world
      fun _ after => after.toFacts = world.toFacts := by
  induction rounds generalizing world consecutive with
  | zero => exact holds_pure now rfl
  | succ rounds inductionHypothesis =>
      refine safely_get_bind ?_
      split
      · exact holds_pure now rfl
      refine
        holds_bind
          ((attempt_perform .traversed id).attempted now fun _ _ => now)
          fun answer after afterNow facts => ?_
      have same : after.toFacts = world.toFacts := by
        rcases facts with ⟨_, _, _, done⟩ | ⟨_, kept⟩
        · exact done
        · exact kept
      cases answer with
      | none => exact holds_pure afterNow same
      | some _ =>
          dsimp only
          split
          · exact holds_pure afterNow same
          split
          · exact holds_pure afterNow same
          · exact
              (inductionHypothesis _ afterNow).mono fun _ _ last =>
                last.trans same

theorem holds_prove
    {transaction : Transaction} (now : invariant world.toFacts) :
    Holds invariant (prove outside transaction) world fun _ after =>
      after.toFacts = world.toFacts :=
  holds_proveWithin _ 0 now

/-! ## This runtime's tunnel -/

/-- The facts after this runtime's tunnel was looked for and nothing ran. -/
def Facts.yielded (facts : Facts) (relinquish : Bool) : Facts :=
  { facts with givenUp := facts.givenUp || relinquish }

/-- The facts after a process of this runtime was stopped. -/
def Facts.stopped (facts : Facts) (relinquish : Bool) (pid : Nat) : Facts :=
  { facts with
    own := facts.own.filter (· ≠ pid)
    givenUp := facts.givenUp || relinquish }

/-- When stopping succeeds nothing of this runtime runs. -/
theorem holds_stopOwn
    {transaction : Transaction} (now : invariant world.toFacts)
    (yielded : invariant (world.toFacts.yielded transaction.relinquish))
    (stopped :
      ∀ pid, invariant (world.toFacts.stopped transaction.relinquish pid)) :
    Holds invariant (stopOwn outside transaction) world fun _ after =>
      after.own = [] := by
  refine
    holds_bind (holds_ownRunning now) fun answer seen seenNow facts => ?_
  obtain ⟨is, same⟩ := facts
  cases answer with
  | none =>
      have kept :
          invariant (seen.toFacts.yielded transaction.relinquish) := by
        rw [same]
        exact yielded
      refine ⟨kept, trivial, ?_⟩
      change seen.own = []
      rw [show seen.own = world.own from congrArg Facts.own same]
      exact List.head?_eq_none_iff.mp is.symm
  | some pid =>
      have kept :
          invariant (seen.toFacts.stopped transaction.relinquish pid) := by
        rw [same]
        exact stopped pid
      refine
        holds_bind
          ((attempt_perform .stopOwn _).holds seenNow fun _ _ => kept)
          fun _ after afterNow _ => ?_
      have waited :=
        @holds_waitUntilGone invariant outside after (ownRunning outside)
          (fun answer facts => answer = facts.own.head?)
          (fun world now =>
            (holds_ownRunning now).mono fun _ last looked =>
              ⟨looked.1.trans (by rw [looked.2]), looked.2⟩)
          (transaction.policy.rounds transaction.policy.possession) afterNow
      exact
        waited.mono fun _ last gone =>
          List.head?_eq_none_iff.mp gone.1.symm

theorem holds_ensureOwn
    (now : invariant world.toFacts)
    (started : ∀ pid, invariant (world.toFacts.started pid)) :
    Holds invariant (ensureOwn outside) world fun _ _ => True := by
  refine
    holds_bind (attempt_ownRunning.attempted now fun _ _ => now)
      fun answer seen seenNow answered => ?_
  have same : seen.toFacts = world.toFacts := by
    rcases answered with ⟨_, _, _, done⟩ | ⟨_, kept⟩
    · exact done
    · exact kept
  rcases answer with _ | _ | pid
  on_goal 3 => exact holds_pure seenNow trivial
  all_goals
    refine
      holds_bind
        (attempt_startTunnel.attempted seenNow fun _ _ => ?_)
        fun answer after afterNow _ => ?_
    · rw [same]
      exact started _
    · cases answer with
      | none => exact holds_fail afterNow
      | some _ => exact holds_pure afterNow trivial

/-! ## Writing -/

theorem holds_beginSession
    {id : String} {rehearsal : Bool} {kind : Kind}
    (now : invariant world.toFacts)
    (done :
      ¬ inFlight world.session →
        invariant
          { world.toFacts with
            session := some (newSession world id rehearsal kind)
            serials := world.serials + 1
            givenUp :=
              world.givenUp &&
                !startsRun (newSession world id rehearsal kind) }) :
    Holds invariant (beginSession outside id rehearsal kind) world
      fun session after =>
        session = newSession world id rehearsal kind ∧
          ¬ inFlight world.session ∧
          after.toFacts =
            { world.toFacts with
              session := some session
              serials := world.serials + 1
              givenUp := world.givenUp && !startsRun session } := by
  refine holds_reject now fun _ => ?_
  refine holds_bind (holds_readSession now) fun existing seen seenNow facts => ?_
  obtain ⟨rfl, same⟩ := facts
  refine holds_reject seenNow fun free => safely_get_bind ?_
  have serials : seen.serials = world.serials := congrArg Facts.serials same
  have session :
      newSession seen id rehearsal kind =
        newSession world id rehearsal kind := by
    unfold newSession
    rw [serials]
  dsimp only
  rw [session]
  have effect :
      { seen.toFacts with
          session := some (newSession world id rehearsal kind)
          serials := seen.serials + 1
          givenUp :=
            seen.givenUp && !startsRun (newSession world id rehearsal kind) } =
        { world.toFacts with
          session := some (newSession world id rehearsal kind)
          serials := world.serials + 1
          givenUp :=
            world.givenUp &&
              !startsRun (newSession world id rehearsal kind) } := by
    rw [same]
  refine
    holds_bind
      ((attempt_perform .writeSession _).holds seenNow fun _ _ => ?_)
      fun _ after written facts => ?_
  · change
      invariant
        { seen.toFacts with
          session := some (newSession world id rehearsal kind)
          serials := seen.serials + 1
          givenUp :=
            seen.givenUp && !startsRun (newSession world id rehearsal kind) }
    rw [effect]
    exact done free
  · exact holds_pure written ⟨rfl, free, facts.2.trans effect⟩

theorem holds_advance
    {session : Session} {phase : Phase} (now : invariant world.toFacts)
    (done :
      invariant
        { world.toFacts with session := some { session with phase := phase } }) :
    Holds invariant (advance outside session phase) world fun reached after =>
      reached = { session with phase := phase } ∧
        after.toFacts =
          { world.toFacts with
            session := some { session with phase := phase } } :=
  holds_bind
    ((attempt_perform .writeSession _).holds now fun _ _ => done)
    fun _ _ now facts => holds_pure now ⟨rfl, facts.2⟩

theorem holds_clear
    (now : invariant world.toFacts)
    (done : invariant { world.toFacts with session := none }) :
    Holds invariant (clear outside) world fun _ after =>
      after.toFacts = { world.toFacts with session := none } :=
  ((attempt_perform .clearSession _).holds now fun _ _ => done).mono
    fun _ _ facts => facts.2

/-- A transaction ends: its last phase is recorded and the session cleared. -/
theorem holds_close
    {session : Session} {phase : Phase} {value : α}
    (now : invariant world.toFacts)
    (written :
      invariant
        { world.toFacts with session := some { session with phase := phase } })
    (cleared :
      ∀ facts : Facts, invariant facts →
        invariant { facts with session := none }) :
    Holds invariant
      (do
        let _ ← advance outside session phase
        clear outside
        pure value)
      world fun _ _ => True := by
  refine
    holds_bind (holds_advance now written) fun _ _ advancedNow _ => ?_
  refine
    holds_bind (holds_clear advancedNow (cleared _ advancedNow))
      fun _ _ clearedNow _ => ?_
  exact holds_pure clearedNow trivial

/-! ## Taking the tunnel again -/

/-- The invariant is kept by what takes the tunnel again for this session: its
phase is recorded, the claim is placed, a tunnel is started under a claim, and
the session is cleared. -/
structure Retaken (invariant : Facts → Prop) (session : Session) : Prop where
  written :
    ∀ (facts : Facts) (phase : Phase),
      phase ≠ .stopping → invariant facts →
        invariant
          { facts with session := some { session with phase := phase } }
  placed : ∀ facts : Facts, invariant facts → invariant (facts.placed session)
  started :
    ∀ facts : Facts, invariant facts → facts.claim ≠ none →
      ∀ pid, invariant (facts.started pid)
  cleared :
    ∀ facts : Facts, invariant facts → invariant { facts with session := none }

variable {transaction : Transaction} {session : Session} {outcome : Outcome}

/-- The tunnel is started again only after the claim is there. -/
theorem holds_restore
    {reason : Reason} (retaken : Retaken invariant session)
    (now : invariant world.toFacts) :
    Holds invariant (restore outside transaction outcome session reason) world
      fun _ _ => True := by
  refine
    holds_bind (holds_advance now (retaken.written _ .restored nofun now))
      fun _ advanced advancedNow _ => ?_
  refine
    holds_bind
      ((attempt_place session).caught advancedNow fun _ _ =>
        retaken.placed _ advancedNow)
      fun refused placed placedNow answered => ?_
  refine holds_reject placedNow fun passes => ?_
  have claimed : placed.claim ≠ none := by
    rcases answered with ⟨_, _, _, done⟩ | ⟨error, rfl, held, kept⟩
    · rw [done]
      nofun
    · have is : error = .held := by
        by_contra other
        exact passes ⟨nofun, fun same => other (Option.some.inj same)⟩
      rw [kept]
      exact held is
  refine
    holds_bind (attempt_possess.attempted placedNow fun _ _ => placedNow)
      fun answer possessed possessedNow answered => ?_
  have same : possessed.toFacts = placed.toFacts := by
    rcases answered with ⟨_, _, _, done⟩ | ⟨_, kept⟩
    · exact done
    · exact kept
  have still : possessed.claim ≠ none := by
    rw [same]
    exact claimed
  cases answer with
  | none => exact holds_fail possessedNow
  | some _ =>
      refine
        holds_bind
          (holds_ensureOwn possessedNow
            (retaken.started _ possessedNow still))
          fun _ ensured ensuredNow _ => ?_
      refine
        holds_bind (holds_clear ensuredNow (retaken.cleared _ ensuredNow))
          fun _ _ clearedNow _ => ?_
      exact holds_pure clearedNow trivial

/-- The previous owner is waited for: the tunnel is taken again only by a
release that does not give it up. -/
theorem holds_awaitOwner
    (now : invariant world.toFacts)
    (written :
      ∀ facts : Facts, invariant facts →
        invariant
          { facts with session := some { session with phase := .proven } })
    (cleared :
      ∀ facts : Facts, invariant facts →
        invariant { facts with session := none })
    (returns :
      transaction.relinquish ≠ true → Retaken invariant session) :
    Holds invariant (awaitOwner outside transaction outcome session) world
      fun _ _ => True := by
  refine holds_bind (holds_prove now) fun proved after afterNow _ => ?_
  dsimp only
  split
  · split
    · refine
        holds_bind (holds_clear afterNow (cleared _ afterNow))
          fun _ _ clearedNow _ => ?_
      exact holds_pure clearedNow trivial
    · rename_i kept
      exact holds_restore (returns kept) afterNow
  · exact holds_close afterNow (written _ afterNow) cleared

end Rules

/-- The facts beside the record of the session. -/
def Facts.beside (facts : Facts) : Facts :=
  { facts with session := none, serials := 0 }

end Hexroute.Handover
