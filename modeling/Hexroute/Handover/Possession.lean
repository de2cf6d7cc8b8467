import Hexroute.Handover.Transaction

/-!
# The calls of a run

A run as the calls it makes, each with its answer.  An answer may depend on
everything that was called before, so the collaborators and the clock behave
in any way; only the start of the tunnel, which is asked for once, has one
answer.
-/

namespace Hexroute.Handover.Traced

open Hexroute.Handover

/-- A call and its answer.  A session call, a claim call or a stop is done or
fails; a look at the incumbent, a start and a proof fail with `none`. -/
inductive Event where
  | begun (done : Bool)
  | recorded (phase : Phase) (done : Bool)
  | cleared (done : Bool)
  | placed (done : Bool)
  | released (done : Bool)
  | looked (running : Option (Option Int))
  | incumbentStopped (pid : Int) (done : Bool)
  | started (pid : Option Int)
  | stopped (pid : Int) (done : Bool)
  | traversed (answer : Option Bool)
  deriving DecidableEq, Repr

structure Answers where
  begins : List Event → Bool
  records : List Event → Bool
  clears : List Event → Bool
  places : List Event → Bool
  releases : List Event → Bool
  running : List Event → Option (Option Int)
  stopsIncumbent : List Event → Bool
  start : Option Int
  stops : List Event → Bool
  traverses : List Event → Option Bool
  early : List Event → Bool
  interrupted : List Event → Bool

/-- A program that calls; without fuel it has not returned. -/
abbrev Calling := StateT (List Event) Option

def ask {α : Type} (answer : List Event → α) (event : α → Event) :
    Calling α := fun log =>
  some (answer log, log ++ [event (answer log)])

section Programs

variable (answers : Answers) (transaction : Transaction)

def proveWithin : Nat → Nat → Calling (Nat × Option Reason)
  | 0, _ => fun _ => none
  | fuel + 1, consecutive => do
      let log ← get
      if answers.early log then do
        match ← ask answers.traverses .traversed with
        | none => pure (consecutive, some .proofNotTaken)
        | some traversed => do
            let counted := tally traversed consecutive
            if
              traversed = true ∧ transaction.policy.proofs ≤ (counted : Int)
            then pure (counted, none)
            else do
              let log ← get
              if answers.interrupted log then
                pure (counted, some .interrupted)
              else proveWithin fuel counted
      else pure (consecutive, none)

def prove (fuel : Nat) : Calling (Nat × Option Reason) :=
  proveWithin answers transaction fuel 0

/-- Why the incumbent is not gone, or nothing. -/
def waitUntilGone : Nat → Calling (Option HandoverError)
  | 0 => fun _ => none
  | fuel + 1 => do
      match ← ask answers.running .looked with
      | none => pure (some .possession)
      | some none => pure none
      | some (some _) => do
          let log ← get
          if answers.early log = false ∨ answers.interrupted log = true then
            pure (some .possession)
          else waitUntilGone fuel

def possess (fuel : Nat) : Calling (Option HandoverError) := do
  match ← ask answers.running .looked with
  | none => pure (some .possession)
  | some none => pure none
  | some (some pid) => do
      let done ← ask answers.stopsIncumbent (.incumbentStopped pid)
      if done then waitUntilGone answers fuel else pure (some .possession)

/-- What a run returns.  One that is refused returns no outcome of its own; it
has the one it would have begun with. -/
abbrev Returned := Outcome × Option HandoverError

def stopStarted (pid : Int) (reason : Reason) : Calling Reason :=
  if 0 < pid ∧ transaction.hasTunnel = true then do
    let done ← ask answers.stops (.stopped pid)
    pure (if done then reason else .notStopped reason)
  else pure reason

def close (outcome : Outcome) (phase : Phase) : Calling Returned := do
  let done ← ask answers.clears .cleared
  pure
    ({ outcome with phase := phase },
      if done then none else some .failedCall)

/-- Release the claim and close the session. -/
def giveUp (outcome : Outcome) : Calling Returned := do
  let released ← ask answers.releases .released
  if released then do
    let recorded ← ask answers.records (.recorded .aborted)
    if recorded then close answers outcome .aborted
    else pure (outcome, some .failedCall)
  else pure (outcome, some .notReleased)

def abort (outcome : Outcome) (pid : Int) (reason : Reason) :
    Calling Returned := do
  let reason ← stopStarted answers transaction pid reason
  giveUp answers { outcome with reason := some reason }

def rehearse (fuel : Nat) (outcome : Outcome) : Calling Returned := do
  let (proofs, reason) ← prove answers transaction fuel
  let completed := decide (transaction.policy.proofs ≤ (proofs : Int))
  let reason :=
    if completed then reason else some (reason.getD .notTraversed)
  let outcome :=
    { outcome with
      proofs := proofs, reason := reason, completed := completed }
  let phase := if completed then Phase.proven else .aborted
  let recorded ← ask answers.records (.recorded phase)
  if recorded then close answers outcome phase
  else pure (outcome, some .failedCall)

def proveStarted (fuel : Nat) (outcome : Outcome) (pid : Int) :
    Calling Returned := do
  let (proofs, reason) ← prove answers transaction fuel
  let outcome := { outcome with proofs := proofs }
  if (proofs : Int) < transaction.policy.proofs then
    abort answers transaction outcome pid (reason.getD .notTraversedInTime)
  else do
    let recorded ← ask answers.records (.recorded .proven)
    if recorded then
      close answers { outcome with completed := true } .proven
    else pure (outcome, some .failedCall)

def startOwn (fuel : Nat) (outcome : Outcome) : Calling Returned := do
  let recorded ← ask answers.records (.recorded .started)
  if recorded then do
    let outcome := { outcome with phase := .started }
    match ← ask (fun _ => answers.start) .started with
    | none => abort answers transaction outcome 0 .tunnelNotStarted
    | some pid => proveStarted answers transaction fuel outcome pid
  else pure (outcome, some .failedCall)

def handOver (fuel : Nat) (outcome : Outcome) : Calling Returned := do
  let recorded ← ask answers.records (.recorded .claimed)
  if recorded then do
    let outcome := { outcome with phase := .claimed }
    let placed ← ask answers.places .placed
    if placed then do
      match ← possess answers fuel with
      | some error =>
          abort answers transaction outcome 0 (.notPossessed error)
      | none => startOwn answers transaction fuel outcome
    else
      abort answers transaction outcome 0 (.claimRefused .failedCall)
  else pure (outcome, some .failedCall)

/-- The outcome before anything was done. -/
def prepared (id : String) (rehearsal : Bool) : Outcome where
  transaction := id
  kind := .handover
  rehearsal := rehearsal
  completed := false
  phase := .prepared
  proofs := 0
  reason := none

def run (fuel : Nat) (id : String) (rehearsal : Bool) : Calling Returned :=
  let outcome := prepared id rehearsal
  if transaction.policy.invalid then
    pure (outcome, some .invalidPolicy)
  else if rehearsal = false ∧ transaction.hasTunnel = false then
    pure (outcome, some .noTunnel)
  else if rehearsal = false ∧ transaction.hasIncumbent = false then
    pure (outcome, some .noIncumbent)
  else do
    let begun ← ask answers.begins .begun
    if begun then
      if rehearsal then rehearse answers transaction fuel outcome
      else handOver answers transaction fuel outcome
    else pure (outcome, some .failedCall)

end Programs

/-! ## Following a program -/

/-- What holds of the answer and the calls when a program returns. -/
def Yields {α : Type} (program : Calling α) (log : List Event)
    (promise : α → List Event → Prop) : Prop :=
  ∀ answer after, program log = some (answer, after) → promise answer after

section Rules

variable {α β : Type} {log : List Event}

theorem Yields.mono
    {program : Calling α} {strong weak : α → List Event → Prop}
    (yields : Yields program log strong)
    (weakens : ∀ answer after, strong answer after → weak answer after) :
    Yields program log weak :=
  fun answer after ran => weakens answer after (yields answer after ran)

theorem yields_pure
    {value : α} {promise : α → List Event → Prop}
    (holds : promise value log) : Yields (pure value) log promise := by
  intro answer after ran
  cases ran
  exact holds

theorem yields_bind
    {program : Calling α} {continuation : α → Calling β}
    {promise : β → List Event → Prop}
    (yields :
      Yields program log fun answer middle =>
        Yields (continuation answer) middle promise) :
    Yields (program >>= continuation) log promise := by
  intro answer after ran
  obtain ⟨⟨value, middle⟩, first, second⟩ := Option.bind_eq_some_iff.mp ran
  exact yields value middle first answer after second

theorem yields_ask
    {question : List Event → α} {event : α → Event}
    {continuation : α → Calling β} {promise : β → List Event → Prop}
    (yields :
      ∀ answer,
        Yields (continuation answer) (log ++ [event answer]) promise) :
    Yields (ask question event >>= continuation) log promise :=
  yields_bind fun answer after ran => by
    cases ran
    exact yields _

end Rules

/-! ## What the loops call -/

/-- A look at the incumbent, or an attempt to stop it. -/
def Event.looks : Event → Bool
  | looked _ => true
  | incumbentStopped _ _ => true
  | _ => false

section Loops

variable {answers : Answers} {transaction : Transaction} {log : List Event}

/-- The last answers are that many traversals in a row. -/
def Row (seen : List (Option Bool)) (count : Nat) : Prop :=
  ∃ earlier, seen = earlier ++ List.replicate count (some true)

theorem Row.tally
    {seen : List (Option Bool)} {count : Nat} (row : Row seen count)
    (traversed : Bool) :
    Row (seen ++ [some traversed]) (tally traversed count) := by
  obtain ⟨earlier, rfl⟩ := row
  cases traversed with
  | true =>
      refine ⟨earlier, ?_⟩
      rw [Handover.tally, if_pos rfl, List.replicate_succ', List.append_assoc]
  | false => exact ⟨_, (List.append_nil _).symm⟩

/-- Enough proofs are traversals in a row, and nothing else was called. -/
theorem yields_proveWithin
    (fuel : Nat) {consecutive : Nat} {before : List (Option Bool)}
    (row : Row before consecutive)
    (few : (consecutive : Int) < transaction.policy.proofs) :
    Yields (proveWithin answers transaction fuel consecutive) log
      fun proved after =>
        ∃ seen, after = log ++ seen.map .traversed ∧
          (transaction.policy.proofs ≤ (proved.1 : Int) →
            Row (before ++ seen) proved.1) := by
  induction fuel generalizing consecutive before log with
  | zero =>
      intro answer after ran
      cases ran
  | succ fuel inductionHypothesis =>
      change Yields (ite _ _ _) log _
      split
      · refine yields_ask fun answer => ?_
        cases answer with
        | none =>
            refine yields_pure ⟨[none], by simp, fun enough => ?_⟩
            exact absurd few (not_lt.mpr enough)
        | some traversed =>
            have further := row.tally traversed
            change Yields (ite _ _ _) _ _
            split
            · exact yields_pure ⟨[some traversed], by simp, fun _ => further⟩
            rename_i short
            change Yields (ite _ _ _) _ _
            split
            · exact yields_pure ⟨[some traversed], by simp, fun _ => further⟩
            have fewer :
                (tally traversed consecutive : Int) <
                  transaction.policy.proofs := by
              cases traversed with
              | true => exact not_le.mp fun enough => short ⟨rfl, enough⟩
              | false =>
                  change ((0 : Nat) : Int) < _
                  omega
            refine (inductionHypothesis further fewer).mono ?_
            rintro proved after ⟨seen, rfl, enough⟩
            refine ⟨some traversed :: seen, by simp, fun proofs => ?_⟩
            simpa using enough proofs
      · refine yields_pure ⟨[], by simp, fun enough => ?_⟩
        exact absurd few (not_lt.mpr enough)

theorem yields_prove
    (fuel : Nat) (valid : ¬ transaction.policy.invalid) :
    Yields (prove answers transaction fuel) log
      fun proved after =>
        ∃ seen, after = log ++ seen.map .traversed ∧
          (transaction.policy.proofs ≤ (proved.1 : Int) →
            Row seen proved.1) := by
  have positive : (0 : Int) < transaction.policy.proofs := by
    unfold Policy.invalid at valid
    omega
  exact yields_proveWithin fuel ⟨[], rfl⟩ positive

/-- Looks at the incumbent and at most a stop of it, and a last look that saw
it gone if the wait is over. -/
def Looked (error : Option HandoverError) (calls : List Event) : Prop :=
  (∀ event ∈ calls, event.looks = true) ∧
    (error = none → ∃ front, calls = front ++ [.looked (some none)])

theorem Looked.cons
    {error : Option HandoverError} {calls : List Event} {event : Event}
    (looked : Looked error calls) (looks : event.looks = true) :
    Looked error (event :: calls) := by
  refine ⟨List.forall_mem_cons.mpr ⟨looks, looked.1⟩, fun gone => ?_⟩
  obtain ⟨front, rfl⟩ := looked.2 gone
  exact ⟨event :: front, rfl⟩

theorem looked_gone : Looked none [.looked (some none)] :=
  ⟨by simp [Event.looks], fun _ => ⟨[], rfl⟩⟩

theorem looked_refused
    {event : Event} {error : HandoverError} (looks : event.looks = true) :
    Looked (some error) [event] :=
  ⟨by simpa using looks, nofun⟩

theorem yields_waitUntilGone (fuel : Nat) :
    Yields (waitUntilGone answers fuel) log fun error after =>
      ∃ calls, after = log ++ calls ∧ Looked error calls := by
  induction fuel generalizing log with
  | zero =>
      intro answer after ran
      cases ran
  | succ fuel inductionHypothesis =>
      refine yields_ask fun answer => ?_
      match answer with
      | none => exact yields_pure ⟨_, rfl, looked_refused rfl⟩
      | some none => exact yields_pure ⟨_, rfl, looked_gone⟩
      | some (some pid) =>
          change Yields (ite _ _ _) _ _
          split
          · exact yields_pure ⟨_, rfl, looked_refused rfl⟩
          · refine inductionHypothesis.mono ?_
            rintro error after ⟨calls, rfl, looked⟩
            refine ⟨.looked (some (some pid)) :: calls, by simp, ?_⟩
            exact looked.cons rfl

theorem yields_possess (fuel : Nat) :
    Yields (possess answers fuel) log fun error after =>
      ∃ calls, after = log ++ calls ∧ Looked error calls := by
  refine yields_ask fun answer => ?_
  match answer with
  | none => exact yields_pure ⟨_, rfl, looked_refused rfl⟩
  | some none => exact yields_pure ⟨_, rfl, looked_gone⟩
  | some (some pid) =>
      refine yields_ask fun done => ?_
      cases done with
      | false =>
          refine yields_pure ⟨_, List.append_assoc _ _ _, ?_⟩
          exact (looked_refused rfl).cons rfl
      | true =>
          refine (yields_waitUntilGone fuel).mono ?_
          rintro error after ⟨calls, rfl, looked⟩
          refine
            ⟨.looked (some (some pid)) :: .incumbentStopped pid true :: calls,
              by simp, ?_⟩
          exact (looked.cons rfl).cons rfl

end Loops

/-! ## What a run has done -/

/-- The call changes neither the claim nor a tunnel. -/
def Event.harmless : Event → Bool
  | placed _ => false
  | released _ => false
  | incumbentStopped _ _ => false
  | started _ => false
  | stopped _ _ => false
  | _ => true

/-- A session call, a release of the claim or a stop that failed. -/
def Event.failed : Event → Bool
  | begun done => !done
  | recorded _ done => !done
  | cleared done => !done
  | released done => !done
  | stopped _ done => !done
  | _ => false

/-- The tunnel was taken: the claimed phase, the claim, looks until the
incumbent does not run, the started phase, one start, proofs that end in
enough traversals in a row, the proven phase. -/
def Possession (needed : Int) (log : List Event) : Prop :=
  ∃ (looks : List Event) (pid : Int) (proofs : List (Option Bool))
      (cleared : Bool),
    log =
        [Event.begun true, Event.recorded .claimed true,
            Event.placed true] ++ looks ++
          [Event.looked (some none), Event.recorded .started true,
            Event.started (some pid)] ++
          proofs.map Event.traversed ++
          List.replicate needed.toNat (Event.traversed (some true)) ++
          [Event.recorded .proven true, Event.cleared cleared] ∧
      ∀ event ∈ looks, event.looks = true

/-- A claim is placed or a tunnel started. -/
def Event.takes : Event → Bool
  | placed _ => true
  | started _ => true
  | _ => false

/-- Afterwards, what was started is stopped and the claim is released. -/
def Undone (log : List Event) : Prop :=
  ∃ calls undo, log = calls ++ undo ∧
    (∀ event ∈ undo, event.takes = false) ∧
    (∀ pid, .started (some pid) ∈ calls → .stopped pid true ∈ undo) ∧
    (.placed true ∈ calls → .released true ∈ undo)

/-- What the calls of a run say about its outcome. -/
structure Judged
    (needed : Int) (rehearsal : Bool) (returned : Returned)
    (log : List Event) : Prop where
  possessed :
    rehearsal = false → returned.1.completed = true → Possession needed log
  rehearsed : rehearsal = true → ∀ event ∈ log, event.harmless = true
  undone :
    rehearsal = false → returned.1.completed = false →
      (∀ event ∈ log, event.failed = false) → Undone log

section Runs

variable {answers : Answers} {transaction : Transaction}
  {log calls undo : List Event} {outcome : Outcome} {needed : Int}
  {returned : Returned}

/-- An exit at which something failed, or all was undone. -/
theorem judged_of_stop
    (incomplete : returned.1.completed = false)
    (undone : (∀ event ∈ log, event.failed = false) → Undone log) :
    Judged needed false returned log :=
  ⟨fun _ completed => by simp [incomplete] at completed, nofun,
    fun _ _ => undone⟩

theorem judged_of_failure
    {event : Event} (incomplete : returned.1.completed = false)
    (failed : event.failed = true) :
    Judged needed false returned (log ++ [event]) := by
  refine judged_of_stop incomplete fun clean => ?_
  have done := clean event (by simp)
  rw [failed] at done
  cases done

theorem yields_giveUp
    (incomplete : outcome.completed = false)
    (only : ∀ event ∈ undo, event.takes = false)
    (stops :
      (∀ event ∈ undo, event.failed = false) →
        ∀ pid, .started (some pid) ∈ calls → .stopped pid true ∈ undo) :
    Yields (giveUp answers outcome) (calls ++ undo) (Judged needed false) := by
  refine yields_ask fun released => ?_
  cases released with
  | false => exact yields_pure (judged_of_failure incomplete rfl)
  | true =>
      refine yields_ask fun recorded => ?_
      cases recorded with
      | false => exact yields_pure (judged_of_failure incomplete rfl)
      | true =>
          refine yields_ask fun cleared => ?_
          refine yields_pure (judged_of_stop incomplete fun clean => ?_)
          refine
            ⟨calls,
              undo ++
                [.released true, .recorded .aborted true, .cleared cleared],
              by simp, ?_, ?_, by simp⟩
          · intro event member
            simp only [List.mem_append, List.mem_cons, List.not_mem_nil,
              or_false] at member
            rcases member with inside | rfl | rfl | rfl
            · exact only event inside
            · rfl
            · rfl
            · rfl
          · intro pid started
            refine List.mem_append_left _ (stops ?_ pid started)
            exact fun event member => clean event (by simp [member])

/-- An abort stops what it is told of, which is all that was started. -/
theorem yields_abort
    {pid : Int} {reason : Reason}
    (incomplete : outcome.completed = false)
    (tunnel : transaction.hasTunnel = true)
    (only : ∀ other, .started (some other) ∈ log → other = pid ∧ 0 < pid) :
    Yields (abort answers transaction outcome pid reason) log
      (Judged needed false) := by
  refine yields_bind ?_
  unfold stopStarted
  split
  · refine yields_ask fun done => yields_pure ?_
    refine yields_giveUp incomplete (by simp [Event.takes]) ?_
    intro clean other started
    cases done with
    | true =>
        rw [(only other started).1]
        exact List.mem_singleton.mpr rfl
    | false => exact absurd (clean _ (List.mem_singleton.mpr rfl)) nofun
  · rename_i kept
    refine yields_pure ?_
    have ends :=
      @yields_giveUp answers log [] { outcome with reason := some reason }
        needed incomplete (by simp)
        fun _ other started => absurd ⟨(only other started).2, tunnel⟩ kept
    rwa [List.append_nil] at ends

/-- The calls up to the start of the tunnel. -/
def taken (looks : List Event) (pid : Int) : List Event :=
  [.begun true, .recorded .claimed true, .placed true] ++ looks ++
    [.looked (some none), .recorded .started true, .started (some pid)]

theorem started_of_mem_taken
    {looks : List Event} {pid other : Int} {seen : List (Option Bool)}
    (only : ∀ event ∈ looks, event.looks = true)
    (member :
      .started (some other) ∈ taken looks pid ++ seen.map Event.traversed) :
    other = pid := by
  simp only [taken, List.mem_append, List.mem_cons, List.not_mem_nil,
    or_false, List.mem_map, reduceCtorEq, and_false, exists_false,
    Event.started.injEq, Option.some.injEq, false_or] at member
  rcases member with inside | is
  · exact absurd (only _ inside) nofun
  · exact is

theorem yields_proveStarted
    {fuel : Nat} {pid : Int} {looks : List Event}
    (valid : ¬ transaction.policy.invalid)
    (tunnel : transaction.hasTunnel = true)
    (incomplete : outcome.completed = false)
    (positive : 0 < pid) (only : ∀ event ∈ looks, event.looks = true) :
    Yields (proveStarted answers transaction fuel outcome pid)
      (taken looks pid) (Judged transaction.policy.proofs false) := by
  refine yields_bind ((yields_prove fuel valid).mono ?_)
  rintro ⟨proofs, reason⟩ after ⟨seen, rfl, enough⟩
  change Yields (ite _ _ _) _ _
  split
  · refine yields_abort incomplete tunnel fun other started => ?_
    exact ⟨started_of_mem_taken only started, positive⟩
  · rename_i proved
    refine yields_ask fun recorded => ?_
    cases recorded with
    | false => exact yields_pure (judged_of_failure incomplete rfl)
    | true =>
        refine yields_ask fun cleared => yields_pure ?_
        obtain ⟨earlier, rfl⟩ := enough (not_lt.mp proved)
        refine ⟨fun _ _ => ?_, nofun, fun _ open' => by cases open'⟩
        obtain ⟨more, is⟩ : ∃ more, proofs =
            more + transaction.policy.proofs.toNat :=
          ⟨proofs - transaction.policy.proofs.toNat, by omega⟩
        refine
          ⟨looks, pid, earlier ++ List.replicate more (some true), cleared,
            ?_, only⟩
        rw [is, List.replicate_add]
        simp [taken]

theorem yields_handOver
    {fuel : Nat} (valid : ¬ transaction.policy.invalid)
    (tunnel : transaction.hasTunnel = true)
    (incomplete : outcome.completed = false)
    (positive : ∀ pid, answers.start = some pid → 0 < pid) :
    Yields (handOver answers transaction fuel outcome) [.begun true]
      (Judged transaction.policy.proofs false) := by
  refine yields_ask fun recorded => ?_
  cases recorded with
  | false => exact yields_pure (judged_of_failure incomplete rfl)
  | true =>
      refine yields_ask fun placed => ?_
      cases placed with
      | false => exact yields_abort incomplete tunnel (by simp)
      | true =>
          refine yields_bind ((yields_possess fuel).mono ?_)
          rintro (_ | error) after ⟨looks, rfl, only, gone⟩
          · obtain ⟨front, rfl⟩ := gone rfl
            refine yields_ask fun recorded => ?_
            cases recorded with
            | false => exact yields_pure (judged_of_failure incomplete rfl)
            | true =>
                have fronts : ∀ event ∈ front, event.looks = true :=
                  fun event member => only event (by simp [member])
                refine yields_bind fun start after ran => ?_
                cases ran
                cases is : answers.start with
                | none =>
                    refine yields_abort incomplete tunnel fun other started =>
                      ?_
                    have inside : Event.started (some other) ∈ front := by
                      simpa using started
                    exact absurd (fronts _ inside) nofun
                | some pid =>
                    have ends :=
                      @yields_proveStarted answers transaction
                        { outcome with phase := .started } fuel pid front
                        valid tunnel incomplete (positive pid is) fronts
                    simpa [taken] using ends
          · refine yields_abort incomplete tunnel fun other started => ?_
            have inside : Event.started (some other) ∈ looks := by
              simpa using started
            exact absurd (only _ inside) nofun

theorem yields_rehearse {fuel : Nat} (valid : ¬ transaction.policy.invalid) :
    Yields (rehearse answers transaction fuel outcome) [.begun true]
      (Judged needed true) := by
  have judged :
      ∀ {returned : Returned} {calls : List Event},
        (∀ event ∈ calls, event.harmless = true) →
          Judged needed true returned calls :=
    fun harmless => ⟨nofun, fun _ => harmless, nofun⟩
  refine yields_bind ((yields_prove fuel valid).mono ?_)
  rintro ⟨proofs, reason⟩ after ⟨seen, rfl, _⟩
  refine yields_ask fun recorded => ?_
  have proved :
      ∀ event ∈ [Event.begun true] ++ seen.map Event.traversed,
        event.harmless = true := by
    intro event member
    simp only [List.cons_append, List.nil_append, List.mem_cons,
      List.mem_map] at member
    rcases member with rfl | ⟨answer, _, rfl⟩ <;> rfl
  cases recorded with
  | false =>
      refine yields_pure (judged fun event member => ?_)
      rcases List.mem_append.mp member with old | new
      · exact proved event old
      · cases List.mem_singleton.mp new
        rfl
  | true =>
      refine yields_ask fun cleared => yields_pure (judged ?_)
      intro event member
      rcases List.mem_append.mp member with old | new
      · rcases List.mem_append.mp old with older | recent
        · exact proved event older
        · cases List.mem_singleton.mp recent
          rfl
      · cases List.mem_singleton.mp new
        rfl

theorem yields_run
    {fuel : Nat} {id : String} {rehearsal : Bool}
    (positive : ∀ pid, answers.start = some pid → 0 < pid) :
    Yields (run answers transaction fuel id rehearsal) []
      (Judged transaction.policy.proofs rehearsal) := by
  have refused :
      ∀ error, Judged transaction.policy.proofs rehearsal
        (prepared id rehearsal, some error) [] :=
    fun error =>
      ⟨fun _ completed => (by cases completed), fun _ => (by simp),
        fun _ _ _ => ⟨[], [], rfl, by simp, by simp, by simp⟩⟩
  unfold run
  dsimp only
  split
  · exact yields_pure (refused _)
  rename_i invalid
  split
  · exact yields_pure (refused _)
  rename_i noTunnel
  split
  · exact yields_pure (refused _)
  · refine yields_ask fun begun => ?_
    cases begun with
    | false =>
        cases rehearsal with
        | true =>
            exact
              yields_pure ⟨nofun, fun _ => by simp [Event.harmless], nofun⟩
        | false => exact yields_pure (judged_of_failure rfl rfl)
    | true =>
        cases rehearsal with
        | true => exact yields_rehearse invalid
        | false =>
            refine yields_handOver invalid ?_ rfl positive
            simpa using noTunnel

end Runs

/-! ## A start without a process -/

/-- Everything is done, and no proof is given before the interruption. -/
def unproved (pid : Int) : Answers where
  begins := fun _ => true
  records := fun _ => true
  clears := fun _ => true
  places := fun _ => true
  releases := fun _ => true
  running := fun _ => some none
  stopsIncumbent := fun _ => true
  start := some pid
  stops := fun _ => true
  traverses := fun _ => some false
  early := fun _ => true
  interrupted := fun _ => true

/-- A handover with every collaborator, for one proof. -/
def oneProof : Transaction := ⟨false, true, true, true, ⟨1, 1, 1, 1⟩⟩

def unprovedLog (pid : Int) : List Event :=
  [.begun true, .recorded .claimed true, .placed true, .looked (some none),
    .recorded .started true, .started (some pid), .traversed (some false),
    .released true, .recorded .aborted true, .cleared true]

theorem unproved_run {pid : Int} (none : ¬ 0 < pid) (id : String) :
    run (unproved pid) oneProof 1 id false [] =
      some
        (({ prepared id false with
            phase := .aborted, reason := some .interrupted },
          Option.none),
        unprovedLog pid) := by
  simp [run, handOver, startOwn, proveStarted, prove, proveWithin, possess,
    abort, stopStarted, giveUp, close, ask, unproved, oneProof,
    Policy.invalid, none, unprovedLog, prepared, tally, bind, StateT.bind,
    pure, StateT.pure, get, getThe, MonadStateOf.get, StateT.get]

theorem unproved_not_judged {pid : Int} {returned : Returned}
    (incomplete : returned.1.completed = false) :
    ¬ Judged 1 false returned (unprovedLog pid) := by
  intro judged
  obtain ⟨calls, undo, is, only, stops, _⟩ :=
    judged.undone rfl incomplete (by simp [unprovedLog, Event.failed])
  have started : Event.started (some pid) ∈ calls ++ undo := by
    rw [← is]
    simp [unprovedLog]
  rcases List.mem_append.mp started with inCalls | inUndo
  · have stopped : Event.stopped pid true ∈ unprovedLog pid := by
      rw [is]
      exact List.mem_append_right _ (stops pid inCalls)
    simp [unprovedLog] at stopped
  · exact absurd (only _ inUndo) nofun

end Hexroute.Handover.Traced
