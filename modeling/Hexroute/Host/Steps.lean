import Hexroute.Host.Publish
import Hexroute.Lineage.Held

/-!
# What each call of the runtime can do

One inversion lemma for each call: what a publication and a tick leave, and
what startup went through.  Later proofs never unfold the calls themselves.
-/

namespace Hexroute.Host

open Hexroute.Connectivity
open Hexroute.Lib
open Hexroute.Accept (Event Screened State orderAll)
open Hexroute.Lineage (Checkpoint Operation)
open Hexroute.Reduce (InOrder nextConsumed)

section Orders

/-- The accepted events of a queue. -/
def acceptedOf (events : List Event) : List Event :=
  events.filter (·.acceptance.outcome = .accepted)

theorem foldl_nextConsumed (consumed : Nat) (events : List Event) :
    events.foldl nextConsumed consumed =
      consumed + (acceptedOf events).length := by
  induction events generalizing consumed with
  | nil =>
      rfl
  | cons event rest inductionHypothesis =>
      rw [List.foldl_cons, inductionHypothesis]
      by_cases accepted : event.acceptance.outcome = .accepted
      · simp [acceptedOf, nextConsumed, accepted]
        omega
      · simp [acceptedOf, nextConsumed, accepted]

/-- A queue continues both orders when the positions it carries are
consecutive in each. -/
theorem inOrder_iff
    {consumed folded : Nat} {events : List Event} :
    InOrder consumed folded events ↔
      events.map (·.acceptance.foldPosition) =
          List.range' (folded + 1) events.length ∧
        (acceptedOf events).map (·.acceptance.hostSequence) =
            List.range' (consumed + 1) (acceptedOf events).length ∧
          ∀ event ∈ events, event.acceptance.outcome ≠ .rejected := by
  induction events generalizing consumed folded with
  | nil =>
      simp [InOrder, acceptedOf]
  | cons event rest inductionHypothesis =>
      rw [InOrder, inductionHypothesis]
      by_cases accepted : event.acceptance.outcome = .accepted
      · have first :
            acceptedOf (event :: rest) = event :: acceptedOf rest := by
          simp [acceptedOf, accepted]
        rw [first]
        simp only [nextConsumed, if_pos accepted, List.map_cons,
          List.length_cons, List.range'_succ, List.cons.injEq,
          List.forall_mem_cons]
        constructor
        · rintro ⟨takes, folds, hosts, offered⟩
          exact
            ⟨⟨takes.folded, folds⟩, ⟨takes.consumed accepted, hosts⟩,
              takes.offered, offered⟩
        · rintro ⟨⟨fold, folds⟩, ⟨host, hosts⟩, decided, offered⟩
          exact ⟨⟨fold, fun _ => host, decided⟩, folds, hosts, offered⟩
      · have first : acceptedOf (event :: rest) = acceptedOf rest := by
          simp [acceptedOf, accepted]
        rw [first]
        simp only [nextConsumed, if_neg accepted, List.map_cons,
          List.length_cons, List.range'_succ, List.cons.injEq,
          List.forall_mem_cons]
        constructor
        · rintro ⟨takes, folds, hosts, offered⟩
          exact ⟨⟨takes.folded, folds⟩, hosts, takes.offered, offered⟩
        · rintro ⟨⟨fold, folds⟩, hosts, decided, offered⟩
          exact
            ⟨⟨fold, fun taken => absurd taken accepted, decided⟩, folds,
              hosts, offered⟩

end Orders

/-- The results of the journal writes a call makes. -/
def Step.attempts (environment : Environment) (runtime : Runtime) :
    Step → List Bool
  | .publish offers domain =>
      if runtime.enabled then
        match runtime.journals domain with
        | none => []
        | some journal =>
            attempted environment.digest domain
              (decide (journal.domain = domain)) offers
      else
        []
  | .tick _ _ _ => []

/-- A publication that reaches its journal. -/
theorem Runtime.publish_eq
    (environment : Environment) {runtime : Runtime} (offers : List Offer)
    {domain : Domain} {journal : Journal} (enabled : runtime.enabled = true)
    (known : runtime.journals domain = some journal) :
    ∃ (after : Publication) (written : List Screened)
      (lost : Option Screened),
      Published environment.digest domain
          { acceptor := runtime.acceptor
            journal := journal
            pending := runtime.pending } after written lost ∧
        (Step.publish offers domain).attempts environment runtime =
          List.replicate written.length true ++
            List.replicate lost.toList.length false ∧
        (runtime.publish environment offers domain).2.2 =
          { runtime with
            acceptor := after.acceptor
            journals :=
              Function.update runtime.journals domain (some after.journal)
            pending := after.pending } := by
  obtain ⟨written, lost, published, attempts⟩ :=
    publishFacts_spec environment.digest domain
      { acceptor := runtime.acceptor
        journal := journal
        pending := runtime.pending } offers
  refine ⟨_, written, lost, published, ?_, ?_⟩
  · simp only [Step.attempts, enabled, known, if_true]
    exact attempts
  · simp only [Runtime.publish, enabled, known, Bool.not_true,
      Bool.false_eq_true, if_false]
    split <;> rfl

/-- A publication that reaches no journal changes nothing. -/
theorem Runtime.publish_unreached
    (environment : Environment) (runtime : Runtime) (offers : List Offer)
    (domain : Domain)
    (unreached :
      ¬(runtime.enabled = true ∧ ∃ journal,
        runtime.journals domain = some journal)) :
    (Step.publish offers domain).attempts environment runtime = [] ∧
      (runtime.publish environment offers domain).2.2 = runtime := by
  by_cases enabled : runtime.enabled = true
  · cases known : runtime.journals domain with
    | none =>
        simp [Step.attempts, Runtime.publish, enabled, known]
    | some journal =>
        exact absurd ⟨enabled, journal, known⟩ unreached
  · simp [Step.attempts, Runtime.publish, enabled]

/-- Checkpointing changes the lineage and nothing else, and stores nothing
but what the reduction left. -/
theorem Runtime.checkpoint_eq
    (environment : Environment) (fires : Operation → Boundary → Bool)
    (id : Option String) (runtime : Runtime) (before : Nat)
    (output : Reduce.Output) (wake : Option Reduce.Wake) :
    ∃ store parent broken,
      (Runtime.checkpoint environment fires id runtime before output
          wake).2 =
        { runtime with store := store, parent := parent, broken := broken } ∧
      ∀ held : Checkpoint,
        store.Holds held → runtime.store.Holds held ∨ held.Carries output := by
  unfold Runtime.checkpoint
  split
  · exact
      ⟨runtime.store, runtime.parent, runtime.broken, rfl,
        fun _ => Or.inl⟩
  · split
    · exact
        ⟨runtime.store, runtime.parent, runtime.broken, rfl,
          fun _ => Or.inl⟩
    · rename_i checkpoint seals
      have stored (held : Checkpoint)
          (holds :
            (runtime.store.append environment.digests environment.size fires
              checkpoint).2.Holds held) :
          runtime.store.Holds held ∨ held.Carries output := by
        rcases Lineage.holds_of_append holds with old | rfl
        · exact Or.inl old
        · exact Or.inr (Lineage.sealFrom_carries seals)
      split
      · rename_i store appended
        rw [appended] at stored
        exact ⟨store, runtime.parent, runtime.broken, rfl, stored⟩
      · rename_i store appended
        rw [appended] at stored
        exact ⟨store, some checkpoint, none, rfl, stored⟩

/-- A tick leaves everything, or folds the queue and changes only the lineage
besides. -/
theorem Runtime.tick_cases
    (environment : Environment) (fires : Operation → Boundary → Bool)
    (id : Option String) (runtime : Runtime) (input : TickInput) :
    (runtime.tick environment fires id input).2.2 = runtime ∨
      ∃ output store parent broken,
        Reduce.reduce environment.digests.toHashes
            (runtime.reduction input) = .ok output ∧
          (runtime.tick environment fires id input).2.2 =
            { runtime.folded output with
              store := store, parent := parent, broken := broken } ∧
          ∀ held : Checkpoint,
            store.Holds held →
              runtime.store.Holds held ∨ held.Carries output := by
  unfold Runtime.tick
  split
  · exact Or.inl rfl
  · split
    · exact Or.inl rfl
    · rename_i output reduced
      right
      split
      · exact
          ⟨output, runtime.store, runtime.parent, runtime.broken, reduced,
            rfl, fun _ => Or.inl⟩
      · obtain ⟨store, parent, broken, checkpointed, stored⟩ :=
          Runtime.checkpoint_eq environment fires id (runtime.folded output)
            runtime.consumed output input.wake
        exact
          ⟨output, store, parent, broken, reduced, checkpointed, stored⟩

/-- No call turns the runtime on or off or gives a journal to another
domain. -/
theorem Runtime.step_frame
    (environment : Environment) (runtime : Runtime) (step : Step) :
    (runtime.step environment step).enabled = runtime.enabled ∧
      ∀ domain,
        ((runtime.step environment step).journals domain).map
            Journal.domain =
          (runtime.journals domain).map Journal.domain := by
  cases step with
  | publish offers domain =>
      by_cases reached :
          runtime.enabled = true ∧ ∃ journal,
            runtime.journals domain = some journal
      · obtain ⟨enabled, journal, known⟩ := reached
        obtain ⟨after, _, _, published, _, publishes⟩ :=
          Runtime.publish_eq environment offers enabled known
        rw [Runtime.step, publishes]
        refine ⟨rfl, ?_⟩
        intro other
        by_cases same : other = domain
        · subst same
          simp [known, published.domain]
        · simp [Function.update_of_ne same]
      · rw [Runtime.step,
          (Runtime.publish_unreached environment runtime offers domain
            reached).2]
        exact ⟨rfl, fun _ => rfl⟩
  | tick input id fires =>
      rcases Runtime.tick_cases environment fires id runtime input with
        kept | ⟨output, store, parent, broken, _, folded, _⟩
      · rw [Runtime.step, kept]
        exact ⟨rfl, fun _ => rfl⟩
      · rw [Runtime.step, folded]
        exact ⟨rfl, fun _ => rfl⟩

/-- The results of all the journal writes of a run, in order. -/
def appends
    (environment : Environment) (runtime : Runtime) (steps : List Step) : List Bool :=
  steps.flatMap (Step.attempts environment runtime)

/-- Which writes a call attempts depends only on what no call changes. -/
theorem Step.attempts_step
    (environment : Environment) (runtime : Runtime) (first second : Step) :
    second.attempts environment (runtime.step environment first) =
      second.attempts environment runtime := by
  have frame := Runtime.step_frame environment runtime first
  cases second with
  | tick input id fires =>
      rfl
  | publish offers domain =>
      have own := frame.2 domain
      simp only [Step.attempts, frame.1]
      cases before : runtime.journals domain with
      | none =>
          rw [before, Option.map_none, Option.map_eq_none_iff] at own
          rw [own]
      | some journal =>
          rw [before, Option.map_some, Option.map_eq_some_iff] at own
          obtain ⟨after, held, named⟩ := own
          simp only [held, named]

theorem appends_step
    (environment : Environment) (runtime : Runtime) (step : Step)
    (rest : List Step) :
    appends environment (runtime.step environment step) rest =
      appends environment runtime rest := by
  unfold appends
  congr 1
  funext later
  exact Step.attempts_step environment runtime step later

/-- Accepting records again orders their facts. -/
theorem reaccept_spec
    {digest : Fact → Option String} {state final : State}
    {records : List Record} {events : List Event}
    (accepts : reaccept digest state records = .ok (events, final)) :
    ∃ items : List Screened,
      (∀ item ∈ items, Passes digest item) ∧
        items.map Screened.fact = records.map Record.fact ∧
          orderAll state items = (events, final) := by
  induction records generalizing state events final with
  | nil =>
      refine ⟨[], by simp, rfl, ?_⟩
      simpa [reaccept, orderAll] using accepts
  | cons record rest inductionHypothesis =>
      rcases accept_cases digest state record.fact record.fact.domain with
        ⟨rejection, _, rejected⟩ | ⟨item, passes, own, _, _, ordered⟩
      · simp [reaccept, rejected] at accepts
      · simp only [reaccept, ordered, bind_eq_ok_iff, pure_eq_ok_iff,
          Prod.mk.injEq] at accepts
        obtain ⟨_, _, ⟨later, last⟩, accepts, rfl, rfl⟩ := accepts
        obtain ⟨items, passed, facts, orders⟩ := inductionHypothesis accepts
        refine ⟨item :: items, ?_, ?_, ?_⟩
        · rw [List.forall_mem_cons]
          exact ⟨passes, passed⟩
        · rw [List.map_cons, List.map_cons, own, facts]
        · rw [Accept.orderAll_cons, orders, own]

theorem restoreAcceptor_counters
    {snapshot : Reduce.Snapshot} {watermarks : List Reduce.SourceWatermark}
    {state : State}
    (restored : Reduce.restoreAcceptor snapshot watermarks = .ok state) :
    state.hostSequence = snapshot.consumedHostSequence ∧
      state.foldPosition = snapshot.consumedFoldPosition := by
  simp only [Reduce.restoreAcceptor, Accept.restore, bind_eq_ok_iff,
    pure_eq_ok_iff] at restored
  obtain ⟨_, _, rfl⟩ := restored
  exact ⟨rfl, rfl⟩

end Hexroute.Host
