import Hexroute.Reconciler.Synthetic

/-!
# A requested cancellation is resolved

The steps that were applied are compensated, the resources of the attempt
are closed, and then the attempt moves to the state that follows from both.
The move comes last, and the table of transitions may refuse it.
-/

namespace Hexroute.Reconciler

open Hexroute.Lib

inductive ResourceKind where
  | helper
  | file
  | lease
  deriving DecidableEq, Repr

inductive ResourceState where
  | registered
  | closed
  | failed
  deriving DecidableEq, Repr

structure ResourceRecord where
  resourceID : String
  kind : ResourceKind
  state : ResourceState
  ownerSHA256 : String
  deriving DecidableEq, Repr

structure CleanupResult where
  closed : List String
  failed : List String
  incident : Option IncidentRecord
  uncertainty : Bool
  deriving DecidableEq, Repr

structure CancellationIntentRecord where
  cancelID : String
  actionID : String
  attemptID : String
  binding : AttemptBinding
  observedState : AttemptState
  reason : Reason
  intentSHA256 : String
  deriving DecidableEq, Repr

/-- What a cancellation works on: the journal and the intents by action, the
registered resources in the order of their names, and the adapter. -/
structure Setting (σ : Type) where
  journal : String → List AttemptJournalEntry
  intents : String → Option CancellationIntentRecord
  registry : List ResourceRecord
  called : Called σ

inductive CancellationError where
  | intent
  | rejected
  | adapter
  | journal (cause : JournalError)
  deriving DecidableEq, Repr

inductive TerminalOutcome where
  | committed
  | expired
  | denied
  | cancelled
  | rolledBack
  | failed
  | safeMode
  deriving DecidableEq, Repr

/-- The outcome to report; its delivery is pending. -/
structure OutcomeRecord where
  actionID : String
  attemptID : String
  outcome : TerminalOutcome
  reason : Reason
  deriving DecidableEq, Repr

structure CancellationResolution where
  intent : CancellationIntentRecord
  attempt : AttemptJournalEntry
  compensation : CompensationResult
  cleanup : CleanupResult
  outcome : OutcomeRecord
  deriving DecidableEq, Repr

def buildCancellationOutcome
    (binding : AttemptBinding) (state : AttemptState) (reason : Reason) :
    OutcomeRecord :=
  let outcome : TerminalOutcome :=
    match state with
    | .rolledBack => .rolledBack
    | .safeMode => .safeMode
    | .failed => .failed
    | _ => .cancelled
  ⟨binding.actionID, binding.attemptID, outcome, reason⟩

def cancellableAttemptState (state : AttemptState) : Bool :=
  state ∈ [.pending, .claimed, .running, .verifying]

section Resolution

variable {σ : Type} (checks : Checks)
  (encodeIntent : CancellationIntentRecord → String)
  (adapter : SyntheticAdapter σ)

/-- `encodeIntent` reads every field but the digest. -/
def CancellationIntentRecord.valid (intent : CancellationIntentRecord) :
    Bool :=
  checks.validDigest intent.intentSHA256 &&
    checks.validUUID intent.cancelID && checks.validUUID intent.actionID &&
    checks.validUUID intent.attemptID && intent.binding.valid checks &&
    decide (intent.actionID = intent.binding.actionID) &&
    decide (intent.attemptID = intent.binding.attemptID) &&
    decide (checks.sha256Hex (encodeIntent intent) = intent.intentSHA256)

def attemptBindingSHA256 (binding : AttemptBinding) : String :=
  checks.sha256Hex (checks.encodeBinding binding)

/-- A record that a cleanup for this attempt does not close. -/
def ResourceRecord.keeps (binding : AttemptBinding)
    (record : ResourceRecord) : Bool :=
  decide (record.ownerSHA256 ≠ attemptBindingSHA256 checks binding) ||
    decide (record.state = .failed)

def closeAll (binding : AttemptBinding) (registry : List ResourceRecord) :
    CleanupResult × List ResourceRecord :=
  if binding.valid checks = false then
    (⟨[], [], some (cleanupIncident binding .cleanup), true⟩, registry)
  else
    let kept := registry.filter (·.keeps checks binding)
    let closed := registry.filter fun record => !record.keeps checks binding
    (⟨closed.map (·.resourceID), kept.map (·.resourceID),
        if kept = [] then none else some (cleanupIncident binding .cleanup),
        decide (kept ≠ [])⟩,
      registry.map fun record =>
        if record.keeps checks binding then record
        else { record with state := .closed })

/-- What has to be in order before anything is touched. -/
def prepareCancellation
    (setting : Setting σ) (binding : AttemptBinding)
    (applied : List SyntheticPlanStep) :
    Except CancellationError
      (CancellationIntentRecord × AttemptJournalEntry) := do
  refuse (binding.valid checks = false ∨ maxPlanSteps < applied.length)
    .intent
  match setting.intents binding.actionID with
  | none => throw .rejected
  | some intent => do
      refuse (intent.valid checks encodeIntent = false) .intent
      match (setting.journal binding.actionID).getLast? with
      | none => throw .rejected
      | some latest => do
          refuse
            (verifyAttemptEntries checks
              (setting.journal binding.actionID) = false)
            (.journal .tamper)
          refuse
            (latest.binding ≠ binding ∨
              cancellableAttemptState latest.attempt.state = false)
            .rejected
          pure (intent, latest)

/-- Nothing is compensated where nothing was applied. -/
def compensateApplied
    (binding : AttemptBinding) (applied : List SyntheticPlanStep)
    (called : Called σ) : Option CompensationResult × Called σ :=
  if applied = [] then (some ⟨[], .cancelled, .cancelled, none⟩, called)
  else compensateSyntheticAppliedPrefix checks adapter binding applied called

/-- A cleanup that leaves a resource open ends in safe mode. -/
def CompensationResult.afterCleanup
    (compensation : CompensationResult) (cleanup : CleanupResult) :
    CompensationResult :=
  if cleanup.uncertainty = true ∧ compensation.outcome ≠ .safeMode then
    { compensation with
      outcome := .safeMode
      reason := .cleanup
      incident := compensation.incident <|> cleanup.incident }
  else compensation

/-- Close what is the attempt's, and then move it. -/
def finishCancellation
    (setting : Setting σ) (binding : AttemptBinding)
    (intent : CancellationIntentRecord) (latest : AttemptJournalEntry)
    (compensation : CompensationResult) (called : Called σ) :
    Except CancellationError CancellationResolution × Setting σ :=
  let cleaned := closeAll checks binding setting.registry
  let settled := compensation.afterCleanup cleaned.1
  match
      compareAndSwap checks (setting.journal binding.actionID) binding
        latest.attempt.state settled.outcome settled.reason with
  | .error cause =>
      (.error (.journal cause),
        { setting with called := called, registry := cleaned.2 })
  | .ok next =>
      (.ok ⟨intent, next, settled, cleaned.1,
          buildCancellationOutcome binding settled.outcome settled.reason⟩,
        { setting with
          called := called
          registry := cleaned.2
          journal := Function.update setting.journal binding.actionID
            (setting.journal binding.actionID ++ [next]) })

def resolveCancellation
    (setting : Setting σ) (binding : AttemptBinding)
    (applied : List SyntheticPlanStep) :
    Except CancellationError CancellationResolution × Setting σ :=
  match prepareCancellation checks encodeIntent setting binding applied with
  | .error cause => (.error cause, setting)
  | .ok (intent, latest) =>
      match
          compensateApplied checks adapter binding applied setting.called with
      | (none, called) => (.error .adapter, { setting with called := called })
      | (some compensation, called) =>
          finishCancellation checks setting binding intent latest compensation
            called

/-! ## What a resolution is for -/

/-- An attempt that can be cancelled, its intent, and steps of its own. -/
structure Requested
    (setting : Setting σ) (binding : AttemptBinding)
    (applied : List SyntheticPlanStep) (latest : AttemptJournalEntry) :
    Prop where
  bindingValid : binding.valid checks = true
  bounded : applied.length ≤ maxPlanSteps
  own :
    ∀ step ∈ applied, step.valid checks = true ∧ step.owner = binding
  intent :
    ∃ intent ∈ setting.intents binding.actionID,
      intent.valid checks encodeIntent = true
  verified :
    verifyAttemptEntries checks (setting.journal binding.actionID) = true
  room : (setting.journal binding.actionID).length + 1 < 2 ^ 64
  last : latest ∈ (setting.journal binding.actionID).getLast?
  same : latest.binding = binding
  cancellable : cancellableAttemptState latest.attempt.state = true

/-- The attempt ends, only its own resources are closed, and a call that
returns an error touched nothing. -/
structure Resolves
    (before : Setting σ) (binding : AttemptBinding)
    (resolved :
      Except CancellationError CancellationResolution × Setting σ) :
    Prop where
  ends :
    ∃ resolution, resolved.1 = .ok resolution ∧
      terminalAttemptState resolution.attempt.attempt.state = true ∧
        resolved.2.journal binding.actionID =
          before.journal binding.actionID ++ [resolution.attempt]
  closes :
    List.Forall₂
      (fun old new =>
        new = old ∨
          old.ownerSHA256 = attemptBindingSHA256 checks binding ∧
            new = { old with state := .closed })
      before.registry resolved.2.registry
  quiet :
    ∀ cause, resolved.1 = .error cause →
      resolved.2.called.calls = before.called.calls ∧
        resolved.2.registry = before.registry

/-- Every registered resource is one of the attempt's that did not fail. -/
def AllOwn (binding : AttemptBinding) (registry : List ResourceRecord) :
    Prop :=
  ∀ record ∈ registry,
    record.ownerSHA256 = attemptBindingSHA256 checks binding ∧
      record.state ≠ .failed

/-- The adapter shows each step as it was applied and undoes it. -/
def Undoes : List SyntheticPlanStep → σ → Prop
  | [], _ => True
  | step :: earlier, state =>
      ∃ resources,
        (adapter.observe state).1 = some resources ∧
          syntheticStepIsExactlyOwned resources step = true ∧
            (adapter.compensate step (adapter.observe state).2).1 = true ∧
              Undoes earlier
                (adapter.compensate step (adapter.observe state).2).2

/-- A pending attempt has applied nothing and the registry is its own; a
claimed one has applied nothing, or something cannot be undone or closed. -/
structure Resolvable
    (setting : Setting σ) (binding : AttemptBinding)
    (applied : List SyntheticPlanStep) (state : AttemptState) : Prop where
  pending :
    state = .pending → applied = [] ∧ AllOwn checks binding setting.registry
  claimed :
    state = .claimed → applied ≠ [] →
      ¬ (AllOwn checks binding setting.registry ∧
        Undoes adapter applied.reverse setting.called.state)

end Resolution

section Resolved

variable {σ : Type} {checks : Checks}
  {encodeIntent : CancellationIntentRecord → String}
  {adapter : SyntheticAdapter σ} {setting : Setting σ}
  {binding : AttemptBinding} {applied : List SyntheticPlanStep}
  {latest : AttemptJournalEntry}

/-! ## The move of the attempt -/

theorem sequence_of_verified
    {entries : List AttemptJournalEntry}
    (verified : verifyAttemptEntries checks entries = true)
    (room : entries.length < 2 ^ 64) :
    ∀ latest ∈ entries.getLast?, latest.sequence = entries.length := by
  induction entries using List.reverseRecOn with
  | nil => simp
  | append_singleton entries entry induction =>
      obtain ⟨before, -, begins, links⟩ :=
        verifyAttemptEntries_snoc.mp verified
      rw [List.length_append, List.length_singleton] at room ⊢
      rw [List.getLast?_concat]
      rintro _ ⟨⟩
      cases last : entries.getLast? with
      | none =>
          have empty := List.getLast?_eq_none_iff.mp last
          rw [(begins empty).sequence, empty, List.length_nil]
      | some latest =>
          have counted := induction before (by omega) latest last
          rw [(links latest last).sequence, counted,
            Nat.mod_eq_of_lt room]

/-- The journal takes every step of the table. -/
theorem compareAndSwap_ok
    {entries : List AttemptJournalEntry}
    (verified : verifyAttemptEntries checks entries = true)
    (room : entries.length + 1 < 2 ^ 64)
    (last : latest ∈ entries.getLast?)
    {after : AttemptState} (reason : Reason)
    (allowed :
      allowedAttemptTransition latest.attempt.state after = true) :
    ∃ entry,
      compareAndSwap checks entries latest.binding latest.attempt.state after
          reason = .ok entry ∧
        entry.attempt.state = after := by
  have sequence := sequence_of_verified verified (by omega) latest last
  have latestValid : latest.valid checks = true :=
    (verifyAttemptEntries_eq_true.mp verified).1 latest
      (List.mem_of_getLast? last)
  let entry : AttemptJournalEntry :=
    ⟨(latest.sequence + 1) % 2 ^ 64, some latest.attempt.state,
      latest.binding.record after, latest.binding, reason,
      checks.sha256Hex (checks.encodeEntry ((latest.sequence + 1) % 2 ^ 64)
        (some latest.attempt.state) (latest.binding.record after)
        latest.binding reason)⟩
  have entryValid : entry.valid checks = true := by
    refine valid_eq_true.mpr
      ⟨?_, (valid_eq_true.mp latestValid).2.1, rfl, rfl⟩
    change (latest.sequence + 1) % 2 ^ 64 ≠ 0
    rw [sequence, Nat.mod_eq_of_lt room]
    exact Nat.succ_ne_zero _
  exact ⟨entry, compareAndSwap_eq_ok_iff.mpr
    ⟨allowed, verified, latest, last, rfl, rfl, entryValid,
      ⟨rfl, rfl, rfl⟩, rfl, rfl⟩, rfl⟩

theorem prepareCancellation_of_requested
    (requested :
      Requested checks encodeIntent setting binding applied latest) :
    ∃ intent,
      prepareCancellation checks encodeIntent setting binding applied =
        .ok (intent, latest) := by
  obtain ⟨intent, stored, intentValid⟩ := requested.intent
  have wellFormed :
      ¬ (binding.valid checks = false ∨ maxPlanSteps < applied.length) := by
    rintro (invalid | long)
    · exact Bool.false_ne_true (invalid.symm.trans requested.bindingValid)
    · exact absurd requested.bounded (Nat.not_le.mpr long)
  have accepted :
      ¬ (latest.binding ≠ binding ∨
        cancellableAttemptState latest.attempt.state = false) := by
    simp [requested.same, requested.cancellable]
  refine ⟨intent, ?_⟩
  simp only [prepareCancellation, bind_eq_ok_iff, refuse_eq_ok_iff]
  refine ⟨⟨⟩, wellFormed, ?_⟩
  rw [Option.mem_def.mp stored]
  simp only [bind_eq_ok_iff, refuse_eq_ok_iff, Bool.not_eq_false]
  refine ⟨⟨⟩, intentValid, ?_⟩
  rw [Option.mem_def.mp requested.last]
  simp only [bind_eq_ok_iff, refuse_eq_ok_iff, Bool.not_eq_false]
  exact ⟨⟨⟩, requested.verified, ⟨⟩, accepted, rfl⟩

/-! ## Where the attempt is moved to -/

/-- By induction over the steps from the last one back: the loop rolls back
exactly when the adapter undoes every step. -/
theorem compensateSteps_outcome
    {steps : List SyntheticPlanStep}
    (own : ∀ step ∈ steps, step.valid checks = true ∧ step.owner = binding)
    (compensated : List String) (called : Called σ) :
    Undoes adapter steps called.state ∧
        (compensateSteps checks adapter binding steps compensated
          called).1.outcome = .rolledBack ∨
      ¬ Undoes adapter steps called.state ∧
        (compensateSteps checks adapter binding steps compensated
          called).1.outcome = .safeMode := by
  induction steps generalizing compensated called with
  | nil => exact .inl ⟨trivial, rfl⟩
  | cons step earlier induction =>
      obtain ⟨ownStep, ownEarlier⟩ := List.forall_mem_cons.mp own
      have proceeds :
          ¬ (step.valid checks = false ∨ step.owner ≠ binding) := by
        simp [ownStep]
      simp only [compensateSteps, if_neg proceeds, Undoes, Called.observe]
      cases observed : (adapter.observe called.state).1 with
      | none => exact .inr ⟨by simp, rfl⟩
      | some resources =>
          by_cases owned : syntheticStepIsExactlyOwned resources step = true
          · simp only [owned, Bool.true_eq_false, if_false,
              Called.compensate, Option.some.injEq, exists_eq_left', true_and]
            cases undone :
                (adapter.compensate step
                  (adapter.observe called.state).2).1 with
            | false => exact .inr ⟨by simp, rfl⟩
            | true =>
                simp only [true_and]
                exact induction ownEarlier _ ⟨_, _⟩
          · rw [Bool.not_eq_true] at owned
            refine .inr ⟨?_, by simp [owned, safeModeCompensation]⟩
            simp [owned]

theorem afterCleanup_outcome
    (compensation : CompensationResult) (cleanup : CleanupResult) :
    (compensation.afterCleanup cleanup).outcome =
      if cleanup.uncertainty = true then .safeMode
      else compensation.outcome := by
  unfold CompensationResult.afterCleanup
  by_cases uncertain : cleanup.uncertainty = true
  · by_cases safe : compensation.outcome = .safeMode <;>
      simp [uncertain, safe]
  · simp [uncertain]

theorem closeAll_uncertainty
    (bindingValid : binding.valid checks = true)
    (registry : List ResourceRecord) :
    (closeAll checks binding registry).1.uncertainty = true ↔
      ¬ AllOwn checks binding registry := by
  simp only [closeAll, bindingValid, Bool.true_eq_false, if_false,
    decide_eq_true_eq, ne_eq, List.filter_eq_nil_iff, AllOwn,
    ResourceRecord.keeps, Bool.or_eq_true, not_or, not_not]

theorem closeAll_closes
    (bindingValid : binding.valid checks = true)
    (registry : List ResourceRecord) :
    List.Forall₂
      (fun old new =>
        new = old ∨
          old.ownerSHA256 = attemptBindingSHA256 checks binding ∧
            new = { old with state := .closed })
      registry (closeAll checks binding registry).2 := by
  simp only [closeAll, bindingValid, Bool.true_eq_false, if_false]
  rw [List.forall₂_map_right_iff, List.forall₂_same]
  intro record _
  by_cases kept : record.keeps checks binding = true
  · exact .inl (if_pos kept)
  · right
    rw [if_neg kept]
    simp only [ResourceRecord.keeps, Bool.or_eq_true, decide_eq_true_eq,
      not_or, not_not] at kept
    exact ⟨kept.1, rfl⟩

/-- The state an attempt is moved to. -/
theorem compensateApplied_of_requested
    (requested :
      Requested checks encodeIntent setting binding applied latest) :
    ∃ compensation called,
      compensateApplied checks adapter binding applied setting.called =
          (some compensation, called) ∧
        (applied = [] ∧ compensation.outcome = .cancelled ∨
          applied ≠ [] ∧
            (Undoes adapter applied.reverse setting.called.state ∧
                compensation.outcome = .rolledBack ∨
              ¬ Undoes adapter applied.reverse setting.called.state ∧
                compensation.outcome = .safeMode)) := by
  by_cases empty : applied = []
  · exact ⟨_, _, if_pos empty, .inl ⟨empty, rfl⟩⟩
  · have wellFormed :
        ¬ (binding.valid checks = false ∨ applied = [] ∨
          maxPlanSteps < applied.length) := by
      simp [requested.bindingValid, empty, requested.bounded]
    have ownReverse :
        ∀ step ∈ applied.reverse,
          step.valid checks = true ∧ step.owner = binding := by
      simpa using requested.own
    have outcome :=
      @compensateSteps_outcome σ checks adapter binding _ ownReverse []
        setting.called
    refine ⟨_, (compensateSteps checks adapter binding applied.reverse []
      setting.called).2, ?_, .inr ⟨empty, outcome⟩⟩
    rw [compensateApplied, if_neg empty, compensateSyntheticAppliedPrefix,
      if_neg wellFormed]

theorem allowed_cancelled {state : AttemptState}
    (cancellable : cancellableAttemptState state = true) :
    allowedAttemptTransition state .cancelled = true := by
  revert cancellable
  cases state <;> decide

theorem allowed_safeMode_iff {state : AttemptState}
    (cancellable : cancellableAttemptState state = true) :
    allowedAttemptTransition state .safeMode = true ↔ state ≠ .pending := by
  revert cancellable
  cases state <;> decide

theorem allowed_rolledBack_iff {state : AttemptState}
    (cancellable : cancellableAttemptState state = true) :
    allowedAttemptTransition state .rolledBack = true ↔
      state ≠ .pending ∧ state ≠ .claimed := by
  revert cancellable
  cases state <;> decide

/-- What is left to decide is whether the table has the move. -/
theorem resolves_iff_allowed
    (requested :
      Requested checks encodeIntent setting binding applied latest)
    {compensation : CompensationResult} {called : Called σ}
    (compensated :
      compensateApplied checks adapter binding applied setting.called =
        (some compensation, called))
    (terminal :
      terminalAttemptState
        (compensation.afterCleanup
          (closeAll checks binding setting.registry).1).outcome = true) :
    Resolves checks setting binding
        (resolveCancellation checks encodeIntent adapter setting binding
          applied) ↔
      allowedAttemptTransition latest.attempt.state
        (compensation.afterCleanup
          (closeAll checks binding setting.registry).1).outcome = true := by
  obtain ⟨intent, prepared⟩ := prepareCancellation_of_requested requested
  have finished :
      resolveCancellation checks encodeIntent adapter setting binding
          applied =
        finishCancellation checks setting binding intent latest compensation
          called := by
    unfold resolveCancellation
    rw [prepared]
    dsimp only
    rw [compensated]
  rw [finished]
  unfold finishCancellation
  dsimp only
  constructor
  · rintro ⟨⟨resolution, ok, -⟩, -, -⟩
    cases swapped :
        compareAndSwap checks (setting.journal binding.actionID) binding
          latest.attempt.state
          (compensation.afterCleanup
            (closeAll checks binding setting.registry).1).outcome
          (compensation.afterCleanup
            (closeAll checks binding setting.registry).1).reason with
    | error cause =>
        rw [swapped] at ok
        cases ok
    | ok next => exact (compareAndSwap_eq_ok_iff.mp swapped).1
  · intro allowed
    obtain ⟨next, swapped, state⟩ :=
      compareAndSwap_ok requested.verified requested.room requested.last
        (compensation.afterCleanup
          (closeAll checks binding setting.registry).1).reason allowed
    rw [requested.same] at swapped
    rw [swapped]
    refine ⟨⟨_, rfl, ?_, Function.update_self ..⟩,
      closeAll_closes requested.bindingValid _, ?_⟩
    · rw [state]
      exact terminal
    · rintro cause ⟨⟩

/-- A requested cancellation is resolved exactly when the table has the move
that compensation and cleanup ask for. -/
theorem resolveCancellation_resolves_iff
    (requested :
      Requested checks encodeIntent setting binding applied latest) :
    Resolves checks setting binding
        (resolveCancellation checks encodeIntent adapter setting binding
          applied) ↔
      Resolvable checks adapter setting binding applied
        latest.attempt.state := by
  obtain ⟨compensation, called, compensated, outcome⟩ :=
    @compensateApplied_of_requested σ checks encodeIntent adapter setting
      binding applied latest requested
  have target := afterCleanup_outcome compensation
    (closeAll checks binding setting.registry).1
  have uncertain :=
    closeAll_uncertainty requested.bindingValid setting.registry
  have safe := allowed_safeMode_iff requested.cancellable
  by_cases clean : AllOwn checks binding setting.registry
  · rw [if_neg (fun kept => uncertain.mp kept clean)] at target
    rcases outcome with ⟨empty, is⟩ | ⟨some, ⟨undoes, is⟩ | ⟨stuck, is⟩⟩
    · rw [resolves_iff_allowed requested compensated (by rw [target, is]; rfl),
        target, is]
      exact iff_of_true (allowed_cancelled requested.cancellable)
        ⟨fun _ => ⟨empty, clean⟩, fun _ some => absurd empty some⟩
    · rw [resolves_iff_allowed requested compensated (by rw [target, is]; rfl),
        target, is, allowed_rolledBack_iff requested.cancellable]
      constructor
      · rintro ⟨notPending, notClaimed⟩
        exact ⟨fun pending => absurd pending notPending,
          fun claimed => absurd claimed notClaimed⟩
      · intro resolvable
        exact ⟨fun pending => some (resolvable.pending pending).1,
          fun claimed => resolvable.claimed claimed some ⟨clean, undoes⟩⟩
    · rw [resolves_iff_allowed requested compensated (by rw [target, is]; rfl),
        target, is, safe]
      constructor
      · intro notPending
        exact ⟨fun pending => absurd pending notPending,
          fun _ _ both => stuck both.2⟩
      · intro resolvable pending
        exact some (resolvable.pending pending).1
  · rw [if_pos (uncertain.mpr clean)] at target
    rw [resolves_iff_allowed requested compensated (by rw [target]; rfl),
      target, safe]
    constructor
    · intro notPending
      exact ⟨fun pending => absurd pending notPending,
        fun _ _ both => clean both.1⟩
    · intro resolvable pending
      exact clean (resolvable.pending pending).2

end Resolved

/-! ## A pending attempt beside another one's resource -/

def lostAdapter : SyntheticAdapter Unit where
  observe _ := (none, ())
  compensate _ _ := (false, ())

def oneIntent : CancellationIntentRecord :=
  ⟨"cancel", "action", "attempt", oneBinding, .pending, .cancelled, "digest"⟩

def ownResource : ResourceRecord :=
  ⟨"helper", .helper, .registered, "digest"⟩

def foreignResource : ResourceRecord :=
  ⟨"lease", .lease, .closed, "another"⟩

def pendingSetting (registry : List ResourceRecord) : Setting Unit where
  journal _ := [lineOf 1 none .pending]
  intents _ := some oneIntent
  registry := registry
  called := ⟨(), []⟩

theorem pendingSetting_requested (registry : List ResourceRecord) :
    Requested anyChecks (fun _ => "intent") (pendingSetting registry)
      oneBinding [] (lineOf 1 none .pending) where
  bindingValid := by decide +kernel
  bounded := by decide
  own := by simp
  intent := ⟨oneIntent, rfl, by decide +kernel⟩
  verified := by
    change verifyAttemptEntries anyChecks [lineOf 1 none .pending] = true
    decide +kernel
  room := by simp [pendingSetting]
  last := rfl
  same := rfl
  cancellable := rfl

/-- The closed resource of another attempt is enough: the own one is closed,
and the call returns an error. -/
theorem pending_cancellation_is_stuck :
    Requested anyChecks (fun _ => "intent")
        (pendingSetting [ownResource, foreignResource]) oneBinding []
        (lineOf 1 none .pending) ∧
      let resolved :=
        resolveCancellation anyChecks (fun _ => "intent") lostAdapter
          (pendingSetting [ownResource, foreignResource]) oneBinding []
      resolved.1 = .error (.journal .transition) ∧
        resolved.2.registry =
          [{ ownResource with state := .closed }, foreignResource] :=
  ⟨pendingSetting_requested _, by decide +kernel⟩

theorem pending_cancellation_resolves :
    Resolves anyChecks (pendingSetting [ownResource]) oneBinding
      (resolveCancellation anyChecks (fun _ => "intent") lostAdapter
        (pendingSetting [ownResource]) oneBinding []) := by
  refine (resolveCancellation_resolves_iff
    (pendingSetting_requested [ownResource])).mpr ⟨?_, ?_⟩
  · intro _
    simp [AllOwn, pendingSetting, ownResource, attemptBindingSHA256, anyChecks]
  · rintro ⟨⟩

end Hexroute.Reconciler
