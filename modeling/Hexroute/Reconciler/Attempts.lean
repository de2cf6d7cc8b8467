import Mathlib.Data.List.Chain
import Hexroute.Connectivity.Model
import Hexroute.Lib.Refusal

/-!
# The journal of attempts

An attempt is written as pending and then moved from state to state.  The
reader of the journal checks that its lines link up; whether the writer would
have taken the steps between them is another question.
-/

namespace Hexroute.Reconciler

open Hexroute.Lib
open Hexroute.Connectivity (Domain)

inductive AttemptState where
  | pending
  | claimed
  | running
  | verifying
  | committed
  | expired
  | denied
  | cancelled
  | rolledBack
  | failed
  | safeMode
  deriving DecidableEq, Repr

inductive Reason where
  | none
  | noAction
  | accepted
  | freshness
  | threshold
  | budget
  | backoff
  | cooldown
  | policy
  | capability
  | ownership
  | schema
  | generation
  | target
  | lineage
  | resumeDenied
  | verification
  | compensation
  | cleanup
  | expired
  | cancelled
  | safeMode
  | telemetryPending
  | telemetryRejected
  | gapUnrecoverable
  deriving DecidableEq, Repr

structure AttemptBinding where
  actionID : String
  attemptID : String
  nonce : String
  domain : Domain
  target : String
  bootID : String
  bundleGeneration : Nat
  domainPolicyGeneration : Nat
  controlGeneration : Nat
  snapshotGeneration : Nat
  planSHA256 : String
  deriving DecidableEq, Repr

structure AttemptRecord where
  actionID : String
  attemptID : String
  nonce : String
  state : AttemptState
  planSHA256 : String
  deriving DecidableEq, Repr

structure AttemptJournalEntry where
  sequence : Nat
  previous : Option AttemptState
  attempt : AttemptRecord
  binding : AttemptBinding
  reason : Reason
  entrySHA256 : String
  deriving DecidableEq, Repr

/-- What identities and digests are well formed, canonical encodings and
the digest of a text. -/
structure Checks where
  validUUID : String → Bool
  validDigest : String → Bool
  sha256Hex : String → String
  sha256Hex_valid : ∀ text, validDigest (sha256Hex text) = true
  encodeEntry :
    Nat → Option AttemptState → AttemptRecord → AttemptBinding → Reason →
      String
  encodeBinding : AttemptBinding → String

def identifierLetters : List Char :=
  "abcdefghijklmnopqrstuvwxyz".toList

def identifierRunes : List Char :=
  identifierLetters ++ "0123456789_.:-".toList

def protectedFragments : List String :=
  ["hexroute_canary_", "credential", "endpoint", "gitlab", "keychain",
    "medvidi", "otp", "path", "pin", "pritunl", "process", "selector",
    "session", "totp", "topology", "twilight", "vless"]

/-- An identifier has no upper case, so that the fragments are looked up in
the text itself. -/
def validIdentifier (value : String) : Bool :=
  match value.toList with
  | [] => false
  | first :: later =>
      decide (first ∈ identifierLetters) &&
        later.all (· ∈ identifierRunes) && decide (later.length ≤ 95) &&
        !protectedFragments.any fun fragment =>
          (first :: later).tails.any fragment.toList.isPrefixOf

inductive JournalError where
  | journal
  | cas
  | transition
  | immutable
  | tamper
  deriving DecidableEq, Repr

def terminalAttemptState : AttemptState → Bool
  | .committed | .expired | .denied | .cancelled | .rolledBack | .failed
  | .safeMode => true
  | _ => false

def allowedAttemptTransition (before after : AttemptState) : Bool :=
  if terminalAttemptState before then false
  else
    match before with
    | .pending => after ∈ [.claimed, .expired, .denied, .cancelled]
    | .claimed =>
        after ∈ [.running, .expired, .denied, .cancelled, .safeMode]
    | .running =>
        after ∈ [.verifying, .cancelled, .rolledBack, .failed, .safeMode]
    | .verifying =>
        after ∈ [.committed, .cancelled, .rolledBack, .failed, .safeMode]
    | _ => false

section Entries

variable (checks : Checks)

def AttemptBinding.valid (binding : AttemptBinding) : Bool :=
  checks.validUUID binding.actionID && checks.validUUID binding.attemptID &&
    checks.validUUID binding.nonce &&
    validIdentifier binding.target &&
    checks.validUUID binding.bootID &&
    decide (binding.bundleGeneration ≠ 0) &&
    decide (binding.domainPolicyGeneration ≠ 0) &&
    decide (binding.controlGeneration ≠ 0) &&
    decide (binding.snapshotGeneration ≠ 0) &&
    checks.validDigest binding.planSHA256 &&
    decide (binding.actionID ≠ binding.attemptID) &&
    decide (binding.actionID ≠ binding.nonce) &&
    decide (binding.attemptID ≠ binding.nonce)

/-- The record an attempt with this binding has in a state. -/
def AttemptBinding.record (binding : AttemptBinding) (state : AttemptState) :
    AttemptRecord where
  actionID := binding.actionID
  attemptID := binding.attemptID
  nonce := binding.nonce
  state := state
  planSHA256 := binding.planSHA256

def AttemptJournalEntry.digest (entry : AttemptJournalEntry) : String :=
  checks.sha256Hex (checks.encodeEntry entry.sequence entry.previous
    entry.attempt entry.binding entry.reason)

def AttemptRecord.valid (attempt : AttemptRecord) : Bool :=
  checks.validUUID attempt.actionID && checks.validUUID attempt.attemptID &&
    checks.validUUID attempt.nonce &&
    checks.validDigest attempt.planSHA256 &&
    decide (attempt.actionID ≠ attempt.attemptID) &&
    decide (attempt.actionID ≠ attempt.nonce) &&
    decide (attempt.attemptID ≠ attempt.nonce)

def AttemptJournalEntry.valid (entry : AttemptJournalEntry) : Bool :=
  decide (entry.sequence ≠ 0) && entry.attempt.valid checks &&
    entry.binding.valid checks &&
    checks.validDigest entry.entrySHA256 &&
    decide (entry.attempt.actionID = entry.binding.actionID) &&
    decide (entry.attempt.attemptID = entry.binding.attemptID) &&
    decide (entry.attempt.nonce = entry.binding.nonce) &&
    decide (entry.attempt.planSHA256 = entry.binding.planSHA256) &&
    decide (entry.digest checks = entry.entrySHA256)

/-! ## The writer -/

def newAttemptJournalEntry
    (sequence : Nat) (previous : Option AttemptState) (state : AttemptState)
    (binding : AttemptBinding) (reason : Reason) :
    Except JournalError AttemptJournalEntry := do
  let attempt := binding.record state
  let entry : AttemptJournalEntry :=
    ⟨sequence, previous, attempt, binding, reason,
      checks.sha256Hex
        (checks.encodeEntry sequence previous attempt binding reason)⟩
  refuse (entry.valid checks = false) .journal
  pure entry

/-- The loop of `verifyAttemptEntries`, with the entry before. -/
def verifyFrom :
    Option AttemptJournalEntry → List AttemptJournalEntry → Bool
  | _, [] => true
  | previous, entry :: later =>
      entry.valid checks &&
        (match previous with
        | none =>
            decide (entry.sequence = 1) && decide (entry.previous = none) &&
              decide (entry.attempt.state = .pending)
        | some previous =>
            decide (entry.sequence = (previous.sequence + 1) % 2 ^ 64) &&
              decide (entry.previous = some previous.attempt.state) &&
              decide (entry.binding = previous.binding) &&
              decide (entry.attempt.actionID = previous.attempt.actionID) &&
              decide (entry.attempt.attemptID = previous.attempt.attemptID) &&
              decide (entry.attempt.nonce = previous.attempt.nonce) &&
              decide
                (entry.attempt.planSHA256 = previous.attempt.planSHA256)) &&
        verifyFrom (some entry) later

def verifyAttemptEntries (entries : List AttemptJournalEntry) : Bool :=
  verifyFrom checks none entries

/-- Begin an attempt; `entries` are those of the action. -/
def appendPending
    (entries : List AttemptJournalEntry) (binding : AttemptBinding)
    (reason : Reason) : Except JournalError AttemptJournalEntry := do
  refuse (binding.valid checks = false) .journal
  refuse (entries ≠ []) .cas
  newAttemptJournalEntry checks 1 none .pending binding reason

def compareAndSwap
    (entries : List AttemptJournalEntry) (binding : AttemptBinding)
    (before after : AttemptState) (reason : Reason) :
    Except JournalError AttemptJournalEntry := do
  refuse (binding.valid checks = false) .journal
  refuse (allowedAttemptTransition before after = false) .transition
  match entries.getLast? with
  | none => throw .cas
  | some latest => do
      refuse (verifyAttemptEntries checks entries = false) .tamper
      refuse (latest.attempt.state ≠ before) .cas
      refuse (latest.binding ≠ binding) .immutable
      newAttemptJournalEntry checks ((latest.sequence + 1) % 2 ^ 64)
        (some before) after binding reason

/-! ## The reader -/

/-- A file: its lines, and whether the last one is terminated. -/
structure Content where
  lines : List String
  terminated : Bool

/-- `read` decodes a canonical line. -/
def loadLines (read : String → Option AttemptJournalEntry) :
    List String → Except JournalError (List AttemptJournalEntry)
  | [] => pure []
  | line :: later => do
      refuse (line = "") .tamper
      match read line with
      | none => throw .tamper
      | some entry => do
          refuse (entry.valid checks = false) .tamper
          let entries ← loadLines read later
          pure (entry :: entries)

/-- The entries of one action, in the order of the file. -/
def entriesOf (actionID : String) (entries : List AttemptJournalEntry) :
    List AttemptJournalEntry :=
  entries.filter (·.attempt.actionID = actionID)

def loadEntries
    (read : String → Option AttemptJournalEntry) (content : Content) :
    Except JournalError (List AttemptJournalEntry) :=
  if content.lines = [] then pure []
  else do
    refuse (content.terminated = false) .tamper
    let entries ← loadLines checks read content.lines
    refuse
      (∃ entry ∈ entries,
        verifyAttemptEntries checks
          (entriesOf entry.attempt.actionID entries) = false)
      .tamper
    pure entries

/-! ## Histories -/

/-- What a call of the writer after another leaves for one action. -/
inductive Written : List AttemptJournalEntry → Prop where
  | pending
      {binding : AttemptBinding} {reason : Reason}
      {entry : AttemptJournalEntry}
      (wrote : appendPending checks [] binding reason = .ok entry) :
      Written [entry]
  | swap
      {entries : List AttemptJournalEntry} {binding : AttemptBinding}
      {before after : AttemptState} {reason : Reason}
      {entry : AttemptJournalEntry}
      (written : Written entries)
      (wrote :
        compareAndSwap checks entries binding before after reason =
          .ok entry) :
      Written (entries ++ [entry])

/-- The calls of the writer could have left these entries. -/
def Possible (entries : List AttemptJournalEntry) : Prop :=
  entries = [] ∨ Written checks entries

end Entries

/-- What the reader asks of an entry and the one before it. -/
structure Links (earlier entry : AttemptJournalEntry) : Prop where
  sequence : entry.sequence = (earlier.sequence + 1) % 2 ^ 64
  previous : entry.previous = some earlier.attempt.state
  binding : entry.binding = earlier.binding

/-- What the reader asks of a first entry. -/
structure Begins (entry : AttemptJournalEntry) : Prop where
  sequence : entry.sequence = 1
  previous : entry.previous = none
  state : entry.attempt.state = .pending

/-- The step that a line names, from its previous state to its own, is one
the writer takes. -/
def AttemptJournalEntry.Allowed (entry : AttemptJournalEntry) : Prop :=
  ∀ before ∈ entry.previous,
    allowedAttemptTransition before entry.attempt.state = true

instance (entry : AttemptJournalEntry) : Decidable entry.Allowed :=
  inferInstanceAs (Decidable (∀ before ∈ entry.previous, _ = true))

section Verified

variable {checks : Checks}

theorem AttemptBinding.record_valid
    {binding : AttemptBinding} (state : AttemptState)
    (valid : binding.valid checks = true) :
    (binding.record state).valid checks = true := by
  simp only [AttemptBinding.valid, Bool.and_eq_true, decide_eq_true_eq]
    at valid
  simp [AttemptRecord.valid, AttemptBinding.record, valid]

theorem valid_eq_true {entry : AttemptJournalEntry} :
    entry.valid checks = true ↔
      entry.sequence ≠ 0 ∧ entry.binding.valid checks = true ∧
        entry.attempt = entry.binding.record entry.attempt.state ∧
          entry.entrySHA256 = entry.digest checks := by
  obtain ⟨sequence, previous, ⟨actionID, attemptID, nonce, state, plan⟩,
    binding, reason, digest⟩ := entry
  simp only [AttemptJournalEntry.valid, Bool.and_eq_true, decide_eq_true_eq]
  constructor
  · rintro ⟨⟨⟨⟨⟨⟨⟨⟨positive, -⟩, valid⟩, -⟩, rfl⟩, rfl⟩, rfl⟩, rfl⟩, is⟩
    exact ⟨positive, valid, rfl, is.symm⟩
  · rintro ⟨positive, valid, attempt, is⟩
    have recordValid := AttemptBinding.record_valid state valid
    have digestValid : checks.validDigest digest = true := by
      rw [is]
      exact checks.sha256Hex_valid _
    rw [← attempt] at recordValid
    simp only [AttemptBinding.record, AttemptRecord.mk.injEq] at attempt
    obtain ⟨action, attempt, nonce, -, plan⟩ := attempt
    exact ⟨⟨⟨⟨⟨⟨⟨⟨positive, recordValid⟩, valid⟩, digestValid⟩, action⟩,
      attempt⟩, nonce⟩, plan⟩, is.symm⟩

/-- The writer writes what the reader takes. -/
theorem newAttemptJournalEntry_eq_ok_iff
    {sequence : Nat} {previous : Option AttemptState} {state : AttemptState}
    {binding : AttemptBinding} {reason : Reason}
    {entry : AttemptJournalEntry} :
    newAttemptJournalEntry checks sequence previous state binding reason =
        .ok entry ↔
      entry.valid checks = true ∧ entry.sequence = sequence ∧
        entry.previous = previous ∧ entry.attempt.state = state ∧
          entry.binding = binding ∧ entry.reason = reason := by
  simp only [newAttemptJournalEntry, bind_eq_ok_iff, refuse_eq_ok_iff,
    pure_eq_ok_iff, Bool.not_eq_false]
  constructor
  · rintro ⟨_, valid, rfl⟩
    exact ⟨valid, rfl, rfl, rfl, rfl, rfl⟩
  · rintro ⟨valid, rfl, rfl, rfl, rfl, rfl⟩
    obtain ⟨-, -, attempt, digest⟩ := valid_eq_true.mp valid
    have same :
        (⟨entry.sequence, entry.previous,
            entry.binding.record entry.attempt.state, entry.binding,
            entry.reason,
            checks.sha256Hex (checks.encodeEntry entry.sequence
              entry.previous (entry.binding.record entry.attempt.state)
              entry.binding entry.reason)⟩ : AttemptJournalEntry) = entry := by
      rw [← attempt]
      exact congrArg (fun sha => { entry with entrySHA256 := sha }) digest.symm
    rw [same]
    exact ⟨⟨⟩, valid, rfl⟩

theorem appendPending_eq_ok_iff
    {binding : AttemptBinding} {reason : Reason}
    {entry : AttemptJournalEntry} :
    appendPending checks [] binding reason = .ok entry ↔
      entry.valid checks = true ∧ Begins entry ∧ entry.binding = binding ∧
        entry.reason = reason := by
  simp only [appendPending, bind_eq_ok_iff, refuse_eq_ok_iff,
    Bool.not_eq_false, newAttemptJournalEntry_eq_ok_iff]
  constructor
  · rintro ⟨_, -, _, -, valid, sequence, previous, state, binding, reason⟩
    exact ⟨valid, ⟨sequence, previous, state⟩, binding, reason⟩
  · rintro ⟨valid, ⟨sequence, previous, state⟩, rfl, reason⟩
    exact ⟨⟨⟩, (valid_eq_true.mp valid).2.1, ⟨⟩, not_not.mpr rfl, valid,
      sequence, previous, state, rfl, reason⟩

theorem compareAndSwap_eq_ok_iff
    {entries : List AttemptJournalEntry} {binding : AttemptBinding}
    {before after : AttemptState} {reason : Reason}
    {entry : AttemptJournalEntry} :
    compareAndSwap checks entries binding before after reason = .ok entry ↔
      allowedAttemptTransition before after = true ∧
        verifyAttemptEntries checks entries = true ∧
          ∃ latest ∈ entries.getLast?,
            latest.attempt.state = before ∧ latest.binding = binding ∧
              entry.valid checks = true ∧ Links latest entry ∧
                entry.attempt.state = after ∧ entry.reason = reason := by
  simp only [compareAndSwap, bind_eq_ok_iff, refuse_eq_ok_iff,
    Bool.not_eq_false]
  cases entries.getLast? with
  | none =>
      constructor
      · rintro ⟨_, -, _, -, threw⟩
        cases threw
      · rintro ⟨-, -, _, ⟨⟩, -⟩
  | some latest =>
      simp only [bind_eq_ok_iff, refuse_eq_ok_iff, not_not,
        Bool.not_eq_false, newAttemptJournalEntry_eq_ok_iff]
      constructor
      · rintro ⟨_, -, _, allowed, _, verified, _, rfl, _, rfl, valid,
          sequence, previous, state, binding, reason⟩
        exact ⟨allowed, verified, latest, rfl, rfl, rfl, valid,
          ⟨sequence, previous, binding⟩, state, reason⟩
      · rintro ⟨allowed, verified, _, ⟨⟩, rfl, rfl, valid,
          ⟨sequence, previous, binding⟩, state, reason⟩
        have bindingValid := (valid_eq_true.mp valid).2.1
        rw [binding] at bindingValid
        exact ⟨⟨⟩, bindingValid, ⟨⟩, allowed, ⟨⟩, verified, ⟨⟩, rfl, ⟨⟩, rfl,
          valid, sequence, previous, state, binding, reason⟩

/-! ## What the reader takes -/

theorem verifyFrom_eq_true
    {entries : List AttemptJournalEntry} {earlier : AttemptJournalEntry}
    (earlierValid : earlier.valid checks = true) :
    verifyFrom checks (some earlier) entries = true ↔
      (∀ entry ∈ entries, entry.valid checks = true) ∧
        List.IsChain Links (earlier :: entries) := by
  induction entries generalizing earlier with
  | nil => simp [verifyFrom]
  | cons entry later induction =>
      simp only [verifyFrom, Bool.and_eq_true, decide_eq_true_eq,
        List.forall_mem_cons, List.isChain_cons_cons]
      constructor
      · rintro ⟨⟨valid, ⟨⟨⟨⟨⟨⟨sequence, previous⟩, binding⟩, -⟩, -⟩, -⟩, -⟩⟩,
          rest⟩
        obtain ⟨valids, chain⟩ := (induction valid).mp rest
        exact ⟨⟨valid, valids⟩, ⟨sequence, previous, binding⟩, chain⟩
      · rintro ⟨⟨valid, valids⟩, ⟨sequence, previous, binding⟩, chain⟩
        obtain ⟨-, -, attempt, -⟩ := valid_eq_true.mp valid
        obtain ⟨-, -, earlierAttempt, -⟩ := valid_eq_true.mp earlierValid
        refine ⟨⟨valid, ?_⟩, (induction valid).mpr ⟨valids, chain⟩⟩
        rw [attempt, earlierAttempt, binding]
        exact ⟨⟨⟨⟨⟨⟨sequence, previous⟩, rfl⟩, rfl⟩, rfl⟩, rfl⟩, rfl⟩

theorem verifyAttemptEntries_eq_true
    {entries : List AttemptJournalEntry} :
    verifyAttemptEntries checks entries = true ↔
      (∀ entry ∈ entries, entry.valid checks = true) ∧
        (∀ entry ∈ entries.head?, Begins entry) ∧
          List.IsChain Links entries := by
  cases entries with
  | nil => simp [verifyAttemptEntries, verifyFrom]
  | cons entry later =>
      simp only [verifyAttemptEntries, verifyFrom, Bool.and_eq_true,
        decide_eq_true_eq, List.forall_mem_cons, List.head?_cons,
        Option.mem_def, Option.some.injEq, forall_eq']
      constructor
      · rintro ⟨⟨valid, ⟨sequence, previous⟩, state⟩, rest⟩
        obtain ⟨valids, chain⟩ := (verifyFrom_eq_true valid).mp rest
        exact ⟨⟨valid, valids⟩, ⟨sequence, previous, state⟩, chain⟩
      · rintro ⟨⟨valid, valids⟩, ⟨sequence, previous, state⟩, chain⟩
        exact ⟨⟨valid, ⟨sequence, previous⟩, state⟩,
          (verifyFrom_eq_true valid).mpr ⟨valids, chain⟩⟩

/-- What is verified with one more entry was verified without it. -/
theorem verifyAttemptEntries_snoc
    {entries : List AttemptJournalEntry} {entry : AttemptJournalEntry} :
    verifyAttemptEntries checks (entries ++ [entry]) = true ↔
      verifyAttemptEntries checks entries = true ∧
        entry.valid checks = true ∧
          (entries = [] → Begins entry) ∧
            ∀ latest ∈ entries.getLast?, Links latest entry := by
  simp only [verifyAttemptEntries_eq_true, List.isChain_append,
    List.forall_mem_append, List.forall_mem_singleton]
  cases entries with
  | nil => simp
  | cons first later =>
      simp only [List.cons_append, List.head?_cons, reduceCtorEq,
        List.isChain_singleton, Option.mem_def, Option.some.injEq,
        forall_eq', false_implies, true_and]
      tauto

theorem Written.allowed {entries : List AttemptJournalEntry}
    (written : Written checks entries) :
    ∀ entry ∈ entries, entry.Allowed := by
  induction written with
  | pending wrote =>
      obtain ⟨-, begins, -, -⟩ := appendPending_eq_ok_iff.mp wrote
      simp [AttemptJournalEntry.Allowed, begins.previous]
  | swap written wrote induction =>
      obtain ⟨allowed, -, latest, -, rfl, -, -, links, rfl, -⟩ :=
        compareAndSwap_eq_ok_iff.mp wrote
      rw [List.forall_mem_append, List.forall_mem_singleton]
      refine ⟨induction, ?_⟩
      rw [AttemptJournalEntry.Allowed, links.previous]
      rintro _ ⟨⟩
      exact allowed

/-- Each line is the next call of the writer, so that the induction is on
the lines from the end. -/
theorem possible_of_allowed
    {entries : List AttemptJournalEntry}
    (verified : verifyAttemptEntries checks entries = true)
    (allowed : ∀ entry ∈ entries, entry.Allowed) :
    Possible checks entries := by
  induction entries using List.reverseRecOn with
  | nil => exact .inl rfl
  | append_singleton entries entry induction =>
      obtain ⟨before, valid, begins, links⟩ :=
        verifyAttemptEntries_snoc.mp verified
      rw [List.forall_mem_append, List.forall_mem_singleton] at allowed
      right
      rcases induction before allowed.1 with rfl | written
      · exact .pending
          (appendPending_eq_ok_iff.mpr ⟨valid, begins rfl, rfl, rfl⟩)
      · cases last : entries.getLast? with
        | none =>
            rw [List.getLast?_eq_none_iff.mp last]
            exact .pending (appendPending_eq_ok_iff.mpr
              ⟨valid, begins (List.getLast?_eq_none_iff.mp last), rfl, rfl⟩)
        | some latest =>
            have linked := links latest last
            exact .swap written (compareAndSwap_eq_ok_iff.mpr
              ⟨allowed.2 _ linked.previous, before, latest, last, rfl, rfl,
                valid, linked, rfl, rfl⟩)

theorem verified_of_loadEntries
    {read : String → Option AttemptJournalEntry} {content : Content}
    {entries : List AttemptJournalEntry}
    (opened : loadEntries checks read content = .ok entries)
    (actionID : String) :
    verifyAttemptEntries checks (entriesOf actionID entries) = true := by
  by_cases empty : content.lines = []
  · rw [loadEntries, if_pos empty, pure_eq_ok_iff] at opened
    subst opened
    rfl
  · rw [loadEntries, if_neg empty] at opened
    simp only [bind_eq_ok_iff, refuse_eq_ok_iff, pure_eq_ok_iff] at opened
    obtain ⟨_, -, loaded, -, _, noneFails, same⟩ := opened
    rw [← same]
    by_contra fails
    rw [Bool.not_eq_true] at fails
    cases own : entriesOf actionID loaded with
    | nil =>
        rw [own] at fails
        cases fails
    | cons entry later =>
        have member : entry ∈ entriesOf actionID loaded := by
          rw [own]
          exact List.mem_cons_self
        obtain ⟨listed, named⟩ := List.mem_filter.mp member
        rw [decide_eq_true_eq] at named
        exact noneFails ⟨entry, listed, named ▸ fails⟩

/-- The entries of an action in a journal that opens are those of calls of
the writer exactly when no line names a step that the writer refuses. -/
theorem opened_possible_iff
    {read : String → Option AttemptJournalEntry} {content : Content}
    {entries : List AttemptJournalEntry}
    (opened : loadEntries checks read content = .ok entries)
    (actionID : String) :
    Possible checks (entriesOf actionID entries) ↔
      ∀ entry ∈ entriesOf actionID entries, entry.Allowed := by
  constructor
  · rintro (none | written)
    · simp [none]
    · exact written.allowed
  · exact possible_of_allowed (verified_of_loadEntries opened actionID)

end Verified

/-! ## A journal that no writer left -/

def anyChecks : Checks where
  validUUID text := text ≠ ""
  validDigest text := text ≠ ""
  sha256Hex _ := "digest"
  sha256Hex_valid _ := rfl
  encodeEntry _ _ _ _ _ := "entry"
  encodeBinding binding := binding.attemptID

def oneBinding : AttemptBinding :=
  ⟨"action", "attempt", "nonce", .root, "route", "boot", 1, 1, 1, 1, "plan"⟩

def lineOf
    (sequence : Nat) (previous : Option AttemptState)
    (state : AttemptState) : AttemptJournalEntry :=
  ⟨sequence, previous, oneBinding.record state, oneBinding, .accepted,
    "digest"⟩

def readLine : String → Option AttemptJournalEntry
  | "pending" => some (lineOf 1 none .pending)
  | "claimed" => some (lineOf 2 (some .pending) .claimed)
  | "running" => some (lineOf 3 (some .claimed) .running)
  | "committed" => some (lineOf 2 (some .pending) .committed)
  | "again" => some (lineOf 3 (some .committed) .running)
  | _ => none

/-- An attempt that is committed before it is claimed, and runs after. -/
theorem jumpingJournal_opens :
    ∃ entries,
      loadEntries anyChecks readLine
          ⟨["pending", "committed", "again"], true⟩ = .ok entries ∧
        ¬ Possible anyChecks (entriesOf "action" entries) := by
  refine ⟨_, rfl, ?_⟩
  rintro (none | written)
  · cases none
  · have allowed := written.allowed
    revert allowed
    decide

theorem climbingJournal_possible :
    ∃ entries,
      loadEntries anyChecks readLine
          ⟨["pending", "claimed", "running"], true⟩ = .ok entries ∧
        Possible anyChecks (entriesOf "action" entries) := by
  refine ⟨_, rfl, ?_⟩
  exact (@opened_possible_iff anyChecks readLine
    ⟨["pending", "claimed", "running"], true⟩ _ rfl "action").mpr (by decide)

end Hexroute.Reconciler
