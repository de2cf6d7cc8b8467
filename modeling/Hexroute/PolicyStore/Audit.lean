import Hexroute.Connectivity.Model
import Hexroute.Lib.Refusal
import Hexroute.Lib.Retention
import Hexroute.Lib.StableSort
import Hexroute.Policy.Model
import Hexroute.Policy.Stamp
import Hexroute.Policy.Text

/-!
# The audit of policy generations

Every resolved generation leaves an entry.  Entries are kept for ninety days
and the last hundred and twenty-eight of them, in the order of the texts of
their timestamps.  That order is not the order of time, because a fraction is
written without its trailing zeros, so what is kept is the newest exactly
where the two orders agree about it.
-/

namespace Hexroute.PolicyStore

open Hexroute.Connectivity (Domain)
open Hexroute.Lib
open Hexroute.Policy (Cause Digest PolicyReason PolicyState Stamp UUID
  nanosecondsPerSecond secondsPerDay validSHA256 validUUID)

def resolutionSchema : String := "hexroute.policy-resolution.v1"

def auditIndexSchema : String := "hexroute.policy-audit-index.v1"

def maxAuditEntries : Nat := 128

/-- Ninety days. -/
def auditRetention : Int := 90 * secondsPerDay * nanosecondsPerSecond

structure ResolutionRecord where
  schema : String
  transactionID : UUID
  domain : Domain
  state : PolicyState
  bundleGeneration : Nat
  policyGeneration : Nat
  manifestSHA256 : Digest
  payloadSHA256 : Digest
  resolvedAt : Stamp
  reason : PolicyReason
  deriving DecidableEq, Repr

structure AuditEntry where
  domain : Domain
  state : PolicyState
  bundleGeneration : Nat
  policyGeneration : Nat
  manifestSHA256 : Digest
  payloadSHA256 : Digest
  recordedAt : Stamp
  reason : PolicyReason
  deriving DecidableEq, Repr

structure AuditIndex where
  schema : String
  entries : List AuditEntry
  deriving DecidableEq, Repr

/-- The reasons that go with each state a generation is resolved to. -/
def validResolution : PolicyState → PolicyReason → Bool
  | .active, reason => decide (reason = .none)
  | .rejected, reason => decide (reason ≠ .none)
  | .restartRequired, reason => decide (reason = .staticMismatch)
  | _, _ => false

def AuditEntry.valid (entry : AuditEntry) : Bool :=
  decide (entry.bundleGeneration ≠ 0) &&
    decide (entry.policyGeneration ≠ 0) &&
    validSHA256 entry.manifestSHA256 && validSHA256 entry.payloadSHA256 &&
    entry.recordedAt.validCanonicalUTC &&
    validResolution entry.state entry.reason

def auditEntryFromResolution (record : ResolutionRecord) : AuditEntry where
  domain := record.domain
  state := record.state
  bundleGeneration := record.bundleGeneration
  policyGeneration := record.policyGeneration
  manifestSHA256 := record.manifestSHA256
  payloadSHA256 := record.payloadSHA256
  recordedAt := record.resolvedAt
  reason := record.reason

def AuditEntry.generation (entry : AuditEntry) : Nat × Nat :=
  (entry.bundleGeneration, entry.policyGeneration)

/-! ## Timestamps as texts -/

/-- How timestamps are written and read: the date and time of a second, and
what a text that is not canonical denotes. -/
structure Calendar where
  dateTime : Nat → List Char
  parse : String → Int

/-- A fraction of a second, without trailing zeros. -/
def fractionText (nanoseconds : Nat) : List Char :=
  if nanoseconds = 0 then []
  else
    let digits := Nat.toDigits 10 nanoseconds
    '.' :: ((List.replicate (9 - digits.length) '0' ++
      digits).reverse.dropWhile (· = '0')).reverse

def Calendar.text (calendar : Calendar) : Stamp → List Char
  | .empty => []
  | .utc instant =>
      calendar.dateTime (instant / nanosecondsPerSecond) ++
        fractionText (instant % nanosecondsPerSecond) ++ ['Z']
  | .other text => text.toList

/-- The time a text is parsed to, the zero time if it cannot be. -/
def Calendar.reading (calendar : Calendar) : Stamp → Int
  | .empty => 0
  | .utc instant => instant
  | .other text => calendar.parse text

section Audit

variable (calendar : Calendar)

def AuditEntry.moment (entry : AuditEntry) : Int :=
  calendar.reading entry.recordedAt

/-- The domains in the order of their texts. -/
def domainOrder : Domain → Nat
  | .root => 0
  | .user => 1

def auditKey (entry : AuditEntry) : List Char ×ₗ Nat ×ₗ Nat ×ₗ Nat :=
  toLex (calendar.text entry.recordedAt,
    toLex (domainOrder entry.domain,
      toLex (entry.bundleGeneration, entry.policyGeneration)))

def auditEntryLess (left right : AuditEntry) : Bool :=
  decide (auditKey calendar left < auditKey calendar right)

def AuditIndex.valid (index : AuditIndex) : Bool :=
  decide (index.schema = auditIndexSchema) &&
    decide (index.entries.length ≤ maxAuditEntries) &&
    index.entries.all AuditEntry.valid &&
    decide (index.entries.map fun entry =>
      (entry.domain, entry.generation)).Nodup &&
    decide (index.entries.IsChain fun left right =>
      auditEntryLess calendar left right = true)

/-! ## Merging and pruning -/

/-- Write an entry under its generation. -/
def recordEntry (table : List AuditEntry) (entry : AuditEntry) :
    List AuditEntry :=
  table.filter (fun other => decide (other.generation ≠ entry.generation)) ++
    [entry]

def mergeEntries (now : Int) :
    List AuditEntry → List AuditEntry → Except Cause (List AuditEntry)
  | table, [] => pure table
  | table, entry :: rest => do
      refuse (now < entry.moment calendar) .invalidRecord
      if entry.moment calendar < now - auditRetention then
        mergeEntries now table rest
      else mergeEntries now (recordEntry table entry) rest

def mergeResolutions (now : Int) :
    List AuditEntry → List ResolutionRecord →
      Except Cause (List AuditEntry)
  | table, [] => pure table
  | table, resolution :: rest => do
      let entry := auditEntryFromResolution resolution
      refuse (now < entry.moment calendar) .invalidRecord
      if entry.moment calendar < now - auditRetention then
        mergeResolutions now table rest
      else do
        refuse
          (∃ current ∈ table,
            current.generation = entry.generation ∧ current ≠ entry)
          .recordConflict
        mergeResolutions now (recordEntry table entry) rest

def mergeAndPruneAudit
    (index : AuditIndex) (resolutions : List ResolutionRecord) (now : Int) :
    Except Cause AuditIndex := do
  let table ← mergeEntries calendar now [] index.entries
  let table ← mergeResolutions calendar now table resolutions
  let entries := sortBy (auditKey calendar) table
  let result : AuditIndex :=
    ⟨auditIndexSchema, entries.drop (entries.length - maxAuditEntries)⟩
  refuse (result.valid calendar = false) .invalidRecord
  pure result

/-! ## What is merged -/

/-- The entry is not too old to be kept. -/
def withinAge (now : Int) (entry : AuditEntry) : Bool :=
  decide (now - auditRetention ≤ entry.moment calendar)

variable (index : AuditIndex) (resolutions : List ResolutionRecord)
  (now : Int)

/-- The entries of the index, and one for each resolution. -/
def offered : List AuditEntry :=
  index.entries ++ resolutions.map auditEntryFromResolution

def eligible : List AuditEntry :=
  (offered index resolutions).filter (withinAge calendar now)

/-- The eligible entries that no later one with the same generation
replaces. -/
def survivors : List AuditEntry :=
  (eligible calendar index resolutions now).foldl recordEntry []

variable {calendar index resolutions now}

theorem mergeEntries_eq_ok_iff
    {entries table next : List AuditEntry} :
    mergeEntries calendar now table entries = .ok next ↔
      (∀ entry ∈ entries, entry.moment calendar ≤ now) ∧
        (entries.filter (withinAge calendar now)).foldl recordEntry table =
          next := by
  induction entries generalizing table with
  | nil =>
      simp [mergeEntries]
  | cons entry rest inductionHypothesis =>
      rw [mergeEntries, bind_eq_ok_iff]
      simp only [refuse_eq_ok_iff, not_lt, exists_and_left,
        List.forall_mem_cons, List.filter_cons, withinAge]
      by_cases old : entry.moment calendar < now - auditRetention
      · simp only [old, if_true, inductionHypothesis, decide_eq_true_eq,
          not_le.mpr old, if_false, exists_const, and_assoc]
      · simp only [old, if_false, inductionHypothesis, decide_eq_true_eq,
          not_lt.mp old, if_true, List.foldl_cons, exists_const, and_assoc]

theorem mergeResolutions_eq_ok
    {table next : List AuditEntry}
    (merged : mergeResolutions calendar now table resolutions = .ok next) :
    ((resolutions.map auditEntryFromResolution).filter
      (withinAge calendar now)).foldl recordEntry table = next := by
  induction resolutions generalizing table with
  | nil =>
      simpa [mergeResolutions] using merged
  | cons resolution rest inductionHypothesis =>
      simp only [mergeResolutions, bind_eq_ok_iff] at merged
      obtain ⟨_, _, merged⟩ := merged
      rw [List.map_cons, List.filter_cons]
      split at merged
      · rename_i old
        have tooOld :
            withinAge calendar now (auditEntryFromResolution resolution) ≠
              true := by
          simpa only [withinAge, ne_eq, decide_eq_true_eq, not_le] using old
        rw [if_neg tooOld]
        exact inductionHypothesis merged
      · rename_i young
        simp only [bind_eq_ok_iff] at merged
        obtain ⟨_, _, merged⟩ := merged
        have recent :
            withinAge calendar now (auditEntryFromResolution resolution) =
              true :=
          decide_eq_true (not_lt.mp young)
        rw [if_pos recent, List.foldl_cons]
        exact inductionHypothesis merged

theorem mem_of_mem_foldl_recordEntry
    {entries table : List AuditEntry} {entry : AuditEntry}
    (member : entry ∈ entries.foldl recordEntry table) :
    entry ∈ table ∨ entry ∈ entries := by
  induction entries generalizing table with
  | nil =>
      exact Or.inl member
  | cons head rest inductionHypothesis =>
      rw [List.foldl_cons] at member
      rcases inductionHypothesis member with earlier | later
      · rw [recordEntry, List.mem_append, List.mem_filter,
          List.mem_singleton] at earlier
        rcases earlier with ⟨held, _⟩ | rfl
        · exact Or.inl held
        · exact Or.inr List.mem_cons_self
      · exact Or.inr (List.mem_cons_of_mem head later)

/-- No generation is written twice. -/
theorem generations_foldl_recordEntry
    {entries table : List AuditEntry}
    (distinct : (table.map (·.generation)).Nodup) :
    ((entries.foldl recordEntry table).map (·.generation)).Nodup := by
  induction entries generalizing table with
  | nil =>
      exact distinct
  | cons head rest inductionHypothesis =>
      rw [List.foldl_cons]
      apply inductionHypothesis
      rw [recordEntry, List.map_append, List.nodup_append]
      refine ⟨distinct.sublist (List.filter_sublist.map _), by simp, ?_⟩
      intro first firstMember second secondMember same
      obtain ⟨entry, listed, rfl⟩ := List.mem_map.mp firstMember
      simp only [List.map_cons, List.map_nil, List.mem_singleton]
        at secondMember
      have differ := (List.mem_filter.mp listed).2
      rw [same, secondMember] at differ
      simp at differ

theorem survivors_eligible
    {entry : AuditEntry}
    (member : entry ∈ survivors calendar index resolutions now) :
    entry ∈ eligible calendar index resolutions now := by
  rcases mem_of_mem_foldl_recordEntry member with none | listed
  · exact absurd none List.not_mem_nil
  · exact listed

theorem survivors_generations :
    ((survivors calendar index resolutions now).map
      (·.generation)).Nodup :=
  generations_foldl_recordEntry List.nodup_nil

/-- Survivors have different generations, so sorting puts them in strict
order. -/
theorem sorted_rising :
    (sortBy (auditKey calendar)
        (survivors calendar index resolutions now)).Pairwise
      fun left right => auditKey calendar left < auditKey calendar right := by
  have permuted :=
    @sortBy_perm _ _ _ (auditKey calendar)
      (survivors calendar index resolutions now)
  have distinct :
      ((sortBy (auditKey calendar)
        (survivors calendar index resolutions now)).map
          AuditEntry.generation).Nodup :=
    (permuted.map _).nodup_iff.mpr survivors_generations
  have apart := List.pairwise_map.mp distinct
  refine ((sortBy_ordered _).and apart).imp fun {left right} both => ?_
  refine lt_of_le_of_ne both.1 fun same => both.2 ?_
  have keys := (Prod.mk.inj (toLex.injective same)).2
  exact toLex.injective (Prod.mk.inj (toLex.injective keys)).2

/-- The audit that is returned: the last survivors in the order of their
texts. -/
theorem mergeAndPruneAudit_eq_ok
    {result : AuditIndex}
    (returned :
      mergeAndPruneAudit calendar index resolutions now = .ok result) :
    result.entries =
        (sortBy (auditKey calendar)
          (survivors calendar index resolutions now)).drop
          ((survivors calendar index resolutions now).length -
            maxAuditEntries) ∧
      result.valid calendar = true := by
  simp only [mergeAndPruneAudit, bind_eq_ok_iff, refuse_eq_ok_iff,
    pure_eq_ok_iff, Bool.not_eq_false] at returned
  obtain ⟨first, merged, second, resolved, _, valid, rfl⟩ := returned
  have table : survivors calendar index resolutions now = second := by
    rw [survivors, eligible, offered, List.filter_append,
      List.foldl_append, (mergeEntries_eq_ok_iff.mp merged).2]
    exact mergeResolutions_eq_ok resolved
  refine ⟨?_, valid⟩
  rw [table, ← (@sortBy_perm _ _ _ (auditKey calendar) second).length_eq]

/-! ## What is kept -/

/-- The entry is one of the last survivors: fewer than the limit have a
greater text. -/
def Kept
    (calendar : Calendar) (table : List AuditEntry) (entry : AuditEntry) :
    Prop :=
  entry ∈ table ∧
    table.countP (fun other =>
      decide (auditKey calendar entry < auditKey calendar other)) <
        maxAuditEntries

theorem mem_result_iff
    {result : AuditIndex} {entry : AuditEntry}
    (returned :
      mergeAndPruneAudit calendar index resolutions now = .ok result) :
    entry ∈ result.entries ↔
      Kept calendar (survivors calendar index resolutions now) entry := by
  have permuted :=
    @sortBy_perm _ _ _ (auditKey calendar)
      (survivors calendar index resolutions now)
  rw [(mergeAndPruneAudit_eq_ok returned).1, ← permuted.length_eq,
    mem_drop_iff_of_ordered maxAuditEntries sorted_rising, permuted.mem_iff,
    permuted.countP_eq]
  rfl

/-- The newest history: in the order of time, everything that is not too old
if there is room, and otherwise as much as there is room for, with nothing
that is older than what was dropped. -/
structure Newest
    (calendar : Calendar) (index : AuditIndex)
    (resolutions : List ResolutionRecord) (now : Int)
    (result : AuditIndex) : Prop where
  ordered :
    result.entries.Pairwise fun left right =>
      left.moment calendar ≤ right.moment calendar
  whole :
    (eligible calendar index resolutions now).dedup.length ≤
        maxAuditEntries →
      ∀ entry ∈ eligible calendar index resolutions now,
        entry ∈ result.entries
  full :
    maxAuditEntries <
        (eligible calendar index resolutions now).dedup.length →
      result.entries.length = maxAuditEntries ∧
        ∀ kept ∈ result.entries,
          ∀ entry ∈ eligible calendar index resolutions now,
            entry ∉ result.entries →
              entry.moment calendar ≤ kept.moment calendar
  valid : result.valid calendar = true

/-- The order of the texts is that of time wherever it decides what is kept,
and what another entry of its generation replaces would not be kept. -/
structure InOrder
    (calendar : Calendar) (index : AuditIndex)
    (resolutions : List ResolutionRecord) (now : Int) : Prop where
  texts :
    ∀ earlier ∈ survivors calendar index resolutions now, ∀ later,
      Kept calendar (survivors calendar index resolutions now) later →
      auditKey calendar earlier < auditKey calendar later →
        earlier.moment calendar ≤ later.moment calendar
  replaced :
    ∀ entry ∈ eligible calendar index resolutions now,
      entry ∉ survivors calendar index resolutions now →
        maxAuditEntries ≤
            (survivors calendar index resolutions now).length ∧
          ∀ later,
            Kept calendar (survivors calendar index resolutions now) later →
              entry.moment calendar ≤ later.moment calendar

theorem survivors_length_le :
    (survivors calendar index resolutions now).length ≤
      (eligible calendar index resolutions now).dedup.length := by
  refine
    (List.Nodup.subperm (survivors_generations.of_map _)
      fun entry member => ?_).length_le
  exact List.mem_dedup.mpr (survivors_eligible member)

/-- Something was replaced exactly where fewer survive. -/
theorem survivors_length_lt
    {entry : AuditEntry}
    (listed : entry ∈ eligible calendar index resolutions now)
    (replaced : entry ∉ survivors calendar index resolutions now) :
    (survivors calendar index resolutions now).length <
      (eligible calendar index resolutions now).dedup.length := by
  have distinct :
      (entry :: survivors calendar index resolutions now).Nodup :=
    List.nodup_cons.mpr ⟨replaced, survivors_generations.of_map _⟩
  refine (List.Nodup.subperm distinct ?_).length_le
  intro other member
  rcases List.mem_cons.mp member with rfl | survivor
  · exact List.mem_dedup.mpr listed
  · exact List.mem_dedup.mpr (survivors_eligible survivor)

/-- Texts and time give two entries the same order. -/
def Agree (calendar : Calendar) (left right : AuditEntry) : Prop :=
  auditKey calendar left < auditKey calendar right ∧
    left.moment calendar ≤ right.moment calendar

section Returned

variable {result : AuditIndex}
  (returned :
    mergeAndPruneAudit calendar index resolutions now = .ok result)
include returned

theorem result_length :
    result.entries.length =
      min maxAuditEntries
        (survivors calendar index resolutions now).length := by
  rw [(mergeAndPruneAudit_eq_ok returned).1, List.length_drop,
    (sortBy_perm _).length_eq]
  omega

theorem result_rising :
    result.entries.Pairwise fun left right =>
      auditKey calendar left < auditKey calendar right := by
  rw [(mergeAndPruneAudit_eq_ok returned).1]
  exact sorted_rising.sublist (List.drop_sublist _ _)

/-- Where there is room every survivor is kept. -/
theorem kept_of_room
    (room :
      (survivors calendar index resolutions now).length ≤ maxAuditEntries)
    {entry : AuditEntry}
    (member : entry ∈ survivors calendar index resolutions now) :
    entry ∈ result.entries := by
  rw [(mergeAndPruneAudit_eq_ok returned).1, Nat.sub_eq_zero_of_le room,
    List.drop_zero]
  exact (sortBy_perm _).mem_iff.mpr member

/-- What is dropped has a lesser text than all that is kept. -/
theorem key_lt_of_dropped
    {entry kept : AuditEntry}
    (member : entry ∈ survivors calendar index resolutions now)
    (dropped : entry ∉ result.entries) (held : kept ∈ result.entries) :
    auditKey calendar entry < auditKey calendar kept := by
  have sorted := @sorted_rising calendar index resolutions now
  have listed :
      entry ∈
        sortBy (auditKey calendar)
          (survivors calendar index resolutions now) :=
    (sortBy_perm _).mem_iff.mpr member
  rw [(mergeAndPruneAudit_eq_ok returned).1] at dropped held
  rw [← List.take_append_drop
    ((survivors calendar index resolutions now).length - maxAuditEntries)
    (sortBy _ _)] at sorted listed
  rcases List.mem_append.mp listed with front | back
  · exact (List.pairwise_append.mp sorted).2.2 entry front kept held
  · exact absurd back dropped

theorem newest_of_inOrder
    (inOrder : InOrder calendar index resolutions now) :
    Newest calendar index resolutions now result := by
  have kept {entry : AuditEntry} := @mem_result_iff _ _ _ _ _ entry returned
  refine ⟨?_, ?_, ?_, (mergeAndPruneAudit_eq_ok returned).2⟩
  · refine (result_rising returned).imp_of_mem ?_
    intro left right leftMember rightMember lower
    exact
      inOrder.texts left (kept.mp leftMember).1 right (kept.mp rightMember)
        lower
  · intro fits entry listed
    have survives : entry ∈ survivors calendar index resolutions now := by
      by_contra replaced
      have fewer := survivors_length_lt listed replaced
      have enough := (inOrder.replaced entry listed replaced).1
      omega
    exact
      kept_of_room returned (survivors_length_le.trans fits) survives
  · intro crowded
    constructor
    · rw [result_length returned]
      by_cases replaced :
          ∃ entry ∈ eligible calendar index resolutions now,
            entry ∉ survivors calendar index resolutions now
      · obtain ⟨entry, listed, absent⟩ := replaced
        have enough := (inOrder.replaced entry listed absent).1
        omega
      · push Not at replaced
        have all :
            (eligible calendar index resolutions now).dedup.length ≤
              (survivors calendar index resolutions now).length :=
          (List.Nodup.subperm (List.nodup_dedup _) fun entry member =>
            replaced entry (List.mem_dedup.mp member)).length_le
        omega
    · intro held heldMember entry listed dropped
      by_cases survives : entry ∈ survivors calendar index resolutions now
      · exact
          inOrder.texts entry survives held (kept.mp heldMember)
            (key_lt_of_dropped returned survives dropped heldMember)
      · exact
          (inOrder.replaced entry listed survives).2 held
            (kept.mp heldMember)

theorem inOrder_of_newest
    (newest : Newest calendar index resolutions now result) :
    InOrder calendar index resolutions now := by
  have kept {entry : AuditEntry} := @mem_result_iff _ _ _ _ _ entry returned
  refine ⟨?_, ?_⟩
  · intro earlier earlierMember later laterKept lower
    have laterMember := kept.mpr laterKept
    by_cases held : earlier ∈ result.entries
    · have symmetric :
          Std.Symm fun left right : AuditEntry =>
            Agree calendar left right ∨ Agree calendar right left :=
        ⟨fun _ _ either => either.symm⟩
      have pairs :
          result.entries.Pairwise fun left right =>
            Agree calendar left right ∨ Agree calendar right left :=
        ((result_rising returned).and newest.ordered).imp Or.inl
      rcases
          pairs.forall held laterMember
            fun same => (same ▸ lower).false with
        agree | agree
      · exact agree.2
      · exact absurd agree.1 lower.asymm
    · have crowded :
          maxAuditEntries <
            (eligible calendar index resolutions now).dedup.length := by
        by_contra fits
        exact
          held
            (newest.whole (not_lt.mp fits) earlier
              (survivors_eligible earlierMember))
      exact
        (newest.full crowded).2 later laterMember earlier
          (survivors_eligible earlierMember) held
  · intro entry listed replaced
    have absent : entry ∉ result.entries :=
      fun held => replaced (kept.mp held).1
    have crowded :
        maxAuditEntries <
          (eligible calendar index resolutions now).dedup.length := by
      by_contra fits
      exact absent (newest.whole (not_lt.mp fits) entry listed)
    obtain ⟨full, older⟩ := newest.full crowded
    refine ⟨?_, fun later laterKept => ?_⟩
    · rw [result_length returned] at full
      omega
    · exact older later (kept.mpr laterKept) entry listed absent

end Returned

/-! ## When an audit is returned -/

/-- Every entry and resolution is well formed and not after the present, and
no resolution says something else than an eligible entry of its
generation. -/
structure Clear
    (calendar : Calendar) (index : AuditIndex)
    (resolutions : List ResolutionRecord) (now : Int) : Prop where
  formed : ∀ entry ∈ offered index resolutions, entry.valid = true
  past :
    ∀ entry ∈ offered index resolutions, entry.moment calendar ≤ now
  agreed :
    ∀ resolution ∈ resolutions,
      ∀ entry ∈ eligible calendar index resolutions now,
        entry.generation = (auditEntryFromResolution resolution).generation →
          withinAge calendar now (auditEntryFromResolution resolution) =
              true →
            entry = auditEntryFromResolution resolution

theorem exists_mergeResolutions
    {whole table : List AuditEntry}
    (inside : table ⊆ whole)
    (listed :
      ∀ resolution ∈ resolutions,
        withinAge calendar now (auditEntryFromResolution resolution) = true →
          auditEntryFromResolution resolution ∈ whole)
    (past :
      ∀ resolution ∈ resolutions,
        (auditEntryFromResolution resolution).moment calendar ≤ now)
    (agreed :
      ∀ resolution ∈ resolutions, ∀ entry ∈ whole,
        entry.generation = (auditEntryFromResolution resolution).generation →
          withinAge calendar now (auditEntryFromResolution resolution) =
              true →
            entry = auditEntryFromResolution resolution) :
    ∃ next, mergeResolutions calendar now table resolutions = .ok next := by
  induction resolutions generalizing table with
  | nil =>
      exact ⟨table, rfl⟩
  | cons resolution rest inductionHypothesis =>
      rw [List.forall_mem_cons] at listed past agreed
      rw [mergeResolutions, refuse_bind_of_not (not_lt.mpr past.1)]
      split
      · exact inductionHypothesis inside listed.2 past.2 agreed.2
      · rename_i young
        have recent :
            withinAge calendar now (auditEntryFromResolution resolution) =
              true :=
          decide_eq_true (not_lt.mp young)
        rw [refuse_bind_of_not]
        · refine inductionHypothesis ?_ listed.2 past.2 agreed.2
          intro entry member
          rw [recordEntry, List.mem_append, List.mem_filter,
            List.mem_singleton] at member
          rcases member with ⟨held, _⟩ | rfl
          · exact inside held
          · exact listed.1 recent
        · rintro ⟨current, held, same, differ⟩
          exact differ (agreed.1 current (inside held) same recent)

/-- The last survivors are a valid index. -/
theorem pruned_valid
    (formed : ∀ entry ∈ offered index resolutions, entry.valid = true) :
    AuditIndex.valid calendar
        ⟨auditIndexSchema,
          (sortBy (auditKey calendar)
            (survivors calendar index resolutions now)).drop
            ((sortBy (auditKey calendar)
              (survivors calendar index resolutions now)).length -
                maxAuditEntries)⟩ = true := by
  have permuted :=
    @sortBy_perm _ _ _ (auditKey calendar)
      (survivors calendar index resolutions now)
  have kept :=
    List.drop_sublist
      ((sortBy (auditKey calendar)
        (survivors calendar index resolutions now)).length -
          maxAuditEntries)
      (sortBy (auditKey calendar)
        (survivors calendar index resolutions now))
  simp only [AuditIndex.valid, Bool.and_eq_true, decide_eq_true_eq,
    List.all_eq_true, List.length_drop]
  refine ⟨⟨⟨⟨trivial, by omega⟩, ?_⟩, ?_⟩, ?_⟩
  · intro entry member
    have survivor := permuted.mem_iff.mp (kept.subset member)
    exact formed entry (List.mem_filter.mp (survivors_eligible survivor)).1
  · have distinct :
        ((sortBy (auditKey calendar)
          (survivors calendar index resolutions now)).map
            AuditEntry.generation).Nodup :=
      (permuted.map _).nodup_iff.mpr survivors_generations
    have tagged := distinct.sublist (kept.map _)
    refine List.Nodup.of_map Prod.snd ?_
    rw [List.map_map]
    exact tagged
  · refine (sorted_rising.sublist kept).isChain.imp ?_
    exact fun _ _ lower => decide_eq_true lower

theorem exists_mergeAndPruneAudit
    (clear : Clear calendar index resolutions now) :
    ∃ result,
      mergeAndPruneAudit calendar index resolutions now = .ok result := by
  have past := clear.past
  rw [offered, List.forall_mem_append] at past
  have merged :
      mergeEntries calendar now [] index.entries = .ok _ :=
    mergeEntries_eq_ok_iff.mpr ⟨past.1, rfl⟩
  have inside :
      (index.entries.filter (withinAge calendar now)).foldl recordEntry [] ⊆
        eligible calendar index resolutions now := by
    intro entry member
    rcases mem_of_mem_foldl_recordEntry member with none | listed
    · exact absurd none List.not_mem_nil
    · rw [eligible, offered, List.filter_append]
      exact List.mem_append_left _ listed
  obtain ⟨table, resolved⟩ :=
    exists_mergeResolutions inside
      (fun resolution member recent =>
        List.mem_filter.mpr
          ⟨List.mem_append_right _ (List.mem_map_of_mem member), recent⟩)
      (fun resolution member => past.2 _ (List.mem_map_of_mem member))
      clear.agreed
  have survived : survivors calendar index resolutions now = table := by
    rw [survivors, eligible, offered, List.filter_append,
      List.foldl_append]
    exact mergeResolutions_eq_ok resolved
  have valid := @pruned_valid calendar index resolutions now clear.formed
  rw [survived] at valid
  simp only [mergeAndPruneAudit, merged, resolved, ok_bind]
  rw [refuse_bind_of_not (by rw [valid]; exact nofun)]
  exact ⟨_, rfl⟩

end Audit

/-- Ten o'clock on the twentieth of July 2026. -/
def tenOClock : Nat := 63920138400 * nanosecondsPerSecond

/-- The dates of the one second that is used. -/
def oneSecond : Calendar where
  dateTime _ := "2026-07-20T10:00:00".toList
  parse _ := 0

def resolvedGeneration (generation : Nat) (moment : Nat) :
    ResolutionRecord where
  schema := resolutionSchema
  transactionID := .version4 1
  domain := .root
  state := .active
  bundleGeneration := generation
  policyGeneration := generation
  manifestSHA256 := .sha256 1
  payloadSHA256 := .sha256 2
  resolvedAt := .utc moment
  reason := .none

end Hexroute.PolicyStore
