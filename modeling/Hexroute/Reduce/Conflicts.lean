import Hexroute.Lib.Retention
import Hexroute.Reduce.Fold

/-!
# What rendering does to the refusals

Rendering keeps the eight newest refusals of every source.  As a table the
rendered list is the filter `retain` of the table it was rendered from, so
questions about evicted evidence become questions about finite sets of keys.
-/

namespace Hexroute.Reduce

open Hexroute.Connectivity
open Hexroute.Lib
open Hexroute.Accept (Event)

/-- The positions a table holds refusals for. -/
def keySet (conflicts : ConflictTable) : Finset ConflictKey :=
  ((values conflicts).map ConflictRecord.key).toFinset

theorem mem_keySet
    {conflicts : ConflictTable} (keyed : Keyed ConflictRecord.key conflicts)
    {key : ConflictKey} :
    key ∈ keySet conflicts ↔ ∃ record, conflicts[key]? = some record := by
  rw [keySet, List.mem_toFinset, List.mem_map]
  constructor
  · rintro ⟨record, member, rfl⟩
    exact ⟨record, keyed.mem_values.mp member⟩
  · rintro ⟨record, found⟩
    obtain rfl := keyed key record found
    exact ⟨record, keyed.mem_values.mpr found, rfl⟩

/-- The positions whose refusals survive rendering. -/
def retainedKeys (conflicts : ConflictTable) : Finset ConflictKey :=
  retained ConflictKey.source ConflictKey.age maxConflictRecords
    (keySet conflicts)

/-- The refusals that survive rendering. -/
def retain (conflicts : ConflictTable) : ConflictTable :=
  conflicts.filter fun key _ => decide (key ∈ retainedKeys conflicts)

theorem retain_getElem?
    {conflicts : ConflictTable} {key : ConflictKey}
    {record : ConflictRecord} :
    (retain conflicts)[key]? = some record ↔
      conflicts[key]? = some record ∧ key ∈ retainedKeys conflicts := by
  rw [retain, Std.ExtTreeMap.getElem?_filter', Option.filter_eq_some_iff,
    decide_eq_true_eq]

theorem retain_keyed
    {conflicts : ConflictTable}
    (keyed : Keyed ConflictRecord.key conflicts) :
    Keyed ConflictRecord.key (retain conflicts) :=
  fun key record found => keyed key record (retain_getElem?.mp found).1

/-- How many refusals of the record's source are newer. -/
theorem card_newer
    {conflicts : ConflictTable}
    (keyed : Keyed ConflictRecord.key conflicts) (record : ConflictRecord) :
    (newer ConflictKey.source ConflictKey.age (keySet conflicts)
        record.key).card =
      ((values conflicts).filter (·.source = record.source)).countP
        fun other => record.key.age < other.key.age := by
  rw [newer, keySet, card_filter_toFinset_of_nodup keyed.values_keys_nodup,
    List.countP_map, List.countP_filter]
  congr 1
  funext other
  rw [Bool.and_comm, ← Bool.decide_and]
  rfl

/-- Refusals of one source differ in age. -/
theorem ages_nodup
    {conflicts : ConflictTable}
    (keyed : Keyed ConflictRecord.key conflicts) (source : SourceID) :
    (((values conflicts).filter (·.source = source)).map
      fun record => record.key.age).Nodup := by
  rw [List.Nodup, List.pairwise_map]
  have apart := keyed.values_keys_nodup
  rw [List.Nodup, List.pairwise_map] at apart
  refine (apart.filter _).imp_of_mem ?_
  intro left right leftMember rightMember differ same
  simp only [List.mem_filter, decide_eq_true_eq] at leftMember rightMember
  apply differ
  simp only [ConflictKey.age, ConflictRecord.key, EmbeddingLike.apply_eq_iff_eq,
    Prod.mk.injEq] at same
  simp only [ConflictRecord.key, ConflictKey.mk.injEq]
  exact ⟨leftMember.2.trans rightMember.2.symm, same.2, same.1⟩

theorem mem_newestRefusals
    {records : List ConflictRecord} {record : ConflictRecord}
    (distinct : (records.map fun other => other.key.age).Nodup) :
    record ∈ newestRefusals records ↔
      record ∈ records ∧
        records.countP (fun other => record.key.age < other.key.age) <
          maxConflictRecords := by
  have perm :
      (sortBy (fun other : ConflictRecord => other.key.age) records).Perm
        records :=
    sortBy_perm records
  have ordered :
      (sortBy (fun other : ConflictRecord => other.key.age)
          records).Pairwise
        fun left right => left.key.age < right.key.age := by
    have apart := (perm.map fun other => other.key.age).nodup_iff.mpr distinct
    rw [List.Nodup, List.pairwise_map] at apart
    exact
      (sortBy_ordered records).imp₂ (fun _ _ => lt_of_le_of_ne) apart
  rw [newestRefusals, mem_drop_iff_of_ordered maxConflictRecords ordered,
    perm.mem_iff, perm.countP_eq]

/-- What rendering lists are the newest refusals of every source. -/
theorem mem_renderConflicts_iff_newest
    {conflicts : ConflictTable}
    (keyed : Keyed ConflictRecord.key conflicts) {record : ConflictRecord} :
    record ∈ (renderConflicts conflicts).1 ↔
      record ∈ newestRefusals
        ((values conflicts).filter (·.source = record.source)) := by
  unfold renderConflicts
  simp only
  rw [(sortBy_perm _).mem_iff, List.mem_flatMap]
  constructor
  · rintro ⟨source, _, kept⟩
    obtain ⟨member, _⟩ :=
      (mem_newestRefusals (ages_nodup keyed source)).mp kept
    obtain rfl : record.source = source := by
      simpa using (List.mem_filter.mp member).2
    exact kept
  · intro kept
    obtain ⟨member, _⟩ :=
      (mem_newestRefusals (ages_nodup keyed record.source)).mp kept
    exact
      ⟨record.source,
        List.mem_dedup.mpr
          (List.mem_map_of_mem (List.mem_of_mem_filter member)), kept⟩

theorem mem_renderConflicts
    {conflicts : ConflictTable}
    (keyed : Keyed ConflictRecord.key conflicts) {record : ConflictRecord} :
    record ∈ (renderConflicts conflicts).1 ↔
      record ∈ values conflicts ∧ record.key ∈ retainedKeys conflicts := by
  have listed :
      record ∈ values conflicts → record.key ∈ keySet conflicts :=
    fun member =>
      List.mem_toFinset.mpr (List.mem_map_of_mem member)
  rw [mem_renderConflicts_iff_newest keyed,
    mem_newestRefusals (ages_nodup keyed record.source), retainedKeys,
    retained, Finset.mem_filter, card_newer keyed]
  simp only [List.mem_filter, decide_true, and_true]
  constructor
  · rintro ⟨member, newest⟩
    exact ⟨member, listed member, newest⟩
  · rintro ⟨member, _, newest⟩
    exact ⟨member, newest⟩

theorem renderConflicts_nodup
    {conflicts : ConflictTable}
    (keyed : Keyed ConflictRecord.key conflicts) :
    (renderConflicts conflicts).1.Nodup := by
  have distinct : (values conflicts).Nodup :=
    keyed.values_keys_nodup.of_map ConflictRecord.key
  unfold renderConflicts
  simp only
  rw [(sortBy_perm _).nodup_iff, List.nodup_flatMap]
  have within :
      ∀ source record,
        record ∈ newestRefusals
            ((values conflicts).filter (·.source = source)) →
          record.source = source := by
    intro source record kept
    rw [mem_newestRefusals (ages_nodup keyed source), List.mem_filter,
      decide_eq_true_eq] at kept
    exact kept.1.2
  refine ⟨?_, ?_⟩
  · intro source _
    exact
      ((sortBy_perm _).nodup_iff.mpr (distinct.filter _)).sublist
        (List.drop_sublist _ _)
  · refine (List.nodup_dedup _).imp ?_
    intro left right differ record leftKept rightKept
    exact differ
      ((within left record leftKept).symm.trans
        (within right record rightKept))

/-- No source lists more refusals than its bound. -/
theorem countP_renderConflicts_le
    {conflicts : ConflictTable}
    (keyed : Keyed ConflictRecord.key conflicts) (source : SourceID) :
    (renderConflicts conflicts).1.countP (·.source = source) ≤
      maxConflictRecords := by
  rw [List.countP_eq_length_filter]
  have inside :
      (renderConflicts conflicts).1.filter (·.source = source) ⊆
        newestRefusals ((values conflicts).filter (·.source = source)) := by
    intro record member
    rw [List.mem_filter, decide_eq_true_eq,
      mem_renderConflicts_iff_newest keyed] at member
    obtain ⟨kept, rfl⟩ := member
    exact kept
  calc
    _ ≤ (newestRefusals
          ((values conflicts).filter (·.source = source))).length :=
        (((renderConflicts_nodup keyed).filter _).subperm inside).length_le
    _ ≤ maxConflictRecords := by
        rw [newestRefusals, List.length_drop]
        omega

/-- The rendered list is the values of the retained table. -/
theorem renderConflicts_eq
    {conflicts : ConflictTable}
    (keyed : Keyed ConflictRecord.key conflicts) :
    (renderConflicts conflicts).1 = values (retain conflicts) := by
  have retainedKeyed := retain_keyed keyed
  have members :
      ∀ record,
        record ∈ (renderConflicts conflicts).1 ↔
          record ∈ values (retain conflicts) := by
    intro record
    rw [mem_renderConflicts keyed, retainedKeyed.mem_values,
      retain_getElem?, keyed.mem_values]
  have perm :
      (renderConflicts conflicts).1.Perm (values (retain conflicts)) :=
    (List.perm_ext_iff_of_nodup (renderConflicts_nodup keyed)
      (retainedKeyed.values_keys_nodup.of_map _)).mpr members
  refine
    @List.Perm.eq_of_pairwise _ (fun left right => left.key ≤ right.key) _ _
      ?_ (sortBy_ordered _) ?_ perm
  · intro left right leftMember rightMember below above
    exact
      List.inj_on_of_nodup_map retainedKeyed.values_keys_nodup
        ((members left).mp leftMember) rightMember (le_antisymm below above)
  · refine retainedKeyed.values_ordered.imp ?_
    intro left right below
    exact le_of_lt (compare_lt_iff_lt.mp below)

/-- Rendering lists the same refusals exactly when it retains the same. -/
theorem renderConflicts_eq_iff
    {left right : ConflictTable}
    (leftKeyed : Keyed ConflictRecord.key left)
    (rightKeyed : Keyed ConflictRecord.key right) :
    (renderConflicts left).1 = (renderConflicts right).1 ↔
      retain left = retain right := by
  rw [renderConflicts_eq leftKeyed, renderConflicts_eq rightKeyed]
  constructor
  · exact
      (retain_keyed leftKeyed).eq_of_values_eq (retain_keyed rightKeyed)
  · exact fun same => congrArg values same

/-- A snapshot's refusals are re-read as the retained table. -/
theorem tableOf_renderConflicts
    {conflicts : ConflictTable}
    (keyed : Keyed ConflictRecord.key conflicts) :
    tableOf ConflictRecord.key (renderConflicts conflicts).1 =
      retain conflicts := by
  rw [renderConflicts_eq keyed]
  apply Std.ExtTreeMap.ext_getElem?
  intro key
  have read :=
    (retain_keyed keyed).tableOf_map_values id (fun _ => rfl) key
  simpa using read

/-- The source has more refusals outstanding than a snapshot may keep. -/
def Crowded (conflicts : ConflictTable) (source : SourceID) : Prop :=
  maxConflictRecords < ((keySet conflicts).filter (·.source = source)).card

/-- The overflow flag says that some source holds more than it may keep. -/
theorem renderConflicts_overflow_iff
    {conflicts : ConflictTable}
    (keyed : Keyed ConflictRecord.key conflicts) :
    (renderConflicts conflicts).2 = true ↔
      ∃ source, Crowded conflicts source := by
  have count :
      ∀ source,
        ((keySet conflicts).filter (·.source = source)).card =
          ((values conflicts).filter (·.source = source)).length := by
    intro source
    rw [keySet, card_filter_toFinset_of_nodup keyed.values_keys_nodup,
      List.countP_map, List.countP_eq_length_filter]
    rfl
  unfold renderConflicts Crowded
  simp only [List.any_eq_true, decide_eq_true_eq, count]
  constructor
  · rintro ⟨source, _, crowded⟩
    exact ⟨source, crowded⟩
  · rintro ⟨source, crowded⟩
    obtain ⟨record, member⟩ :=
      List.exists_mem_of_length_pos (Nat.lt_of_le_of_lt (Nat.zero_le _) crowded)
    obtain ⟨held, rfl⟩ : record ∈ values conflicts ∧ record.source = source := by
      simpa using member
    exact
      ⟨record.source, List.mem_dedup.mpr (List.mem_map_of_mem held), crowded⟩

/-- The refusals outstanding after some events, when nothing is evicted. -/
def outstanding (conflicts : ConflictTable) (events : List Event) :
    ConflictTable :=
  events.foldl foldConflicts conflicts

/-- The refusals held when the last batch is rendered, after every earlier
batch has evicted what it did not retain. -/
def carried (conflicts : ConflictTable) : List (List Event) → ConflictTable
  | [] => conflicts
  | [batch] => outstanding conflicts batch
  | batch :: next :: rest =>
      carried (retain (outstanding conflicts batch)) (next :: rest)

theorem outstanding_keyed
    {conflicts : ConflictTable}
    (keyed : Keyed ConflictRecord.key conflicts) (events : List Event) :
    Keyed ConflictRecord.key (outstanding conflicts events) := by
  induction events generalizing conflicts with
  | nil =>
      exact keyed
  | cons event rest inductionHypothesis =>
      exact inductionHypothesis (foldConflicts_keyed event keyed)

theorem carried_keyed
    {conflicts : ConflictTable}
    (keyed : Keyed ConflictRecord.key conflicts)
    (batches : List (List Event)) :
    Keyed ConflictRecord.key (carried conflicts batches) := by
  induction batches generalizing conflicts with
  | nil =>
      exact keyed
  | cons batch rest inductionHypothesis =>
      cases rest with
      | nil =>
          exact outstanding_keyed keyed batch
      | cons next rest =>
          exact
            inductionHypothesis (retain_keyed (outstanding_keyed keyed batch))

/-- The position an event's refusal is counted against. -/
def refusedAt (event : Event) : ConflictKey :=
  ⟨event.fact.sourceID, event.fact.component, event.fact.sourceSequence⟩

/-- One more refusal at the event's position. -/
def countOne (event : Event) (held : Option ConflictRecord) :
    ConflictRecord :=
  match held with
  | some existing => { existing with count := existing.count + 1 }
  | none =>
      { source := event.fact.sourceID
        component := event.fact.component
        sequence := event.fact.sourceSequence
        reason := event.acceptance.reason
        count := 1 }

/-- What an event does to the refusals held at one position. -/
def refusalAfter (event : Event) (key : ConflictKey)
    (held : Option ConflictRecord) : Option ConflictRecord :=
  if event.acceptance.outcome = .accepted then
    if event.fact.baseline = true ∧ key.source = event.fact.sourceID ∧
        key.component = event.fact.component then
      none
    else
      held
  else if event.acceptance.outcome = .conflict ∧ refusedAt event = key then
    some (countOne event held)
  else
    held

theorem clearComponentConflicts_getElem?
    (conflicts : ConflictTable) (source : SourceID) (component : Component)
    (key : ConflictKey) :
    (clearComponentConflicts conflicts source component)[key]? =
      if key.source = source ∧ key.component = component then none
      else conflicts[key]? := by
  rw [clearComponentConflicts, Std.ExtTreeMap.getElem?_filter']
  by_cases cleared : key.source = source ∧ key.component = component
  · rw [if_pos cleared]
    simp [cleared]
  · rw [if_neg cleared]
    cases conflicts[key]? with
    | none =>
        rfl
    | some record =>
        rw [Option.filter_some, if_pos]
        rw [← Bool.decide_and, Bool.not_eq_true', decide_eq_false_iff_not]
        exact cleared

theorem countConflict_getElem?
    (conflicts : ConflictTable) (event : Event) (key : ConflictKey) :
    (countConflict conflicts event)[key]? =
      if refusedAt event = key then some (countOne event conflicts[key]?)
      else conflicts[key]? := by
  have counted :
      countConflict conflicts event =
        conflicts.insert (refusedAt event)
          (countOne event conflicts[refusedAt event]?) := by
    unfold countConflict
    simp only
    split <;> rename_i found <;> simp only [refusedAt] at found ⊢ <;>
      rw [found] <;> rfl
  rw [counted, Std.ExtTreeMap.getElem?_insert]
  simp only [Std.compare_eq_iff_eq]
  split
  · rename_i same
    rw [same]
  · rfl

/-- The refusals evolve position by position. -/
theorem foldConflicts_getElem?
    (conflicts : ConflictTable) (event : Event) (key : ConflictKey) :
    (foldConflicts conflicts event)[key]? =
      refusalAfter event key conflicts[key]? := by
  unfold foldConflicts refusalAfter
  by_cases accepted : event.acceptance.outcome = .accepted
  · rw [if_pos accepted, if_pos accepted]
    by_cases baseline : event.fact.baseline = true
    · rw [if_pos baseline, clearComponentConflicts_getElem?]
      simp only [baseline, true_and]
    · rw [if_neg baseline, if_neg (fun clears => baseline clears.1)]
  · rw [if_neg accepted, if_neg accepted]
    by_cases conflict : event.acceptance.outcome = .conflict
    · rw [if_pos conflict, countConflict_getElem?]
      simp only [conflict, true_and]
    · rw [if_neg conflict, if_neg (fun refused => conflict refused.1)]

/-- Whatever position the smaller table holds, the larger one holds too. -/
def Within (smaller larger : ConflictTable) : Prop :=
  ∀ key : ConflictKey,
    (smaller[key]?).isSome = true → (larger[key]?).isSome = true

theorem Within.retain {smaller larger : ConflictTable}
    (within : Within smaller larger) : Within (retain smaller) larger := by
  intro key held
  obtain ⟨record, found⟩ := Option.isSome_iff_exists.mp held
  apply within key
  rw [(retain_getElem?.mp found).1]
  rfl

theorem Within.foldConflicts
    {smaller larger : ConflictTable} (within : Within smaller larger)
    (event : Event) :
    Within (foldConflicts smaller event) (foldConflicts larger event) := by
  intro key held
  rw [foldConflicts_getElem?] at held ⊢
  unfold refusalAfter at held ⊢
  split at held
  · split at held
    · simp at held
    · rename_i accepted kept
      rw [if_pos accepted, if_neg kept]
      exact within key held
  · split at held
    · rename_i accepted refused
      rw [if_neg accepted, if_pos refused]
      rfl
    · rename_i accepted refused
      rw [if_neg accepted, if_neg refused]
      exact within key held

theorem Within.outstanding
    {smaller larger : ConflictTable} (within : Within smaller larger)
    (events : List Event) :
    Within (outstanding smaller events) (outstanding larger events) := by
  induction events generalizing smaller larger with
  | nil =>
      exact within
  | cons event rest inductionHypothesis =>
      exact inductionHypothesis (within.foldConflicts event)

/-- Evicting on the way only ever loses positions. -/
theorem Within.carried
    {smaller larger : ConflictTable} (within : Within smaller larger)
    (batches : List (List Event)) :
    Within (carried smaller batches)
      (Reduce.outstanding larger batches.flatten) := by
  induction batches generalizing smaller larger with
  | nil =>
      exact within
  | cons batch rest inductionHypothesis =>
      cases rest with
      | nil =>
          rw [Reduce.carried, List.flatten_singleton]
          exact within.outstanding batch
      | cons next rest =>
          have later :=
            inductionHypothesis (within.outstanding batch).retain
          rw [Reduce.carried, List.flatten_cons]
          simpa only [Reduce.outstanding, List.foldl_append] using later

theorem Within.keySet_subset
    {smaller larger : ConflictTable} (within : Within smaller larger)
    (smallerKeyed : Keyed ConflictRecord.key smaller)
    (largerKeyed : Keyed ConflictRecord.key larger) :
    keySet smaller ⊆ keySet larger := by
  intro key member
  rw [mem_keySet smallerKeyed] at member
  rw [mem_keySet largerKeyed]
  obtain ⟨record, found⟩ := member
  exact Option.isSome_iff_exists.mp (within key (by simp [found]))

/-- Evicting on the way loses no refusal that would be among its source's
newest in the end, nor any repetition of one, and if some source has too many
outstanding then some source still holds too many. -/
structure KeepsEvidence (start : ConflictTable) (batches : List (List Event)) :
    Prop where
  shown :
    ∀ (key : ConflictKey) (record : ConflictRecord),
      (outstanding start batches.flatten)[key]? = some record →
        key ∈ retainedKeys (outstanding start batches.flatten) →
          (carried start batches)[key]? = some record
  overflow :
    (∃ source, Crowded (outstanding start batches.flatten) source) →
      ∃ source, Crowded (carried start batches) source

/-- The exact condition under which evicting on the way changes neither the
rendered refusals nor the overflow flag. -/
theorem renderConflicts_carried_iff
    {start : ConflictTable} (keyed : Keyed ConflictRecord.key start)
    (batches : List (List Event)) :
    renderConflicts (carried start batches) =
        renderConflicts (outstanding start batches.flatten) ↔
      KeepsEvidence start batches := by
  have heldKeyed := carried_keyed keyed batches
  have wholeKeyed := outstanding_keyed keyed batches.flatten
  have within : Within (carried start batches)
      (outstanding start batches.flatten) :=
    Within.carried (fun _ held => held) batches
  have subset := within.keySet_subset heldKeyed wholeKeyed
  rw [Prod.ext_iff, renderConflicts_eq_iff heldKeyed wholeKeyed]
  constructor
  · rintro ⟨same, flag⟩
    rw [Bool.eq_iff_iff, renderConflicts_overflow_iff heldKeyed,
      renderConflicts_overflow_iff wholeKeyed] at flag
    refine ⟨?_, flag.mpr⟩
    intro key record found kept
    have shown := retain_getElem?.mpr ⟨found, kept⟩
    rw [← same] at shown
    exact (retain_getElem?.mp shown).1
  · rintro ⟨shown, overflow⟩
    have keysHeld :
        retainedKeys (outstanding start batches.flatten) ⊆
          keySet (carried start batches) := by
      intro key kept
      obtain ⟨record, found⟩ :=
        (mem_keySet wholeKeyed).mp (Finset.mem_of_mem_filter key kept)
      exact
        (mem_keySet heldKeyed).mpr
          ⟨record, shown key record found kept⟩
    have sameKeys :
        retainedKeys (carried start batches) =
          retainedKeys (outstanding start batches.flatten) :=
      (retained_eq_iff subset).mpr keysHeld
    refine ⟨?_, ?_⟩
    · apply Std.ExtTreeMap.ext_getElem?
      intro key
      apply Option.ext
      intro record
      rw [retain_getElem?, retain_getElem?, sameKeys]
      constructor
      · rintro ⟨held, kept⟩
        obtain ⟨other, found⟩ :=
          (mem_keySet wholeKeyed).mp (Finset.mem_of_mem_filter key kept)
        have same := shown key other found kept
        rw [held] at same
        obtain rfl := Option.some.inj same
        exact ⟨found, kept⟩
      · rintro ⟨found, kept⟩
        exact ⟨shown key record found kept, kept⟩
    · rw [Bool.eq_iff_iff, renderConflicts_overflow_iff heldKeyed,
        renderConflicts_overflow_iff wholeKeyed]
      refine ⟨?_, overflow⟩
      rintro ⟨source, crowded⟩
      exact
        ⟨source,
          crowded.trans_le
            (Finset.card_le_card (Finset.filter_subset_filter _ subset))⟩

end Hexroute.Reduce
