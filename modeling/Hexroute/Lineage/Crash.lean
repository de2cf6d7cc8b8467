import Hexroute.Lib.History
import Hexroute.Lineage.Held

/-!
# Crashes of the checkpoint store

An append may be stopped at any boundary of any of its three writes, and the
next one starts from what that left.  The order of the writes keeps one
relation between records, lineage and pointer through all of it: what an
entry or the pointer names is there, with its ancestry.
-/

namespace Hexroute.Lineage

open Hexroute.Lib

/-- One call of `Append` and the boundaries that fire during it. -/
structure Attempt where
  checkpoint : Checkpoint
  fires : Operation → Boundary → Bool

variable (digests : Digests) (size : Checkpoint → Nat)

/-- The store an attempt leaves, however it ends. -/
def Store.attempt (store : Store) (attempt : Attempt) : Store :=
  (store.append digests size attempt.fires attempt.checkpoint).2

/-- The record loads, and so does its parent. -/
structure Fit
    (records : Std.ExtTreeMap String Checkpoint) (held : Checkpoint) :
    Prop where
  valid : held.validate digests = .ok ()
  small : size held ≤ maxCheckpointBytes
  continued :
    held.parent ≠ "" →
      ∃ parent, records[held.parent]? = some parent ∧
        parent.digest = held.parentDigest

/-- What holds between the published files at every moment. -/
structure Sound
    (records : Std.ExtTreeMap String Checkpoint)
    (entries : Std.ExtTreeMap Nat IndexEntry) (pointer : Option Pointer) :
    Prop where
  filed : Keyed Checkpoint.id records
  fit :
    ∀ (id : String) (held : Checkpoint), records[id]? = some held →
      Fit digests size records held
  entered :
    ∀ (sequence : Nat) (entry : IndexEntry),
      entries[sequence]? = some entry →
        ∃ held, records[held.id]? = some held ∧
          entry = entryFor sequence held
  pointed :
    ∀ next ∈ pointer, ∃ held, records[held.id]? = some held ∧
      next = pointerFor next.sequence next.overflow held

def Store.pointer (store : Store) : Option Pointer :=
  store.root.published[pointerName]?

def Store.Sound (store : Store) : Prop :=
  Lineage.Sound digests size store.checkpoints.published
    store.index.published store.pointer

variable {digests size}
variable {records : Std.ExtTreeMap String Checkpoint}
  {entries : Std.ExtTreeMap Nat IndexEntry} {pointer : Option Pointer}
  {store : Store} {checkpoint : Checkpoint} {sequence : Nat}

theorem sound_empty : Store.empty.Sound digests size := by
  constructor <;> simp [Store.empty, Store.pointer, Directory.empty, Keyed]

section Writes

/-! ### The three writes -/

variable (sound : Sound digests size records entries pointer)

include sound

theorem Sound.record
    (free : records[checkpoint.id]? = none)
    (fit : Fit digests size records checkpoint) :
    Sound digests size (records.insert checkpoint.id checkpoint) entries
      pointer := by
  have kept :
      ∀ (id : String) (held : Checkpoint), records[id]? = some held →
        (records.insert checkpoint.id checkpoint)[id]? = some held := by
    grind
  refine ⟨sound.filed.insert rfl, ?_, ?_, ?_⟩
  · intro id held found
    have known : Fit digests size records held := by
      by_cases own : checkpoint.id = id
      · grind
      · exact sound.fit id held (by grind)
    refine ⟨known.valid, known.small, fun child => ?_⟩
    obtain ⟨parent, there, same⟩ := known.continued child
    exact ⟨parent, kept _ _ there, same⟩
  · grind [sound.entered]
  · grind [sound.pointed]

theorem Sound.enter
    {grown : Std.ExtTreeMap Nat IndexEntry}
    (there : records[checkpoint.id]? = some checkpoint)
    (grows :
      ∀ (other : Nat) (entry : IndexEntry), grown[other]? = some entry →
        entries[other]? = some entry ∨
          entry = entryFor other checkpoint) :
    Sound digests size records grown pointer := by
  refine { sound with entered := ?_ }
  grind [sound.entered]

theorem Sound.point
    (there : records[checkpoint.id]? = some checkpoint) (overflow : Bool) :
    Sound digests size records entries
      (some (pointerFor sequence overflow checkpoint)) := by
  refine { sound with pointed := ?_ }
  rintro next ⟨⟩
  exact ⟨checkpoint, there, rfl⟩

end Writes

section Reads

/-! ### Reading what is there -/

theorem named_of_validate (valid : checkpoint.validate digests = .ok ()) :
    validIdentifier checkpoint.id = true := by
  simp only [Checkpoint.validate, bind_eq_ok_iff, refuse_eq_ok_iff] at valid
  obtain ⟨_, _, _, named, _⟩ := valid
  simpa using named

theorem candidatesFrom_listed
    {listed : List IndexEntry} (full : listed ≠ []) (id : String) :
    candidatesFrom listed id ≠ [] ∧ candidatesFrom listed id ⊆ listed := by
  unfold candidatesFrom
  split
  · rename_i named
    constructor
    · rw [Ne, List.dropWhile_eq_nil_iff]
      simpa using named
    · intro entry member
      exact List.mem_reverse.mp ((List.dropWhile_sublist _).subset member)
  · simpa using full

variable (sound : store.Sound digests size)

include sound

theorem load_of_sound
    {id : String} (found : store.checkpoints.published[id]? = some checkpoint) :
    store.load digests size id = .ok checkpoint := by
  have fit := sound.fit id checkpoint found
  obtain rfl := sound.filed id checkpoint found
  simp [Store.load, named_of_validate fit.valid, found, fit.valid, fit.small]

theorem proveAncestry_of_sound
    (overflow : Bool) (steps : Nat) {id : String}
    (found : store.checkpoints.published[id]? = some checkpoint) :
    store.proveAncestry digests size overflow steps checkpoint = .none := by
  induction steps generalizing id checkpoint with
  | zero =>
      rfl
  | succ steps inductionHypothesis =>
      unfold Store.proveAncestry
      by_cases first : checkpoint.parent = ""
      · rw [if_pos first]
      · obtain ⟨parent, there, same⟩ :=
          (sound.fit id checkpoint found).continued first
        rw [if_neg first, load_of_sound sound there]
        simp [same, inductionHypothesis there]

theorem proveLocked_of_sound
    (depth : Nat) (overflow : Bool) {entry : IndexEntry}
    (entered : entry ∈ values store.index.published) :
    ∃ held,
      store.proveLocked digests size depth overflow entry = .ok held := by
  obtain ⟨sequence, found⟩ := mem_values.mp entered
  obtain ⟨held, there, rfl⟩ := sound.entered sequence entry found
  refine ⟨held, ?_⟩
  unfold Store.proveLocked
  rw [show (entryFor sequence held).id = held.id from rfl,
    load_of_sound sound there]
  simp [IndexEntry.matches, entryFor,
    proveAncestry_of_sound sound overflow depth there, pure, Except.pure]

/-- Startup finds a checkpoint where the lineage has one. -/
theorem resume_of_sound
    (depth : Nat) {lineage : List IndexEntry}
    (listed : store.indexLocked = .ok lineage) (full : lineage ≠ []) :
    ∃ resume, store.resume digests size depth = .ok resume ∧
      resume.usable = true := by
  have usable :
      ∀ candidates overflow initial reason,
        candidates ≠ [] → candidates ⊆ lineage →
          (store.searchLocked digests size depth overflow initial 0 reason
            .none candidates).usable = true := by
    intro candidates overflow initial reason some within
    obtain ⟨entry, rest, rfl⟩ := List.exists_cons_of_ne_nil some
    simp only [Store.indexLocked, bind_eq_ok_iff, pure_eq_ok_iff] at listed
    obtain ⟨_, _, rfl⟩ := listed
    obtain ⟨held, proves⟩ :=
      proveLocked_of_sound sound depth overflow
        ((sortBy_perm _).subset (within List.mem_cons_self))
    unfold Store.searchLocked
    simp only [Nat.not_lt_zero, if_false, proves, Resume.usable]
    split <;> rfl
  unfold Store.resume
  cases store.pointerLocked with
  | error _ =>
      refine ⟨_, by rw [listed]; rfl, ?_⟩
      rw [if_neg full]
      exact usable _ _ _ _ (by simpa using full) (by simp)
  | ok next =>
      refine ⟨_, by rw [listed]; rfl, ?_⟩
      obtain ⟨some, within⟩ := candidatesFrom_listed full next.id
      exact usable _ _ _ _ some within

theorem latest_of_sound
    {latest : Option Latest} (onto : store.latestLocked = .ok latest) :
    ∀ last ∈ latest, ∃ held,
      store.checkpoints.published[last.id]? = some held ∧
        held.digest = last.digest := by
  unfold Store.latestLocked at onto
  cases points : store.pointerLocked with
  | ok next =>
      have stored : store.pointer = some next := by
        unfold Store.pointerLocked at points
        split at points <;> simp_all [Store.pointer]
      obtain ⟨held, there, same⟩ := sound.pointed next stored
      simp only [points, pure_eq_ok_iff] at onto
      subst onto
      rintro _ ⟨⟩
      rw [same]
      exact ⟨held, there, rfl⟩
  | error failure =>
      simp only [points, Store.indexLocked, bind_eq_ok_iff,
        pure_eq_ok_iff] at onto
      obtain ⟨_, ⟨_, _, rfl⟩, rfl⟩ := onto
      intro last newest
      obtain ⟨entry, listed, rfl⟩ := Option.map_eq_some_iff.mp newest
      have member := (sortBy_perm _).mem_iff.mp (List.mem_of_getLast? listed)
      obtain ⟨sequence, found⟩ := mem_values.mp member
      obtain ⟨held, there, rfl⟩ := sound.entered sequence entry found
      exact ⟨held, there, rfl⟩

theorem fit_of_prepare
    {latest : Option Latest}
    (prepares : store.prepare digests size checkpoint = .ok latest) :
    Fit digests size store.checkpoints.published checkpoint := by
  simp only [Store.prepare, bind_eq_ok_iff, mapError_eq_ok_iff,
    refuse_eq_ok_iff, pure_eq_ok_iff] at prepares
  obtain ⟨_, valid, onto, located, _, guarded, _, small, _⟩ := prepares
  refine ⟨valid, not_lt.mp small, fun child => ?_⟩
  cases onto with
  | none =>
      simp [generationGuard, child] at guarded
  | some last =>
      obtain ⟨held, there, same⟩ := latest_of_sound sound located last rfl
      simp only [generationGuard, if_neg child, bind_eq_ok_iff,
        refuse_eq_ok_iff, not_not] at guarded
      obtain ⟨_, _, _, parent, _, digest, _⟩ := guarded
      rw [parent, digest]
      exact ⟨held, there, same⟩

end Reads

section Append

/-! ### However an append ends -/

theorem wrote_eq_ok_iff {written : Written} {name : String} :
    wrote written name = .ok () ↔ written = .done := by
  cases written <;> simp [wrote]

theorem pointer_writePointer
    (fires : Operation → Boundary → Bool) (next : Pointer) :
    (store.writePointer fires next).2.pointer = store.pointer ∧
        (store.writePointer fires next).1 ≠ .ok () ∨
      (store.writePointer fires next).2.pointer = some next := by
  unfold Store.writePointer Store.pointer
  rcases
    store.root.write_cases (fires .pointer) true pointerName next with
    ⟨same, failed⟩ | ⟨moved, _⟩
  · exact Or.inl ⟨by rw [same], fun done => failed (wrote_eq_ok_iff.mp done)⟩
  · exact Or.inr (by rw [moved, Std.ExtTreeMap.getElem?_insert_self])

theorem sound_writePointer
    (sound : store.Sound digests size)
    (there : store.checkpoints.published[checkpoint.id]? = some checkpoint)
    (fires : Operation → Boundary → Bool) (overflow : Bool) :
    (store.writePointer fires
      (pointerFor sequence overflow checkpoint)).2.Sound digests size := by
  unfold Store.Sound
  rcases pointer_writePointer fires _ with ⟨same, _⟩ | moved
  · rw [same]
    exact sound
  · rw [moved]
    exact sound.point there overflow

theorem sound_writeEntry
    (sound : store.Sound digests size)
    (there : store.checkpoints.published[checkpoint.id]? = some checkpoint)
    (fires : Operation → Boundary → Bool) (latest : Option Latest) :
    (store.writeEntry fires latest checkpoint).2.Sound digests size := by
  unfold Store.writeEntry
  simp only
  set sequence := (latest.map (·.sequence)).getD 0 + 1
  have entered :
      { store with
        index :=
          (store.index.write (fires .index) false sequence
            (entryFor sequence checkpoint)).2 }.Sound digests size := by
    refine sound.enter there ?_
    rcases
      store.index.write_published (fires .index) false sequence
        (entryFor sequence checkpoint) with
      same | added
    · simp +contextual [same]
    · grind
  split
  · exact entered
  · split
    · exact entered
    · rename_i evicts
      simp only [Store.evictIndexLocked, bind_eq_ok_iff, pure_eq_ok_iff,
        Prod.mk.injEq] at evicts
      obtain ⟨_, _, _, rfl⟩ := evicts
      refine sound_writePointer ?_ ?_ fires _
      · refine entered.enter there fun other entry kept => ?_
        exact Or.inl (of_eraseAll kept)
      · exact there

theorem sound_attempt (sound : store.Sound digests size) (attempt : Attempt) :
    (store.attempt digests size attempt).Sound digests size := by
  unfold Store.attempt Store.append
  split
  · exact sound
  · rename_i latest prepares
    have fit := fit_of_prepare sound prepares
    unfold Store.publish
    simp only
    rcases
      store.checkpoints.write_cases (attempt.fires .checkpoint) false
        attempt.checkpoint.id attempt.checkpoint with
      ⟨same, failed⟩ | ⟨added, free⟩
    · split
      · simp only [Store.Sound, same]
        exact sound
      · rename_i wrote
        exact absurd (wrote_eq_ok_iff.mp wrote) failed
    · have recorded :
          { store with
            checkpoints :=
              (store.checkpoints.write (attempt.fires .checkpoint) false
                attempt.checkpoint.id attempt.checkpoint).2 }.Sound
            digests size := by
        simp only [Store.Sound, added]
        exact sound.record (by grind [Directory.taken]) fit
      split
      · exact recorded
      · refine sound_writeEntry recorded ?_ attempt.fires latest
        rw [added, Std.ExtTreeMap.getElem?_insert_self]

/-- Only an append that comes to its last write moves the pointer, and one
that succeeds does. -/
theorem pointer_attempt (store : Store) (attempt : Attempt) :
    (store.attempt digests size attempt).pointer = store.pointer ∧
        (store.append digests size attempt.fires attempt.checkpoint).1 ≠
          .ok () ∨
      ∃ sequence overflow,
        (store.attempt digests size attempt).pointer =
          some (pointerFor sequence overflow attempt.checkpoint) := by
  unfold Store.attempt Store.append
  split
  · exact Or.inl ⟨rfl, by simp⟩
  unfold Store.publish
  simp only
  split
  · exact Or.inl ⟨rfl, by simp⟩
  unfold Store.writeEntry
  simp only
  split
  · exact Or.inl ⟨rfl, by simp⟩
  split
  · exact Or.inl ⟨rfl, by simp⟩
  rename_i evicts
  simp only [Store.evictIndexLocked, bind_eq_ok_iff, pure_eq_ok_iff,
    Prod.mk.injEq] at evicts
  obtain ⟨_, _, _, rfl⟩ := evicts
  exact (pointer_writePointer _ _).imp_right fun moved => ⟨_, _, moved⟩

/-- The pointer names the checkpoint of one of these attempts. -/
def Store.Names (store : Store) (attempts : List Attempt) : Prop :=
  ∃ attempt ∈ attempts, ∃ sequence overflow,
    store.pointer = some (pointerFor sequence overflow attempt.checkpoint)

theorem names_after
    {attempts : List Attempt} (names : store.Names attempts)
    (later : List Attempt) :
    (stateAfter (Store.attempt digests size) store later).Names
      (attempts ++ later) := by
  induction later using List.reverseRecOn with
  | nil =>
      simpa using names
  | append_singleton later last inductionHypothesis =>
      rw [stateAfter_snoc, ← List.append_assoc]
      rcases pointer_attempt (stateAfter _ store later) last with
        ⟨same, _⟩ | moved
      · obtain ⟨attempt, member, points⟩ := inductionHypothesis
        exact
          ⟨attempt, List.mem_append_left _ member, by rw [same]; exact points⟩
      · exact ⟨last, by simp, moved⟩

end Append

/-- However the appends of a history are interrupted, startup finds what the
pointer names, it can resume as long as the lineage has an entry, and an
acknowledged checkpoint gives way only to a later one. -/
theorem nothing_acknowledged_is_lost
    (digests : Digests) (size : Checkpoint → Nat) (history : List Attempt) :
    let store := stateAfter (Store.attempt digests size) Store.empty history
    (∀ next ∈ store.pointer, ∃ held,
        store.load digests size next.id = .ok held ∧
          held.digest = next.digest) ∧
      (∀ depth lineage, store.indexLocked = .ok lineage → lineage ≠ [] →
        ∃ resume, store.resume digests size depth = .ok resume ∧
          resume.usable = true) ∧
        ∀ before attempt later, history = before ++ attempt :: later →
          ((stateAfter (Store.attempt digests size) Store.empty before).append
              digests size attempt.fires attempt.checkpoint).1 = .ok () →
            store.Names (attempt :: later) := by
  intro store
  have sound : store.Sound digests size :=
    stateAfter_invariant _ sound_empty
      (fun _ attempt sound => sound_attempt sound attempt) history
  refine ⟨?_, ?_, ?_⟩
  · intro next points
    obtain ⟨held, there, same⟩ := sound.pointed next points
    rw [same]
    exact ⟨held, load_of_sound sound there, rfl⟩
  · intro depth lineage listed full
    exact resume_of_sound sound depth listed full
  · rintro before attempt later rfl answered
    have moved :=
      (pointer_attempt (stateAfter _ Store.empty before)
        attempt).resolve_left fun failed => failed.2 answered
    change (stateAfter _ Store.empty _).Names _
    rw [stateAfter_append]
    exact names_after ⟨attempt, List.mem_singleton_self _, moved⟩ later

end Hexroute.Lineage
