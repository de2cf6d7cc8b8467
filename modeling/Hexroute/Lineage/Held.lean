import Hexroute.Lineage.Resume

/-!
# Which checkpoints a store holds

Appending adds the appended checkpoint and no other, however the append
ends, and startup resumes only from a checkpoint the store holds.
-/

namespace Hexroute.Lineage

open Hexroute.Lib

variable {digests : Digests} {size : Checkpoint → Nat} {store : Store}

/-- The checkpoint is one of the published records. -/
def Store.Holds (store : Store) (checkpoint : Checkpoint) : Prop :=
  ∃ id : String, store.checkpoints.published[id]? = some checkpoint

theorem checkpoints_writeEntry
    (fires : Operation → Boundary → Bool) (latest : Option Latest)
    (checkpoint : Checkpoint) :
    (store.writeEntry fires latest checkpoint).2.checkpoints =
      store.checkpoints := by
  unfold Store.writeEntry
  simp only
  split
  · rfl
  · split
    · rfl
    · rename_i trimmed evicts
      simp only [Store.evictIndexLocked, bind_eq_ok_iff, pure_eq_ok_iff,
        Prod.mk.injEq] at evicts
      obtain ⟨_, _, _, rfl⟩ := evicts
      rfl

theorem holds_of_append
    {fires : Operation → Boundary → Bool} {checkpoint held : Checkpoint}
    (holds : (store.append digests size fires checkpoint).2.Holds held) :
    store.Holds held ∨ held = checkpoint := by
  obtain ⟨id, found⟩ := holds
  unfold Store.append at found
  split at found
  · exact Or.inl ⟨id, found⟩
  · rename_i latest _
    have records :
        (store.publish fires latest checkpoint).2.checkpoints =
          (store.checkpoints.write (fires .checkpoint) false checkpoint.id
            checkpoint).2 := by
      unfold Store.publish
      simp only
      split
      · rfl
      · exact checkpoints_writeEntry fires _ checkpoint
    rw [records] at found
    rcases
      store.checkpoints.write_published (fires .checkpoint) false
        checkpoint.id checkpoint with
      unchanged | inserted
    · rw [unchanged] at found
      exact Or.inl ⟨id, found⟩
    · rw [inserted, Std.ExtTreeMap.getElem?_insert] at found
      split at found
      · exact Or.inr (Option.some.inj found).symm
      · exact Or.inl ⟨id, found⟩

theorem holds_of_load
    {id : String} {checkpoint : Checkpoint}
    (loads : store.load digests size id = .ok checkpoint) :
    store.Holds checkpoint := by
  simp only [Store.load, bind_eq_ok_iff] at loads
  obtain ⟨_, _, loads⟩ := loads
  split at loads
  · simp at loads
  · rename_i found
    simp only [bind_eq_ok_iff, pure_eq_ok_iff] at loads
    obtain ⟨_, _, _, _, _, _, rfl⟩ := loads
    exact ⟨id, found⟩

theorem holds_of_proveLocked
    {depth : Nat} {overflow : Bool} {entry : IndexEntry}
    {checkpoint : Checkpoint}
    (proves :
      store.proveLocked digests size depth overflow entry =
        .ok checkpoint) :
    store.Holds checkpoint := by
  unfold Store.proveLocked at proves
  split at proves
  · simp at proves
  · simp at proves
  · rename_i loads
    split at proves
    · simp at proves
    · split at proves
      · obtain rfl := pure_eq_ok_iff.mp proves
        exact holds_of_load loads
      · simp at proves

theorem holds_of_searchLocked
    {depth : Nat} {overflow : Bool} {initial : ResumeReason}
    {entries : List IndexEntry} {tried : Nat}
    {reason firstFailure : ResumeReason} {checkpoint : Checkpoint}
    (finds :
      (store.searchLocked digests size depth overflow initial tried reason
        firstFailure entries).checkpoint = some checkpoint) :
    store.Holds checkpoint := by
  induction entries generalizing tried reason firstFailure with
  | nil =>
      unfold Store.searchLocked at finds
      split at finds <;> simp at finds
  | cons entry rest inductionHypothesis =>
      unfold Store.searchLocked at finds
      split at finds
      · simp at finds
      · simp only at finds
        split at finds
        · rename_i proves
          obtain rfl := Option.some.inj finds
          exact holds_of_proveLocked proves
        · exact inductionHypothesis finds

/-- Startup resumes only from what the store holds. -/
theorem holds_of_resume
    {depth : Nat} {resume : Resume} {checkpoint : Checkpoint}
    (resumes : store.resume digests size depth = .ok resume)
    (finds : resume.checkpoint = some checkpoint) :
    store.Holds checkpoint := by
  unfold Store.resume at resumes
  split at resumes
  · simp only [bind_eq_ok_iff, pure_eq_ok_iff] at resumes
    obtain ⟨entries, _, rfl⟩ := resumes
    split at finds
    · split at finds <;> simp at finds
    · exact holds_of_searchLocked finds
  · simp only [bind_eq_ok_iff, pure_eq_ok_iff] at resumes
    obtain ⟨entries, _, rfl⟩ := resumes
    exact holds_of_searchLocked finds

/-- The checkpoint carries what a reduction left. -/
structure Checkpoint.Carries
    (checkpoint : Checkpoint) (output : Reduce.Output) : Prop where
  snapshot : checkpoint.snapshot = output.snapshot
  watermarks : checkpoint.sourceWatermarks = output.snapshot.sources
  consumedTo : checkpoint.consumedTo = output.snapshot.consumedFoldPosition

theorem sealFrom_carries
    {parent : Option Checkpoint} {broken : Option LineageBreak}
    {id : String} {output : Reduce.Output} {consumedFrom : Nat}
    {wake : Option Reduce.Wake} {checkpoint : Checkpoint}
    (seals :
      sealFrom digests parent broken id output consumedFrom wake =
        .ok checkpoint) :
    checkpoint.Carries output := by
  unfold sealFrom at seals
  split at seals
  · unfold sealCheckpoint at seals
    simp only at seals
    split at seals
    · simp at seals
    · simp only [bind_eq_ok_iff, pure_eq_ok_iff] at seals
      obtain ⟨_, _, rfl⟩ := seals
      exact ⟨rfl, rfl, rfl⟩
  · simp at seals

end Hexroute.Lineage
