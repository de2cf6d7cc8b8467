import Hexroute.Lib.History
import Hexroute.Policy.Text

/-!
# Incident bundles and their objects

A bundle is a row and an object that the row names by its digest.  A create
looks the row up and puts the object under the lock of its incident, and then
it writes the row.  An expiry worker claims a row for two minutes, deletes the
object and completes the row.  Whether its claim still stands is looked at
only when the row is completed.
-/

namespace Hexroute.IncidentBundle

open Hexroute.Lib
open Hexroute.Policy (UUID SHA256)

/-! ## Rows -/

/-- Times are microseconds. -/
def minute : Nat := 60 * 1000000

def retention : Nat := 30 * 24 * 60 * minute

def deleteLease : Nat := 2 * minute

def minRetryDelay : Nat := minute

def maxRetryDelay : Nat := 60 * minute

def maxAttempts : Nat := 1000

def doubledDelay : Nat → Nat → Nat
  | 0, delay => delay
  | rest + 1, delay =>
      if delay < maxRetryDelay then
        if maxRetryDelay ≤ 2 * delay then maxRetryDelay
        else doubledDelay rest (2 * delay)
      else delay

def retryDelay (attempt : Nat) : Nat :=
  doubledDelay (attempt - 1) minRetryDelay

inductive Completion where
  | succeeded
  | unavailable
  deriving DecidableEq, Repr

structure Row where
  createdAt : Nat
  expiresAt : Nat
  deletedAt : Option Nat
  claimOwner : Option UUID
  claimUntil : Option Nat
  attempts : Nat
  nextAttemptAt : Nat
  lastResult : Option Completion
  deriving DecidableEq, Repr

/-- The row a create inserts, and what it makes of a deleted one. -/
def Row.created (time : Nat) : Row where
  createdAt := time
  expiresAt := time + retention
  deletedAt := none
  claimOwner := none
  claimUntil := none
  attempts := 0
  nextAttemptAt := time + retention
  lastResult := none

def Row.due (row : Row) (time : Nat) : Prop :=
  row.expiresAt ≤ time ∧ row.nextAttemptAt ≤ time ∧
    ∀ ending ∈ row.claimUntil, ending ≤ time

instance (row : Row) (time : Nat) : Decidable (row.due time) :=
  inferInstanceAs (Decidable (_ ∧ _ ∧ _))

def Row.claimed (row : Row) (worker : UUID) (time : Nat) : Row :=
  { row with
    claimOwner := some worker
    claimUntil := some (time + deleteLease)
    attempts := min (row.attempts + 1) maxAttempts }

def Row.completed (row : Row) (time : Nat) : Completion → Row
  | .succeeded =>
      { row with
        deletedAt := some time
        claimOwner := none
        claimUntil := none
        nextAttemptAt := time
        lastResult := some .succeeded }
  | .unavailable =>
      { row with
        claimOwner := none
        claimUntil := none
        nextAttemptAt := time + retryDelay row.attempts
        lastResult := some .unavailable }

/-! ## Steps -/

/-- A create between its put and its row write. -/
structure Creation where
  digest : SHA256
  time : Nat

/-- A worker between its claim and its completion. -/
structure Deletion where
  digest : SHA256
  attempt : Nat
  time : Nat
  completion : Option Completion

structure Store where
  now : Nat
  rows : SHA256 → Option Row
  objects : SHA256 → Bool
  creating : UUID → Option Creation
  deleting : UUID → Option Deletion
  /-- The bundles that creates have returned, with their expiry. -/
  returned : List (SHA256 × Nat)

def Store.empty : Store where
  now := 0
  rows _ := none
  objects _ := false
  creating _ := none
  deleting _ := none
  returned := []

inductive Step where
  | wait (duration : Nat)
  | lookUp (digest : SHA256) (time : Nat) (put : Fate)
  | write (incident : UUID) (row : Fate)
  | claim (worker : UUID) (digest : SHA256) (time : Nat)
  | delete (worker : UUID) (object : Fate)
  | complete (worker : UUID) (row : Fate)
  | stop (worker : UUID)

namespace Store

/-- The row of a bundle that is not deleted. -/
def live (store : Store) (digest : SHA256) : Option Row :=
  (store.rows digest).filter (·.deletedAt.isNone)

def setRow (store : Store) (digest : SHA256) (row : Row) : Store :=
  { store with rows := Function.update store.rows digest (some row) }

def setObject (store : Store) (digest : SHA256) (object : Bool) : Store :=
  { store with objects := Function.update store.objects digest object }

def setCreation (store : Store) (incident : UUID)
    (creation : Option Creation) : Store :=
  { store with creating := Function.update store.creating incident creation }

def setDeletion (store : Store) (worker : UUID)
    (deletion : Option Deletion) : Store :=
  { store with deleting := Function.update store.deleting worker deletion }

def answer (store : Store) (digest : SHA256) (expiresAt : Nat) : Store :=
  { store with returned := store.returned ++ [(digest, expiresAt)] }

variable (incidentOf : SHA256 → UUID)

/-- The first step of a create: a bundle that is not deleted is returned, and
the object of any other one is put. -/
def lookUp (store : Store) (digest : SHA256) (time : Nat) (put : Fate) :
    Store :=
  if store.now < time ∨ (store.creating (incidentOf digest)).isSome then
    store
  else
    match store.live digest with
    | some row => store.answer digest row.expiresAt
    | none =>
        match put with
        | .done =>
            (store.setObject digest true).setCreation (incidentOf digest)
              (some ⟨digest, time⟩)
        | .lost => store
        | .unsaid => store.setObject digest true

/-- The second one. -/
def write (store : Store) (incident : UUID) (row : Fate) : Store :=
  match store.creating incident with
  | none => store
  | some creation =>
      let ended := store.setCreation incident none
      let written := ended.setRow creation.digest (.created creation.time)
      match row with
      | .done => written.answer creation.digest (creation.time + retention)
      | .lost => ended
      | .unsaid => written

def claim (store : Store) (worker : UUID) (digest : SHA256) (time : Nat) :
    Store :=
  match store.deleting worker, store.live digest with
  | none, some row =>
      if time ≤ store.now ∧ row.due time then
        (store.setRow digest (row.claimed worker time)).setDeletion worker
          (some ⟨digest, (row.claimed worker time).attempts, time, none⟩)
      else store
  | _, _ => store

def delete (store : Store) (worker : UUID) (object : Fate) : Store :=
  match store.deleting worker with
  | some ⟨digest, attempt, time, none⟩ =>
      let completion : Completion :=
        if object = .done then .succeeded else .unavailable
      let tried :=
        store.setDeletion worker (some ⟨digest, attempt, time, completion⟩)
      if object.reaches then tried.setObject digest false else tried
  | _ => store

/-- A completion is taken from the worker the row is claimed by. -/
def complete (store : Store) (worker : UUID) (row : Fate) : Store :=
  match store.deleting worker with
  | some ⟨digest, attempt, time, some completion⟩ =>
      let ended := store.setDeletion worker none
      match store.live digest with
      | none => ended
      | some held =>
          if held.claimOwner = some worker ∧ held.attempts = attempt ∧
              row.reaches then
            ended.setRow digest (held.completed time completion)
          else ended
  | _ => store

def next (store : Store) : Step → Store
  | .wait duration => { store with now := store.now + duration }
  | .lookUp digest time put => store.lookUp incidentOf digest time put
  | .write incident row => store.write incident row
  | .claim worker digest time => store.claim worker digest time
  | .delete worker object => store.delete worker object
  | .complete worker row => store.complete worker row
  | .stop worker => store.setDeletion worker none

end Store

/-- Where an interleaving leads to. -/
abbrev storeAfter (incidentOf : SHA256 → UUID) (steps : List Step) : Store :=
  stateAfter (Store.next incidentOf) .empty steps

/-! ## What is claimed -/

/-- A row that is not deleted and expires later has its object. -/
def Store.Kept (store : Store) : Prop :=
  ∀ digest row, store.live digest = some row → store.now < row.expiresAt →
    store.objects digest = true

/-- A worker that is about to delete an object. -/
def Store.Deletes (store : Store) (worker : UUID) (digest : SHA256) : Prop :=
  ∃ attempt time, store.deleting worker = some ⟨digest, attempt, time, none⟩

/-- A deleted object is none of a returned bundle that expires later. -/
def Lasting (store : Store) : Step → Prop
  | .delete worker object =>
      ∀ digest, store.Deletes worker digest → object.reaches →
        ∀ expiresAt, (digest, expiresAt) ∈ store.returned →
          expiresAt ≤ store.now
  | _ => True

structure Sound (incidentOf : SHA256 → UUID) (steps : List Step) : Prop where
  kept :
    ∀ before rest, steps = before ++ rest →
      (storeAfter incidentOf before).Kept
  lasting : EachStep (Store.next incidentOf) .empty Lasting steps

/-- A worker that has lost its claim deletes no object of a row that expires
later, and a create finds its object still there when it writes the row. -/
def Careful (store : Store) : Step → Prop
  | .write incident row =>
      ∀ creation, store.creating incident = some creation → row.reaches →
        store.objects creation.digest = true ∨
          creation.time + retention ≤ store.now
  | .delete worker object =>
      ∀ digest, store.Deletes worker digest → object.reaches →
        ∀ row, store.live digest = some row →
          row.claimOwner ≠ some worker → row.expiresAt ≤ store.now
  | _ => True

/-! ## Rows that are not deleted -/

namespace Store

variable {store : Store} {digest other : SHA256} {row held : Row}

theorem live_eq_some_iff :
    store.live digest = some row ↔
      store.rows digest = some row ∧ row.deletedAt = none := by
  unfold live
  rw [Option.filter_eq_some_iff, Option.isNone_iff_eq_none]

theorem live_setRow (alive : row.deletedAt = none) :
    (store.setRow digest row).live digest = some row := by
  rw [live_eq_some_iff]
  exact ⟨Function.update_self _ _ _, alive⟩

theorem live_setRow_of_ne (differs : other ≠ digest) :
    (store.setRow digest row).live other = store.live other := by
  unfold live setRow
  dsimp only
  rw [Function.update_of_ne differs]

theorem live_setRow_eq_some
    (found : (store.setRow digest row).live other = some held) :
    other = digest ∧ held = row ∨ store.live other = some held := by
  by_cases same : other = digest
  · subst same
    have set := (live_eq_some_iff.mp found).1
    unfold setRow at set
    dsimp only at set
    rw [Function.update_self] at set
    cases set
    exact Or.inl ⟨rfl, rfl⟩
  · rw [live_setRow_of_ne same] at found
    exact Or.inr found

end Store

/-! ## What every step keeps -/

/-- A claimed row has expired, a create in flight has no row, and a returned
bundle has its row until it expires. -/
structure Steady (incidentOf : SHA256 → UUID) (store : Store) : Prop where
  expired :
    ∀ digest row, store.live digest = some row → row.claimOwner ≠ none →
      row.expiresAt ≤ store.now
  locked :
    ∀ incident creation, store.creating incident = some creation →
      incidentOf creation.digest = incident ∧
        store.live creation.digest = none
  listed :
    ∀ digest expiresAt, (digest, expiresAt) ∈ store.returned →
      expiresAt ≤ store.now ∨
        ∃ row, store.live digest = some row ∧ row.expiresAt = expiresAt

namespace Steady

variable {incidentOf : SHA256 → UUID} {store : Store} {digest : SHA256}

theorem empty : Steady incidentOf .empty where
  expired _ _ found := by cases found
  locked _ _ found := by cases found
  listed _ _ member := absurd member List.not_mem_nil

theorem wait (steady : Steady incidentOf store) (duration : Nat) :
    Steady incidentOf { store with now := store.now + duration } where
  expired digest row found owned :=
    (steady.expired digest row found owned).trans (Nat.le_add_right _ _)
  locked := steady.locked
  listed digest expiresAt member :=
    (steady.listed digest expiresAt member).imp
      (·.trans (Nat.le_add_right _ _)) id

theorem setObject (steady : Steady incidentOf store) (object : Bool) :
    Steady incidentOf (store.setObject digest object) :=
  ⟨steady.expired, steady.locked, steady.listed⟩

theorem setDeletion (steady : Steady incidentOf store) (worker : UUID)
    (deletion : Option Deletion) :
    Steady incidentOf (store.setDeletion worker deletion) :=
  ⟨steady.expired, steady.locked, steady.listed⟩

theorem endCreation (steady : Steady incidentOf store) (incident : UUID) :
    Steady incidentOf (store.setCreation incident none) where
  expired := steady.expired
  locked := by
    intro other creation found
    unfold Store.setCreation at found
    dsimp only at found
    by_cases same : other = incident
    · rw [same, Function.update_self] at found
      cases found
    · rw [Function.update_of_ne same] at found
      exact steady.locked other creation found
  listed := steady.listed

theorem answer
    (steady : Steady incidentOf store) {row : Row}
    (found : store.live digest = some row) :
    Steady incidentOf (store.answer digest row.expiresAt) where
  expired := steady.expired
  locked := steady.locked
  listed := by
    intro other expiresAt member
    rcases List.mem_append.mp member with old | added
    · exact steady.listed other expiresAt old
    · cases List.mem_singleton.mp added
      exact Or.inr ⟨row, found, rfl⟩

/-- A row may be replaced if no create in flight has looked it up, it is
claimed after its expiry only, and it keeps its expiry while it is ahead. -/
theorem setRow
    (steady : Steady incidentOf store) {row : Row}
    (free :
      ∀ incident creation, store.creating incident = some creation →
        creation.digest ≠ digest)
    (expired : row.claimOwner ≠ none → row.expiresAt ≤ store.now)
    (keeps :
      ∀ held, store.live digest = some held →
        held.expiresAt ≤ store.now ∨
          row.deletedAt = none ∧ row.expiresAt = held.expiresAt) :
    Steady incidentOf (store.setRow digest row) where
  expired := by
    intro other held found owned
    rcases Store.live_setRow_eq_some found with ⟨_, rfl⟩ | found
    · exact expired owned
    · exact steady.expired other held found owned
  locked := by
    intro incident creation found
    obtain ⟨whose, absent⟩ := steady.locked incident creation found
    refine ⟨whose, ?_⟩
    rw [Store.live_setRow_of_ne (free incident creation found)]
    exact absent
  listed := by
    intro other expiresAt member
    rcases steady.listed other expiresAt member with past | ⟨held, found, rfl⟩
    · exact Or.inl past
    by_cases same : other = digest
    · subst same
      rcases keeps held found with past | ⟨alive, expiry⟩
      · exact Or.inl past
      · exact Or.inr ⟨row, Store.live_setRow alive, expiry⟩
    · refine Or.inr ⟨held, ?_, rfl⟩
      rw [Store.live_setRow_of_ne same]
      exact found

/-- A create in flight has not looked up a row that is there. -/
theorem free_of_live
    (steady : Steady incidentOf store) {row : Row}
    (found : store.live digest = some row) (incident : UUID)
    (creation : Creation)
    (creates : store.creating incident = some creation) :
    creation.digest ≠ digest := by
  intro same
  have absent := (steady.locked incident creation creates).2
  rw [same, found] at absent
  cases absent

theorem lookUp (steady : Steady incidentOf store) (time : Nat) (put : Fate) :
    Steady incidentOf (store.lookUp incidentOf digest time put) := by
  unfold Store.lookUp
  split
  · exact steady
  cases found : store.live digest with
  | some row => exact steady.answer found
  | none =>
      cases put with
      | lost => exact steady
      | unsaid => exact steady.setObject true
      | done =>
          refine ⟨steady.expired, ?_, steady.listed⟩
          intro incident creation creates
          unfold Store.setCreation at creates
          dsimp only at creates
          by_cases same : incident = incidentOf digest
          · rw [same, Function.update_self] at creates
            cases creates
            exact ⟨same.symm, found⟩
          · rw [Function.update_of_ne same] at creates
            exact steady.locked incident creation creates

theorem write (steady : Steady incidentOf store) (incident : UUID)
    (row : Fate) : Steady incidentOf (store.write incident row) := by
  unfold Store.write
  cases creates : store.creating incident with
  | none => exact steady
  | some creation =>
      obtain ⟨whose, absent⟩ := steady.locked incident creation creates
      have ended := steady.endCreation incident
      have written :
          Steady incidentOf
            ((store.setCreation incident none).setRow creation.digest
              (.created creation.time)) := by
        refine ended.setRow ?_ (fun owned => absurd rfl owned) ?_
        · intro other waiting found same
          have facts := ended.locked other waiting found
          -- Another create in flight is one of another incident.
          unfold Store.setCreation at found
          dsimp only at found
          have differs : other ≠ incident := by
            rintro rfl
            rw [Function.update_self] at found
            cases found
          exact differs (facts.1.symm.trans ((congrArg _ same).trans whose))
        · intro held found
          cases absent.symm.trans found
      cases row with
      | lost => exact ended
      | unsaid => exact written
      | done =>
          have found := @Store.live_setRow (store.setCreation incident none)
            creation.digest (.created creation.time) rfl
          exact written.answer found

theorem claim (steady : Steady incidentOf store) (worker : UUID)
    (time : Nat) : Steady incidentOf (store.claim worker digest time) := by
  unfold Store.claim
  split
  · rename_i row _ found
    split
    · rename_i facts
      have past : row.expiresAt ≤ store.now := facts.2.1.trans facts.1
      have claimed :
          Steady incidentOf
            (store.setRow digest (row.claimed worker time)) := by
        refine steady.setRow (steady.free_of_live found) (fun _ => past) ?_
        intro held same
        cases found.symm.trans same
        exact Or.inl past
      exact claimed.setDeletion _ _
    · exact steady
  · exact steady

theorem delete (steady : Steady incidentOf store) (worker : UUID)
    (object : Fate) : Steady incidentOf (store.delete worker object) := by
  unfold Store.delete
  split
  · dsimp only
    split
    · exact (steady.setDeletion _ _).setObject false
    · exact steady.setDeletion _ _
  · exact steady

theorem complete (steady : Steady incidentOf store) (worker : UUID)
    (row : Fate) : Steady incidentOf (store.complete worker row) := by
  unfold Store.complete
  split
  · rename_i digest attempt time completion _
    dsimp only
    have ended := steady.setDeletion worker none
    split
    · exact ended
    · rename_i held found
      split
      · rename_i facts
        have owned : held.claimOwner ≠ none := by
          rw [facts.1]
          exact Option.some_ne_none worker
        have past := steady.expired _ _ found owned
        refine ended.setRow ?_ ?_ ?_
        · exact ended.free_of_live found
        · intro claimed
          cases completion <;> exact absurd rfl claimed
        · intro other same
          cases found.symm.trans same
          exact Or.inl past
      · exact ended
  · exact steady

theorem next (steady : Steady incidentOf store) (step : Step) :
    Steady incidentOf (store.next incidentOf step) := by
  cases step with
  | wait duration => exact steady.wait duration
  | lookUp digest time put => exact steady.lookUp time put
  | write incident row => exact steady.write incident row
  | claim worker digest time => exact steady.claim worker time
  | delete worker object => exact steady.delete worker object
  | complete worker row => exact steady.complete worker row
  | stop worker => exact steady.setDeletion worker none

theorem after (steps : List Step) :
    Steady incidentOf (storeAfter incidentOf steps) :=
  stateAfter_invariant (Steady incidentOf) empty
    (fun _ step steady => steady.next step) steps

end Steady

/-! ## What careful steps keep -/

namespace Store.Kept

variable {incidentOf : SHA256 → UUID} {store : Store} {digest : SHA256}

theorem putObject (kept : store.Kept) :
    (store.setObject digest true).Kept := by
  intro other row found ahead
  unfold Store.setObject
  dsimp only
  by_cases same : other = digest
  · rw [same, Function.update_self]
  · rw [Function.update_of_ne same]
    exact kept other row found ahead

theorem setRow
    (kept : store.Kept) {row : Row}
    (stored :
      row.deletedAt = none → store.now < row.expiresAt →
        store.objects digest = true) :
    (store.setRow digest row).Kept := by
  intro other held found ahead
  have alive := (Store.live_eq_some_iff.mp found).2
  rcases Store.live_setRow_eq_some found with ⟨rfl, rfl⟩ | found
  · exact stored alive ahead
  · exact kept other held found ahead

/-- An object may go if its row is deleted or has expired. -/
theorem removeObject
    (kept : store.Kept)
    (past :
      ∀ row, store.live digest = some row → row.expiresAt ≤ store.now) :
    (store.setObject digest false).Kept := by
  intro other row found ahead
  unfold Store.setObject
  dsimp only
  by_cases same : other = digest
  · subst same
    exact absurd ahead (Nat.not_lt.mpr (past row found))
  · rw [Function.update_of_ne same]
    exact kept other row found ahead

theorem lookUp (kept : store.Kept) (time : Nat) (put : Fate) :
    (store.lookUp incidentOf digest time put).Kept := by
  unfold Store.lookUp
  split
  · exact kept
  cases store.live digest with
  | some row => exact kept
  | none =>
      cases put with
      | lost => exact kept
      | unsaid => exact kept.putObject
      | done => exact kept.putObject

theorem write
    (kept : store.Kept) {incident : UUID} {row : Fate}
    (careful : Careful store (.write incident row)) :
    (store.write incident row).Kept := by
  unfold Store.write
  cases creates : store.creating incident with
  | none => exact kept
  | some creation =>
      have ended : (store.setCreation incident none).Kept := kept
      have written :
          row.reaches = true →
            ((store.setCreation incident none).setRow creation.digest
              (.created creation.time)).Kept := by
        intro reaches
        refine ended.setRow ?_
        intro _ ahead
        rcases careful creation creates reaches with stored | past
        · exact stored
        · exact absurd ahead (Nat.not_lt.mpr past)
      cases row with
      | lost => exact ended
      | unsaid => exact written rfl
      | done => exact written rfl

theorem claim
    (kept : store.Kept) (worker : UUID) (time : Nat) :
    (store.claim worker digest time).Kept := by
  unfold Store.claim
  split
  · rename_i row _ found
    split
    · have claimed : (store.setRow digest (row.claimed worker time)).Kept :=
        kept.setRow fun _ ahead => kept digest row found ahead
      exact claimed
    · exact kept
  · exact kept

theorem delete
    (kept : store.Kept) (steady : Steady incidentOf store) {worker : UUID}
    {object : Fate} (careful : Careful store (.delete worker object)) :
    (store.delete worker object).Kept := by
  unfold Store.delete
  split
  · rename_i digest attempt time deletes
    dsimp only
    split
    · rename_i reaches
      refine removeObject kept ?_
      intro row found
      by_cases owned : row.claimOwner = some worker
      · refine steady.expired digest row found ?_
        rw [owned]
        exact Option.some_ne_none worker
      · exact careful digest ⟨attempt, time, deletes⟩ reaches row found owned
    · exact kept
  · exact kept

theorem complete (kept : store.Kept) (worker : UUID) (row : Fate) :
    (store.complete worker row).Kept := by
  unfold Store.complete
  split
  · rename_i digest attempt time completion _
    dsimp only
    have ended : (store.setDeletion worker none).Kept := kept
    split
    · exact ended
    · rename_i held found
      split
      · refine ended.setRow ?_
        intro _ ahead
        cases completion <;> exact kept digest held found ahead
      · exact ended
  · exact kept

theorem next
    (kept : store.Kept) (steady : Steady incidentOf store) {step : Step}
    (careful : Careful store step) : (store.next incidentOf step).Kept := by
  cases step with
  | wait duration =>
      intro digest row found ahead
      exact
        kept digest row found (lt_of_le_of_lt (Nat.le_add_right _ _) ahead)
  | lookUp digest time put => exact kept.lookUp time put
  | write incident row => exact kept.write careful
  | claim worker digest time => exact kept.claim worker time
  | delete worker object => exact kept.delete steady careful
  | complete worker row => exact kept.complete worker row
  | stop worker => exact kept

end Store.Kept

theorem lasting_of_careful
    {incidentOf : SHA256 → UUID} {store : Store} {step : Step}
    (steady : Steady incidentOf store) (careful : Careful store step) :
    Lasting store step := by
  cases step with
  | delete worker object =>
      intro digest deletes reaches expiresAt member
      rcases steady.listed digest expiresAt member with
        past | ⟨row, found, rfl⟩
      · exact past
      by_cases owned : row.claimOwner = some worker
      · refine steady.expired digest row found ?_
        rw [owned]
        exact Option.some_ne_none worker
      · exact careful digest deletes reaches row found owned
  | _ => trivial

/-- A step that is not careful leaves a row without its object. -/
theorem careful_of_kept
    {incidentOf : SHA256 → UUID} {store : Store} {step : Step}
    (kept : (store.next incidentOf step).Kept) : Careful store step := by
  cases step with
  | write incident row =>
      intro creation creates reaches
      by_contra missing
      obtain ⟨absent, ahead⟩ := not_or.mp missing
      have stored :
          ((store.setCreation incident none).setRow creation.digest
            (.created creation.time)).objects creation.digest = true := by
        have written :
            ((store.setCreation incident none).setRow creation.digest
              (.created creation.time)).Kept := by
          unfold Store.next Store.write at kept
          dsimp only at kept
          rw [creates] at kept
          cases row with
          | lost => cases reaches
          | unsaid => exact kept
          | done => exact kept
        exact
          written creation.digest _ (Store.live_setRow rfl)
            (Nat.lt_of_not_le ahead)
      exact absent stored
  | delete worker object =>
      rintro digest ⟨attempt, time, deletes⟩ reaches row found _
      by_contra ahead
      unfold Store.next Store.delete at kept
      dsimp only at kept
      rw [deletes] at kept
      dsimp only at kept
      rw [if_pos reaches] at kept
      have stored := kept digest row found (Nat.lt_of_not_le ahead)
      unfold Store.setObject at stored
      dsimp only at stored
      rw [Function.update_self] at stored
      cases stored
  | _ => trivial

/-- Live bundles have their objects throughout an interleaving exactly when
every step is careful. -/
theorem sound_iff_careful (incidentOf : SHA256 → UUID) (steps : List Step) :
    Sound incidentOf steps ↔
      EachStep (Store.next incidentOf) .empty Careful steps := by
  constructor
  · intro sound before step rest split
    apply @careful_of_kept incidentOf
    have kept :=
      sound.kept (before ++ [step]) rest (by rw [split, List.append_assoc]; rfl)
    unfold storeAfter at kept
    rwa [stateAfter_snoc] at kept
  · intro careful
    constructor
    case kept =>
      rintro before rest rfl
      have both :
          Steady incidentOf (storeAfter incidentOf before) ∧
            (storeAfter incidentOf before).Kept := by
        refine
          careful.of_append.invariant
            (fun store => Steady incidentOf store ∧ store.Kept) ?_ ?_
        · exact ⟨Steady.empty, fun _ _ found => by cases found⟩
        · intro store step facts met
          exact ⟨facts.1.next step, facts.2.next facts.1 met⟩
      exact both.2
    case lasting =>
      intro before step rest split
      exact
        lasting_of_careful (Steady.after before)
          (careful before step rest split)

/-- The first worker stalls past its lease; another one deletes the bundle,
and it is created again before the first one goes on. -/
def stalledSteps : List Step :=
  [.lookUp 7 0 .done, .write (.version4 1) .done, .wait retention,
    .claim (.version4 2) 7 retention, .wait deleteLease,
    .claim (.version4 3) 7 (retention + deleteLease),
    .delete (.version4 3) .done, .complete (.version4 3) .done,
    .lookUp 7 (retention + deleteLease) .done, .write (.version4 1) .done,
    .delete (.version4 2) .done]

theorem stalled_worker_deletes_new_object :
    ¬ Sound (fun _ => .version4 1) stalledSteps := by
  intro sound
  have kept := sound.kept stalledSteps [] rfl
  have missing :
      (storeAfter (fun _ => .version4 1) stalledSteps).live 7 =
          some (.created (retention + deleteLease)) ∧
        (storeAfter (fun _ => .version4 1) stalledSteps).now =
          retention + deleteLease ∧
        (storeAfter (fun _ => .version4 1) stalledSteps).objects 7 =
          false := by
    decide +kernel
  obtain ⟨found, now, absent⟩ := missing
  have stored := kept 7 _ found (by rw [now]; decide)
  rw [absent] at stored
  cases stored

end Hexroute.IncidentBundle
