import Hexroute.Accept.Run

/-!
# The journals

Each privilege domain keeps its own journal of folded events.  A record
carries the place its event took in the accepted order, which is zero for an
event that never entered it, and the place every folded event has.  Records
are read back as they were written; whether the spool underneath takes one is
the flag `writes`.
-/

namespace Hexroute.Host

open Hexroute.Connectivity
open Hexroute.Safety
open Hexroute.Lib
open Hexroute.Accept (Outcome)

/-- One journalled fact with its acceptance metadata. -/
structure Record where
  hostSequence : Nat
  foldPosition : Nat
  outcome : Outcome
  role : SourceRole
  digest : String
  fact : Fact
  deriving DecidableEq, Repr

/-- One domain's fact store, oldest record first. -/
structure Journal where
  domain : Domain
  records : List Record := []
  deriving DecidableEq, Repr

inductive JournalError where
  | domainMismatch (claimed journal : Domain)
  | safety (error : SafetyError)
  | corruptRecord (detail : String)
  | fact (error : FactError)
  | invalidField
  | spoolUnavailable
  deriving DecidableEq, Repr

/-- Build a record and check its own fields.  A record that entered the
accepted order names its place there, and no other does. -/
def canonicalConnectivityRecord
    (digest : Fact → Option String) (fact : Fact)
    (hostSequence foldPosition : Nat) (outcome : Outcome)
    (role : SourceRole) : Except JournalError Record :=
  match digest fact with
  | none => throw (.fact .invalidEncoding)
  | some encoded => do
      refuse (¬(outcome = .accepted ↔ hostSequence ≠ 0)) .invalidField
      pure
        { hostSequence := hostSequence
          foldPosition := foldPosition
          outcome := outcome
          role := role
          digest := encoded
          fact := fact }

/-- Record one folded event. -/
def Journal.append
    (digest : Fact → Option String) (writes : Bool) (journal : Journal)
    (fact : Fact) (hostSequence foldPosition : Nat) (outcome : Outcome)
    (role : SourceRole) : Except JournalError Journal := do
  refuse (fact.domain ≠ journal.domain)
    (.domainMismatch fact.domain journal.domain)
  let _ ← (classifyConnectivityFact fact journal.domain).mapError .safety
  refuse (foldPosition = 0) (.corruptRecord "fold position")
  let record ←
    canonicalConnectivityRecord digest fact hostSequence foldPosition outcome
      role
  refuse (writes = false) .spoolUnavailable
  pure { journal with records := journal.records ++ [record] }

/-- Read from the newest record backwards and stop at the first one that is
not after the watermark. -/
def Journal.tailAfter (journal : Journal) (watermark : Nat) : List Record :=
  (journal.records.reverse.takeWhile
    fun record => decide (watermark < record.foldPosition)).reverse

/-- The events folded after a watermark, and whether their range is
continuous. -/
def Journal.recordsAfter (journal : Journal) (watermark : Nat) :
    List Record × Bool :=
  let records := journal.tailAfter watermark
  (records,
    decide
      (records.map Record.foldPosition =
        List.range' (watermark + 1) records.length))

/-- The last fact this journal holds. -/
def Journal.newest (journal : Journal) : Option Record :=
  journal.records.getLast?

theorem canonicalConnectivityRecord_eq_ok_iff
    {digest : Fact → Option String} {fact : Fact}
    {hostSequence foldPosition : Nat} {outcome : Outcome}
    {role : SourceRole} {record : Record} :
    canonicalConnectivityRecord digest fact hostSequence foldPosition outcome
        role = .ok record ↔
      ∃ encoded,
        digest fact = some encoded ∧
          (outcome = .accepted ↔ hostSequence ≠ 0) ∧
            record =
              ⟨hostSequence, foldPosition, outcome, role, encoded, fact⟩ := by
  unfold canonicalConnectivityRecord
  cases digest fact with
  | none =>
      simp
  | some encoded =>
      simp only [bind_eq_ok_iff, refuse_eq_ok_iff, not_not, pure_eq_ok_iff,
        Option.some.injEq, exists_eq_left']
      constructor
      · rintro ⟨_, agrees, same⟩
        exact ⟨agrees, same.symm⟩
      · rintro ⟨agrees, same⟩
        exact ⟨(), agrees, same.symm⟩

end Hexroute.Host
