import Hexroute.Accept.Reordered
import Hexroute.Accept.Valid

/-!
# Restoring an acceptor

Every position the acceptor reaches passes the check that `restore` makes,
and so does every position that differs from it only in the order of pending
baselines.
-/

namespace Hexroute.Accept

open Hexroute.Connectivity
open Hexroute.Safety
open Hexroute.Lib

/-- What the acceptor guarantees is more than the check asks. -/
theorem SourceIntegrity.WellFormed.valid
    {id : SourceID} {source : SourceState}
    (wellFormed : SourceIntegrity.WellFormed id source) :
    source.Valid id where
  recentLength := wellFormed.bounded.recentLength
  recentBelow := fun entry member =>
    Nat.le_of_lt_succ (wellFormed.bounded.recentBelow entry member)
  recentOrdered := wellFormed.bounded.recentOrdered
  gapsLength := wellFormed.bounded.gapsLength
  gapsProper := wellFormed.bounded.gapsProper
  owed := wellFormed.owed
  pendingDeclared := wellFormed.bounded.pendingDeclared

/-- Every position the acceptor reaches may be restored. -/
theorem State.WellFormed.validate
    {state : State} (wellFormed : state.WellFormed) :
    state.validate = .ok () :=
  State.validate_eq_ok_iff.mpr fun id source found =>
    (wellFormed id source found).valid

theorem Reordered.wellFormed
    {id : SourceID} {left right : SourceState} (same : Reordered left right)
    (wellFormed : SourceIntegrity.WellFormed id left) :
    SourceIntegrity.WellFormed id right := by
  obtain ⟨pending, perm, rfl⟩ := same.exists_pending
  obtain ⟨bounded, owed⟩ := wellFormed
  refine ⟨{ bounded with
    pendingDeclared := ?_
    pendingNodup := perm.nodup_iff.mp bounded.pendingNodup }, ?_⟩
  · exact fun component member =>
      bounded.pendingDeclared component (perm.mem_iff.mpr member)
  · intro held settled
    apply owed held
    exact List.Perm.eq_nil (settled ▸ perm)

theorem State.Same.wellFormed
    {left right : State} (same : left.Same right)
    (wellFormed : left.WellFormed) : right.WellFormed := by
  intro id source found
  obtain ⟨other, known, reordered⟩ :=
    exists_of_optionRel (same.sources id) found
  exact reordered.wellFormed (wellFormed id other known)

end Hexroute.Accept
