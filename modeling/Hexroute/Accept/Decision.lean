import Hexroute.Accept.Run

/-!
# What every decision says

The parts of a decision that do not depend on the details of the stream: it
carries the integrity it leaves behind, only an accepted arrival takes a host
sequence, and an arrival that is neither accepted nor refused as a conflict
leaves its source as it was.
-/

namespace Hexroute.Accept

open Hexroute.Connectivity
open Hexroute.Safety
open Hexroute.Lib

/-- The common part of all decisions about one source. -/
structure Decided
    (hostSequence : Nat) (known : Option SourceState) (digest : String)
    (role : SourceRole) (decision : Acceptance × SourceState) : Prop where
  source : decision.1.source = decision.2
  digest : decision.1.digest = digest
  role : decision.1.role = role
  hostSequence :
    decision.1.hostSequence =
      if decision.1.outcome = .accepted then hostSequence + 1 else 0
  offered : decision.1.outcome ≠ .rejected
  unchanged :
    decision.1.outcome ≠ .accepted → decision.1.outcome ≠ .conflict →
      known = some decision.2

theorem admit_decided
    (hostSequence : Nat) (known : Option SourceState) (source : SourceState)
    (fact : Fact) (digest : String) (role : SourceRole) :
    Decided hostSequence known digest role
      (admitFact hostSequence source fact digest role) := by
  constructor <;> simp [admitFact]

theorem replay_decided
    (hostSequence : Nat) (source : SourceState) (fact : Fact)
    (digest : String) (role : SourceRole) :
    Decided hostSequence (some source) digest role
      (replay source fact digest role) := by
  unfold replay
  split
  · split <;> constructor <;> simp
  · constructor <;> simp

theorem decideSource_decided
    (hostSequence : Nat) (known : Option SourceState) {fact : Fact}
    (digest : String) (role : SourceRole)
    (positive : 0 < fact.sourceSequence) :
    Decided hostSequence known digest role
      (decideSource hostSequence known fact digest role) := by
  unfold decideSource
  simp only
  split
  · have admitted :=
      admit_decided hostSequence known
        { bootID := fact.bootID
          pendingBaseline := connectivitySourceComponents fact.sourceID }
        fact digest role
    exact { admitted with }
  · split
    · exact admit_decided hostSequence known _ fact digest role
    · cases known with
      | none =>
          rename_i behind
          exact absurd positive behind
      | some source =>
          exact replay_decided hostSequence source fact digest role

theorem order_sources
    (state : State) (fact : Fact) (digest : String) (role : SourceRole)
    (id : SourceID) :
    (order state fact digest role).2.sources[id]? =
      if fact.sourceID = id then
        some
          (decideSource state.hostSequence state.sources[fact.sourceID]? fact
            digest role).2
      else
        state.sources[id]? := by
  simp only [order, Std.ExtTreeMap.getElem?_insert, Std.compare_eq_iff_eq]

/-- A decision leaves the source it carries, and one that is neither an
acceptance nor a conflict leaves everything. -/
theorem order_source
    (state : State) {fact : Fact} (digest : String) (role : SourceRole)
    (positive : 0 < fact.sourceSequence) :
    let acceptance := (order state fact digest role).1
    let next := (order state fact digest role).2
    next.sources[fact.sourceID]? = some acceptance.source ∧
      (acceptance.outcome ≠ .accepted → acceptance.outcome ≠ .conflict →
        next.sources[fact.sourceID]? = state.sources[fact.sourceID]?) := by
  have decided :=
    decideSource_decided state.hostSequence state.sources[fact.sourceID]?
      digest role positive
  intro acceptance next
  have left :
      next.sources[fact.sourceID]? =
        some
          (decideSource state.hostSequence state.sources[fact.sourceID]? fact
            digest role).2 := by
    rw [order_sources, if_pos rfl]
  refine ⟨left.trans (congrArg some decided.source.symm), ?_⟩
  intro notAccepted notConflict
  rw [left, ← decided.unchanged notAccepted notConflict]

theorem order_source_other
    (state : State) (fact : Fact) (digest : String) (role : SourceRole)
    {id : SourceID} (other : fact.sourceID ≠ id) :
    (order state fact digest role).2.sources[id]? = state.sources[id]? := by
  rw [order_sources, if_neg other]

/-- What ordering one arrival says about both orders. -/
theorem order_spec
    (state : State) {fact : Fact} (digest : String) (role : SourceRole)
    (positive : 0 < fact.sourceSequence) :
    let acceptance := (order state fact digest role).1
    let next := (order state fact digest role).2
    acceptance.foldPosition = state.foldPosition + 1 ∧
      next.foldPosition = state.foldPosition + 1 ∧
      acceptance.hostSequence =
        (if acceptance.outcome = .accepted then state.hostSequence + 1
          else 0) ∧
      next.hostSequence =
        (if acceptance.outcome = .accepted then state.hostSequence + 1
          else state.hostSequence) ∧
      acceptance.outcome ≠ .rejected := by
  have decided :=
    decideSource_decided state.hostSequence state.sources[fact.sourceID]?
      digest role positive
  exact ⟨rfl, rfl, decided.hostSequence, rfl, decided.offered⟩

end Hexroute.Accept
