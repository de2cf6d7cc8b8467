import Hexroute.Reduce.Fold

/-!
# When a reduction stops at the order of its events

Only the fold looks at the positions events carry, so a batch that continues
both watermarks is never refused for its order.
-/

namespace Hexroute.Reduce

open Hexroute.Connectivity
open Hexroute.Lib
open Hexroute.Accept (Event)

/-- The error says that an event was out of order. -/
def ReduceError.outOfOrder : ReduceError → Bool
  | .foldOutOfOrder _ _ => true
  | .hostOutOfOrder _ _ => true
  | _ => false

variable {error : ReduceError}

theorem ne_of_outOfOrder
    (kind : error.outOfOrder = true) {other : ReduceError}
    (plain : other.outOfOrder = false) : other ≠ error := by
  intro same
  rw [same, kind] at plain
  exact absurd plain (by decide)

theorem validateEvents_ne_outOfOrder
    (kind : error.outOfOrder = true) (events : List Event) :
    validateEvents events ≠ .error error := by
  induction events with
  | nil =>
      exact nofun
  | cons event rest inductionHypothesis =>
      rw [validateEvents]
      apply bind_ne_error
      · exact mapError_ne_error fun _ => ne_of_outOfOrder kind rfl
      · intro _
        apply bind_ne_error
        · exact refuse_ne_error (ne_of_outOfOrder kind rfl)
        · exact fun _ => inductionHypothesis

theorem validateInput_ne_outOfOrder
    (kind : error.outOfOrder = true) (input : Input) :
    validateInput input ≠ .error error := by
  have plain (detail : String) : .invalidInput detail ≠ error :=
    ne_of_outOfOrder kind rfl
  unfold validateInput
  apply bind_ne_error
  · unfold validateWatermarks
    cases input.prior with
    | none =>
        exact nofun
    | some prior =>
        exact
          bind_ne_error (refuse_ne_error (plain _)) fun _ =>
            refuse_ne_error (plain _)
  · intro _
    apply bind_ne_error (refuse_ne_error (plain _))
    intro _
    apply bind_ne_error (refuse_ne_error (plain _))
    intro _
    apply bind_ne_error
    · unfold validatePrior
      cases input.prior with
      | none =>
          exact nofun
      | some prior =>
          exact
            bind_ne_error (mapError_ne_error fun _ => plain _) fun _ =>
              refuse_ne_error (plain _)
    · exact fun _ => validateEvents_ne_outOfOrder kind input.events

theorem snapshot_validate_ne_outOfOrder
    (kind : error.outOfOrder = true) (snapshot : Snapshot) :
    snapshot.validate ≠ .error error := by
  have plain : .invalidSnapshot ≠ error := ne_of_outOfOrder kind rfl
  unfold Snapshot.validate
  iterate 8
    refine bind_ne_error (refuse_ne_error plain) fun _ => ?_
  exact refuse_ne_error plain

theorem checkPolicies_ne_outOfOrder
    (kind : error.outOfOrder = true) (declared : List Component)
    (policies : List ComponentPolicy) :
    checkPolicies declared policies ≠ .error error := by
  have pins {α : Type} (pin : Option α) (owner component : Component)
      (name : String) : allowedPin pin owner component name ≠ .error error :=
    refuse_ne_error (ne_of_outOfOrder kind rfl)
  induction policies generalizing declared with
  | nil =>
      exact nofun
  | cons entry rest inductionHypothesis =>
      rw [checkPolicies]
      apply bind_ne_error (refuse_ne_error (ne_of_outOfOrder kind rfl))
      intro _
      by_cases managed : entry.managed = true
      · rw [if_pos managed]
        refine bind_ne_error ?_ fun _ => inductionHypothesis _
        unfold validateExpectation
        apply bind_ne_error (refuse_ne_error (ne_of_outOfOrder kind rfl))
        intro _
        iterate 6
          refine bind_ne_error (pins _ _ _ _) fun _ => ?_
        exact pins _ _ _ _
      · rw [if_neg managed]
        exact inductionHypothesis _

theorem desire_ne_outOfOrder
    (kind : error.outOfOrder = true) (policy : EffectivePolicy) :
    desire policy ≠ .error error := by
  unfold desire
  apply bind_ne_error (checkPolicies_ne_outOfOrder kind _ _)
  intro _
  refine bind_ne_error (mapM_ne_error ?_) fun _ => nofun
  intro component
  unfold desireComponent
  split
  · exact throw_ne_error (ne_of_outOfOrder kind rfl)
  · split
    · split <;> exact nofun
    · exact nofun

theorem proposeEntries_ne_outOfOrder
    (kind : error.outOfOrder = true) (hash : Proposal → Option String)
    (snapshot : Snapshot) (diffDigest : String)
    (entries : List ComponentDiff) :
    proposeEntries hash snapshot diffDigest entries ≠ .error error := by
  have plain (detail : String) : .invalidProposal detail ≠ error :=
    ne_of_outOfOrder kind rfl
  induction entries with
  | nil =>
      intro refused
      cases refused
  | cons entry rest inductionHypothesis =>
      rw [proposeEntries]
      split
      · exact inductionHypothesis
      · simp only
        split
        · exact throw_ne_error (plain _)
        · apply bind_ne_error
          · unfold Proposal.verify
            apply bind_ne_error (refuse_ne_error (plain _))
            intro _
            apply bind_ne_error (refuse_ne_error (plain _))
            intro _
            split
            · exact throw_ne_error (plain _)
            · exact refuse_ne_error (plain _)
          · intro _
            refine bind_ne_error inductionHypothesis fun _ refused => ?_
            cases refused

theorem propose_ne_outOfOrder
    (kind : error.outOfOrder = true)
    (diffHash : Diff → Option String) (hash : Proposal → Option String)
    (snapshot : Snapshot) (diff : Diff) :
    propose diffHash hash snapshot diff ≠ .error error := by
  unfold propose
  split
  · exact nofun
  · split
    · exact throw_ne_error (ne_of_outOfOrder kind rfl)
    · exact proposeEntries_ne_outOfOrder kind hash snapshot _ _

/-- A batch that continues both watermarks is not refused for its order. -/
theorem reduce_ne_outOfOrder
    (kind : error.outOfOrder = true) {hashes : Hashes} {input : Input}
    (inOrder :
      InOrder (start input).consumed (start input).folded input.events) :
    reduce hashes input ≠ .error error := by
  unfold reduce
  apply bind_ne_error (validateInput_ne_outOfOrder kind input)
  intro _
  apply bind_ne_error
  · rw [foldEvents_eq_ok_iff.mpr ⟨inOrder, rfl⟩]
    exact nofun
  · intro tables
    apply bind_ne_error
    · unfold effective
      split
      · exact nofun
      · split
        · exact nofun
        · exact throw_ne_error (ne_of_outOfOrder kind rfl)
    · intro changed
      apply bind_ne_error (snapshot_validate_ne_outOfOrder kind _)
      intro _
      apply bind_ne_error (desire_ne_outOfOrder kind _)
      intro desired
      exact
        bind_ne_error (propose_ne_outOfOrder kind _ _ _ _) fun _ => nofun

end Hexroute.Reduce
