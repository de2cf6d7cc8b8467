import Hexroute.Accept.Invariant
import Hexroute.Lib.OptionRel
import Hexroute.Lib.Order

/-!
# Pending baselines are a set

The acceptor keeps the components that owe a restatement in a list.  Nothing
it decides depends on the order of that list: two positions that differ only
there take every further arrival to the same decision and to positions that
again differ only there.
-/

namespace Hexroute.Accept

open Hexroute.Connectivity
open Hexroute.Safety
open Hexroute.Lib

/-- The same integrity, up to the order of the pending baselines. -/
structure Reordered (left right : SourceIntegrity) : Prop where
  pending : left.pendingBaseline.Perm right.pendingBaseline
  rest : right = { left with pendingBaseline := right.pendingBaseline }

namespace Reordered

variable {left right : SourceIntegrity}

theorem refl (source : SourceIntegrity) : Reordered source source :=
  ⟨List.Perm.refl _, rfl⟩

/-- Every relation of this kind replaces a pending list by a reordering. -/
theorem of_perm {pending : List Component}
    (same : left.pendingBaseline.Perm pending) :
    Reordered left { left with pendingBaseline := pending } :=
  ⟨same, rfl⟩

theorem symm (same : Reordered left right) : Reordered right left := by
  obtain ⟨pending, rest⟩ := same
  refine ⟨pending.symm, ?_⟩
  rw [rest]

theorem trans {third : SourceIntegrity}
    (first : Reordered left right) (second : Reordered right third) :
    Reordered left third := by
  refine ⟨first.pending.trans second.pending, ?_⟩
  rw [second.rest, first.rest]

theorem exists_pending (same : Reordered left right) :
    ∃ pending, left.pendingBaseline.Perm pending ∧
      right = { left with pendingBaseline := pending } :=
  ⟨right.pendingBaseline, same.pending, same.rest⟩

theorem awaitingBaseline (same : Reordered left right) :
    left.awaitingBaseline = right.awaitingBaseline := by
  simp [SourceIntegrity.awaitingBaseline, same.pending.isEmpty_eq]

/-- Owing sorts the list, so it even forgets the order. -/
theorem owesBaseline_eq (same : Reordered left right) (id : SourceID) :
    owesBaseline left id = owesBaseline right id := by
  obtain ⟨pending, perm, rfl⟩ := same.exists_pending
  have owed :
      (appendNew left.pendingBaseline
          (connectivitySourceComponents id)).Perm
        (appendNew pending (connectivitySourceComponents id)) :=
    appendNew_perm perm
  simp only [owesBaseline, insertionSort_eq_of_perm owed]

theorem recordGap_eq (same : Reordered left right) (gap : GapRange)
    (id : SourceID) :
    recordGap left gap id = recordGap right gap id := by
  obtain ⟨pending, perm, rfl⟩ := same.exists_pending
  unfold recordGap
  simp only
  apply owesBaseline_eq
  split
  · exact of_perm perm
  · exact of_perm perm

theorem gapBefore_eq (same : Reordered left right) (fact : Fact) :
    gapBefore left fact = gapBefore right fact := by
  obtain ⟨pending, perm, rfl⟩ := same.exists_pending
  rfl

theorem openGap (same : Reordered left right) (fact : Fact) :
    Reordered (openGap left fact) (openGap right fact) := by
  unfold Accept.openGap
  rw [← same.gapBefore_eq]
  split
  · rw [same.recordGap_eq]
    exact refl _
  · exact same

theorem settleBaseline (same : Reordered left right)
    (component : Component) :
    Reordered (settleBaseline left component).1
        (settleBaseline right component).1 ∧
      (settleBaseline left component).2 =
        (settleBaseline right component).2 := by
  obtain ⟨pending, perm, rfl⟩ := same.exists_pending
  have paid :
      (left.pendingBaseline.filter (· ≠ component)).Perm
        (pending.filter (· ≠ component)) :=
    perm.filter _
  exact ⟨⟨paid, rfl⟩, paid.isEmpty_eq⟩

/-- Closing a hole treats both alike and gives the same reason and the same
cleared holes. -/
theorem closeGaps (same : Reordered left right) (reason : Reason)
    (fact : Fact) :
    Reordered (closeGaps left reason fact).1
        (closeGaps right reason fact).1 ∧
      (closeGaps left reason fact).2 = (closeGaps right reason fact).2 := by
  unfold Accept.closeGaps
  rw [← same.awaitingBaseline]
  split
  · obtain ⟨paid, last⟩ := same.settleBaseline fact.component
    cases leftPaid : Accept.settleBaseline left fact.component with
    | mk left' leftLast =>
        cases rightPaid : Accept.settleBaseline right fact.component with
        | mk right' rightLast =>
            rw [leftPaid, rightPaid] at paid last
            simp only at paid last
            subst last
            obtain ⟨pending, perm, rfl⟩ := paid.exists_pending
            cases leftLast with
            | true =>
                exact ⟨of_perm perm, rfl⟩
            | false =>
                exact ⟨paid, rfl⟩
  · exact ⟨same, rfl⟩

theorem advance (same : Reordered left right) (fact : Fact)
    (digest : String) :
    Reordered (advance left fact digest) (advance right fact digest) := by
  obtain ⟨pending, perm, rfl⟩ := same.exists_pending
  exact of_perm perm

end Reordered

/-- The same decision, up to the order of the pending baselines in the copy
of the stream's integrity it carries. -/
structure Acceptance.Same (left right : Acceptance) : Prop where
  source : Reordered left.source right.source
  rest : right = { left with source := right.source }

/-- Two sources that decide alike, and what they are left as. -/
def SameDecision (left right : Acceptance × SourceState) : Prop :=
  left.1.Same right.1 ∧ Reordered left.2 right.2

namespace Reordered

variable {left right : SourceIntegrity}

theorem admitFact (same : Reordered left right) (hostSequence : Nat)
    (fact : Fact) (digest : String) (role : SourceRole) :
    SameDecision (admitFact hostSequence left fact digest role)
      (admitFact hostSequence right fact digest role) := by
  obtain ⟨closed, told⟩ :=
    (same.openGap fact).closeGaps
      (if (gapBefore left fact).isSome then .sequenceGap else .none) fact
  have advanced := closed.advance fact digest
  unfold SameDecision Accept.admitFact
  rw [← same.gapBefore_eq]
  refine ⟨⟨advanced, ?_⟩, advanced⟩
  simp only [told]

theorem replay (same : Reordered left right)
    (fact : Fact) (digest : String) (role : SourceRole) :
    SameDecision (replay left fact digest role)
      (replay right fact digest role) := by
  obtain ⟨pending, perm, rfl⟩ := same.exists_pending
  unfold SameDecision Accept.replay
  simp only
  split
  · split
    · exact ⟨⟨of_perm perm, rfl⟩, of_perm perm⟩
    · have refused :
          owesBaseline { left with conflicts := left.conflicts + 1 }
              fact.sourceID =
            owesBaseline
              { left with
                pendingBaseline := pending
                conflicts := left.conflicts + 1 }
              fact.sourceID :=
        owesBaseline_eq ⟨perm, rfl⟩ fact.sourceID
      simp only [refused]
      exact ⟨⟨refl _, rfl⟩, refl _⟩
  · exact ⟨⟨of_perm perm, rfl⟩, of_perm perm⟩

end Reordered

theorem decideSource_same
    {left right : Option SourceState}
    (same : Option.Rel Reordered left right) (hostSequence : Nat)
    (fact : Fact) (digest : String) (role : SourceRole) :
    SameDecision (decideSource hostSequence left fact digest role)
      (decideSource hostSequence right fact digest role) := by
  cases same with
  | none =>
      exact ⟨⟨Reordered.refl _, rfl⟩, Reordered.refl _⟩
  | @some leftSource rightSource related =>
      have boot : leftSource.bootID = rightSource.bootID := by
        rw [related.rest]
      have watermark :
          leftSource.lastSequence = rightSource.lastSequence := by
        rw [related.rest]
      unfold decideSource
      simp only [Option.getD_some, ← boot, ← watermark]
      split
      · exact ⟨⟨Reordered.refl _, rfl⟩, Reordered.refl _⟩
      · split
        · exact related.admitFact hostSequence fact digest role
        · exact related.replay fact digest role

/-- The same position, up to the order of the pending baselines. -/
structure State.Same (left right : State) : Prop where
  hostSequence : left.hostSequence = right.hostSequence
  foldPosition : left.foldPosition = right.foldPosition
  sources :
    ∀ id : SourceID,
      Option.Rel Reordered left.sources[id]? right.sources[id]?

theorem State.Same.refl (state : State) : state.Same state := by
  refine ⟨rfl, rfl, ?_⟩
  intro id
  cases state.sources[id]? with
  | none =>
      exact Option.Rel.none
  | some source =>
      exact Option.Rel.some (Reordered.refl source)

theorem State.Same.trans
    {left middle right : State} (first : left.Same middle)
    (second : middle.Same right) : left.Same right :=
  { hostSequence := first.hostSequence.trans second.hostSequence
    foldPosition := first.foldPosition.trans second.foldPosition
    sources := fun id =>
      optionRel_trans (fun _ _ _ before after => before.trans after)
        (first.sources id) (second.sources id) }

theorem State.Same.symm
    {left right : State} (same : left.Same right) : right.Same left :=
  { hostSequence := same.hostSequence.symm
    foldPosition := same.foldPosition.symm
    sources := fun id =>
      optionRel_mono (fun _ _ _ _ => Reordered.symm)
        (optionRel_swap (same.sources id)) }

theorem order_same
    {left right : State} (same : left.Same right)
    (fact : Fact) (digest : String) (role : SourceRole) :
    (order left fact digest role).1.Same (order right fact digest role).1 ∧
      (order left fact digest role).2.Same
        (order right fact digest role).2 := by
  obtain ⟨decision, source⟩ :=
    decideSource_same (same.sources fact.sourceID) left.hostSequence fact
      digest role
  unfold order
  rw [← same.hostSequence, ← same.foldPosition]
  have outcome :
      (decideSource left.hostSequence left.sources[fact.sourceID]? fact
          digest role).1.outcome =
        (decideSource left.hostSequence right.sources[fact.sourceID]? fact
          digest role).1.outcome := by
    rw [decision.rest]
  refine ⟨⟨decision.source, ?_⟩, ⟨?_, rfl, ?_⟩⟩
  · simp only
    rw [decision.rest]
  · simp only [outcome]
  · intro id
    simp only [Std.ExtTreeMap.getElem?_insert, Std.compare_eq_iff_eq]
    split
    · exact Option.Rel.some source
    · exact same.sources id

/-- The same fact with the same decision. -/
structure Event.Same (left right : Event) : Prop where
  fact : left.fact = right.fact
  acceptance : left.acceptance.Same right.acceptance

/-- Two positions that differ only in the order of pending baselines decide
every further run alike. -/
theorem orderAll_same
    {left right : State} (same : left.Same right) (items : List Screened) :
    List.Forall₂ Event.Same (orderAll left items).1
        (orderAll right items).1 ∧
      (orderAll left items).2.Same (orderAll right items).2 := by
  induction items generalizing left right with
  | nil =>
      exact ⟨List.Forall₂.nil, same⟩
  | cons item rest inductionHypothesis =>
      obtain ⟨decision, next⟩ :=
        order_same same item.fact item.digest item.role
      obtain ⟨events, final⟩ := inductionHypothesis next
      exact ⟨List.Forall₂.cons ⟨rfl, decision⟩ events, final⟩

/-- The same answer to one arrival: the same rejection, or the same
decision. -/
def SameAnswer :
    Except Rejection (Acceptance × State) →
      Except Rejection (Acceptance × State) → Prop
  | .ok left, .ok right => left.1.Same right.1 ∧ left.2.Same right.2
  | .error left, .error right => left = right
  | _, _ => False

theorem accept_same
    (digest : Fact → Option String) {left right : State}
    (same : left.Same right) (fact : Fact) (domain : Domain) :
    SameAnswer (accept digest left fact domain)
      (accept digest right fact domain) := by
  cases screens : screen digest fact domain with
  | error rejection =>
      simp [accept, screens, bind, Except.bind, SameAnswer]
  | ok passed =>
      obtain ⟨role, encoded⟩ := passed
      simpa [accept, screens, bind, Except.bind, pure, Except.pure,
        SameAnswer] using order_same same fact encoded role

theorem acceptAll_same
    (digest : Fact → Option String) {left right : State}
    (same : left.Same right) (arrivals : List Arrival) :
    List.Forall₂ Event.Same (acceptAll digest left arrivals).1
        (acceptAll digest right arrivals).1 ∧
      (acceptAll digest left arrivals).2.Same
        (acceptAll digest right arrivals).2 := by
  rw [acceptAll_eq_orderAll, acceptAll_eq_orderAll]
  exact orderAll_same same (screened digest arrivals)

end Hexroute.Accept
