import Hexroute.Accept.Decision
import Hexroute.Accept.Invariant
import Hexroute.Connectivity.Fixture

/-!
# Every position may be restored

`State.validate` asks less of a source than the acceptor itself guarantees:
a validated state may list its holes in any order and may owe one component
twice.  What it does ask survives every arrival, so an acceptor that starts
from a validated state only ever holds validated states.
-/

namespace Hexroute.Accept

open Hexroute.Connectivity
open Hexroute.Safety
open Hexroute.Lib

/-- The retry window as `validateRecent` reads it. -/
theorem validateRecent_eq_ok_iff
    {id : SourceID} {lastSequence : Nat} {previous : Option RecentDigest}
    {recent : List RecentDigest} :
    validateRecent id lastSequence previous recent = .ok () ↔
      (∀ entry ∈ recent, entry.sequence ≤ lastSequence) ∧
        (∀ before ∈ previous, ∀ entry ∈ recent,
          before.sequence < entry.sequence) ∧
          recent.Pairwise fun left right =>
            left.sequence < right.sequence := by
  induction recent generalizing previous with
  | nil =>
      simp [validateRecent]
  | cons entry rest inductionHypothesis =>
      simp only [validateRecent, bind_eq_ok_iff, refuse_eq_ok_iff,
        inductionHypothesis, List.pairwise_cons, List.forall_mem_cons,
        not_lt, gt_iff_lt, not_exists, not_and, not_le, Option.mem_def,
        Option.some.injEq, forall_eq']
      constructor
      · rintro ⟨_, inside, _, above, below, first, later⟩
        refine ⟨⟨inside, below⟩, ?_, first, later⟩
        intro before isBefore
        have rising := above before isBefore
        exact
          ⟨rising, fun other member => rising.trans (first other member)⟩
      · rintro ⟨⟨inside, below⟩, above, first, later⟩
        exact
          ⟨⟨⟩, inside, ⟨⟩, fun before isBefore => (above before isBefore).1,
            below, first, later⟩

/-- What the check of one source establishes. -/
structure SourceIntegrity.Valid
    (id : SourceID) (source : SourceState) : Prop where
  recentLength : source.recent.length ≤ retryWindow
  recentBelow :
    ∀ entry ∈ source.recent, entry.sequence ≤ source.lastSequence
  recentOrdered :
    source.recent.Pairwise fun left right => left.sequence < right.sequence
  gapsLength : source.gaps.length ≤ maxGapRanges
  gapsProper :
    ∀ gap ∈ source.gaps,
      0 < gap.fromSequence ∧ gap.fromSequence ≤ gap.toSequence
  owed : GapsOwed source
  pendingDeclared :
    ∀ component ∈ source.pendingBaseline,
      component ∈ connectivitySourceComponents id

theorem SourceIntegrity.validate_eq_ok_iff
    {id : SourceID} {source : SourceState} :
    source.validate id = .ok () ↔ source.Valid id := by
  have proper :
      (¬ ∃ gap ∈ source.gaps,
          gap.fromSequence = 0 ∨ gap.toSequence < gap.fromSequence) ↔
        ∀ gap ∈ source.gaps,
          0 < gap.fromSequence ∧ gap.fromSequence ≤ gap.toSequence := by
    simp only [not_exists, not_and, not_or, Nat.pos_iff_ne_zero, not_lt,
      ne_eq]
  have owed :
      ¬ (source.gaps ≠ [] ∧ source.pendingBaseline = []) ↔
        GapsOwed source :=
    not_and
  simp only [SourceIntegrity.validate, bind_eq_ok_iff, refuse_eq_ok_iff,
    forM_eq_ok_iff, proper, owed, not_not, gt_iff_lt, not_lt]
  constructor
  · rintro ⟨_, window, _, holes, _, recent, _, shapes, _, paired, declared⟩
    have ordered := validateRecent_eq_ok_iff.mp recent
    exact
      ⟨window, ordered.1, ordered.2.2, holes, shapes, paired, declared⟩
  · intro valid
    have recent :
        validateRecent id source.lastSequence .none source.recent =
          .ok () :=
      validateRecent_eq_ok_iff.mpr
        ⟨valid.recentBelow, by simp, valid.recentOrdered⟩
    exact
      ⟨⟨⟩, valid.recentLength, ⟨⟩, valid.gapsLength, ⟨⟩, recent, ⟨⟩,
        valid.gapsProper, ⟨⟩, valid.owed, valid.pendingDeclared⟩

/-- Every source of a validated state is valid, and conversely. -/
theorem State.validate_eq_ok_iff {state : State} :
    state.validate = .ok () ↔
      ∀ id (source : SourceState), state.sources[id]? = some source →
        source.Valid id := by
  have listed :
      ∀ id (source : SourceState),
        (id, source) ∈ state.sources.toList ↔
          state.sources[id]? = some source := by
    intro id source
    exact Std.ExtTreeMap.mem_toList_iff_getElem?_eq_some
  unfold State.validate
  rw [forM_eq_ok_iff]
  constructor
  · intro checked id source found
    exact
      SourceIntegrity.validate_eq_ok_iff.mp
        (checked (id, source) ((listed id source).mpr found))
  · intro valid pair member
    exact
      SourceIntegrity.validate_eq_ok_iff.mpr
        (valid pair.1 pair.2 ((listed pair.1 pair.2).mp member))

namespace SourceIntegrity.Valid

variable {id : SourceID} {source : SourceState} {fact : Fact}

/-- A stream nothing was accepted from yet. -/
theorem fresh (bootID : String) {pending : List Component}
    (declared :
      ∀ component ∈ pending, component ∈ connectivitySourceComponents id) :
    Valid id { bootID := bootID, pendingBaseline := pending } := by
  constructor <;> simp_all [GapsOwed]

theorem owesBaseline
    (valid : source.Valid id)
    (spoken : connectivitySourceComponents id ≠ []) :
    (owesBaseline source id).Valid id :=
  { valid with
    owed := fun _ => owesBaseline_pending_ne_nil spoken
    pendingDeclared := by
      intro component member
      rcases mem_owesBaseline.mp member with old | declared
      · exact valid.pendingDeclared component old
      · exact declared }

/-- Recording a hole sorts, bounds and owes. -/
theorem recordGap
    (valid : source.Valid id)
    (spoken : connectivitySourceComponents id ≠ []) {gap : GapRange}
    (positive : 0 < gap.fromSequence)
    (proper : gap.fromSequence ≤ gap.toSequence) :
    (recordGap source gap id).Valid id := by
  have sorted :
      ∀ range ∈
        (source.gaps ++ [gap]).insertionSort
          (fun left right => left.fromSequence ≤ right.fromSequence),
        0 < range.fromSequence ∧ range.fromSequence ≤ range.toSequence := by
    intro range member
    rw [List.mem_insertionSort, List.mem_append] at member
    rcases member with old | new
    · exact valid.gapsProper range old
    · rw [List.mem_singleton.mp new]
      exact ⟨positive, proper⟩
  -- The debt is incurred whatever was kept, so only the holes matter here.
  have owes :
      ∀ kept : SourceState, kept.recent = source.recent →
        kept.lastSequence = source.lastSequence →
        kept.pendingBaseline = source.pendingBaseline →
        kept.gaps.length ≤ maxGapRanges →
        (∀ range ∈ kept.gaps,
          0 < range.fromSequence ∧ range.fromSequence ≤ range.toSequence) →
        (Accept.owesBaseline kept id).Valid id := by
    intro kept recent last pending length shapes
    refine
      { recentLength := recent ▸ valid.recentLength
        recentBelow := ?_
        recentOrdered := recent ▸ valid.recentOrdered
        gapsLength := length
        gapsProper := shapes
        owed := fun _ => owesBaseline_pending_ne_nil spoken
        pendingDeclared := ?_ }
    · intro entry member
      have inWindow : entry ∈ source.recent := recent ▸ member
      exact last ▸ valid.recentBelow entry inWindow
    · intro component member
      rcases mem_owesBaseline.mp member with old | declared
      · exact valid.pendingDeclared component (pending ▸ old)
      · exact declared
  unfold Accept.recordGap
  simp only
  split
  · apply owes <;> try rfl
    · simp only [List.length_drop]
      omega
    · intro range member
      exact sorted range (List.mem_of_mem_drop member)
  · rename_i fits
    apply owes <;> try rfl
    · exact Nat.not_lt.mp fits
    · exact sorted

theorem openGap
    (valid : source.Valid fact.sourceID)
    (spoken : connectivitySourceComponents fact.sourceID ≠ []) :
    (openGap source fact).Valid fact.sourceID := by
  unfold Accept.openGap gapBefore
  by_cases skipped :
      source.lastSequence > 0 ∧ fact.sourceSequence > source.lastSequence + 1
  · rw [if_pos skipped]
    apply valid.recordGap spoken
    · exact Nat.succ_pos _
    · simp only
      omega
  · rw [if_neg skipped]
    exact valid

theorem closeGaps (valid : source.Valid id) (reason : Reason) :
    (closeGaps source reason fact).1.Valid id := by
  have owed := @closeGaps_gapsOwed source reason fact valid.owed
  have remaining :
      ∀ component ∈ (settleBaseline source fact.component).1.pendingBaseline,
        component ∈ connectivitySourceComponents id := by
    intro component member
    exact valid.pendingDeclared component (List.mem_of_mem_filter member)
  unfold Accept.closeGaps at owed ⊢
  split
  · rename_i restates
    rw [if_pos restates] at owed
    cases settled : settleBaseline source fact.component with
    | mk paid complete =>
        rw [settled] at remaining
        have same : paid = { source with
            pendingBaseline :=
              source.pendingBaseline.filter (· ≠ fact.component) } :=
          (congrArg Prod.fst settled).symm
        rw [settled] at owed
        cases complete with
        | true =>
            subst same
            exact
              { valid with
                gapsLength := Nat.zero_le _
                gapsProper := by simp
                owed := by simp [GapsOwed]
                pendingDeclared := remaining }
        | false =>
            subst same
            exact
              { valid with owed := owed, pendingDeclared := remaining }
  · exact valid

theorem advance
    (valid : source.Valid id)
    (advances : source.lastSequence < fact.sourceSequence)
    (digest : String) :
    (advance source fact digest).Valid id := by
  have below :
      ∀ entry ∈ source.recent, entry.sequence < fact.sourceSequence := by
    intro entry member
    exact Nat.lt_of_le_of_lt (valid.recentBelow entry member) advances
  refine { valid with
    recentLength := length_remember_le
    recentBelow := ?_
    recentOrdered := remember_ordered valid.recentOrdered below }
  intro entry member
  rcases of_mem_remember member with old | rfl
  · exact Nat.le_of_lt (below entry old)
  · exact Nat.le_refl _

theorem lastSequence_openGap (source : SourceState) (fact : Fact) :
    (Accept.openGap source fact).lastSequence = source.lastSequence := by
  unfold Accept.openGap
  cases gapBefore source fact with
  | none =>
      rfl
  | some gap =>
      simp only [Accept.recordGap, Accept.owesBaseline]
      split <;> rfl

theorem lastSequence_closeGaps
    (source : SourceState) (reason : Reason) (fact : Fact) :
    (Accept.closeGaps source reason fact).1.lastSequence =
      source.lastSequence := by
  unfold Accept.closeGaps settleBaseline
  simp only
  split
  · cases (source.pendingBaseline.filter (· ≠ fact.component)).isEmpty <;>
      rfl
  · rfl

theorem admitFact
    (valid : source.Valid fact.sourceID)
    (spoken : connectivitySourceComponents fact.sourceID ≠ [])
    (advances : source.lastSequence < fact.sourceSequence)
    (hostSequence : Nat) (digest : String) (role : SourceRole) :
    (admitFact hostSequence source fact digest role).2.Valid
      fact.sourceID := by
  rw [admit_snd]
  apply ((valid.openGap spoken).closeGaps _).advance
  rw [lastSequence_closeGaps, lastSequence_openGap]
  exact advances

theorem replay
    (valid : source.Valid fact.sourceID)
    (spoken : connectivitySourceComponents fact.sourceID ≠ [])
    (digest : String) (role : SourceRole) :
    (replay source fact digest role).2.Valid fact.sourceID := by
  unfold Accept.replay
  split
  · split
    · exact valid
    · have counted :
          SourceIntegrity.Valid fact.sourceID
            { source with conflicts := source.conflicts + 1 } :=
        { valid with }
      exact counted.owesBaseline spoken
  · exact valid

/-- One arrival keeps its own source valid. -/
theorem decideSource
    {known : Option SourceState} {item : Screened} (sound : item.Sound)
    (valid : ∀ source ∈ known, source.Valid item.fact.sourceID)
    (hostSequence : Nat) :
    (decideSource hostSequence known item.fact item.digest
      item.role).2.Valid item.fact.sourceID := by
  have spoken : connectivitySourceComponents item.fact.sourceID ≠ [] :=
    List.ne_nil_of_mem sound.declared
  have start :
      SourceIntegrity.Valid item.fact.sourceID
        (known.getD { bootID := item.fact.bootID }) := by
    cases known with
    | none =>
        exact fresh _ (by simp)
    | some source =>
        exact valid source rfl
  unfold Accept.decideSource
  simp only
  split
  · have rebooted :
        SourceIntegrity.Valid item.fact.sourceID
          { bootID := item.fact.bootID
            pendingBaseline :=
              connectivitySourceComponents item.fact.sourceID } :=
      fresh _ fun _ member => member
    exact
      rebooted.admitFact spoken sound.positive hostSequence item.digest
        item.role
  · split
    · rename_i advances
      exact
        start.admitFact spoken advances hostSequence item.digest item.role
    · exact start.replay spoken item.digest item.role

end SourceIntegrity.Valid

/-- One ordered arrival keeps the state valid. -/
theorem order_validate
    {state : State} {item : Screened} (sound : item.Sound)
    (valid : state.validate = .ok ()) :
    (order state item.fact item.digest item.role).2.validate = .ok () := by
  rw [State.validate_eq_ok_iff] at valid ⊢
  intro id source found
  by_cases same : item.fact.sourceID = id
  · subst same
    rw [order_sources, if_pos rfl] at found
    rw [← Option.some.inj found]
    exact
      SourceIntegrity.Valid.decideSource sound
        (fun source member => valid _ source member) state.hostSequence
  · rw [order_source_other state _ _ _ same] at found
    exact valid id source found

/-- What one call of `accept` reports, and the state it leaves. -/
def offer
    (digest : Fact → Option String) (state : State) (arrival : Arrival) :
    Outcome × State :=
  match accept digest state arrival.1 arrival.2 with
  | .error _ => (.rejected, state)
  | .ok (acceptance, next) => (acceptance.outcome, next)

/-- A whole run of calls: what each reported, and the state they leave. -/
def offerAll
    (digest : Fact → Option String) (state : State) :
    List Arrival → List Outcome × State
  | [] => ([], state)
  | arrival :: rest =>
      let (outcome, next) := offer digest state arrival
      let (outcomes, final) := offerAll digest next rest
      (outcome :: outcomes, final)

/-- An arrival is rejected and changes nothing, or it passed the screen and
was ordered. -/
theorem offer_cases
    (digest : Fact → Option String) (state : State) (arrival : Arrival) :
    offer digest state arrival = (.rejected, state) ∨
      ∃ item : Screened, item.Sound ∧
        offer digest state arrival =
          ((order state item.fact item.digest item.role).1.outcome,
            (order state item.fact item.digest item.role).2) := by
  cases outcome : screen digest arrival.1 arrival.2 with
  | error rejection =>
      left
      simp [offer, accept, outcome, bind, Except.bind]
  | ok result =>
      right
      have member :
          (⟨arrival.1, result.2, result.1⟩ : Screened) ∈
            screened digest [arrival] := by
        simp [screened, outcome]
      refine ⟨_, screened_sound member, ?_⟩
      simp [offer, accept, outcome, bind, Except.bind, pure, Except.pure]

/-- Where one call leaves the two counters and the checks. -/
theorem offer_spec
    (digest : Fact → Option String) {state : State} (arrival : Arrival)
    (valid : state.validate = .ok ()) :
    let offered := offer digest state arrival
    offered.2.validate = .ok () ∧
      offered.2.hostSequence =
        state.hostSequence + [offered.1].count .accepted ∧
      offered.2.foldPosition =
        state.foldPosition + [offered.1].countP (· ≠ .rejected) ∧
      (offered.1 = .rejected → offered.2 = state) := by
  rcases offer_cases digest state arrival with rejected | ordered
  · simp [rejected, valid]
  · obtain ⟨item, sound, offered⟩ := ordered
    have counters :=
      order_spec state item.digest item.role sound.positive
    simp only at counters
    have kept := counters.2.2.2.2
    have host := counters.2.2.2.1
    have fold := counters.2.1
    simp only [offered]
    refine ⟨order_validate sound valid, ?_, ?_, ?_⟩
    · rw [host, List.count_singleton, beq_eq_decide]
      by_cases accepted :
          (order state item.fact item.digest item.role).1.outcome = .accepted
      · simp [accepted]
      · simp [accepted]
    · simp [fold, kept]
    · intro refused
      exact absurd refused kept

/-- The state an acceptor starts from: a new one, or a validated restored
one. -/
def Started (start : State) : Prop :=
  start = State.new ∨ ∃ saved, restore saved = .ok start

theorem validate_of_started {start : State} (started : Started start) :
    start.validate = .ok () := by
  rcases started with rfl | ⟨saved, restored⟩
  · rw [State.validate_eq_ok_iff]
    simp [State.new]
  · simp only [restore, bind_eq_ok_iff, pure_eq_ok_iff] at restored
    obtain ⟨_, valid, rfl⟩ := restored
    exact valid

theorem offerAll_spec
    (digest : Fact → Option String) {start : State}
    (valid : start.validate = .ok ()) (arrivals : List Arrival) :
    let run := offerAll digest start arrivals
    run.2.validate = .ok () ∧
      run.2.hostSequence = start.hostSequence + run.1.count .accepted ∧
      run.2.foldPosition =
        start.foldPosition + run.1.countP (· ≠ .rejected) := by
  induction arrivals generalizing start with
  | nil =>
      simp [offerAll, valid]
  | cons arrival rest inductionHypothesis =>
      have step := offer_spec digest arrival valid
      simp only at step
      have later := inductionHypothesis step.1
      simp only at later
      refine ⟨later.1, ?_, ?_⟩
      · have total := later.2.1
        rw [step.2.1] at total
        simp only [offerAll, List.count_cons, List.count_nil] at total ⊢
        omega
      · have total := later.2.2
        rw [step.2.2.1] at total
        simp only [offerAll, List.countP_cons, List.countP_nil] at total ⊢
        omega

/-- A restored position whose holes are out of order. -/
def unorderedHoles : State :=
  { hostSequence := 7
    foldPosition := 9
    sources :=
      (∅ : Std.ExtTreeMap SourceID SourceState).insert "root.dns"
        { bootID := fixtureBootID
          lastSequence := 6
          gaps := [⟨4, 5⟩, ⟨1, 2⟩]
          pendingBaseline := [.dns] } }

end Hexroute.Accept
