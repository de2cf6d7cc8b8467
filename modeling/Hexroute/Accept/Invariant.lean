import Hexroute.Accept.Run

/-!
# What every accepted position looks like

`Bounded id next source` says that everything the source remembers lies below
`next`, in order and inside the acceptor's bounds.  A source the acceptor
holds is bounded by the successor of its own watermark; while one arrival is
being admitted the bound is the arrival's sequence.
-/

namespace Hexroute.Accept

open Hexroute.Connectivity
open Hexroute.Safety
open Hexroute.Lib

@[simp]
theorem mem_owesBaseline
    {source : SourceState} {id : SourceID} {component : Component} :
    component ∈ (owesBaseline source id).pendingBaseline ↔
      component ∈ source.pendingBaseline ∨
        component ∈ connectivitySourceComponents id := by
  simp [owesBaseline]

theorem owesBaseline_pending_ne_nil
    {source : SourceState} {id : SourceID}
    (spoken : connectivitySourceComponents id ≠ []) :
    (owesBaseline source id).pendingBaseline ≠ [] := by
  obtain ⟨component, member⟩ := List.exists_mem_of_ne_nil _ spoken
  have owed : component ∈ (owesBaseline source id).pendingBaseline :=
    mem_owesBaseline.mpr (Or.inr member)
  exact List.ne_nil_of_mem owed

/-- Everything a source remembers is ordered, bounded and below `next`. -/
structure Bounded (id : SourceID) (next : Nat) (source : SourceState) :
    Prop where
  recentLength : source.recent.length ≤ retryWindow
  recentBelow : ∀ entry ∈ source.recent, entry.sequence < next
  recentOrdered :
    source.recent.Pairwise fun left right => left.sequence < right.sequence
  gapsLength : source.gaps.length ≤ maxGapRanges
  gapsBelow : ∀ gap ∈ source.gaps, gap.toSequence < next
  gapsProper :
    ∀ gap ∈ source.gaps,
      0 < gap.fromSequence ∧ gap.fromSequence ≤ gap.toSequence
  gapsOrdered :
    source.gaps.Pairwise fun left right =>
      left.toSequence < right.fromSequence
  pendingDeclared :
    ∀ component ∈ source.pendingBaseline,
      component ∈ connectivitySourceComponents id
  pendingNodup : source.pendingBaseline.Nodup

/-- Holes are held only while a restatement is owed. -/
def GapsOwed (source : SourceState) : Prop :=
  source.gaps ≠ [] → source.pendingBaseline ≠ []

/-- The invariant of a source between two arrivals. -/
structure SourceIntegrity.WellFormed
    (id : SourceID) (source : SourceState) : Prop where
  bounded : Bounded id (source.lastSequence + 1) source
  owed : GapsOwed source

/-- Every source the acceptor holds is well formed. -/
def State.WellFormed (state : State) : Prop :=
  ∀ id (source : SourceState), state.sources[id]? = some source →
    SourceIntegrity.WellFormed id source

section Remember

variable {recent : List RecentDigest} {entry : RecentDigest}

theorem length_remember_le : (remember recent entry).length ≤ retryWindow := by
  simp only [remember, List.length_drop, List.length_append,
    List.length_singleton]
  omega

theorem of_mem_remember {other : RecentDigest}
    (member : other ∈ remember recent entry) :
    other ∈ recent ∨ other = entry := by
  simpa using List.mem_of_mem_drop member

theorem remember_ordered
    (ordered :
      recent.Pairwise fun left right => left.sequence < right.sequence)
    (below : ∀ other ∈ recent, other.sequence < entry.sequence) :
    (remember recent entry).Pairwise fun left right =>
      left.sequence < right.sequence := by
  refine List.Pairwise.sublist (List.drop_sublist _ _) ?_
  rw [List.pairwise_append]
  refine ⟨ordered, List.pairwise_singleton _ _, ?_⟩
  intro left member right rightMember
  rw [List.mem_singleton.mp rightMember]
  exact below left member

end Remember

namespace Bounded

variable {id : SourceID} {next : Nat} {source : SourceState}

theorem mono {later : Nat}
    (bounded : Bounded id next source) (below : next ≤ later) :
    Bounded id later source :=
  { bounded with
    recentBelow := fun entry member =>
      Nat.lt_of_lt_of_le (bounded.recentBelow entry member) below
    gapsBelow := fun gap member =>
      Nat.lt_of_lt_of_le (bounded.gapsBelow gap member) below }

/-- A stream nothing was accepted from yet. -/
theorem fresh (bootID : String) {pending : List Component}
    (declared :
      ∀ component ∈ pending, component ∈ connectivitySourceComponents id)
    (nodup : pending.Nodup) :
    Bounded id next { bootID := bootID, pendingBaseline := pending } := by
  constructor <;> simp_all

theorem owesBaseline (bounded : Bounded id next source) :
    Bounded id next (owesBaseline source id) :=
  { bounded with
    pendingDeclared := by
      intro component member
      rcases mem_owesBaseline.mp member with old | declared
      · exact bounded.pendingDeclared component old
      · exact declared
    pendingNodup :=
      (List.perm_insertionSort _ _).nodup_iff.mpr
        (appendNew_nodup bounded.pendingNodup) }

/-- A new hole above everything remembered needs no reordering, so the
recorded list is the old one with the hole at its end. -/
theorem insertionSort_gaps_eq {gap : GapRange}
    (bounded : Bounded id next source) (above : next ≤ gap.fromSequence) :
    (source.gaps ++ [gap]).insertionSort
        (fun left right => left.fromSequence ≤ right.fromSequence) =
      source.gaps ++ [gap] := by
  apply List.Pairwise.insertionSort_eq
  rw [List.pairwise_append]
  refine ⟨?_, List.pairwise_singleton _ _, ?_⟩
  · refine bounded.gapsOrdered.imp_of_mem ?_
    intro left right leftMember _ ordered
    have proper := bounded.gapsProper left leftMember
    omega
  · intro left member right rightMember
    obtain rfl := List.mem_singleton.mp rightMember
    have below := bounded.gapsBelow left member
    have proper := bounded.gapsProper left member
    omega

/-- Replacing the holes by a tail of the old ones with a new one behind. -/
theorem withGaps {gap : GapRange} {later : Nat}
    (dropped : Nat) (overflow : Bool)
    (bounded : Bounded id next source)
    (positive : 0 < next) (above : next ≤ gap.fromSequence)
    (proper : gap.fromSequence ≤ gap.toSequence)
    (below : gap.toSequence < later)
    (length : ((source.gaps ++ [gap]).drop dropped).length ≤ maxGapRanges) :
    Bounded id later
      { source with
        gaps := (source.gaps ++ [gap]).drop dropped
        gapOverflow := overflow } := by
  have wider : Bounded id later source := bounded.mono (by omega)
  have split :
      ∀ range ∈ (source.gaps ++ [gap]).drop dropped,
        range ∈ source.gaps ∨ range = gap := by
    intro range member
    simpa using List.mem_of_mem_drop member
  refine { wider with
    gapsLength := length
    gapsBelow := ?_
    gapsProper := ?_
    gapsOrdered := ?_ }
  · intro range member
    rcases split range member with old | rfl
    · exact wider.gapsBelow range old
    · exact below
  · intro range member
    rcases split range member with old | rfl
    · exact bounded.gapsProper range old
    · exact ⟨by omega, proper⟩
  · refine List.Pairwise.sublist (List.drop_sublist _ _) ?_
    rw [List.pairwise_append]
    refine ⟨bounded.gapsOrdered, List.pairwise_singleton _ _, ?_⟩
    intro left member right rightMember
    obtain rfl := List.mem_singleton.mp rightMember
    exact Nat.lt_of_lt_of_le (bounded.gapsBelow left member) above

theorem recordGap {gap : GapRange} {later : Nat}
    (bounded : Bounded id next source)
    (positive : 0 < next) (above : next ≤ gap.fromSequence)
    (proper : gap.fromSequence ≤ gap.toSequence)
    (below : gap.toSequence < later) :
    Bounded id later (recordGap source gap id) := by
  unfold Accept.recordGap
  simp only [bounded.insertionSort_gaps_eq above]
  split
  · apply Bounded.owesBaseline
    apply withGaps _ _ bounded positive above proper below
    rw [List.length_drop]
    omega
  · rename_i fits
    apply Bounded.owesBaseline
    have kept :=
      withGaps 0 source.gapOverflow bounded positive above proper below
        (by simpa using fits)
    simpa using kept

theorem closeGaps {reason : Reason} {fact : Fact}
    (bounded : Bounded id next source) :
    Bounded id next (closeGaps source reason fact).1 := by
  have paid :
      Bounded id next (settleBaseline source fact.component).1 :=
    { bounded with
      pendingDeclared := fun component member =>
        bounded.pendingDeclared component (List.mem_of_mem_filter member)
      pendingNodup := bounded.pendingNodup.filter _ }
  unfold Accept.closeGaps
  split
  · split
    · rename_i settled
      rw [settled] at paid
      exact
        { paid with
          gapsLength := Nat.zero_le _
          gapsBelow := by simp
          gapsProper := by simp
          gapsOrdered := List.Pairwise.nil }
    · rename_i settled
      rw [settled] at paid
      exact paid
  · exact bounded

theorem advance {fact : Fact} {digest : String}
    (bounded : Bounded id fact.sourceSequence source) :
    Bounded id (fact.sourceSequence + 1) (advance source fact digest) := by
  have wider := bounded.mono (Nat.le_succ fact.sourceSequence)
  refine { wider with
    recentLength := length_remember_le
    recentBelow := ?_
    recentOrdered :=
      remember_ordered bounded.recentOrdered bounded.recentBelow }
  intro entry member
  rcases of_mem_remember member with old | rfl
  · exact wider.recentBelow entry old
  · exact Nat.lt_succ_self _

end Bounded

theorem openGap_bounded
    {source : SourceState} {fact : Fact}
    (bounded : Bounded fact.sourceID (source.lastSequence + 1) source)
    (advances : source.lastSequence < fact.sourceSequence) :
    Bounded fact.sourceID fact.sourceSequence (openGap source fact) := by
  unfold openGap gapBefore
  split
  · rename_i gap opened
    split at opened
    · rename_i skipped
      obtain rfl := Option.some.inj opened
      exact
        bounded.recordGap (Nat.succ_pos _) (Nat.le_refl _)
          (by simp only; omega) (by simp only; omega)
    · simp at opened
  · exact bounded.mono advances

theorem recordGap_gapsOwed
    {source : SourceState} {gap : GapRange} {id : SourceID}
    (spoken : connectivitySourceComponents id ≠ []) :
    GapsOwed (recordGap source gap id) := by
  intro _
  unfold recordGap
  exact owesBaseline_pending_ne_nil spoken

theorem openGap_gapsOwed
    {source : SourceState} {fact : Fact}
    (spoken : connectivitySourceComponents fact.sourceID ≠ [])
    (owed : GapsOwed source) :
    GapsOwed (openGap source fact) := by
  unfold openGap
  split
  · exact recordGap_gapsOwed spoken
  · exact owed

theorem closeGaps_gapsOwed
    {source : SourceState} {reason : Reason} {fact : Fact}
    (owed : GapsOwed source) :
    GapsOwed (closeGaps source reason fact).1 := by
  unfold closeGaps
  split
  · split
    · intro held
      simp at held
    · rename_i paid settled
      intro _ nothing
      obtain ⟨rfl, unsettled⟩ := Prod.mk.inj settled
      have empty :
          source.pendingBaseline.filter (· ≠ fact.component) = [] := nothing
      rw [empty] at unsettled
      simp at unsettled
  · exact owed

theorem admit_snd
    (hostSequence : Nat) (source : SourceState) (fact : Fact)
    (digest : String) (role : SourceRole) :
    (admitFact hostSequence source fact digest role).2 =
      advance
        (closeGaps (openGap source fact)
          (if (gapBefore source fact).isSome then .sequenceGap else .none)
          fact).1
        fact digest :=
  rfl

theorem admit_wellFormed
    (hostSequence : Nat) {source : SourceState} {fact : Fact}
    (digest : String) (role : SourceRole)
    (spoken : connectivitySourceComponents fact.sourceID ≠ [])
    (wellFormed : SourceIntegrity.WellFormed fact.sourceID source)
    (advances : source.lastSequence < fact.sourceSequence) :
    SourceIntegrity.WellFormed fact.sourceID
      (admitFact hostSequence source fact digest role).2 := by
  rw [admit_snd]
  constructor
  · exact (openGap_bounded wellFormed.bounded advances).closeGaps.advance
  · exact closeGaps_gapsOwed (openGap_gapsOwed spoken wellFormed.owed)

theorem replay_wellFormed
    {source : SourceState} {fact : Fact} (digest : String) (role : SourceRole)
    (spoken : connectivitySourceComponents fact.sourceID ≠ [])
    (wellFormed : SourceIntegrity.WellFormed fact.sourceID source) :
    SourceIntegrity.WellFormed fact.sourceID
      (replay source fact digest role).2 := by
  unfold replay
  split
  · split
    · exact wellFormed
    · constructor
      · apply Bounded.owesBaseline
        exact { wellFormed.bounded with }
      · exact fun _ => owesBaseline_pending_ne_nil spoken
  · exact wellFormed

/-- One arrival keeps its own source well formed. -/
theorem decideSource_wellFormed
    {hostSequence : Nat} {known : Option SourceState} {item : Screened}
    (sound : item.Sound)
    (wellFormed :
      ∀ source ∈ known,
        SourceIntegrity.WellFormed item.fact.sourceID source) :
    SourceIntegrity.WellFormed item.fact.sourceID
      (decideSource hostSequence known item.fact item.digest
        item.role).2 := by
  have spoken : connectivitySourceComponents item.fact.sourceID ≠ [] :=
    List.ne_nil_of_mem sound.declared
  have start :
      SourceIntegrity.WellFormed item.fact.sourceID
        (known.getD { bootID := item.fact.bootID }) := by
    cases known with
    | none =>
        exact ⟨Bounded.fresh _ (by simp) List.nodup_nil, by simp [GapsOwed]⟩
    | some source =>
        exact wellFormed source rfl
  unfold decideSource
  simp only
  split
  · exact
      admit_wellFormed hostSequence item.digest item.role spoken
        ⟨Bounded.fresh _ (fun _ member => member)
            (connectivitySourceComponents_nodup _),
          by simp [GapsOwed]⟩
        sound.positive
  · split
    · rename_i advances
      exact
        admit_wellFormed hostSequence item.digest item.role spoken start
          advances
    · exact replay_wellFormed item.digest item.role spoken start

theorem order_wellFormed
    {state : State} {item : Screened} (sound : item.Sound)
    (wellFormed : state.WellFormed) :
    (order state item.fact item.digest item.role).2.WellFormed := by
  intro id source found
  simp only [order, Std.ExtTreeMap.getElem?_insert,
    Std.compare_eq_iff_eq] at found
  split at found
  · rename_i same
    subst same
    obtain rfl := Option.some.inj found
    exact decideSource_wellFormed sound fun source member =>
      wellFormed _ source member
  · exact wellFormed id source found

/-- Every state of every run is well formed. -/
theorem orderAll_wellFormed
    {state : State} {items : List Screened}
    (sound : ∀ item ∈ items, item.Sound) (wellFormed : state.WellFormed) :
    (orderAll state items).2.WellFormed :=
  orderAll_induction
    (motive := fun _ current => current.WellFormed)
    wellFormed
    (fun _ _ item member current =>
      order_wellFormed (sound item member) current)

theorem State.new_wellFormed : State.new.WellFormed := by
  intro id source found
  simp [State.new] at found

end Hexroute.Accept
