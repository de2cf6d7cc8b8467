import Hexroute.Accept.Invariant
import Hexroute.Connectivity.Fixture

/-!
# No silent loss in a source stream

The stream of a source is what was accepted from it since its boot last
changed.  A hole in that stream is a sequence that was skipped.  The acceptor
keeps only bounded evidence of holes, so the property proved here ties the
whole arrival history to that evidence: a hole is recorded, or its loss is
flagged, or every component of the source has been restated since.
-/

namespace Hexroute.Accept

open Hexroute.Connectivity
open Hexroute.Safety
open Hexroute.Lib

/-- Another boot begins another stream. -/
def extendStream (stream : List Fact) (fact : Fact) : List Fact :=
  match stream.getLast? with
  | some last =>
      if last.bootID = fact.bootID then stream ++ [fact] else [fact]
  | none => [fact]

/-- The facts accepted from one source in its current boot, oldest first. -/
def currentStream (id : SourceID) (events : List Event) : List Fact :=
  events.foldl
    (fun stream event =>
      if event.fact.sourceID = id ∧ event.acceptance.outcome = .accepted then
        extendStream stream event.fact
      else
        stream)
    []

/-- A sequence strictly inside the stream that was never accepted. -/
def Hole (stream : List Fact) (sequence : Nat) : Prop :=
  (∃ fact ∈ stream, fact.sourceSequence < sequence) ∧
    (∃ fact ∈ stream, sequence < fact.sourceSequence) ∧
      ∀ fact ∈ stream, fact.sourceSequence ≠ sequence

/-- The component was restated in full after the sequence was skipped.
Sequences rise along a stream, so later means larger. -/
def RestatedAfter
    (stream : List Fact) (component : Component) (sequence : Nat) : Prop :=
  ∃ fact ∈ stream,
    fact.baseline = true ∧ fact.component = component ∧
      sequence < fact.sourceSequence

/-- The bounded evidence a source keeps accounts for every hole. -/
structure Accounted
    (id : SourceID) (hole : Nat → Prop) (restated : Component → Nat → Prop)
    (source : SourceState) : Prop where
  covered :
    ∀ sequence, hole sequence →
      inGap source.gaps sequence = true ∨ source.gapOverflow = true ∨
        ∀ component ∈ connectivitySourceComponents id,
          restated component sequence
  owed :
    ∀ sequence, hole sequence →
      ∀ component ∈ connectivitySourceComponents id,
        component ∉ source.pendingBaseline → restated component sequence

theorem inGap_iff {gaps : List GapRange} {sequence : Nat} :
    inGap gaps sequence = true ↔
      ∃ gap ∈ gaps,
        gap.fromSequence ≤ sequence ∧ sequence ≤ gap.toSequence := by
  simp [inGap]

namespace Accounted

variable {id : SourceID} {hole : Nat → Prop}
  {restated : Component → Nat → Prop} {source : SourceState}

/-- Owing more can only help. -/
theorem owesBaseline (accounted : Accounted id hole restated source) :
    Accounted id hole restated (owesBaseline source id) :=
  { covered := accounted.covered
    owed := fun _ _ _ declared notOwed =>
      absurd (mem_owesBaseline.mpr (Or.inr declared)) notOwed }

/-- A newly recorded hole is covered by its own range; the ranges that fall
out of the bound are covered by the overflow flag. -/
theorem recordGap (gap : GapRange) {next : Nat}
    (accounted : Accounted id hole restated source)
    (bounded : Bounded id next source) (above : next ≤ gap.fromSequence) :
    Accounted id
      (fun sequence =>
        hole sequence ∨
          gap.fromSequence ≤ sequence ∧ sequence ≤ gap.toSequence)
      restated (recordGap source gap id) := by
  constructor
  · intro sequence skipped
    unfold Accept.recordGap
    simp only [bounded.insertionSort_gaps_eq above]
    split
    · exact Or.inr (Or.inl rfl)
    · rcases skipped with old | inside
      · rcases accounted.covered sequence old with
          recorded | overflow | restatedAll
        · obtain ⟨range, member, within⟩ := inGap_iff.mp recorded
          exact Or.inl <|
            inGap_iff.mpr
              ⟨range, by simp [Accept.owesBaseline, member], within⟩
        · exact Or.inr (Or.inl overflow)
        · exact Or.inr (Or.inr restatedAll)
      · exact Or.inl <|
          inGap_iff.mpr ⟨gap, by simp [Accept.owesBaseline], inside⟩
  · intro sequence _ component declared notOwed
    exact absurd (mem_owesBaseline.mpr (Or.inr declared)) notOwed

/-- Settling one component's share accounts for it, and closing every hole
happens only when the last share is settled. -/
theorem closeGaps (reason : Reason) {fact : Fact}
    {after : Component → Nat → Prop}
    (accounted : Accounted id hole restated source)
    (carried :
      ∀ component sequence, restated component sequence →
        after component sequence)
    (settles :
      fact.baseline = true →
        ∀ sequence, hole sequence → after fact.component sequence) :
    Accounted id hole after (closeGaps source reason fact).1 := by
  have kept : Accounted id hole after source :=
    { covered := fun sequence skipped =>
        (accounted.covered sequence skipped).imp_right
          (Or.imp_right fun all component declared =>
            carried component sequence (all component declared))
      owed := fun sequence skipped component declared notOwed =>
        carried component sequence
          (accounted.owed sequence skipped component declared notOwed) }
  unfold Accept.closeGaps
  split
  · rename_i paying
    have baseline : fact.baseline = true := by
      simp only [Bool.and_eq_true] at paying
      exact paying.1
    have paidOwed :
        ∀ sequence, hole sequence →
          ∀ component ∈ connectivitySourceComponents id,
            component ∉
                (settleBaseline source fact.component).1.pendingBaseline →
              after component sequence := by
      intro sequence skipped component declared notOwed
      by_cases same : component = fact.component
      · subst same
        exact settles baseline sequence skipped
      · apply kept.owed sequence skipped component declared
        intro owes
        exact notOwed (by simp [settleBaseline, owes, same])
    split
    · rename_i paid settled
      have nothing : paid.pendingBaseline = [] := by
        obtain ⟨rfl, empty⟩ := Prod.mk.inj settled
        exact List.isEmpty_iff.mp empty
      rw [settled] at paidOwed
      have all :
          ∀ sequence, hole sequence →
            ∀ component ∈ connectivitySourceComponents id,
              after component sequence := by
        intro sequence skipped component declared
        exact paidOwed sequence skipped component declared (by simp [nothing])
      exact
        { covered := fun sequence skipped =>
            Or.inr (Or.inr (all sequence skipped))
          owed := fun sequence skipped component declared _ =>
            all sequence skipped component declared }
    · rename_i paid settled
      have sameGaps :
          paid.gaps = source.gaps ∧
            paid.gapOverflow = source.gapOverflow := by
        obtain ⟨rfl, _⟩ := Prod.mk.inj settled
        exact ⟨rfl, rfl⟩
      rw [settled] at paidOwed
      exact
        { covered := by
            rw [sameGaps.1, sameGaps.2]
            exact kept.covered
          owed := paidOwed }
  · exact kept

end Accounted

/-- The stream a run has accepted, tied to what the acceptor remembers. -/
structure Tracks
    (id : SourceID) (stream : List Fact) (known : Option SourceState) :
    Prop where
  unknown : known = none → stream = []
  last :
    ∀ source ∈ known,
      ∃ fact, stream.getLast? = some fact ∧ fact.bootID = source.bootID ∧
        fact.sourceSequence = source.lastSequence
  below :
    ∀ source ∈ known, ∀ fact ∈ stream,
      fact.sourceSequence ≤ source.lastSequence
  positive : ∀ fact ∈ stream, 0 < fact.sourceSequence
  accounted :
    ∀ source ∈ known,
      Accounted id (Hole stream) (RestatedAfter stream) source

theorem not_hole_singleton {fact : Fact} {sequence : Nat} :
    ¬ Hole [fact] sequence := by
  rintro ⟨⟨below, belowMember, less⟩, ⟨above, aboveMember, greater⟩, _⟩
  obtain rfl := List.mem_singleton.mp belowMember
  obtain rfl := List.mem_singleton.mp aboveMember
  omega

/-- The holes an advancing arrival adds lie right below it. -/
theorem hole_concat
    {stream : List Fact} {fact : Fact} {lastSequence sequence : Nat}
    (below : ∀ earlier ∈ stream, earlier.sourceSequence ≤ lastSequence)
    (attained : ∃ earlier ∈ stream, earlier.sourceSequence = lastSequence)
    (advances : lastSequence < fact.sourceSequence)
    (hole : Hole (stream ++ [fact]) sequence) :
    Hole stream sequence ∨
      lastSequence + 1 ≤ sequence ∧ sequence ≤ fact.sourceSequence - 1 := by
  obtain ⟨⟨lower, lowerMember, less⟩, ⟨upper, upperMember, greater⟩, absent⟩ :=
    hole
  obtain ⟨last, lastMember, lastEq⟩ := attained
  have notLast : last.sourceSequence ≠ sequence :=
    absent last (by simp [lastMember])
  rcases Nat.lt_or_ge sequence lastSequence with inside | outside
  · refine Or.inl ⟨?_, ⟨last, lastMember, by omega⟩, ?_⟩
    · rcases List.mem_append.mp lowerMember with old | new
      · exact ⟨lower, old, less⟩
      · obtain rfl := List.mem_singleton.mp new
        omega
    · intro earlier member
      exact absent earlier (by simp [member])
  · right
    have above : upper = fact := by
      rcases List.mem_append.mp upperMember with old | new
      · have := below upper old
        omega
      · exact List.mem_singleton.mp new
    subst above
    omega

theorem Hole.lt_of_below
    {stream : List Fact} {lastSequence sequence next : Nat}
    (hole : Hole stream sequence)
    (below : ∀ fact ∈ stream, fact.sourceSequence ≤ lastSequence)
    (advances : lastSequence < next) :
    sequence < next := by
  obtain ⟨_, ⟨upper, member, greater⟩, _⟩ := hole
  have bound := below upper member
  omega

theorem RestatedAfter.concat
    {stream : List Fact} {fact : Fact} {component : Component}
    {sequence : Nat} (restated : RestatedAfter stream component sequence) :
    RestatedAfter (stream ++ [fact]) component sequence := by
  obtain ⟨earlier, member, restates⟩ := restated
  exact ⟨earlier, List.mem_append_left [fact] member, restates⟩

/-- Opening the gap an advancing arrival reveals accounts for every hole the
arrival adds. -/
theorem openGap_accounted
    {source : SourceState} {fact : Fact} {hole : Nat → Prop}
    {restated : Component → Nat → Prop}
    (accounted : Accounted fact.sourceID hole restated source)
    (bounded : Bounded fact.sourceID (source.lastSequence + 1) source)
    (positive : 0 < source.lastSequence) :
    Accounted fact.sourceID
      (fun sequence =>
        hole sequence ∨
          source.lastSequence + 1 ≤ sequence ∧
            sequence ≤ fact.sourceSequence - 1)
      restated (openGap source fact) := by
  unfold openGap gapBefore
  split
  · rename_i gap opened
    split at opened
    · obtain rfl := Option.some.inj opened
      exact
        accounted.recordGap
          ⟨source.lastSequence + 1, fact.sourceSequence - 1⟩
          bounded (Nat.le_refl _)
    · simp at opened
  · rename_i closed
    have adjacent : fact.sourceSequence ≤ source.lastSequence + 1 := by
      by_contra skipped
      simp [positive, Nat.lt_of_not_ge skipped] at closed
    constructor
    · rintro sequence (old | inside)
      · exact accounted.covered sequence old
      · omega
    · rintro sequence (old | inside)
      · exact accounted.owed sequence old
      · omega

@[simp]
theorem openGap_bootID (source : SourceState) (fact : Fact) :
    (openGap source fact).bootID = source.bootID := by
  unfold openGap recordGap owesBaseline
  split
  · simp only
    split <;> rfl
  · rfl

@[simp]
theorem closeGaps_bootID
    (source : SourceState) (reason : Reason) (fact : Fact) :
    (closeGaps source reason fact).1.bootID = source.bootID := by
  unfold closeGaps
  split
  · split
    all_goals
      rename_i settled
      obtain ⟨rfl, _⟩ := Prod.mk.inj settled
      rfl
  · rfl

@[simp]
theorem admit_bootID
    (hostSequence : Nat) (source : SourceState) (fact : Fact)
    (digest : String) (role : SourceRole) :
    (admitFact hostSequence source fact digest role).2.bootID =
      source.bootID := by
  simp [admit_snd, advance]

@[simp]
theorem admit_outcome
    (hostSequence : Nat) (source : SourceState) (fact : Fact)
    (digest : String) (role : SourceRole) :
    (admitFact hostSequence source fact digest role).1.outcome = .accepted :=
  rfl

/-- What an arrival that does not advance can change. -/
theorem replay_cases
    (source : SourceState) (fact : Fact) (digest : String)
    (role : SourceRole) :
    (replay source fact digest role).1.outcome ≠ .accepted ∧
      ((replay source fact digest role).2 = source ∨
        (replay source fact digest role).2 =
          owesBaseline { source with conflicts := source.conflicts + 1 }
            fact.sourceID) := by
  unfold replay
  split
  · split <;> simp
  · simp

namespace Tracks

variable {id : SourceID} {stream : List Fact}

/-- A stream that has just begun has no holes. -/
theorem singleton {fact : Fact} {source : SourceState}
    (positive : 0 < fact.sourceSequence)
    (sameBoot : fact.bootID = source.bootID)
    (sameSequence : fact.sourceSequence = source.lastSequence) :
    Tracks id [fact] (some source) := by
  constructor
  · simp
  · rintro _ ⟨⟩
    exact ⟨fact, rfl, sameBoot, sameSequence⟩
  · rintro _ ⟨⟩ earlier member
    obtain rfl := List.mem_singleton.mp member
    exact Nat.le_of_eq sameSequence
  · intro earlier member
    obtain rfl := List.mem_singleton.mp member
    exact positive
  · rintro _ ⟨⟩
    exact
      { covered := fun _ hole => absurd hole not_hole_singleton
        owed := fun _ hole => absurd hole not_hole_singleton }

/-- Admitting an advancing arrival of the current boot. -/
theorem admitFact {source : SourceState} {fact : Fact}
    (hostSequence : Nat) (digest : String) (role : SourceRole)
    (tracks : Tracks fact.sourceID stream (some source))
    (wellFormed : SourceIntegrity.WellFormed fact.sourceID source)
    (sameBoot : source.bootID = fact.bootID)
    (advances : source.lastSequence < fact.sourceSequence) :
    Tracks fact.sourceID (stream ++ [fact])
      (some (admitFact hostSequence source fact digest role).2) := by
  obtain ⟨last, lastFound, _, lastEq⟩ := tracks.last source rfl
  have lastMember : last ∈ stream := List.mem_of_getLast? lastFound
  have positive : 0 < source.lastSequence :=
    lastEq ▸ tracks.positive last lastMember
  have below := tracks.below source rfl
  have opened :=
    openGap_accounted (tracks.accounted source rfl) wellFormed.bounded positive
  constructor
  · simp
  · rintro _ ⟨⟩
    exact ⟨fact, by simp, by simp [sameBoot], rfl⟩
  · rintro _ ⟨⟩ earlier member
    rcases List.mem_append.mp member with old | new
    · exact Nat.le_of_lt (Nat.lt_of_le_of_lt (below earlier old) advances)
    · obtain rfl := List.mem_singleton.mp new
      exact Nat.le_refl _
  · intro earlier member
    rcases List.mem_append.mp member with old | new
    · exact tracks.positive earlier old
    · obtain rfl := List.mem_singleton.mp new
      exact Nat.lt_of_le_of_lt (Nat.zero_le _) advances
  · rintro _ ⟨⟩
    have closed :
        Accounted fact.sourceID _ (RestatedAfter (stream ++ [fact]))
          (Accept.closeGaps (openGap source fact)
            (if (gapBefore source fact).isSome then .sequenceGap else .none)
            fact).1 :=
      opened.closeGaps _
        (fun component sequence => RestatedAfter.concat)
        (fun baseline sequence hole =>
          ⟨fact, by simp, baseline, rfl, by
            rcases hole with old | inside
            · exact old.lt_of_below below advances
            · omega⟩)
    have split :
        ∀ sequence, Hole (stream ++ [fact]) sequence →
          Hole stream sequence ∨
            source.lastSequence + 1 ≤ sequence ∧
              sequence ≤ fact.sourceSequence - 1 :=
      fun sequence =>
        hole_concat below ⟨last, lastMember, lastEq⟩ advances
    exact
      { covered := fun sequence hole =>
          closed.covered sequence (split sequence hole)
        owed := fun sequence hole =>
          closed.owed sequence (split sequence hole) }

/-- A refused arrival may add to the debt and changes nothing else. -/
theorem replay {source : SourceState} {fact : Fact}
    (digest : String) (role : SourceRole)
    (tracks : Tracks fact.sourceID stream (some source)) :
    Tracks fact.sourceID stream
      (some (replay source fact digest role).2) := by
  rcases (replay_cases source fact digest role).2 with same | refused
  · rw [same]
    exact tracks
  · rw [refused]
    constructor
    · simp
    · rintro _ ⟨⟩
      exact tracks.last source rfl
    · rintro _ ⟨⟩
      exact tracks.below source rfl
    · exact tracks.positive
    · rintro _ ⟨⟩
      have accounted := tracks.accounted source rfl
      apply Accounted.owesBaseline
      exact { covered := accounted.covered, owed := accounted.owed }

/-- One arrival keeps its own stream tracked. -/
theorem decideSource {known : Option SourceState} {item : Screened}
    (hostSequence : Nat) (sound : item.Sound)
    (wellFormed :
      ∀ source ∈ known,
        SourceIntegrity.WellFormed item.fact.sourceID source)
    (tracks : Tracks item.fact.sourceID stream known) :
    Tracks item.fact.sourceID
      (if (decideSource hostSequence known item.fact item.digest
          item.role).1.outcome = .accepted then
        extendStream stream item.fact
      else
        stream)
      (some
        (decideSource hostSequence known item.fact item.digest
          item.role).2) := by
  cases known with
  | none =>
      obtain rfl := tracks.unknown rfl
      simp only [Accept.decideSource, Option.getD_none, ne_eq,
        not_true_eq_false, if_false, sound.positive, if_true, admit_outcome]
      exact singleton sound.positive (by simp) rfl
  | some source =>
      obtain ⟨last, lastFound, lastBoot, _⟩ := tracks.last source rfl
      by_cases sameBoot : source.bootID = item.fact.bootID
      · by_cases advances : source.lastSequence < item.fact.sourceSequence
        · have decided :
              Accept.decideSource hostSequence (some source) item.fact
                  item.digest item.role =
                Accept.admitFact hostSequence source item.fact item.digest
                  item.role := by
            simp [Accept.decideSource, sameBoot, advances]
          rw [decided]
          simp only [admit_outcome, if_true, extendStream, lastFound,
            lastBoot, sameBoot]
          exact
            tracks.admitFact hostSequence item.digest item.role
              (wellFormed source rfl) sameBoot advances
        · have decided :
              Accept.decideSource hostSequence (some source) item.fact
                  item.digest item.role =
                Accept.replay source item.fact item.digest item.role := by
            simp [Accept.decideSource, sameBoot, advances]
          rw [decided,
            if_neg (replay_cases source item.fact item.digest item.role).1]
          exact tracks.replay item.digest item.role
      · have otherBoot : last.bootID ≠ item.fact.bootID :=
          lastBoot ▸ sameBoot
        simp only [Accept.decideSource, Option.getD_some, ne_eq, sameBoot,
          not_false_eq_true, if_true, admit_outcome, extendStream, lastFound,
          otherBoot, if_false]
        exact singleton sound.positive (by simp) rfl

end Tracks

theorem currentStream_concat
    (id : SourceID) (events : List Event) (event : Event) :
    currentStream id (events ++ [event]) =
      if event.fact.sourceID = id ∧ event.acceptance.outcome = .accepted then
        extendStream (currentStream id events) event.fact
      else
        currentStream id events := by
  simp [currentStream]

/-- Every source's stream is tracked at every point of every run. -/
theorem orderAll_tracks
    {items : List Screened} (sound : ∀ item ∈ items, item.Sound)
    (id : SourceID) :
    Tracks id (currentStream id (orderAll State.new items).1)
      (orderAll State.new items).2.sources[id]? := by
  refine
    (orderAll_induction
      (motive := fun events state =>
        state.WellFormed ∧
          Tracks id (currentStream id events) state.sources[id]?)
      ⟨State.new_wellFormed, ?_⟩ ?_).2
  · constructor <;> simp [State.new, currentStream]
  · rintro events state item member ⟨wellFormed, tracks⟩
    refine ⟨order_wellFormed (sound item member) wellFormed, ?_⟩
    rw [currentStream_concat]
    by_cases own : item.fact.sourceID = id
    · subst own
      simpa [order] using
        tracks.decideSource state.hostSequence (sound item member)
          fun source found => wellFormed _ source found
    · simpa [order, own, Std.ExtTreeMap.getElem?_insert] using tracks

/-- A skipped sequence is recorded, or its loss is flagged, or every
component the source speaks about has been restated since; and until it has
been, a restatement is owed. -/
theorem hole_is_accounted_for
    (digest : Fact → Option String) (arrivals : List Arrival)
    (id : SourceID) (sequence : Nat)
    (hole :
      Hole (currentStream id (acceptAll digest State.new arrivals).1)
        sequence) :
    ∃ source,
      (acceptAll digest State.new arrivals).2.sources[id]? = some source ∧
        (inGap source.gaps sequence = true ∨ source.gapOverflow = true ∨
          ∀ component ∈ connectivitySourceComponents id,
            RestatedAfter
              (currentStream id (acceptAll digest State.new arrivals).1)
              component sequence) ∧
          ((¬ ∀ component ∈ connectivitySourceComponents id,
              RestatedAfter
                (currentStream id (acceptAll digest State.new arrivals).1)
                component sequence) →
            source.pendingBaseline ≠ []) := by
  have tracks :=
    orderAll_tracks
      (fun item (member : item ∈ screened digest arrivals) =>
        screened_sound member) id
  rw [← acceptAll_eq_orderAll] at tracks
  cases known : (acceptAll digest State.new arrivals).2.sources[id]? with
  | none =>
      obtain ⟨⟨_, member, _⟩, _⟩ := hole
      rw [tracks.unknown known] at member
      simp at member
  | some source =>
      have accounted := tracks.accounted source known
      refine ⟨source, rfl, accounted.covered sequence hole, ?_⟩
      intro unaccounted settled
      apply unaccounted
      intro component declared
      exact
        accounted.owed sequence hole component declared (by simp [settled])

/-- The source of DNS facts skips its second sequence, and the third is not a
restatement. -/
theorem hole_is_accounted_for_skipped_dns :
    ∃ source,
      (acceptAll (fun fact => some fact.eventID) State.new
          [(fixtureBaseline .dns 1, .root),
            ({ fixtureBaseline .dns 3 with baseline := false }, .root)]
        ).2.sources["root.dns"]? = some source ∧
        (inGap source.gaps 2 = true ∨ source.gapOverflow = true ∨
          ∀ component ∈ connectivitySourceComponents "root.dns",
            RestatedAfter
              (currentStream "root.dns"
                (acceptAll (fun fact => some fact.eventID) State.new
                  [(fixtureBaseline .dns 1, .root),
                    ({ fixtureBaseline .dns 3 with baseline := false },
                      .root)]).1)
              component 2) ∧
          ((¬ ∀ component ∈ connectivitySourceComponents "root.dns",
              RestatedAfter
                (currentStream "root.dns"
                  (acceptAll (fun fact => some fact.eventID) State.new
                    [(fixtureBaseline .dns 1, .root),
                      ({ fixtureBaseline .dns 3 with baseline := false },
                        .root)]).1)
                component 2) →
            source.pendingBaseline ≠ []) :=
  hole_is_accounted_for (fun fact => some fact.eventID)
    [(fixtureBaseline .dns 1, .root),
      ({ fixtureBaseline .dns 3 with baseline := false }, .root)]
    "root.dns" 2 (by unfold Hole; decide +kernel)

end Hexroute.Accept
