import Hexroute.Accept.Streams
import Hexroute.Lib.View
import Hexroute.Reduce.Batching

/-!
# Interleaving independent sources

Two interleavings of the same streams decide every stream alike, so a
reduction of either leaves the same watermarks, the same refusals and the
same statements of every owner.  Only the opinions of corroborating sources
see the interleaving: an opinion is compared with what the owner had said
when it arrived, and the comparison is never made again.
-/

namespace Hexroute.Reduce

open Hexroute.Connectivity
open Hexroute.Safety
open Hexroute.Lib
open Hexroute.Accept (Event State Arrival acceptAll stream Interleaved)

/-- The event is a statement of the component's owner. -/
def speaksFor (component : Component) (event : Event) : Bool :=
  decide (event.acceptance.outcome = .accepted) &&
    decide (event.acceptance.role = .authoritative) &&
    decide (event.fact.component = component)

/-- The event is an opinion of the source about the component. -/
def corroborates
    (component : Component) (source : SourceID) (event : Event) : Bool :=
  decide (event.acceptance.outcome = .accepted) &&
    decide (event.acceptance.role ≠ .authoritative) &&
    decide (event.fact.component = component) &&
    decide (event.fact.sourceID = source)

/-- What the owner said last. -/
def ownerSays (component : Component) (events : List Event) : Lifecycle :=
  ((events.filter (speaksFor component)).getLast?.map
    (·.fact.lifecycle)).getD .unknown

/-- The source's last opinion about the component agrees with what the owner
had said by then. -/
def AgreesLast
    (component : Component) (source : SourceID) (events : List Event) :
    Prop :=
  ∃ before opinion after,
    events = before ++ opinion :: after ∧
      corroborates component source opinion = true ∧
        (∀ later ∈ after, corroborates component source later = false) ∧
          opinion.fact.lifecycle = ownerSays component before

theorem agreesLast_concat
    {component : Component} {source : SourceID} {events : List Event}
    {event : Event} :
    AgreesLast component source (events ++ [event]) ↔
      if corroborates component source event then
        event.fact.lifecycle = ownerSays component events
      else
        AgreesLast component source events := by
  constructor
  · rintro ⟨before, opinion, after, cut, speaks, silent, agrees⟩
    rcases List.eq_nil_or_concat' after with rfl | ⟨rest, last, rfl⟩
    · obtain ⟨rfl, same⟩ := List.append_inj' cut rfl
      obtain rfl := List.singleton_inj.mp same
      rwa [if_pos speaks]
    · rw [← List.cons_append, ← List.append_assoc] at cut
      obtain ⟨rfl, same⟩ := List.append_inj' cut rfl
      obtain rfl := List.singleton_inj.mp same
      rw [if_neg (by simp [silent event (by simp)])]
      exact
        ⟨before, opinion, rest, rfl, speaks,
          fun later member => silent later (by simp [member]), agrees⟩
  · split
    · rename_i speaks
      intro agrees
      exact ⟨events, event, [], rfl, speaks, by simp, agrees⟩
    · rename_i silent
      rintro ⟨before, opinion, after, rfl, speaks, quiet, agrees⟩
      refine
        ⟨before, opinion, after ++ [event], by simp, speaks, ?_, agrees⟩
      intro later member
      rcases List.mem_append.mp member with old | new
      · exact quiet later old
      · obtain rfl := List.mem_singleton.mp new
        simpa using silent

/-- A component's record follows its owner. -/
theorem observed_eq_ownerSays
    (component : Component) (events : List Event) :
    (events.foldl foldComponents ComponentRecord.unobserved
        component).observed =
      ownerSays component events := by
  induction events using List.reverseRecOn with
  | nil =>
      rfl
  | append_singleton events event inductionHypothesis =>
      rw [List.foldl_append, List.foldl_cons, List.foldl_nil]
      unfold ownerSays at inductionHypothesis ⊢
      rw [List.filter_append]
      generalize events.foldl foldComponents ComponentRecord.unobserved =
        table at inductionHypothesis ⊢
      by_cases speaks : speaksFor component event = true
      · rw [List.filter_cons_of_pos speaks]
        simp only [speaksFor, Bool.and_eq_true, decide_eq_true_eq] at speaks
        obtain ⟨⟨accepted, authoritative⟩, rfl⟩ := speaks
        simp [foldComponents, accepted, authoritative, observe]
      · rw [List.filter_cons_of_neg speaks, List.filter_nil,
          List.append_nil, ← inductionHypothesis]
        simp only [speaksFor, Bool.and_eq_true, decide_eq_true_eq] at speaks
        unfold foldComponents
        split
        · rename_i accepted
          rw [Function.update_apply]
          split
          · rename_i own
            subst own
            rw [if_pos fun authoritative =>
              speaks ⟨⟨accepted, authoritative⟩, rfl⟩]
            rfl
          · rfl
        · rfl

/-- What an opinion is recorded as. -/
def opinionOf (event : Event) (agrees : Bool) : Corroboration :=
  { source := event.fact.sourceID
    lifecycle := event.fact.lifecycle
    reason := event.fact.reason
    agrees := agrees
    monotonicTick := event.fact.monotonicTick }

@[simp]
theorem opinionOf_source (event : Event) (agrees : Bool) :
    (opinionOf event agrees).source = event.fact.sourceID :=
  rfl

/-- The source's last opinion about the component. -/
def lastOpinion
    (component : Component) (source : SourceID) (events : List Event) :
    Option Event :=
  (events.filter (corroborates component source)).getLast?

/-- The record holds every source's last opinion, judged when it came. -/
def HoldsOpinions
    (component : Component) (events : List Event)
    (entries : List Corroboration) : Prop :=
  ∀ source, ∃ agrees : Bool,
    (agrees = true ↔ AgreesLast component source events) ∧
      under Corroboration.source source entries =
        ((lastOpinion component source events).map
          (opinionOf · agrees)).toList

/-- The sources that only corroborate. -/
def probes : List SourceID := ["root.probe", "user.probe"]

theorem mem_probes
    {component : Component} {source : SourceID} {event : Event}
    (genuine : event.Genuine)
    (speaks : corroborates component source event = true) :
    source ∈ probes := by
  obtain ⟨declaration, found, role⟩ := genuine.classified
  simp only [corroborates, Bool.and_eq_true, decide_eq_true_eq] at speaks
  obtain ⟨⟨⟨_, secondary⟩, _⟩, rfl⟩ := speaks
  have listed := List.mem_of_find?_eq_some found
  have named := List.find?_some found
  simp only [Bool.and_eq_true, decide_eq_true_eq] at named
  rw [← named.1]
  rw [← role] at secondary
  have envelope :
      ∀ declaration ∈ connectivitySources,
        declaration.role ≠ .authoritative →
          declaration.source ∈ probes := by
    decide
  exact envelope declaration listed secondary

/-- There are fewer probes than a record has room for opinions. -/
theorem HoldsOpinions.room
    {component : Component} {events : List Event}
    {entries : List Corroboration}
    (holds : HoldsOpinions component events entries)
    (genuine : ∀ event ∈ events, event.Genuine) :
    entries.length < maxCorroborations := by
  have single :
      ∀ source,
        (under Corroboration.source source entries).length ≤ 1 := by
    intro source
    obtain ⟨_, _, held⟩ := holds source
    rw [held]
    exact Option.length_toList_le
  have inside : ∀ entry ∈ entries, entry.source ∈ probes := by
    intro entry member
    obtain ⟨_, _, held⟩ := holds entry.source
    have listed : entry ∈ under Corroboration.source entry.source entries :=
      List.mem_filter.mpr ⟨member, by simp⟩
    rw [held, Option.mem_toList, Option.map_eq_some_iff] at listed
    obtain ⟨event, last, _⟩ := listed
    have spoken := List.mem_of_getLast? last
    rw [List.mem_filter] at spoken
    exact mem_probes (genuine event spoken.1) spoken.2
  have distinct : (entries.map Corroboration.source).Nodup := by
    rw [List.nodup_iff_count_le_one]
    intro source
    have counted :
        (entries.map Corroboration.source).count source =
          (under Corroboration.source source entries).length := by
      rw [List.count, List.countP_map, under, List.countP_eq_length_filter]
      rfl
    rw [counted]
    exact single source
  have subset : entries.map Corroboration.source ⊆ probes := by
    intro source listed
    obtain ⟨entry, member, rfl⟩ := List.mem_map.mp listed
    exact inside entry member
  have few := (distinct.subperm subset).length_le
  rw [List.length_map] at few
  exact Nat.lt_of_le_of_lt few (by decide)

theorem lastOpinion_concat
    (component : Component) (source : SourceID) (events : List Event)
    (event : Event) :
    lastOpinion component source (events ++ [event]) =
      if corroborates component source event then some event
      else lastOpinion component source events := by
  unfold lastOpinion
  rw [List.filter_append]
  split
  · rename_i speaks
    rw [List.filter_cons_of_pos speaks, List.filter_nil,
      List.getLast?_append_of_ne_nil _ (by simp)]
    rfl
  · rename_i silent
    rw [List.filter_cons_of_neg silent, List.filter_nil, List.append_nil]

/-- An event that is no opinion about the component changes none. -/
theorem HoldsOpinions.frame
    {component : Component} {events : List Event} {event : Event}
    {entries : List Corroboration}
    (holds : HoldsOpinions component events entries)
    (silent : ∀ source, corroborates component source event = false) :
    HoldsOpinions component (events ++ [event]) entries := by
  intro source
  obtain ⟨agrees, verdict, held⟩ := holds source
  refine ⟨agrees, ?_, ?_⟩
  · rw [verdict, agreesLast_concat, if_neg (by simp [silent source])]
  · rw [held, lastOpinion_concat, if_neg (by simp [silent source])]

/-- An opinion replaces its source's earlier one. -/
theorem HoldsOpinions.put
    {component : Component} {events : List Event} {event : Event}
    {entries : List Corroboration}
    (holds : HoldsOpinions component events entries)
    (genuine : ∀ event ∈ events, event.Genuine)
    (speaks :
      corroborates component event.fact.sourceID event = true) :
    HoldsOpinions component (events ++ [event])
      (putCorroboration
        (opinionOf event
          (decide
            (event.fact.lifecycle = ownerSays component events)))
        entries) := by
  intro source
  have room := holds.room genuine
  obtain ⟨agrees, verdict, held⟩ := holds source
  by_cases own : event.fact.sourceID = source
  · subst own
    refine
      ⟨decide (event.fact.lifecycle = ownerSays component events), ?_, ?_⟩
    · rw [agreesLast_concat, if_pos speaks, decide_eq_true_eq]
    · rw [under_putCorroboration, opinionOf_source, if_pos rfl, held,
        lastOpinion_concat, if_pos speaks]
      cases lastOpinion component event.fact.sourceID events with
      | none =>
          simp [Nat.not_le.mpr room]
      | some earlier =>
          rfl
  · have silent : corroborates component source event = false := by
      simp [corroborates, own]
    refine ⟨agrees, ?_, ?_⟩
    · rw [verdict, agreesLast_concat, if_neg (by simp [silent])]
    · rw [under_putCorroboration, opinionOf_source, if_neg own, held,
        lastOpinion_concat, if_neg (by simp [silent])]

/-- A fold from nothing holds every source's last opinion. -/
theorem foldComponents_holdsOpinions
    (component : Component) {events : List Event}
    (genuine : ∀ event ∈ events, event.Genuine) :
    HoldsOpinions component events
      (events.foldl foldComponents ComponentRecord.unobserved
        component).corroborations := by
  induction events using List.reverseRecOn with
  | nil =>
      intro source
      refine ⟨false, ?_, rfl⟩
      simp [AgreesLast]
  | append_singleton events event inductionHypothesis =>
      have earlier : ∀ event ∈ events, event.Genuine := fun other member =>
        genuine other (List.mem_append_left _ member)
      have holds := inductionHypothesis earlier
      have observed := observed_eq_ownerSays component events
      rw [List.foldl_append, List.foldl_cons, List.foldl_nil]
      generalize events.foldl foldComponents ComponentRecord.unobserved =
        table at holds observed ⊢
      unfold foldComponents
      by_cases accepted : event.acceptance.outcome = .accepted
      · rw [if_pos accepted, Function.update_apply]
        by_cases about : component = event.fact.component
        · subst about
          rw [if_pos rfl]
          by_cases authoritative : event.acceptance.role = .authoritative
          · rw [if_neg (by simp [authoritative])]
            exact
              holds.frame fun source => by simp [corroborates, authoritative]
          · rw [if_pos authoritative]
            simp only [addCorroboration, observed]
            exact holds.put earlier (by
              simp [corroborates, accepted, authoritative])
        · rw [if_neg about]
          exact
            holds.frame fun source => by
              simp [corroborates, Ne.symm about]
      · rw [if_neg accepted]
        exact holds.frame fun source => by simp [corroborates, accepted]

/-- Both batches decide every stream alike. -/
def SameStreams (left right : List Event) : Prop :=
  ∀ id : SourceID, stream id left = stream id right

/-- What an event of its source makes of a watermark. -/
def watermarkAfter (held : Option SourceWatermark) (event : Event) :
    Option SourceWatermark :=
  if event.acceptance.outcome = .accepted ∨
      event.acceptance.outcome = .conflict then
    let watermark :=
      held.getD
        { source := event.fact.sourceID
          domain := event.fact.domain
          role := event.acceptance.role
          bootID := event.fact.bootID }
    some
      (adoptIntegrity { watermark with role := event.acceptance.role } event)
  else
    held

theorem SameStreams.foldSources_eq
    {left right : List Event} (same : SameStreams left right)
    (sources : SourceTable) :
    left.foldl foldSources sources = right.foldl foldSources sources := by
  apply Std.ExtTreeMap.ext_getElem?
  intro id
  have viewed :
      ∀ events : List Event,
        (events.foldl foldSources sources)[id]? =
          (stream id events).foldl watermarkAfter sources[id]? := by
    intro events
    rw [Accept.foldl_stream (fun _ _ => rfl)]
    refine
      foldl_view (fun table : SourceTable => table[id]?) ?_ ?_ sources
    · intro table event _ own
      rw [foldSources_getElem?]
      obtain rfl : event.fact.sourceID = id := by simpa using own
      simp only [and_true, watermarkAfter, watermarkFor]
    · intro table event _ other
      rw [foldSources_getElem?, if_neg]
      rintro ⟨_, own⟩
      simp [own] at other
  rw [viewed left, viewed right, same id]

theorem SameStreams.foldConflicts_eq
    {left right : List Event} (same : SameStreams left right)
    (conflicts : ConflictTable) :
    left.foldl foldConflicts conflicts =
      right.foldl foldConflicts conflicts := by
  apply Std.ExtTreeMap.ext_getElem?
  intro key
  have viewed :
      ∀ events : List Event,
        (events.foldl foldConflicts conflicts)[key]? =
          (stream key.source events).foldl
            (fun held event => refusalAfter event key held)
            conflicts[key]? := by
    intro events
    rw [Accept.foldl_stream (fun _ _ => rfl)]
    refine
      foldl_view (fun table : ConflictTable => table[key]?) ?_ ?_ conflicts
    · intro table event _ _
      exact foldConflicts_getElem? table event key
    · intro table event _ other
      have foreign : event.fact.sourceID ≠ key.source := by
        simpa using other
      rw [foldConflicts_getElem?]
      unfold refusalAfter
      split
      · rw [if_neg fun clears => foreign clears.2.1.symm]
      · rw [if_neg fun refused =>
          foreign (congrArg ConflictKey.source refused.2)]
  rw [viewed left, viewed right, same key.source]

/-- A record without its opinions and without its place in the order. -/
def settled (record : ComponentRecord) : ComponentRecord :=
  { record with
    hostSequence := if record.hostSequence = 0 then 0 else 1
    corroborations := [] }

/-- What a statement of the owner makes of a settled record. -/
def settledAfter (record : ComponentRecord) (event : Event) :
    ComponentRecord :=
  { observe record event with hostSequence := 1, corroborations := [] }

theorem foldComponents_settled
    (component : Component) {events : List Event}
    (genuine : ∀ event ∈ events, event.Genuine) (table : ComponentTable) :
    settled (events.foldl foldComponents table component) =
      (events.filter (speaksFor component)).foldl settledAfter
        (settled (table component)) := by
  refine
    foldl_view (fun table : ComponentTable => settled (table component)) ?_ ?_
      table
  · intro table event member speaks
    simp only [speaksFor, Bool.and_eq_true, decide_eq_true_eq] at speaks
    obtain ⟨⟨accepted, authoritative⟩, rfl⟩ := speaks
    have placed := (genuine event member).placed accepted
    simp [foldComponents, accepted, authoritative, settled, settledAfter,
      observe, placed]
  · intro table event _ silent
    unfold foldComponents
    split
    · rename_i accepted
      rw [Function.update_apply]
      split
      · rename_i own
        subst own
        rw [if_pos fun authoritative => by
          simp [speaksFor, accepted, authoritative] at silent]
        rfl
      · rfl
    · rfl

/-- The owner of a component. -/
def ownerOf (component : Component) : SourceID :=
  ((connectivityAuthority component).map (·.source)).getD ""

theorem sourceID_of_speaksFor
    {component : Component} {event : Event} (genuine : event.Genuine)
    (speaks : speaksFor component event = true) :
    event.fact.sourceID = ownerOf component := by
  obtain ⟨declaration, found, role⟩ := genuine.classified
  simp only [speaksFor, Bool.and_eq_true, decide_eq_true_eq] at speaks
  obtain ⟨⟨_, authoritative⟩, rfl⟩ := speaks
  have listed := List.mem_of_find?_eq_some found
  have named := List.find?_some found
  simp only [Bool.and_eq_true, decide_eq_true_eq] at named
  rw [← named.1, ← named.2]
  have envelope :
      ∀ declaration ∈ connectivitySources,
        declaration.role = .authoritative →
          declaration.source = ownerOf declaration.component := by
    decide
  exact envelope declaration listed (role.trans authoritative)

/-- The statements of an owner are part of its stream. -/
theorem foldl_speaksFor
    {component : Component} {events : List Event}
    (genuine : ∀ event ∈ events, event.Genuine) (record : ComponentRecord) :
    (events.filter (speaksFor component)).foldl settledAfter record =
      ((stream (ownerOf component) events).filter
        (speaksFor component)).foldl settledAfter record := by
  have owned :
      events.filter (speaksFor component) =
        (events.filter (·.fact.sourceID = ownerOf component)).filter
          (speaksFor component) := by
    rw [List.filter_filter]
    apply List.filter_congr
    intro event member
    cases speaks : speaksFor component event with
    | false =>
        rfl
    | true =>
        simp [sourceID_of_speaksFor (genuine event member) speaks]
  rw [stream, List.filter_map, List.foldl_map, owned]
  rfl

theorem SameStreams.settled_eq
    {left right : List Event} (same : SameStreams left right)
    (leftGenuine : ∀ event ∈ left, event.Genuine)
    (rightGenuine : ∀ event ∈ right, event.Genuine)
    (table : ComponentTable) (component : Component) :
    settled (left.foldl foldComponents table component) =
      settled (right.foldl foldComponents table component) := by
  rw [foldComponents_settled component leftGenuine,
    foldComponents_settled component rightGenuine,
    foldl_speaksFor leftGenuine, foldl_speaksFor rightGenuine,
    same (ownerOf component)]

/-- Last opinions agree up to their places. -/
theorem SameStreams.lastOpinion_eq
    {left right : List Event} (same : SameStreams left right)
    (component : Component) (source : SourceID) :
    (lastOpinion component source left).map Event.unplaced =
      (lastOpinion component source right).map Event.unplaced := by
  have inside :
      ∀ events : List Event,
        (lastOpinion component source events).map Event.unplaced =
          ((stream source events).filter
            (corroborates component source)).getLast? := by
    intro events
    have owned :
        events.filter (corroborates component source) =
          (events.filter (·.fact.sourceID = source)).filter
            (corroborates component source) := by
      rw [List.filter_filter]
      apply List.filter_congr
      intro event _
      simp [corroborates]
    rw [stream, List.filter_map, List.getLast?_map, lastOpinion, owned]
    rfl
  rw [inside left, inside right, same source]

/-- A record's opinions as the projection shows them. -/
def semanticOpinions (entries : List Corroboration) :
    List SemanticCorroboration :=
  (sortedCorroborations entries).map fun entry =>
    ⟨entry.source, entry.lifecycle, entry.agrees⟩

theorem semanticOpinions_filter
    (entries : List Corroboration) (source : SourceID) :
    (semanticOpinions entries).filter (·.source = source) =
      (under Corroboration.source source entries).map fun entry =>
        ⟨entry.source, entry.lifecycle, entry.agrees⟩ := by
  rw [semanticOpinions, List.filter_map, ← under_sortBy]
  rfl

theorem AgreesLast.lastOpinion_ne_none
    {component : Component} {source : SourceID} {events : List Event}
    (agrees : AgreesLast component source events) :
    lastOpinion component source events ≠ none := by
  obtain ⟨before, opinion, after, rfl, speaks, _⟩ := agrees
  intro silent
  rw [lastOpinion, List.getLast?_eq_none_iff, List.filter_eq_nil_iff]
    at silent
  exact silent opinion (by simp) speaks

/-- The projection shows the same opinions exactly when every source's last
opinion met the same verdict. -/
theorem semanticOpinions_eq_iff
    {component : Component} {left right : List Event}
    {leftEntries rightEntries : List Corroboration}
    (same : SameStreams left right)
    (leftHolds : HoldsOpinions component left leftEntries)
    (rightHolds : HoldsOpinions component right rightEntries) :
    semanticOpinions leftEntries = semanticOpinions rightEntries ↔
      ∀ source,
        AgreesLast component source left ↔
          AgreesLast component source right := by
  constructor
  · intro shown source
    have last := same.lastOpinion_eq component source
    have listed :=
      congrArg (List.filter fun entry => decide (entry.source = source)) shown
    obtain ⟨leftAgrees, leftVerdict, leftHeld⟩ := leftHolds source
    obtain ⟨rightAgrees, rightVerdict, rightHeld⟩ := rightHolds source
    rw [semanticOpinions_filter, semanticOpinions_filter, leftHeld,
      rightHeld] at listed
    rw [← leftVerdict, ← rightVerdict]
    cases leftLast : lastOpinion component source left with
    | none =>
        have rightLast : lastOpinion component source right = none := by
          simpa [leftLast] using last.symm
        rw [leftVerdict, rightVerdict]
        exact
          iff_of_false (fun agrees => agrees.lastOpinion_ne_none leftLast)
            fun agrees => agrees.lastOpinion_ne_none rightLast
    | some opinion =>
        obtain ⟨other, rightLast, _⟩ :
            ∃ other, lastOpinion component source right = some other ∧
              other.unplaced = opinion.unplaced := by
          rw [leftLast, Option.map_some] at last
          exact Option.map_eq_some_iff.mp last.symm
        have verdicts : leftAgrees = rightAgrees := by
          simp only [leftLast, rightLast, Option.map_some, Option.toList_some,
            List.map_cons, List.map_nil, List.cons.injEq, and_true,
            SemanticCorroboration.mk.injEq, opinionOf] at listed
          exact listed.2.2
        rw [verdicts]
  · intro agreed
    refine congrArg (List.map _) (sortBy_eq_iff.mpr ?_)
    intro source
    obtain ⟨leftAgrees, leftVerdict, leftHeld⟩ := leftHolds source
    obtain ⟨rightAgrees, rightVerdict, rightHeld⟩ := rightHolds source
    have verdicts : leftAgrees = rightAgrees := by
      rw [Bool.eq_iff_iff, leftVerdict, rightVerdict]
      exact agreed source
    have last :=
      congrArg (Option.map (opinionOf · rightAgrees))
        (same.lastOpinion_eq component source)
    rw [Option.map_map, Option.map_map] at last
    rw [leftHeld, rightHeld, verdicts]
    exact congrArg Option.toList last

/-- A record is projected from its settled form and its opinions. -/
theorem projectComponent_renderComponent
    (sources : SourceTable) (bootID : String) (evaluationTick : Tick)
    (record : ComponentRecord) :
    projectComponent (renderComponent sources bootID evaluationTick record) =
      { projectComponent
          (renderComponent sources bootID evaluationTick
            (settled record)) with
        corroborations := semanticOpinions record.corroborations } := by
  by_cases unplaced : record.hostSequence = 0
  · simp [projectComponent, renderComponent, deriveState, settled, unplaced,
      semanticOpinions]
  · simp [projectComponent, renderComponent, deriveState, settled, unplaced,
      semanticOpinions]

theorem renderComponent_state
    (sources : SourceTable) (bootID : String) (evaluationTick : Tick)
    (record : ComponentRecord) :
    (renderComponent sources bootID evaluationTick record).state =
      (renderComponent sources bootID evaluationTick
        (settled record)).state :=
  congrArg SemanticComponent.state
    (projectComponent_renderComponent sources bootID evaluationTick record)

/-- The summary counts states and nothing else of a component. -/
theorem summarize_congr
    {left right : List ComponentRecord}
    (states : left.map (·.state) = right.map (·.state))
    (watermarks : List SourceWatermark) (authorization : Authorization)
    (reason : AuthorizationReason) (conflictOverflow : Bool) :
    summarize left watermarks authorization reason conflictOverflow =
      summarize right watermarks authorization reason conflictOverflow := by
  have counted :
      ∀ state : ComponentState,
        left.countP (·.state = state) = right.countP (·.state = state) := by
    intro state
    have counts :
        ∀ records : List ComponentRecord,
          records.countP (·.state = state) =
            (records.map (·.state)).countP (· = state) := by
      intro records
      rw [List.countP_map]
      rfl
    rw [counts left, counts right, states]
  simp only [summarize, counted]

/-- A reduction on a fresh host. -/
def freshInput
    (policy : PolicyDescriptor) (policyComponents : List ComponentPolicy)
    (bootID : String) (evaluationTick : Tick) (wake : Option Wake)
    (events : List Event) : Input :=
  { prior := none
    events := events
    policy := policy
    policyComponents := policyComponents
    bootID := bootID
    evaluationTick := evaluationTick
    wake := wake }

/-- On a fresh host there is nothing to mark. -/
theorem start_freshInput
    (policy : PolicyDescriptor) (policyComponents : List ComponentPolicy)
    (bootID : String) (evaluationTick : Tick) (wake : Option Wake)
    (events : List Event) :
    start
        (freshInput policy policyComponents bootID evaluationTick wake
          events) =
      { components := ComponentRecord.unobserved
        sources := ∅
        conflicts := ∅
        consumed := 0
        folded := 0 } := by
  have unmarked :
      markRebaseline ComponentRecord.unobserved
          (freshInput policy policyComponents bootID evaluationTick wake
            events) =
        ComponentRecord.unobserved := by
    unfold markRebaseline
    split
    · rfl
    · funext component
      simp [ComponentRecord.unobserved]
  simp only [start, freshInput, newComponentTable, newSourceTable,
    newConflictTable] at unmarked ⊢
  rw [unmarked]

section Interleavings

variable {policy : PolicyDescriptor} {policyComponents : List ComponentPolicy}
  {bootID : String} {evaluationTick : Tick} {wake : Option Wake}
  {hashes : Hashes} {left right : List Event}
  {leftOutput rightOutput : Output}

theorem project_freshInput
    (reduces :
      reduce hashes
          (freshInput policy policyComponents bootID evaluationTick wake
            left) =
        .ok leftOutput) :
    project leftOutput.snapshot =
      projected
        (freshInput policy policyComponents bootID evaluationTick wake [])
        (renderComponents
          (left.foldl foldComponents ComponentRecord.unobserved)
          (left.foldl foldSources ∅) bootID evaluationTick)
        (renderSources (left.foldl foldSources ∅))
        (renderConflicts (left.foldl foldConflicts ∅))
        (authorize policy none) := by
  obtain ⟨tables, reduced⟩ := reduce_eq_ok_iff.mp reduces
  rw [reduced.snapshot, project_stamp, reduced.tables_eq,
    Tables.afterAll_components, Tables.afterAll_sources,
    Tables.afterAll_conflicts, start_freshInput]
  rfl

/-- Reductions of the same streams mean the same exactly when every source's
last opinion met the same verdict. -/
theorem project_eq_iff_of_sameStreams
    (same : SameStreams left right)
    (leftGenuine : ∀ event ∈ left, event.Genuine)
    (rightGenuine : ∀ event ∈ right, event.Genuine)
    (leftReduces :
      reduce hashes
          (freshInput policy policyComponents bootID evaluationTick wake
            left) =
        .ok leftOutput)
    (rightReduces :
      reduce hashes
          (freshInput policy policyComponents bootID evaluationTick wake
            right) =
        .ok rightOutput) :
    project leftOutput.snapshot = project rightOutput.snapshot ↔
      ∀ component source,
        AgreesLast component source left ↔
          AgreesLast component source right := by
  rw [project_freshInput leftReduces, project_freshInput rightReduces,
    same.foldSources_eq, same.foldConflicts_eq]
  generalize right.foldl foldSources ∅ = sources
  generalize renderConflicts (right.foldl foldConflicts ∅) = refusals
  have settledSame :=
    same.settled_eq leftGenuine rightGenuine ComponentRecord.unobserved
  have opinions : ∀ component,
      semanticOpinions
            (left.foldl foldComponents ComponentRecord.unobserved
              component).corroborations =
          semanticOpinions
            (right.foldl foldComponents ComponentRecord.unobserved
              component).corroborations ↔
        ∀ source,
          AgreesLast component source left ↔
            AgreesLast component source right := fun component =>
    semanticOpinions_eq_iff same
      (foldComponents_holdsOpinions component leftGenuine)
      (foldComponents_holdsOpinions component rightGenuine)
  generalize left.foldl foldComponents ComponentRecord.unobserved =
    leftTable at settledSame opinions ⊢
  generalize right.foldl foldComponents ComponentRecord.unobserved =
    rightTable at settledSame opinions ⊢
  have states :
      (renderComponents leftTable sources bootID evaluationTick).map
          (·.state) =
        (renderComponents rightTable sources bootID evaluationTick).map
          (·.state) := by
    simp only [renderComponents, List.map_map]
    apply List.map_congr_left
    intro component _
    simp only [Function.comp_apply]
    rw [renderComponent_state, settledSame component,
      ← renderComponent_state]
  constructor
  · intro equal component
    have records := congrArg Semantic.components equal
    simp only [projected, renderComponents, List.map_map] at records
    have own :=
      List.map_inj_left.mp records component (mem_components component)
    apply (opinions component).mp
    rw [Function.comp_apply, Function.comp_apply,
      projectComponent_renderComponent _ _ _ (leftTable component),
      projectComponent_renderComponent _ _ _ (rightTable component)] at own
    exact congrArg SemanticComponent.corroborations own
  · intro agreed
    have records :
        (renderComponents leftTable sources bootID evaluationTick).map
            projectComponent =
          (renderComponents rightTable sources bootID evaluationTick).map
            projectComponent := by
      simp only [renderComponents, List.map_map]
      apply List.map_congr_left
      intro component _
      rw [Function.comp_apply, Function.comp_apply,
        projectComponent_renderComponent _ _ _ (leftTable component),
        projectComponent_renderComponent _ _ _ (rightTable component),
        settledSame component, (opinions component).mpr (agreed component)]
    unfold projected
    rw [records, summarize_congr states]

end Interleavings

theorem acceptAll_genuine
    (digest : Fact → Option String) (arrivals : List Arrival) :
    ∀ event ∈ (acceptAll digest State.new arrivals).1, event.Genuine := by
  rw [Accept.acceptAll_eq_orderAll]
  exact Accept.orderAll_genuine fun _ member => Accept.screened_sound member

/-- Whether a fresh host can be reduced does not depend on its events. -/
theorem freshInput_succeeds
    {hashes : Hashes} (total : hashes.Total)
    {policy : PolicyDescriptor} {policyComponents : List ComponentPolicy}
    {bootID : String} {evaluationTick : Tick} {wake : Option Wake}
    {events : List Event} {output : Output}
    (reduces :
      reduce hashes
          (freshInput policy policyComponents bootID evaluationTick wake
            events) =
        .ok output)
    (digest : Fact → Option String) (arrivals : List Arrival) :
    ∃ other,
      reduce hashes
          (freshInput policy policyComponents bootID evaluationTick wake
            (acceptAll digest State.new arrivals).1) =
        .ok other := by
  obtain ⟨tables, reduced⟩ := reduce_eq_ok_iff.mp reduces
  obtain ⟨_, context, wakes, _⟩ :=
    validateInput_eq_ok_iff.mp reduced.input_valid
  have sound : ∀ item ∈ Accept.screened digest arrivals, item.Sound :=
    fun _ member => Accept.screened_sound member
  have valid :
      validateInput
          (freshInput policy policyComponents bootID evaluationTick wake
            (acceptAll digest State.new arrivals).1) = .ok () := by
    refine validateInput_eq_ok_iff.mpr ⟨by simp [freshInput], context, wakes, ?_⟩
    intro event member
    have genuine := acceptAll_genuine digest arrivals event member
    exact ⟨genuine.valid, genuine.offered⟩
  have ordered :
      InOrder 0 0 (acceptAll digest State.new arrivals).1 := by
    rw [Accept.acceptAll_eq_orderAll]
    exact (orderAll_inOrder State.new sound).1
  have contained :
      EventsContained (acceptAll digest State.new arrivals).1 := by
    rw [Accept.acceptAll_eq_orderAll]
    exact orderAll_contained sound Accept.State.new_wellFormed
  obtain ⟨other, otherReduced⟩ :=
    reduce_succeeds total valid (by rwa [start_freshInput]) contained
      reduced.desired
  exact ⟨other, reduce_eq_ok_iff.mpr ⟨_, otherReduced⟩⟩

/-- Interleavings of the same streams mean the same exactly when every
corroborating source's last opinion about a component met the same verdict:
it agrees in both with what the owner had said by then, or in neither. -/
theorem interleavings_project_eq_iff
    (hashes : Hashes) (digest : Fact → Option String)
    (left right : List Arrival) (policy : PolicyDescriptor)
    (policyComponents : List ComponentPolicy) (bootID : String)
    (evaluationTick : Tick) (wake : Option Wake) (leftOutput : Output)
    (interleaved : Interleaved left right)
    (reduces :
      reduce hashes
          (freshInput policy policyComponents bootID evaluationTick wake
            (acceptAll digest State.new left).1) =
        .ok leftOutput) :
    (hashes.Total →
      ∃ rightOutput,
        reduce hashes
            (freshInput policy policyComponents bootID evaluationTick wake
              (acceptAll digest State.new right).1) =
          .ok rightOutput) ∧
      ∀ rightOutput,
        reduce hashes
            (freshInput policy policyComponents bootID evaluationTick wake
              (acceptAll digest State.new right).1) =
            .ok rightOutput →
          (project leftOutput.snapshot = project rightOutput.snapshot ↔
            ∀ component source,
              AgreesLast component source
                  (acceptAll digest State.new left).1 ↔
                AgreesLast component source
                  (acceptAll digest State.new right).1) := by
  refine
    ⟨fun total => freshInput_succeeds total reduces digest right, ?_⟩
  intro rightOutput rightReduces
  exact
    project_eq_iff_of_sameStreams
      (fun id => interleaved.stream_eq digest State.new id)
      (acceptAll_genuine digest left) (acceptAll_genuine digest right)
      reduces rightReduces

/-- The owner and the probe of one component say the same. -/
def ownerFirst : List Arrival :=
  [(fixtureBaseline .dns 1, .root), (probeBaseline .dns 1, .root)]

def probeFirst : List Arrival :=
  [(probeBaseline .dns 1, .root), (fixtureBaseline .dns 1, .root)]

theorem ownerFirst_interleaved : Interleaved ownerFirst probeFirst :=
  Accept.interleaved_swap (by decide) []

/-- Both orders reduced on a fresh host. -/
def reduceArrivals (arrivals : List Arrival) : Except ReduceError Output :=
  reduce (fixtureHashes fun semantic => semantic.sources.length)
    (freshInput (fixturePolicy 1) [] fixtureBootID 1010 none
      (acceptAll (fun fact => some fact.eventID) State.new arrivals).1)

def probeAgrees (output : Output) : Bool :=
  output.snapshot.components.any fun record =>
    record.corroborations.any (·.agrees)

theorem ownerFirst_agrees :
    yields (reduceArrivals ownerFirst) probeAgrees = true := by
  decide +kernel

theorem probeFirst_disagrees :
    yields (reduceArrivals probeFirst) (fun output => !probeAgrees output) =
      true := by
  decide +kernel

/-- The same two statements mean different things in the two orders: the
probe agrees with its owner only when it comes second. -/
theorem interleaving_changes_agreement :
    Interleaved ownerFirst probeFirst ∧
      ∃ leftOutput rightOutput,
        reduceArrivals ownerFirst = .ok leftOutput ∧
          reduceArrivals probeFirst = .ok rightOutput ∧
            project leftOutput.snapshot ≠ project rightOutput.snapshot := by
  obtain ⟨leftOutput, leftReduces, agrees⟩ :=
    exists_of_yields _ probeAgrees ownerFirst_agrees
  obtain ⟨rightOutput, rightReduces, disagrees⟩ :=
    exists_of_yields _ (fun output => !probeAgrees output)
      probeFirst_disagrees
  refine
    ⟨ownerFirst_interleaved, leftOutput, rightOutput, leftReduces,
      rightReduces, ?_⟩
  intro same
  have shown :
      ∀ output : Output,
        probeAgrees output =
          (project output.snapshot).components.any fun record =>
            record.corroborations.any (·.agrees) := by
    intro output
    simp [probeAgrees, project, projectComponent, List.any_map,
      Function.comp_def]
  rw [shown, same, ← shown] at agrees
  rw [agrees] at disagrees
  exact Bool.noConfusion disagrees

theorem interleavings_project_eq_iff_owner_and_probe :
    ∃ leftOutput rightOutput,
      reduceArrivals ownerFirst = .ok leftOutput ∧
        reduceArrivals probeFirst = .ok rightOutput ∧
          (project leftOutput.snapshot = project rightOutput.snapshot ↔
            ∀ component source,
              AgreesLast component source
                  (acceptAll (fun fact => some fact.eventID) State.new
                    ownerFirst).1 ↔
                AgreesLast component source
                  (acceptAll (fun fact => some fact.eventID) State.new
                    probeFirst).1) := by
  obtain ⟨leftOutput, leftReduces, _⟩ :=
    exists_of_yields _ probeAgrees ownerFirst_agrees
  obtain ⟨rightOutput, rightReduces, _⟩ :=
    exists_of_yields _ (fun output => !probeAgrees output)
      probeFirst_disagrees
  exact
    ⟨leftOutput, rightOutput, leftReduces, rightReduces,
      (interleavings_project_eq_iff _ _ ownerFirst probeFirst _ _ _ _ _
        leftOutput ownerFirst_interleaved leftReduces).2 rightOutput
        rightReduces⟩

end Hexroute.Reduce
