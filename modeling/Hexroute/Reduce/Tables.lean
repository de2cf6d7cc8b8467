import Hexroute.Lib.Order
import Hexroute.Lib.StableSort
import Hexroute.Lib.Table
import Hexroute.Reduce.Proposal

/-!
# What a reduction accumulates

A reduction works on three tables read from its prior snapshot: one record
per component, one watermark per source and one refusal per conflicting
position.  Go keeps them in maps and sorts when it renders; the ordered maps
here are listed in the order Go sorts into.
-/

namespace Hexroute.Reduce

open Hexroute.Connectivity
open Hexroute.Safety
open Hexroute.Lib
open Hexroute.Accept (Event)

/-- Always complete: every component has a record. -/
abbrev ComponentTable := Component → ComponentRecord

/-- The record of a component nobody has spoken about. -/
def ComponentRecord.unobserved (component : Component) : ComponentRecord :=
  let owner := connectivityAuthority component
  { component := component
    state := .unknown
    domain := (owner.map (·.domain)).getD .root
    source := (owner.map (·.source)).getD ""
    observed := .unknown
    reason := .none
    payload := {}
    bootID := ""
    monotonicTick := 0
    freshnessDeadline := 0
    hostSequence := 0
    hasBaseline := false
    rebaselineRequired := false
    conflicts := 0
    corroborations := [] }

def newComponentTable (prior : Option Snapshot) : ComponentTable :=
  match prior with
  | none => ComponentRecord.unobserved
  | some snapshot =>
      snapshot.components.foldl
        (fun table record => Function.update table record.component record)
        ComponentRecord.unobserved

abbrev SourceTable := Std.ExtTreeMap SourceID SourceWatermark

def newSourceTable (prior : Option Snapshot) : SourceTable :=
  match prior with
  | none => ∅
  | some snapshot => tableOf SourceWatermark.source snapshot.sources

structure ConflictKey where
  source : SourceID
  component : Component
  sequence : Nat
  deriving DecidableEq, Repr

/-- Keys are ordered by source, then component, then sequence. -/
instance : LinearOrder ConflictKey :=
  LinearOrder.lift'
    (fun key => toLex (key.source, toLex (key.component, key.sequence)))
    (by
      rintro ⟨_, _, _⟩ ⟨_, _, _⟩ same
      simpa using same)

instance : Std.TransOrd ConflictKey :=
  inferInstance

abbrev ConflictTable := Std.ExtTreeMap ConflictKey ConflictRecord

def ConflictRecord.key (record : ConflictRecord) : ConflictKey :=
  ⟨record.source, record.component, record.sequence⟩

/-- Sequence orders age inside one stream, and the component breaks ties. -/
def ConflictKey.age (key : ConflictKey) : Nat ×ₗ Component :=
  toLex (key.sequence, key.component)

def newConflictTable (prior : Option Snapshot) : ConflictTable :=
  match prior with
  | none => ∅
  | some snapshot => tableOf ConflictRecord.key snapshot.conflicts

/-- The watermark of the event's source, fresh when the source is new. -/
def watermarkFor (sources : SourceTable) (event : Event) : SourceWatermark :=
  (sources[event.fact.sourceID]?).getD
    { source := event.fact.sourceID
      domain := event.fact.domain
      role := event.acceptance.role
      bootID := event.fact.bootID }

/-- Take the acceptor's decision about a stream verbatim. -/
def adoptIntegrity
    (watermark : SourceWatermark) (event : Event) : SourceWatermark :=
  { watermark with toSourceIntegrity := event.acceptance.source }

/-- The source part common to accepted and conflicting arrivals. -/
def adoptSource (sources : SourceTable) (event : Event) : SourceTable :=
  sources.insert event.fact.sourceID
    (adoptIntegrity
      { watermarkFor sources event with role := event.acceptance.role } event)

/-- Put the entry in the place of its source's first opinion. -/
def replaceFirst (entry : Corroboration) :
    List Corroboration → List Corroboration
  | [] => []
  | head :: tail =>
      if head.source = entry.source then entry :: tail
      else head :: replaceFirst entry tail

/-- Replace the first opinion of the same source; without one, append while
the list is inside its bound. -/
def putCorroboration
    (entry : Corroboration) (entries : List Corroboration) :
    List Corroboration :=
  if entries.any (·.source = entry.source) then
    replaceFirst entry entries
  else if entries.length ≥ maxCorroborations then
    entries
  else
    entries ++ [entry]

def addCorroboration
    (record : ComponentRecord) (event : Event) : ComponentRecord :=
  { record with
    corroborations :=
      putCorroboration
        { source := event.fact.sourceID
          lifecycle := event.fact.lifecycle
          reason := event.fact.reason
          agrees := decide (event.fact.lifecycle = record.observed)
          monotonicTick := event.fact.monotonicTick }
        record.corroborations }

/-- What the owner's fact makes of its component's record. -/
def observe (record : ComponentRecord) (event : Event) : ComponentRecord :=
  { record with
    observed := event.fact.lifecycle
    reason := event.fact.reason
    payload := event.fact.payload
    bootID := event.fact.bootID
    monotonicTick := event.fact.monotonicTick
    freshnessDeadline := event.fact.freshnessDeadline
    hostSequence := event.acceptance.hostSequence
    hasBaseline := event.fact.baseline || record.hasBaseline
    rebaselineRequired :=
      !event.fact.baseline && record.rebaselineRequired }

def clearComponentConflicts
    (conflicts : ConflictTable) (source : SourceID) (component : Component) :
    ConflictTable :=
  conflicts.filter fun key _ =>
    !(key.source = source && key.component = component)

/-- Count a refusal against its position. -/
def countConflict
    (conflicts : ConflictTable) (event : Event) : ConflictTable :=
  let key : ConflictKey :=
    ⟨event.fact.sourceID, event.fact.component, event.fact.sourceSequence⟩
  match conflicts[key]? with
  | some existing =>
      conflicts.insert key { existing with count := existing.count + 1 }
  | none =>
      conflicts.insert key
        { source := event.fact.sourceID
          component := event.fact.component
          sequence := event.fact.sourceSequence
          reason := event.acceptance.reason
          count := 1 }

/-- Everything a reduction accumulates while it folds its batch. -/
structure Tables where
  components : ComponentTable
  sources : SourceTable
  conflicts : ConflictTable
  consumed : Nat
  folded : Nat

def applyAccepted (tables : Tables) (event : Event) : Tables :=
  let record := tables.components event.fact.component
  { tables with
    components :=
      Function.update tables.components event.fact.component
        (if event.acceptance.role ≠ .authoritative then
          addCorroboration record event
        else
          observe record event)
    sources := adoptSource tables.sources event
    conflicts :=
      if event.fact.baseline then
        clearComponentConflicts tables.conflicts event.fact.sourceID
          event.fact.component
      else
        tables.conflicts }

def applyConflict (tables : Tables) (event : Event) : Tables :=
  { tables with
    sources := adoptSource tables.sources event
    conflicts := countConflict tables.conflicts event }

/-- Fold one event.  Every event moves the folded watermark; only an accepted
one moves the consumed watermark. -/
def foldEvent (tables : Tables) (event : Event) :
    Except ReduceError Tables := do
  refuse (event.acceptance.foldPosition ≠ tables.folded + 1)
    (.foldOutOfOrder (tables.folded + 1) event.acceptance.foldPosition)
  let moved := { tables with folded := event.acceptance.foldPosition }
  match event.acceptance.outcome with
  | .accepted => do
      refuse (event.acceptance.hostSequence ≠ tables.consumed + 1)
        (.hostOutOfOrder (tables.consumed + 1) event.acceptance.hostSequence)
      pure
        (applyAccepted
          { moved with consumed := event.acceptance.hostSequence } event)
  | .conflict => pure (applyConflict moved event)
  | .duplicate => pure moved
  | .stale => pure moved
  | .rejected => throw (.invalidInput "outcome")

/-- Fold a batch in order. -/
def foldEvents (tables : Tables) : List Event → Except ReduceError Tables
  | [] => pure tables
  | event :: rest => do
      let next ← foldEvent tables event
      foldEvents next rest

/-- The newest refusals of one source, oldest first. -/
def newestRefusals (records : List ConflictRecord) : List ConflictRecord :=
  let ordered := sortBy (fun record => record.key.age) records
  ordered.drop (ordered.length - maxConflictRecords)

/-- Order retained refusals and hold each source inside the bound; the flag
says that something was evicted. -/
def renderConflicts (conflicts : ConflictTable) :
    List ConflictRecord × Bool :=
  let records := values conflicts
  let sources := (records.map (·.source)).dedup
  let bySource (source : SourceID) := records.filter (·.source = source)
  (sortBy ConflictRecord.key
      (sources.flatMap fun source => newestRefusals (bySource source)),
    sources.any fun source =>
      decide ((bySource source).length > maxConflictRecords))

/-- List a watermark's holes and debts in order. -/
def renderWatermark (watermark : SourceWatermark) : SourceWatermark :=
  { watermark with
    gaps := sortBy Accept.GapRange.fromSequence watermark.gaps
    pendingBaseline := watermark.pendingBaseline.insertionSort (· ≤ ·) }

def renderSources (sources : SourceTable) : List SourceWatermark :=
  (values sources).map renderWatermark

/-- Where the aggregate draws the conclusions a source may not draw about
itself. -/
def deriveState
    (record : ComponentRecord) (bootID : String) (evaluationTick : Tick) :
    ComponentState :=
  if record.observed = .unknown ∧ record.hostSequence = 0 then
    .unknown
  else if record.conflicts > 0 then
    .conflict
  else if record.bootID ≠ bootID then
    .stale
  else if record.rebaselineRequired then
    .stale
  else if evaluationTick > record.freshnessDeadline then
    .stale
  else
    match record.observed with
    | .ready => .ready
    | .degraded => .degraded
    | .failed => .failed
    | .notApplicable => .notApplicable
    | .unknown => .unknown

def sortedCorroborations
    (entries : List Corroboration) : List Corroboration :=
  sortBy Corroboration.source entries

/-- How many refusals the component's owner has outstanding. -/
def ownerConflicts (sources : SourceTable) (owner : SourceID) : UInt32 :=
  match sources[owner]? with
  | some watermark => watermark.conflicts
  | none => 0

def renderComponent
    (sources : SourceTable) (bootID : String) (evaluationTick : Tick)
    (record : ComponentRecord) : ComponentRecord :=
  let counted :=
    { record with conflicts := ownerConflicts sources record.source }
  { counted with
    state := deriveState counted bootID evaluationTick
    corroborations := sortedCorroborations record.corroborations }

/-- Every component in the fixed order, always complete. -/
def renderComponents
    (table : ComponentTable) (sources : SourceTable) (bootID : String)
    (evaluationTick : Tick) : List ComponentRecord :=
  components.map fun component =>
    renderComponent sources bootID evaluationTick (table component)

end Hexroute.Reduce
