import Hexroute.Lib.AppendNew
import Hexroute.Safety.Connectivity

/-!
# The acceptor

The acceptor gives every arrival a place in one durable host order, or says
why it has none.  An exact retry is a duplicate, a reused identity with other
content is a conflict, and a skipped source sequence is a recorded gap that
stays open until every component its source speaks about has been restated.

The SHA-256 of a fact's canonical encoding is the parameter `digest`; it is
`none` when the encoding is refused.
-/

namespace Hexroute.Accept

open Hexroute.Connectivity
open Hexroute.Safety
open Hexroute.Lib

/-- How many recent sequences per source keep their digest. -/
def retryWindow : Nat := 64

/-- How many separate holes one source may accumulate. -/
def maxGapRanges : Nat := 64

inductive Outcome where
  | accepted
  | duplicate
  | conflict
  | stale
  | rejected
  deriving DecidableEq, Repr

inductive Reason where
  | none
  | invalidFact
  | ownership
  | domainMismatch
  | exactRetry
  | identityReused
  | behindWatermark
  | beyondRetry
  | sequenceGap
  | bootChanged
  | gapOverflow
  | baselineAccepted
  | baselinePending
  deriving DecidableEq, Repr

/-- A closed run of source sequences that never arrived. -/
structure GapRange where
  fromSequence : Nat
  toSequence : Nat
  deriving DecidableEq, Repr

/-- One remembered arrival. -/
structure RecentDigest where
  sequence : Nat
  digest : String
  deriving DecidableEq, Repr

/-- A source's whole stream integrity.  The acceptor keeps it as its state
and hands out a copy with every decision. -/
structure SourceIntegrity where
  bootID : String
  lastSequence : Nat := 0
  gaps : List GapRange := []
  gapOverflow : Bool := false
  pendingBaseline : List Component := []
  conflicts : UInt32 := 0
  recent : List RecentDigest := []
  deriving DecidableEq, Repr

abbrev SourceState := SourceIntegrity

/-- The stream still owes a restatement. -/
def SourceIntegrity.awaitingBaseline (source : SourceIntegrity) : Bool :=
  !source.pendingBaseline.isEmpty

/-- The decision about one arrival. -/
structure Acceptance where
  outcome : Outcome
  reason : Reason
  role : SourceRole
  digest : String
  hostSequence : Nat := 0
  foldPosition : Nat := 0
  openedGap : Option GapRange := .none
  clearedGaps : List GapRange := []
  source : SourceIntegrity
  deriving DecidableEq, Repr

inductive AcceptError where
  | fact (error : FactError)
  | safety (error : SafetyError)
  deriving DecidableEq, Repr

/-- An arrival that never entered the order. -/
structure Rejection where
  reason : Reason
  error : AcceptError
  deriving DecidableEq, Repr

/-- The whole durable position of the acceptor. -/
structure State where
  hostSequence : Nat
  foldPosition : Nat
  sources : Std.ExtTreeMap SourceID SourceState

/-- The beginning of the host order. -/
def State.new : State :=
  { hostSequence := 0, foldPosition := 0, sources := ∅ }

/-- Put every component the source speaks about back on the hook. -/
def owesBaseline (source : SourceState) (id : SourceID) : SourceState :=
  { source with
    pendingBaseline :=
      (appendNew source.pendingBaseline
        (connectivitySourceComponents id)).insertionSort (· ≤ ·) }

/-- One component restated itself; the answer is whether that was the last
share of the debt. -/
def settleBaseline
    (source : SourceState) (component : Component) : SourceState × Bool :=
  let remaining := source.pendingBaseline.filter (· ≠ component)
  ({ source with pendingBaseline := remaining }, remaining.isEmpty)

/-- Keep holes ordered and bounded, and make the loss of one observable. -/
def recordGap
    (source : SourceState) (gap : GapRange) (id : SourceID) : SourceState :=
  let gaps :=
    (source.gaps ++ [gap]).insertionSort
      fun left right => left.fromSequence ≤ right.fromSequence
  let kept :=
    if gaps.length > maxGapRanges then
      { source with
        gaps := gaps.drop (gaps.length - maxGapRanges)
        gapOverflow := true }
    else
      { source with gaps := gaps }
  owesBaseline kept id

/-- The hole an advancing arrival reveals behind itself. -/
def gapBefore (source : SourceState) (fact : Fact) : Option GapRange :=
  if source.lastSequence > 0 ∧ fact.sourceSequence > source.lastSequence + 1 then
    some ⟨source.lastSequence + 1, fact.sourceSequence - 1⟩
  else
    .none

/-- Open the hole, if there is one. -/
def openGap (source : SourceState) (fact : Fact) : SourceState :=
  match gapBefore source fact with
  | some gap => recordGap source gap fact.sourceID
  | .none => source

/-- A baseline settles its own component's share of the debt.  The last
share closes every hole; `reason` is what the arrival has been called so
far, and the list is the holes closed. -/
def closeGaps
    (source : SourceState) (reason : Reason) (fact : Fact) :
    SourceState × Reason × List GapRange :=
  if fact.baseline && source.awaitingBaseline then
    match settleBaseline source fact.component with
    | (paid, true) =>
        ({ paid with gaps := [], gapOverflow := false, conflicts := 0 },
          .baselineAccepted, paid.gaps)
    | (paid, false) =>
        (paid, if reason = .none then .baselinePending else reason, [])
  else
    (source, reason, [])

/-- Append to the retry window, dropping what falls out of it. -/
def remember
    (recent : List RecentDigest) (entry : RecentDigest) :
    List RecentDigest :=
  let extended := recent ++ [entry]
  extended.drop (extended.length - retryWindow)

/-- Move the watermark to the arrival. -/
def advance
    (source : SourceState) (fact : Fact) (digest : String) : SourceState :=
  { source with
    lastSequence := fact.sourceSequence
    recent := remember source.recent ⟨fact.sourceSequence, digest⟩ }

/-- Record a fact that advances its source's stream. -/
def admitFact
    (hostSequence : Nat) (source : SourceState) (fact : Fact)
    (digest : String) (role : SourceRole) : Acceptance × SourceState :=
  let gap := gapBefore source fact
  let (closed, reason, cleared) :=
    closeGaps (openGap source fact)
      (if gap.isSome then .sequenceGap else .none) fact
  let advanced := advance closed fact digest
  ({ outcome := .accepted
     reason := reason
     role := role
     digest := digest
     hostSequence := hostSequence + 1
     openedGap := gap
     clearedGaps := cleared
     source := advanced },
    advanced)

def inGap (gaps : List GapRange) (sequence : Nat) : Bool :=
  gaps.any fun gap =>
    decide (sequence ≥ gap.fromSequence) && decide (sequence ≤ gap.toSequence)

/-- Classify an arrival that does not advance its source's stream. -/
def replay
    (source : SourceState) (fact : Fact)
    (digest : String) (role : SourceRole) : Acceptance × SourceState :=
  match source.recent.find? (·.sequence = fact.sourceSequence) with
  | some entry =>
      if entry.digest = digest then
        ({ outcome := .duplicate, reason := .exactRetry, role := role
           digest := digest, source := source },
          source)
      else
        let refused :=
          owesBaseline { source with conflicts := source.conflicts + 1 }
            fact.sourceID
        ({ outcome := .conflict, reason := .identityReused, role := role
           digest := digest, source := refused },
          refused)
  | .none =>
      ({ outcome := .stale
         reason :=
           if inGap source.gaps fact.sourceSequence then .behindWatermark
           else .beyondRetry
         role := role, digest := digest, source := source },
        source)

/-- What one arrival means to its own source.  The host order enters only as
the number an accepted arrival is given. -/
def decideSource
    (hostSequence : Nat) (known : Option SourceState) (fact : Fact)
    (digest : String) (role : SourceRole) : Acceptance × SourceState :=
  let source := known.getD { bootID := fact.bootID }
  if source.bootID ≠ fact.bootID then
    -- A new boot is a new stream: every component owes a restatement.
    let (acceptance, admitted) :=
      admitFact hostSequence
        { bootID := fact.bootID
          pendingBaseline := connectivitySourceComponents fact.sourceID }
        fact digest role
    ({ acceptance with
        reason :=
          if acceptance.reason = .none ∨ acceptance.reason = .sequenceGap then
            .bootChanged
          else
            acceptance.reason },
      admitted)
  else if fact.sourceSequence > source.lastSequence then
    admitFact hostSequence source fact digest role
  else
    replay source fact digest role

/-- The part of acceptance that takes a place in the order. -/
def order
    (state : State) (fact : Fact) (digest : String) (role : SourceRole) :
    Acceptance × State :=
  let (acceptance, source) :=
    decideSource state.hostSequence state.sources[fact.sourceID]? fact digest
      role
  ({ acceptance with foldPosition := state.foldPosition + 1 },
    { hostSequence :=
        if acceptance.outcome = .accepted then state.hostSequence + 1
        else state.hostSequence
      foldPosition := state.foldPosition + 1
      sources := state.sources.insert fact.sourceID source })

/-- The checks made before the order is touched at all. -/
def screen
    (digest : Fact → Option String) (fact : Fact)
    (authenticatedDomain : Domain) :
    Except Rejection (SourceRole × String) := do
  (validate fact).mapError fun error => ⟨.invalidFact, .fact error⟩
  let role ←
    (classifyConnectivityFact fact authenticatedDomain).mapError fun error =>
      match error with
      | .domainMismatch _ _ => ⟨.domainMismatch, .safety error⟩
      | .unknownSource _ _ => ⟨.ownership, .safety error⟩
  match digest fact with
  | .none => throw ⟨.invalidFact, .fact .invalidEncoding⟩
  | some encoded => pure (role, encoded)

/-- Decide what one arrival means and, when it is new, give it the next host
acceptance sequence. -/
def accept
    (digest : Fact → Option String) (state : State) (fact : Fact)
    (authenticatedDomain : Domain) :
    Except Rejection (Acceptance × State) := do
  let (role, encoded) ← screen digest fact authenticatedDomain
  pure (order state fact encoded role)

inductive StateError where
  | retryWindowOverflow (source : SourceID)
  | gapOverflow (source : SourceID)
  | beyondWatermark (source : SourceID)
  | windowNotOrdered (source : SourceID)
  | invertedGap (source : SourceID)
  | gapsWithoutBaseline (source : SourceID)
  | foreignBaseline (source : SourceID) (component : Component)
  deriving DecidableEq, Repr

/-- The retry window lies below the watermark and rises strictly. -/
def validateRecent
    (id : SourceID) (lastSequence : Nat) :
    Option RecentDigest → List RecentDigest → Except StateError Unit
  | _, [] => pure ()
  | previous, entry :: rest => do
      refuse (entry.sequence > lastSequence) (.beyondWatermark id)
      refuse (∃ before ∈ previous, entry.sequence ≤ before.sequence)
        (.windowNotOrdered id)
      validateRecent id lastSequence (some entry) rest

def SourceIntegrity.validate
    (id : SourceID) (source : SourceState) : Except StateError Unit := do
  refuse (source.recent.length > retryWindow) (.retryWindowOverflow id)
  refuse (source.gaps.length > maxGapRanges) (.gapOverflow id)
  validateRecent id source.lastSequence .none source.recent
  refuse
    (∃ gap ∈ source.gaps,
      gap.fromSequence = 0 ∨ gap.toSequence < gap.fromSequence)
    (.invertedGap id)
  refuse (source.gaps ≠ [] ∧ source.pendingBaseline = [])
    (.gapsWithoutBaseline id)
  source.pendingBaseline.forM fun component =>
    refuse (component ∉ connectivitySourceComponents id)
      (.foreignBaseline id component)

/-- Reject a restored state this acceptor could not have produced. -/
def State.validate (state : State) : Except StateError Unit :=
  state.sources.toList.forM fun (id, source) => source.validate id

/-- Resume from a validated durable state. -/
def restore (state : State) : Except StateError State := do
  state.validate
  pure state

end Hexroute.Accept
