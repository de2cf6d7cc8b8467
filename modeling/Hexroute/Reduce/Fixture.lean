import Hexroute.Connectivity.Fixture
import Hexroute.Reduce.Chain

/-!
# Synthetic reductions

Concrete policies, hashes and inputs on which general results about
reductions are exercised.
-/

namespace Hexroute.Reduce

open Hexroute.Connectivity
open Hexroute.Accept (Event)

/-- A well-formed policy whose generations all equal the given one. -/
def fixturePolicy (generation : Nat) : PolicyDescriptor :=
  { present := true
    valid := true
    suspended := false
    bundleGeneration := generation
    rootGeneration := generation
    userGeneration := generation
    manifestDigest := fixtureHex 64 generation }

/-- Stand-ins for SHA-256 that tell apart snapshots by a chosen code. -/
def fixtureHashes (code : Semantic → Nat) : Hashes where
  semantic semantic := some (fixtureHex 64 (code semantic))
  diff diff := some (fixtureHex 64 diff.snapshotGeneration)
  proposal proposal :=
    some (fixtureHex 64 (components.idxOf proposal.target))

/-- A reduction of some events under one policy. -/
def fixtureInput
    (policy : PolicyDescriptor) (policies : List ComponentPolicy)
    (events : List Event) : Input :=
  { prior := none
    events := events
    policy := policy
    policyComponents := policies
    bootID := fixtureBootID
    evaluationTick := 1010 }

@[simp]
theorem fixtureInput_events
    (policy : PolicyDescriptor) (policies : List ComponentPolicy)
    (events : List Event) :
    (fixtureInput policy policies events).events = events :=
  rfl

end Hexroute.Reduce
