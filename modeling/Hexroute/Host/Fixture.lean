import Hexroute.Host.Runtime
import Hexroute.Lineage.Fixture

/-!
# Synthetic runtimes

A runtime over an empty store and empty journals, on which general results
about runs are exercised.
-/

namespace Hexroute.Host

open Hexroute.Connectivity
open Hexroute.Lib

/-- Sorting by the host sequence alone, without moving equal records. -/
def hostOrder : Arrangement where
  arrange := sortBy Record.hostSequence
  perm := sortBy_perm
  ordered := sortBy_ordered

def fixtureEnvironment : Environment where
  digest fact := some fact.eventID
  digests := Lineage.fixtureDigests
  size := Lineage.fixtureSize
  depth := Lineage.defaultMaxRecoveryDepth

/-- An enabled runtime that has never run before. -/
def fixtureOptions : Options where
  enabled := true
  preconditions := ⟨true, true, true, true⟩
  bootID := fixtureBootID
  checkpoints := some Lineage.Store.empty
  rootJournal := some { domain := .root }
  userJournal := some { domain := .user }
  random := true

def fixtureTick : TickInput where
  policy := Reduce.fixturePolicy 1
  policyComponents := []
  evaluationTick := 1010

end Hexroute.Host
