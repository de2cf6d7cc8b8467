import Hexroute.Lineage.Resume
import Hexroute.Reduce.Fixture

/-!
# Synthetic lineages

Concrete digests on which general results about lineages are exercised.
-/

namespace Hexroute.Lineage

open Hexroute.Connectivity
open Hexroute.Reduce

/-- Stand-ins for SHA-256 that address a record by the length of its
identity. -/
def fixtureDigests : Digests where
  toHashes := fixtureHashes fun _ => 0
  record checkpoint := some (fixtureHex 64 (checkpoint.id.utf8ByteSize % 16))
  snapshot snapshot := some (fixtureHex 64 snapshot.generation)
  proposals proposals := some (fixtureHex 64 proposals.length)

/-- Every record is small. -/
def fixtureSize (_ : Checkpoint) : Nat := 1024

end Hexroute.Lineage
