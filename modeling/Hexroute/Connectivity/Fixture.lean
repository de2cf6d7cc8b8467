import Hexroute.Connectivity.Codec

/-!
# Synthetic facts

The invented facts the offline replay harness feeds through the pipeline.
They are the concrete inputs on which general results are exercised.
-/

namespace Hexroute.Connectivity

/-- The invented boot identity every fixture shares. -/
def fixtureBootID : String := "boot-0000000000000000"

/-- Hexadecimal digits padded with zeros, as `%012x` prints an index. -/
def fixtureHex (width index : Nat) : String :=
  let digits := Nat.toDigits 16 index
  String.ofList (List.replicate (width - digits.length) '0' ++ digits)

/-- A stable synthetic identity. -/
def fixtureEventID (index : Nat) : String :=
  "00000000-0000-4000-8000-" ++ fixtureHex 12 index

/-- The first instant of 2026, in nanoseconds. -/
def fixtureObservedAt : Int := 63902822400 * 1000000000

/-- One representative payload per component. -/
def fixturePayload : Component → Payload
  | .physicalNetwork => { physicalNetwork := some ⟨.wired, true, true⟩ }
  | .defaultPath => { defaultPath := some ⟨.tunneled, true⟩ }
  | .dns => { dns := some ⟨.scoped, true, 12, 0⟩ }
  | .scopedRoutes => { scopedRoutes := some ⟨7, 7, 0, 0⟩ }
  | .transports => { transports := some ⟨3, 3, 0⟩ }
  | .relays => { relays := some ⟨3, 3, 1, .primary⟩ }
  | .userAccess => { userAccess := some ⟨.configured, true, true⟩ }
  | .sessionExpiry => { sessionExpiry := some ⟨.valid, 1⟩ }

/-- The source and domain a component's fixtures come from. -/
def fixtureSource : Component → SourceID × Domain
  | .userAccess => ("user.access", .user)
  | .sessionExpiry => ("user.session", .user)
  | .physicalNetwork => ("root.network", .root)
  | .defaultPath => ("root.network", .root)
  | .dns => ("root.dns", .root)
  | .scopedRoutes => ("root.routes", .root)
  | .transports => ("root.transports", .root)
  | .relays => ("root.relays", .root)

/-- One valid complete baseline for a component. -/
def fixtureBaseline (component : Component) (sequence : Nat) : Fact :=
  let tick : Tick := 1000 + sequence
  { schema := factSchema
    version := factSchemaVersion
    eventID := fixtureEventID sequence
    domain := (fixtureSource component).2
    component := component
    sourceID := (fixtureSource component).1
    bootID := fixtureBootID
    sourceSequence := sequence
    observedAt :=
      ⟨fixtureObservedAt + sequence * 1000000000, true⟩
    monotonicTick := tick
    freshnessDeadline := tick + 300
    lifecycle := .ready
    reason := .baseline
    baseline := true
    payload := fixturePayload component }

end Hexroute.Connectivity
