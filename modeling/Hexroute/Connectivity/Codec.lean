import Hexroute.Connectivity.Model
import Hexroute.Lib.Refusal

/-!
# Fact validation

`validate` is the structural check every arrival passes before anything else
looks at it.  Ownership is a separate question, decided in
`Hexroute.Safety.Connectivity`.
-/

namespace Hexroute.Connectivity

open Hexroute.Lib

def factSchema : String := "hexroute.connectivity-fact.v1"

def factSchemaVersion : Nat := 1

def maxIdentifierBytes : Nat := 64

def maxComponentCount : Nat := 4096

/-- Why a fact is refused.  The text names the field exactly as the wrapped
Go error does. -/
inductive FactError where
  | invalidFact (field : String)
  | forbiddenContent (field : String)
  | invalidPayload (detail : String)
  | payloadMismatch
  | invalidEncoding
  deriving DecidableEq, Repr

def identifierRune (rune : Char) : Bool :=
  ('a' ≤ rune && rune ≤ 'z') || ('A' ≤ rune && rune ≤ 'Z') ||
    ('0' ≤ rune && rune ≤ '9') || rune == '-' || rune == '_' || rune == '.'

/-- Two neighbouring dots, which is how a relative path starts. -/
def hasDotRun : List Char → Bool
  | [] => false
  | [_] => false
  | first :: second :: rest =>
      (first == '.' && second == '.') || hasDotRun (second :: rest)

def validIdentifier (value : String) : Bool :=
  let runes := value.toList
  value ≠ "" && decide (value.utf8ByteSize ≤ maxIdentifierBytes) &&
    runes.head? ≠ some '.' && runes.getLast? ≠ some '.' &&
    !hasDotRun runes && runes.all identifierRune

/-- Only a lowercase canonical UUID is an event identity. -/
def validEventUUID (value : String) : Bool :=
  decide (value.utf8ByteSize = 36) &&
    value.toList.zipIdx.all fun (rune, index) =>
      if index = 8 ∨ index = 13 ∨ index = 18 ∨ index = 23 then
        rune == '-'
      else
        ('0' ≤ rune && rune ≤ '9') || ('a' ≤ rune && rune ≤ 'f')

def PhysicalNetworkPayload.validate
    (payload : PhysicalNetworkPayload) : Bool :=
  !(payload.hasCarrier && !payload.linkUp) &&
    !(payload.linkClass = .none && (payload.linkUp || payload.hasCarrier))

def DefaultPathPayload.validate (payload : DefaultPathPayload) : Bool :=
  !(payload.pathClass = .none && payload.gatewayPresent)

def DNSPayload.validate (payload : DNSPayload) : Bool :=
  !(payload.scopedDomains > maxComponentCount ||
      payload.failingDomains > maxComponentCount) &&
    !(payload.failingDomains > payload.scopedDomains) &&
    !(payload.resolverClass = .none && payload.responding)

def ScopedRoutesPayload.validate (payload : ScopedRoutesPayload) : Bool :=
  !(payload.configured > maxComponentCount ||
      payload.installed > maxComponentCount ||
      payload.conflicting > maxComponentCount ||
      payload.missing > maxComponentCount) &&
    !(payload.installed > payload.configured ||
      payload.conflicting > payload.configured ||
      payload.missing > payload.configured) &&
    !(payload.installed + payload.conflicting + payload.missing >
      payload.configured)

def TransportsPayload.validate (payload : TransportsPayload) : Bool :=
  !(payload.configured > maxComponentCount ||
      payload.ready > maxComponentCount ||
      payload.degraded > maxComponentCount) &&
    !(payload.ready + payload.degraded > payload.configured)

def RelaysPayload.validate (payload : RelaysPayload) : Bool :=
  !(payload.configured > maxComponentCount ||
      payload.reachable > maxComponentCount ||
      payload.reserve > maxComponentCount) &&
    !(payload.reachable > payload.configured ||
      payload.reserve > payload.configured) &&
    !(payload.selectedClass ≠ .none && payload.configured = 0) &&
    !(payload.selectedClass = .reserve && payload.reserve = 0)

def UserAccessPayload.validate (payload : UserAccessPayload) : Bool :=
  !(payload.profileClass = .none &&
      (payload.connected || payload.authenticated)) &&
    !(payload.connected && !payload.authenticated)

def SessionExpiryPayload.validate (payload : SessionExpiryPayload) : Bool :=
  !(payload.sessions > maxComponentCount) &&
    !(payload.expiryClass = .none && payload.sessions > 0) &&
    !(payload.expiryClass ≠ .none && payload.sessions = 0)

namespace Payload

/-- The components whose member is set, in declaration order. -/
def members (payload : Payload) : List Component :=
  (payload.physicalNetwork.toList.map fun _ => Component.physicalNetwork) ++
    (payload.defaultPath.toList.map fun _ => Component.defaultPath) ++
    (payload.dns.toList.map fun _ => Component.dns) ++
    (payload.scopedRoutes.toList.map fun _ => Component.scopedRoutes) ++
    (payload.transports.toList.map fun _ => Component.transports) ++
    (payload.relays.toList.map fun _ => Component.relays) ++
    (payload.userAccess.toList.map fun _ => Component.userAccess) ++
    (payload.sessionExpiry.toList.map fun _ => Component.sessionExpiry)

/-- The described component, when exactly one member is set. -/
def component (payload : Payload) : Option Component :=
  match payload.members with
  | [single] => some single
  | _ => .none

/-- The first set member decides. -/
def validate (payload : Payload) : Bool :=
  match payload.physicalNetwork, payload.defaultPath, payload.dns,
      payload.scopedRoutes, payload.transports, payload.relays,
      payload.userAccess, payload.sessionExpiry with
  | some member, _, _, _, _, _, _, _ => member.validate
  | .none, some member, _, _, _, _, _, _ => member.validate
  | .none, .none, some member, _, _, _, _, _ => member.validate
  | .none, .none, .none, some member, _, _, _, _ => member.validate
  | .none, .none, .none, .none, some member, _, _, _ => member.validate
  | .none, .none, .none, .none, .none, some member, _, _ => member.validate
  | .none, .none, .none, .none, .none, .none, some member, _ =>
      member.validate
  | .none, .none, .none, .none, .none, .none, .none, some member =>
      member.validate
  | .none, .none, .none, .none, .none, .none, .none, .none => false

end Payload

/-- Whether the fact is well formed on its own terms.  Go also refuses a
domain, component, lifecycle or reason outside its closed set; those values
do not exist in the types here. -/
def validate (fact : Fact) : Except FactError Unit := do
  refuse (fact.schema ≠ factSchema ∨ fact.version ≠ factSchemaVersion)
    (.invalidFact "schema")
  refuse (!validEventUUID fact.eventID) (.invalidFact "event id")
  refuse (!validIdentifier fact.sourceID) (.forbiddenContent "source id")
  refuse (!validIdentifier fact.bootID) (.forbiddenContent "boot id")
  refuse (fact.sourceSequence = 0) (.invalidFact "source sequence")
  refuse (fact.observedAt.isZero || !fact.observedAt.utc)
    (.invalidFact "observed at")
  refuse (fact.monotonicTick ≤ 0) (.invalidFact "monotonic tick")
  refuse (fact.freshnessDeadline ≤ fact.monotonicTick)
    (.invalidFact "freshness deadline")
  refuse (fact.payload.component = none)
    (.invalidPayload "payload cardinality")
  refuse (fact.payload.component ≠ some fact.component) .payloadMismatch
  refuse (!fact.payload.validate) (.invalidPayload "")

/-- The one consequence of validation that acceptance itself relies on: the
first arrival of a source always lies above the zero watermark. -/
theorem sourceSequence_pos_of_validate
    {fact : Fact} (valid : validate fact = .ok ()) :
    0 < fact.sourceSequence := by
  simp only [validate, bind_eq_ok_iff, refuse_eq_ok_iff] at valid
  obtain ⟨_, _, _, _, _, _, _, _, _, nonzero, _⟩ := valid
  exact Nat.pos_of_ne_zero nonzero

end Hexroute.Connectivity
