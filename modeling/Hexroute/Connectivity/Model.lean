import Mathlib

/-!
# Connectivity facts

A fact is one source's complete statement about one component.  The sets of
components, lifecycles, reasons and payload classes are closed, so they are
inductive types here; identifiers stay strings, and counters and ticks stay
unbounded numbers because nothing in acceptance or reduction computes with
them beyond comparison and successor.
-/

namespace Hexroute.Connectivity

/-- A privilege domain. -/
inductive Domain where
  | root
  | user
  deriving DecidableEq, Repr

/-- One separately inspectable part of host connectivity. -/
inductive Component where
  | physicalNetwork
  | defaultPath
  | dns
  | scopedRoutes
  | transports
  | relays
  | userAccess
  | sessionExpiry
  deriving DecidableEq, Repr

namespace Component

/-- The wire name.  Go compares components as strings, so every order on
components below is the order of these names. -/
def name : Component → String
  | .physicalNetwork => "physical_network"
  | .defaultPath => "default_path"
  | .dns => "dns"
  | .scopedRoutes => "scoped_routes"
  | .transports => "managed_transports"
  | .relays => "relay_ingress"
  | .userAccess => "user_access"
  | .sessionExpiry => "session_expiry"

theorem name_injective : Function.Injective name := by
  intro left right same
  cases left <;> cases right <;> first | rfl | exact absurd same (by decide)

instance : LinearOrder Component :=
  LinearOrder.lift' name name_injective

/-- Scoped routes are the one component a sleep does not invalidate. -/
def timeSensitive (component : Component) : Bool :=
  decide (component ≠ .scopedRoutes)

end Component

/-- Every configured component in a stable order. -/
def components : List Component :=
  [.physicalNetwork, .defaultPath, .dns, .scopedRoutes, .transports, .relays,
    .userAccess, .sessionExpiry]

@[simp]
theorem mem_components (component : Component) : component ∈ components := by
  cases component <;> decide

theorem components_nodup : components.Nodup := by
  decide

/-- What a source may assert about its component.  Stale and conflict are
missing on purpose: only the aggregate draws those conclusions. -/
inductive Lifecycle where
  | unknown
  | ready
  | degraded
  | failed
  | notApplicable
  deriving DecidableEq, Repr

/-- The bounded explanation a source attaches to its lifecycle. -/
inductive Reason where
  | none
  | baseline
  | probeSucceeded
  | probeFailed
  | linkChanged
  | policyApplied
  | ownerUnavailable
  | wakeRebaseline
  | bootRebaseline
  | notConfigured
  | expiryApproaching
  | expired
  deriving DecidableEq, Repr

/-- Ownership is resolved by this opaque identifier. -/
abbrev SourceID := String

/-- A monotonic tick. -/
abbrev Tick := Int

/-- A wall-clock stamp, counted from the zero time. -/
structure Timestamp where
  instant : Int
  utc : Bool
  deriving DecidableEq, Repr

/-- The zero time is the one a fact may not carry. -/
def Timestamp.isZero (stamp : Timestamp) : Bool :=
  decide (stamp.instant = 0)

inductive LinkClass where
  | none
  | wired
  | wireless
  | cellular
  | virtual
  deriving DecidableEq, Repr

structure PhysicalNetworkPayload where
  linkClass : LinkClass
  linkUp : Bool
  hasCarrier : Bool
  deriving DecidableEq, Repr

inductive PathClass where
  | none
  | direct
  | tunneled
  deriving DecidableEq, Repr

structure DefaultPathPayload where
  pathClass : PathClass
  gatewayPresent : Bool
  deriving DecidableEq, Repr

inductive ResolverClass where
  | none
  | system
  | scoped
  | encrypted
  deriving DecidableEq, Repr

structure DNSPayload where
  resolverClass : ResolverClass
  responding : Bool
  scopedDomains : Nat
  failingDomains : Nat
  deriving DecidableEq, Repr

structure ScopedRoutesPayload where
  configured : Nat
  installed : Nat
  conflicting : Nat
  missing : Nat
  deriving DecidableEq, Repr

structure TransportsPayload where
  configured : Nat
  ready : Nat
  degraded : Nat
  deriving DecidableEq, Repr

inductive SelectedClass where
  | none
  | primary
  | reserve
  deriving DecidableEq, Repr

structure RelaysPayload where
  configured : Nat
  reachable : Nat
  reserve : Nat
  selectedClass : SelectedClass
  deriving DecidableEq, Repr

inductive ProfileClass where
  | none
  | configured
  deriving DecidableEq, Repr

structure UserAccessPayload where
  profileClass : ProfileClass
  connected : Bool
  authenticated : Bool
  deriving DecidableEq, Repr

inductive ExpiryClass where
  | none
  | valid
  | expiring
  | expired
  deriving DecidableEq, Repr

structure SessionExpiryPayload where
  expiryClass : ExpiryClass
  sessions : Nat
  deriving DecidableEq, Repr

/-- The component-specific part of a fact.  A valid payload sets exactly one
member; the zero value sets none. -/
structure Payload where
  physicalNetwork : Option PhysicalNetworkPayload := .none
  defaultPath : Option DefaultPathPayload := .none
  dns : Option DNSPayload := .none
  scopedRoutes : Option ScopedRoutesPayload := .none
  transports : Option TransportsPayload := .none
  relays : Option RelaysPayload := .none
  userAccess : Option UserAccessPayload := .none
  sessionExpiry : Option SessionExpiryPayload := .none
  deriving DecidableEq, Repr

/-- One source's complete statement about one component. -/
structure Fact where
  schema : String
  version : Nat
  eventID : String
  domain : Domain
  component : Component
  sourceID : SourceID
  bootID : String
  sourceSequence : Nat
  observedAt : Timestamp
  monotonicTick : Tick
  freshnessDeadline : Tick
  lifecycle : Lifecycle
  reason : Reason
  baseline : Bool
  payload : Payload
  deriving DecidableEq, Repr

end Hexroute.Connectivity
