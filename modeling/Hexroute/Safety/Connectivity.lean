import Hexroute.Connectivity.Codec

/-!
# The compiled ownership envelope

Exactly one authoritative source exists per component.  Probes corroborate:
their facts are evidence, never an update.
-/

namespace Hexroute.Safety

open Hexroute.Connectivity
open Hexroute.Lib

inductive SourceRole where
  | authoritative
  | corroborating
  deriving DecidableEq, Repr

/-- One collector bound to one component and role. -/
structure SourceDeclaration where
  source : SourceID
  domain : Domain
  component : Component
  role : SourceRole
  deriving DecidableEq, Repr

inductive SafetyError where
  | unknownSource (source : SourceID) (component : Component)
  | domainMismatch (claimed authenticated : Domain)
  deriving DecidableEq, Repr

def connectivitySources : List SourceDeclaration :=
  [⟨"root.network", .root, .physicalNetwork, .authoritative⟩,
    ⟨"root.network", .root, .defaultPath, .authoritative⟩,
    ⟨"root.dns", .root, .dns, .authoritative⟩,
    ⟨"root.routes", .root, .scopedRoutes, .authoritative⟩,
    ⟨"root.transports", .root, .transports, .authoritative⟩,
    ⟨"root.relays", .root, .relays, .authoritative⟩,
    ⟨"user.access", .user, .userAccess, .authoritative⟩,
    ⟨"user.session", .user, .sessionExpiry, .authoritative⟩,
    ⟨"root.probe", .root, .defaultPath, .corroborating⟩,
    ⟨"root.probe", .root, .dns, .corroborating⟩,
    ⟨"root.probe", .root, .relays, .corroborating⟩,
    ⟨"user.probe", .user, .userAccess, .corroborating⟩]

/-- The declaration for one source and component.  The pairs are distinct,
so the first match is the only one. -/
def connectivityByKey
    (source : SourceID) (component : Component) : Option SourceDeclaration :=
  connectivitySources.find? fun declaration =>
    declaration.source = source && declaration.component = component

/-- The single owner of a component. -/
def connectivityAuthority (component : Component) : Option SourceDeclaration :=
  connectivitySources.find? fun declaration =>
    declaration.component = component && declaration.role = .authoritative

/-- Every component one source is declared to speak about, in component
order and whichever role it holds. -/
def connectivitySourceComponents (source : SourceID) : List Component :=
  components.filter fun component =>
    (connectivityByKey source component).isSome

/-- The role a fact carries.  The authenticated domain is what the transport
proved, not what the fact claims. -/
def classifyConnectivityFact
    (fact : Fact) (authenticatedDomain : Domain) :
    Except SafetyError SourceRole := do
  refuse (fact.domain ≠ authenticatedDomain)
    (.domainMismatch fact.domain authenticatedDomain)
  match connectivityByKey fact.sourceID fact.component with
  | none => throw (.unknownSource fact.sourceID fact.component)
  | some declaration => do
      refuse (declaration.domain ≠ authenticatedDomain)
        (.domainMismatch declaration.domain authenticatedDomain)
      pure declaration.role

@[simp]
theorem mem_connectivitySourceComponents
    {source : SourceID} {component : Component} :
    component ∈ connectivitySourceComponents source ↔
      (connectivityByKey source component).isSome := by
  simp [connectivitySourceComponents]

theorem connectivitySourceComponents_nodup (source : SourceID) :
    (connectivitySourceComponents source).Nodup :=
  components_nodup.filter _

/-- What a successful classification says about the ownership envelope. -/
theorem classifyConnectivityFact_eq_ok_iff
    {fact : Fact} {authenticatedDomain : Domain} {role : SourceRole} :
    classifyConnectivityFact fact authenticatedDomain = .ok role ↔
      fact.domain = authenticatedDomain ∧
        ∃ declaration,
          connectivityByKey fact.sourceID fact.component =
              some declaration ∧
            declaration.domain = authenticatedDomain ∧
              declaration.role = role := by
  unfold classifyConnectivityFact
  cases connectivityByKey fact.sourceID fact.component with
  | none =>
      simp
  | some declaration =>
      simp

/-- A classified fact is about a component its source is declared for. -/
theorem component_mem_of_classify
    {fact : Fact} {authenticatedDomain : Domain} {role : SourceRole}
    (classified :
      classifyConnectivityFact fact authenticatedDomain = .ok role) :
    fact.component ∈ connectivitySourceComponents fact.sourceID := by
  obtain ⟨_, declaration, found, _⟩ :=
    classifyConnectivityFact_eq_ok_iff.mp classified
  simp [found]

end Hexroute.Safety
