import Hexroute.Lib.Keyed
import Hexroute.Reduce.Snapshot

/-!
# Desired state

`desire` adapts an already compiled policy into one desire per component.  A
policy that cannot authorize anything yields an unauthorized desired state
with no expectations.
-/

namespace Hexroute.Reduce

open Hexroute.Connectivity
open Hexroute.Safety
open Hexroute.Lib

/-- What policy requires of a managed component.  A missing pin leaves that
aspect unconstrained. -/
structure Expectation where
  lifecycle : Lifecycle
  pathClass : Option PathClass := none
  resolverClass : Option ResolverClass := none
  selectedClass : Option SelectedClass := none
  profileClass : Option ProfileClass := none
  minInstalledRoutes : Option Nat := none
  minReadyTransports : Option Nat := none
  minReachableRelays : Option Nat := none
  deriving DecidableEq, Repr

/-- What the active policy asks of one component. -/
structure ComponentPolicy where
  component : Component
  managed : Bool
  expect : Expectation
  deriving DecidableEq, Repr

structure EffectivePolicy where
  descriptor : PolicyDescriptor
  components : List ComponentPolicy
  deriving DecidableEq, Repr

structure DesiredComponent where
  component : Component
  domain : Domain
  managed : Bool
  expect : Expectation
  deriving DecidableEq, Repr

/-- The full desire, always covering every component. -/
structure DesiredState where
  schema : String
  version : Nat
  policy : PolicyDescriptor
  authorized : Bool
  components : List DesiredComponent
  deriving DecidableEq, Repr

def desiredSchema : String := "hexroute.connectivity-desired.v1"

def desiredSchemaVersion : Nat := 1

/-- A pin belongs to exactly one component. -/
def allowedPin {α : Type} (pin : Option α) (owner component : Component)
    (name : String) : Except ReduceError Unit :=
  refuse (pin.isSome ∧ component ≠ owner) (.pin component name)

/-- Refuse a pin that does not belong to its component. -/
def validateExpectation
    (component : Component) (expect : Expectation) :
    Except ReduceError Unit := do
  refuse (expect.lifecycle ≠ .ready ∧ expect.lifecycle ≠ .notApplicable)
    (.cannotRequire expect.lifecycle)
  allowedPin expect.pathClass .defaultPath component "path class"
  allowedPin expect.resolverClass .dns component "resolver class"
  allowedPin expect.selectedClass .relays component "selected class"
  allowedPin expect.profileClass .userAccess component "profile class"
  allowedPin expect.minInstalledRoutes .scopedRoutes component "route count"
  allowedPin expect.minReadyTransports .transports component
    "transport count"
  allowedPin expect.minReachableRelays .relays component "relay count"

/-- Check the declared entries one by one; `declared` is what came before. -/
def checkPolicies (declared : List Component) :
    List ComponentPolicy → Except ReduceError Unit
  | [] => pure ()
  | entry :: rest => do
      refuse (entry.component ∈ declared) (.declaredTwice entry.component)
      if entry.managed then
        validateExpectation entry.component entry.expect
      checkPolicies (entry.component :: declared) rest

/-- The desire for one component. -/
def desireComponent
    (policies : List ComponentPolicy) (authorized : Bool)
    (component : Component) : Except ReduceError DesiredComponent :=
  match connectivityAuthority component with
  | none => throw (.noOwner component)
  | some declaration =>
      match policies.find? (·.component = component) with
      | some entry =>
          if entry.managed && authorized then
            pure ⟨component, declaration.domain, true, entry.expect⟩
          else
            pure ⟨component, declaration.domain, false,
              { lifecycle := .notApplicable }⟩
      | none =>
          pure ⟨component, declaration.domain, false,
            { lifecycle := .notApplicable }⟩

/-- Adapt effective policy into normalized desired state. -/
def desire (effective : EffectivePolicy) :
    Except ReduceError DesiredState := do
  checkPolicies [] effective.components
  let desired ←
    components.mapM
      (desireComponent effective.components effective.descriptor.authorized)
  pure
    { schema := desiredSchema
      version := desiredSchemaVersion
      policy := effective.descriptor
      authorized := effective.descriptor.authorized
      components := desired }

/-- The desire for one component, once its owner is known to exist. -/
def desiredFor
    (policies : List ComponentPolicy) (authorized : Bool)
    (component : Component) : DesiredComponent :=
  let domain := ((connectivityAuthority component).map (·.domain)).getD .root
  match policies.find? (·.component = component) with
  | some entry =>
      if entry.managed && authorized then
        ⟨component, domain, true, entry.expect⟩
      else
        ⟨component, domain, false, { lifecycle := .notApplicable }⟩
  | none => ⟨component, domain, false, { lifecycle := .notApplicable }⟩

theorem desireComponent_eq
    (policies : List ComponentPolicy) (authorized : Bool)
    (component : Component) :
    desireComponent policies authorized component =
      .ok (desiredFor policies authorized component) := by
  have owned : (connectivityAuthority component).isSome := by
    cases component <;> decide
  obtain ⟨declaration, found⟩ := Option.isSome_iff_exists.mp owned
  unfold desireComponent desiredFor
  rw [found]
  cases policies.find? (·.component = component) with
  | none =>
      rfl
  | some entry =>
      simp only [Option.map_some, Option.getD_some]
      split <;> rfl

theorem desire_eq_ok_iff
    {policy : EffectivePolicy} {desired : DesiredState} :
    desire policy = .ok desired ↔
      checkPolicies [] policy.components = .ok () ∧
        desired =
          { schema := desiredSchema
            version := desiredSchemaVersion
            policy := policy.descriptor
            authorized := policy.descriptor.authorized
            components :=
              components.map
                (desiredFor policy.components
                  policy.descriptor.authorized) } := by
  have owners :
      desireComponent policy.components policy.descriptor.authorized =
        fun component =>
          pure (desiredFor policy.components policy.descriptor.authorized
            component) :=
    funext fun component => desireComponent_eq _ _ component
  unfold desire
  rw [owners, List.mapM_pure]
  simp only [bind_eq_ok_iff, pure_eq_ok_iff]
  constructor
  · rintro ⟨_, checked, _, rfl, rfl⟩
    exact ⟨checked, rfl⟩
  · rintro ⟨checked, rfl⟩
    exact ⟨(), checked, _, rfl, rfl⟩

@[simp]
theorem desiredFor_component
    (policies : List ComponentPolicy) (authorized : Bool)
    (component : Component) :
    (desiredFor policies authorized component).component = component := by
  unfold desiredFor
  simp only
  split
  · split <;> rfl
  · rfl

theorem desired_find?
    (policies : List ComponentPolicy) (authorized : Bool)
    (component : Component) :
    (components.map (desiredFor policies authorized)).find?
        (·.component = component) =
      some (desiredFor policies authorized component) := by
  apply (find?_eq_some_iff_of_keys_nodup DesiredComponent.component ?_).mpr
  · exact ⟨List.mem_map_of_mem (mem_components component), by simp⟩
  · have keys :
        (components.map (desiredFor policies authorized)).map (·.component) =
          components := by
      simp [Function.comp_def]
    rw [keys]
    exact components_nodup

end Hexroute.Reduce
