import Hexroute.Reconciler.Attempts

/-!
# Steps of a plan and their compensation

An adapter applies the steps of a plan to resources and can undo them.  The
steps that were applied are undone from the last one back, each only while
the adapter shows it exactly as the attempt left it.
-/

namespace Hexroute.Reconciler

inductive OperationClass where
  | noop
  | state
  | crashFixture
  | tunnelInterface
  | scopedRoute
  | dns
  | firewall
  | process
  | userAccess
  deriving DecidableEq, Repr

inductive SyntheticOwnership where
  | owned
  | foreign
  | ambiguous
  deriving DecidableEq, Repr

structure SyntheticResource where
  id : String
  operation : OperationClass
  stateSHA256 : String
  ownership : SyntheticOwnership
  ownerActionID : String
  ownerAttemptID : String
  isProtected : Bool
  deriving DecidableEq, Repr

structure SyntheticPlanStep where
  id : String
  resourceID : String
  operation : OperationClass
  owner : AttemptBinding
  inputSHA256 : String
  beforeSHA256 : String
  appliedSHA256 : String
  verificationSHA256 : String
  compensationSHA256 : String
  deriving DecidableEq, Repr

def maxPlanSteps : Nat := 16

def SyntheticPlanStep.valid (checks : Checks) (step : SyntheticPlanStep) :
    Bool :=
  validIdentifier step.id && validIdentifier step.resourceID &&
    step.owner.valid checks && checks.validDigest step.inputSHA256 &&
    checks.validDigest step.beforeSHA256 &&
    checks.validDigest step.appliedSHA256 &&
    checks.validDigest step.verificationSHA256 &&
    checks.validDigest step.compensationSHA256

def syntheticStepIsExactlyOwned
    (resources : List SyntheticResource) (step : SyntheticPlanStep) : Bool :=
  resources.any fun resource =>
    decide (resource.id = step.resourceID) &&
      decide (resource.operation = step.operation) &&
      decide (resource.stateSHA256 = step.appliedSHA256) &&
      decide (resource.ownership = .owned) &&
      decide (resource.ownerActionID = step.owner.actionID) &&
      decide (resource.ownerAttemptID = step.owner.attemptID) &&
      !resource.isProtected

/-- An adapter as the compensation sees it: `none` and `false` are the
errors of its calls. -/
structure SyntheticAdapter (σ : Type) where
  observe : σ → Option (List SyntheticResource) × σ
  compensate : SyntheticPlanStep → σ → Bool × σ

inductive AdapterCall where
  | observe
  | compensate (step : SyntheticPlanStep)
  deriving DecidableEq, Repr

/-- The state of an adapter and the calls it had. -/
structure Called (σ : Type) where
  state : σ
  calls : List AdapterCall

structure IncidentRecord where
  incidentID : String
  reason : Reason
  target : String
  deriving DecidableEq, Repr

structure CompensationResult where
  compensated : List String
  outcome : AttemptState
  reason : Reason
  incident : Option IncidentRecord
  deriving DecidableEq, Repr

def cleanupIncident (binding : AttemptBinding) (reason : Reason) :
    IncidentRecord :=
  ⟨binding.actionID, reason, binding.target⟩

def safeModeCompensation (binding : AttemptBinding) (reason : Reason) :
    CompensationResult :=
  ⟨[], .safeMode, reason, some (cleanupIncident binding reason)⟩

section Compensation

variable {σ : Type} (checks : Checks) (adapter : SyntheticAdapter σ)
  (binding : AttemptBinding)

def Called.observe (called : Called σ) :
    Option (List SyntheticResource) × Called σ :=
  let answer := adapter.observe called.state
  (answer.1, ⟨answer.2, called.calls ++ [.observe]⟩)

def Called.compensate (step : SyntheticPlanStep) (called : Called σ) :
    Bool × Called σ :=
  let answer := adapter.compensate step called.state
  (answer.1, ⟨answer.2, called.calls ++ [.compensate step]⟩)

/-- The loop over the applied steps, from the last one back. -/
def compensateSteps :
    List SyntheticPlanStep → List String → Called σ →
      CompensationResult × Called σ
  | [], compensated, called =>
      (⟨compensated, .rolledBack, .compensation, none⟩, called)
  | step :: earlier, compensated, called =>
      if step.valid checks = false ∨ step.owner ≠ binding then
        (safeModeCompensation binding .ownership, called)
      else
        match called.observe adapter with
        | (none, called) =>
            (safeModeCompensation binding .compensation, called)
        | (some resources, called) =>
            if syntheticStepIsExactlyOwned resources step = false then
              (safeModeCompensation binding .safeMode, called)
            else
              match called.compensate adapter step with
              | (false, called) =>
                  (safeModeCompensation binding .compensation, called)
              | (true, called) =>
                  compensateSteps earlier (compensated ++ [step.id]) called

/-- `none` is the error of a call that is not well formed. -/
def compensateSyntheticAppliedPrefix
    (applied : List SyntheticPlanStep) (called : Called σ) :
    Option CompensationResult × Called σ :=
  if binding.valid checks = false ∨ applied = [] ∨
      maxPlanSteps < applied.length then
    (none, called)
  else
    let result := compensateSteps checks adapter binding applied.reverse []
      called
    (some result.1, result.2)

end Compensation

end Hexroute.Reconciler
