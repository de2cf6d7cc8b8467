import Mathlib

/-!
# Words of policy records

What a policy may let a domain do, what state a policy is in and why, and the
errors that operations on policy evidence end with.
-/

namespace Hexroute.Policy

inductive Capability where
  | operatorResume
  | pritunlRecovery
  | tunnelOwnership
  deriving DecidableEq, Repr

inductive PolicyState where
  | none
  | prepared
  | active
  | rejected
  | restartRequired
  | domainMismatch
  | authorizationSuspended
  deriving DecidableEq, Repr

inductive PolicyReason where
  | none
  | corruption
  | invalidSignature
  | digestMismatch
  | unsupportedSchema
  | staticMismatch
  | selectorConflict
  | clockAnomaly
  | domainMismatch
  | ipcOwnership
  | noValidGeneration
  | expired
  | operatorAborted
  deriving DecidableEq, Repr

/-- Why an operation on policy evidence fails.  Errors are told apart by
identity, so each is a constructor. -/
inductive Cause where
  | invalidStore
  | insecureStore
  | storeUnavailable
  | storeClosed
  | invalidGeneration
  | invalidArtifact
  | insecureArtifact
  | generationExists
  | generationNotFound
  | invalidRecord
  | insecureRecord
  | recordNotFound
  | recordConflict
  | staleActivePointer
  | persistenceInterrupted
  | candidateIdentity
  | activePointerConsistency
  | activeClockAnomaly
  | lineageEvidence
  | actionLeaseResolved
  | invalidConfig
  | invalidCompatibility
  | unsupportedPolicy
  | untrustedCompiler
  | restartRequired
  | policyDowngrade
  | policyDomainMismatch
  | activePolicyMismatch
  | invalidCandidateBundle
  | invalidReview
  | invalidApproval
  | signerMismatch
  | approvalExpired
  | approvalSignature
  | other (text : String)
  deriving DecidableEq, Repr

end Hexroute.Policy
