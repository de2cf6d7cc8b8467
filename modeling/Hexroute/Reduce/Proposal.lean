import Hexroute.Reduce.Diff

/-!
# Proposals

A proposal states that a divergence exists and which domain owns it.  Nothing
can execute one.  The SHA-256 of a canonical encoding is a parameter; it is
`none` when the encoding is refused.
-/

namespace Hexroute.Reduce

open Hexroute.Connectivity
open Hexroute.Lib

inductive ProposalClass where
  | establish
  | reconcile
  | withdraw
  | observe
  deriving DecidableEq, Repr

structure Proposal where
  schema : String
  version : Nat
  snapshotGeneration : Nat
  bundleGeneration : Nat
  domainPolicyGeneration : Nat
  domain : Domain
  target : Component
  «class» : ProposalClass
  reason : DiffReason
  diffDigest : String
  digest : String
  deriving DecidableEq, Repr

def proposalSchema : String := "hexroute.connectivity-proposal.v1"

def proposalSchemaVersion : Nat := 1

/-- The proposal without its own address. -/
def proposalBody (proposal : Proposal) : Proposal :=
  { proposal with digest := "" }

/-- Recompute the address and reject a mutated proposal. -/
def Proposal.verify
    (hash : Proposal → Option String) (proposal : Proposal) :
    Except ReduceError Unit := do
  refuse
    (proposal.schema ≠ proposalSchema ∨
      proposal.version ≠ proposalSchemaVersion)
    (.invalidProposal "schema")
  refuse
    (proposal.snapshotGeneration = 0 ∨ proposal.bundleGeneration = 0 ∨
      proposal.diffDigest.utf8ByteSize ≠ 64)
    (.invalidProposal "bindings")
  match hash (proposalBody proposal) with
  | .none => throw (.invalidProposal "encoding")
  | some expected =>
      refuse (expected ≠ proposal.digest) (.invalidProposal "digest")

def domainGeneration (descriptor : PolicyDescriptor) : Domain → Nat
  | .user => descriptor.userGeneration
  | .root => descriptor.rootGeneration

/-- Converged needs nothing, and grandfathered is reported only. -/
def proposalClass : Classification → Option ProposalClass
  | .missing => some .establish
  | .divergent => some .reconcile
  | .unexpected => some .withdraw
  | .stale => some .observe
  | .unknown => some .observe
  | .conflict => some .observe
  | .converged => .none
  | .grandfathered => .none

/-- The unaddressed proposal one entry of a diff implies. -/
def proposalFor
    (snapshot : Snapshot) (diffDigest : String) (entry : ComponentDiff)
    (wanted : ProposalClass) : Proposal :=
  { schema := proposalSchema
    version := proposalSchemaVersion
    snapshotGeneration := snapshot.generation
    bundleGeneration := snapshot.policy.bundleGeneration
    domainPolicyGeneration := domainGeneration snapshot.policy entry.domain
    domain := entry.domain
    target := entry.component
    «class» := wanted
    reason := entry.reason
    diffDigest := diffDigest
    digest := "" }

/-- Address and check the proposals of the remaining entries. -/
def proposeEntries
    (hash : Proposal → Option String) (snapshot : Snapshot)
    (diffDigest : String) :
    List ComponentDiff → Except ReduceError (List Proposal)
  | [] => pure []
  | entry :: rest =>
      match proposalClass entry.classification with
      | .none => proposeEntries hash snapshot diffDigest rest
      | some wanted => do
          let body := proposalFor snapshot diffDigest entry wanted
          match hash (proposalBody body) with
          | .none => throw (.invalidProposal "encoding")
          | some digest =>
              let proposal := { body with digest := digest }
              proposal.verify hash
              let proposals ←
                proposeEntries hash snapshot diffDigest rest
              pure (proposal :: proposals)

/-- Derive the proposals a diff implies. -/
def propose
    (diffHash : Diff → Option String) (hash : Proposal → Option String)
    (snapshot : Snapshot) (diff : Diff) :
    Except ReduceError (List Proposal) :=
  if !diff.authorized then
    pure []
  else
    match diffHash diff with
    | .none => throw .invalidSnapshot
    | some diffDigest =>
        proposeEntries hash snapshot diffDigest diff.components

/-- What an entry asks for, without its bindings. -/
def ComponentDiff.wanted (entry : ComponentDiff) :
    Option (Component × ProposalClass) :=
  (proposalClass entry.classification).map fun wanted =>
    (entry.component, wanted)

/-- The proposals are the wanted entries, in order. -/
theorem proposeEntries_targets
    {hash : Proposal → Option String} {snapshot : Snapshot}
    {diffDigest : String} {entries : List ComponentDiff}
    {proposals : List Proposal}
    (proposes :
      proposeEntries hash snapshot diffDigest entries = .ok proposals) :
    (proposals.map fun proposal => (proposal.target, proposal.class)) =
      entries.filterMap ComponentDiff.wanted := by
  induction entries generalizing proposals with
  | nil =>
      obtain rfl : [] = proposals := by
        simpa [proposeEntries] using proposes
      rfl
  | cons entry rest inductionHypothesis =>
      unfold proposeEntries at proposes
      cases kind : proposalClass entry.classification with
      | none =>
          rw [kind] at proposes
          simpa [ComponentDiff.wanted, kind] using
            inductionHypothesis proposes
      | some wanted =>
          rw [kind] at proposes
          simp only at proposes
          split at proposes
          · simp at proposes
          · simp only [bind_eq_ok_iff, pure_eq_ok_iff] at proposes
            obtain ⟨_, _, later, laterProposes, rfl⟩ := proposes
            simp [ComponentDiff.wanted, kind, proposalFor,
              inductionHypothesis laterProposes]

/-- An unauthorized diff proposes nothing, and an authorized one what its
entries want. -/
theorem propose_targets
    {diffHash : Diff → Option String} {hash : Proposal → Option String}
    {snapshot : Snapshot} {diff : Diff} {proposals : List Proposal}
    (proposes : propose diffHash hash snapshot diff = .ok proposals) :
    (proposals.map fun proposal => (proposal.target, proposal.class)) =
      if diff.authorized then diff.components.filterMap ComponentDiff.wanted
      else [] := by
  unfold propose at proposes
  cases authorized : diff.authorized with
  | false =>
      obtain rfl : [] = proposals := by simpa [authorized] using proposes
      rfl
  | true =>
      rw [authorized] at proposes
      simp only [Bool.not_true, Bool.false_eq_true, if_false] at proposes
      split at proposes
      · simp at proposes
      · exact proposeEntries_targets proposes

end Hexroute.Reduce
