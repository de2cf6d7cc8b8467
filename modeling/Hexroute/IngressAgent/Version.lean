import Hexroute.Lib.Refusal
import Hexroute.Policy.Text

/-!
# Signed configuration versions

An artifact is a statement the operator has signed and the content it
describes.  A host decides offline whether an artifact is one it may apply.
The bytes of an artifact are read by a strict decoder, and the signature is
judged by the key that was placed on the host.
-/

namespace Hexroute.IngressAgent

open Hexroute.Lib
open Hexroute.Policy (SHA256 decimal lowercase)

inductive TargetKind where
  | node
  | group
  | globally
  deriving DecidableEq, Repr

structure Target where
  kind : TargetKind
  key : String
  deriving DecidableEq, Repr

abbrev Content := List (BitVec 8)

abbrev Signature := BitVec 512

structure Statement where
  schema : String
  version : Nat
  target : Target
  versionLabel : String
  contentSHA256 : SHA256
  contentBytes : Int
  signerFingerprint : SHA256
  createdAt : Nat
  deriving DecidableEq, Repr

structure Artifact where
  statement : Statement
  signature : Signature
  content : Content
  deriving DecidableEq, Repr

/-- The check an artifact failed. -/
inductive VersionError where
  | malformed
  | wrongTarget
  | digestMismatch
  | wrongKey
  | signature
  deriving DecidableEq, Repr

def statementSchema : String := "hexroute.config-version.v1"

def statementVersion : Nat := 1

def maxContentBytes : Nat := 128 * 1024

/-- A lowercase letter or a digit, and then at most so many of these and of
some marks. -/
def namedWith (marks : List Char) (longest : Nat) (text : String) : Bool :=
  match text.toList with
  | [] => false
  | first :: rest =>
      (lowercase first || decimal first) && decide (rest.length ≤ longest) &&
        rest.all fun rune => lowercase rune || decimal rune || rune ∈ marks

def validLabel : String → Bool :=
  namedWith ['.', '_', '-'] 127

def Target.validate (target : Target) : Bool :=
  namedWith ['.', '_', ':', '-'] 191 target.key

def Artifact.validateStructure (artifact : Artifact) : Bool :=
  decide (artifact.statement.schema = statementSchema) &&
    decide (artifact.statement.version = statementVersion) &&
    artifact.statement.target.validate &&
    validLabel artifact.statement.versionLabel &&
    decide (0 < artifact.statement.contentBytes) &&
    decide (artifact.statement.contentBytes ≤ maxContentBytes) &&
    decide (artifact.content ≠ []) &&
    decide (artifact.content.length ≤ maxContentBytes)

/-- What a host is built with: how bytes read as an artifact, the digest, the
fingerprint of the pinned key and what it has signed, and the target the host
is. -/
structure Trust (β : Type) where
  parse : β → Option Artifact
  sha256 : Content → SHA256
  fingerprint : SHA256
  genuine : Statement → Signature → Bool
  target : Target

variable {β : Type} (trust : Trust β)

/-- Read a stored artifact. -/
def decode (encoded : β) : Except VersionError Artifact :=
  match trust.parse encoded with
  | none => .error .malformed
  | some artifact =>
      if artifact.validateStructure then .ok artifact else .error .malformed

/-- The content of an artifact the host may apply. -/
def verify (artifact : Artifact) : Except VersionError Content := do
  refuse (!trust.target.validate) .malformed
  refuse (!artifact.validateStructure) .malformed
  refuse (artifact.statement.target ≠ trust.target) .wrongTarget
  refuse
    ((artifact.content.length : Int) ≠ artifact.statement.contentBytes ∨
      trust.sha256 artifact.content ≠ artifact.statement.contentSHA256)
    .digestMismatch
  refuse (artifact.statement.signerFingerprint ≠ trust.fingerprint) .wrongKey
  refuse (!trust.genuine artifact.statement artifact.signature) .signature
  pure artifact.content

variable {trust}

/-- What is verified is the content its digest names. -/
theorem content_of_verify
    {artifact : Artifact} {content : Content}
    (verified : verify trust artifact = .ok content) :
    content = artifact.content ∧
      trust.sha256 artifact.content = artifact.statement.contentSHA256 := by
  unfold verify at verified
  simp only [bind_eq_ok_iff, refuse_eq_ok_iff, pure_eq_ok_iff, not_or,
    not_not] at verified
  obtain ⟨_, _, _, _, _, _, _, ⟨_, digest⟩, _, _, _, _, same⟩ := verified
  exact ⟨same.symm, digest⟩

end Hexroute.IngressAgent
