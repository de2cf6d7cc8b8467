import Hexroute.Lib.History
import Hexroute.Lib.Refusal
import Hexroute.Policy.Text

/-!
# The configuration ledger

The operator publishes configuration versions, and passes of a prover move
the latest version of a target through its lifecycle, from what the heartbeat
of the host says.  Times are counted in microseconds, as the ledger keeps
them, and the zero time is none.
-/

namespace Hexroute.ConfigProve

open Hexroute.Lib
open Hexroute.Policy (UUID SHA256 validUUID)

inductive Lifecycle where
  | staged
  | active
  | proven
  | retired
  | rejected
  deriving DecidableEq, Repr

inductive TargetKind where
  | node
  | group
  | globally
  deriving DecidableEq, Repr

/-- What a heartbeat was missing. -/
inductive Reason where
  | heartbeatUnavailable
  | generationNotRunning
  | transportUnhealthy
  deriving DecidableEq, Repr

inductive ProveError where
  | notRecorded
  | noVersion
  | labelReused
  | database
  deriving DecidableEq, Repr

structure Version where
  configVersionID : UUID
  targetKind : TargetKind
  targetKey : String
  versionLabel : String
  contentSHA256 : SHA256
  signingKeyID : String
  lifecycle : Lifecycle
  createdAt : Nat
  activatedAt : Option Nat
  provenAt : Option Nat
  retiredAt : Option Nat
  unprovenReason : Option Reason
  deriving DecidableEq, Repr

inductive DeploymentStatus where
  | started
  | healthy
  | rolledBack
  deriving DecidableEq, Repr

structure Deployment where
  deploymentID : UUID
  targetKey : String
  applicationVersion : String
  artifactSHA256 : SHA256
  configVersionID : UUID
  status : DeploymentStatus
  startedAt : Nat
  completedAt : Option Nat
  deriving DecidableEq, Repr

/-- The two tables; a version has its identity for itself, and a label. -/
structure Ledger where
  versions : List Version
  deployments : List Deployment
  distinct : (versions.map (·.configVersionID)).Nodup
  labelled : ∀ row ∈ versions, row.versionLabel ≠ ""

def Ledger.empty : Ledger where
  versions := []
  deployments := []
  distinct := List.nodup_nil
  labelled _ member := absurd member List.not_mem_nil

namespace Ledger

def version (ledger : Ledger) (id : UUID) : Option Version :=
  ledger.versions.find? fun row => row.configVersionID = id

/-- Where a version stands. -/
def lifecycle (ledger : Ledger) (id : UUID) : Option Lifecycle :=
  (ledger.version id).map (·.lifecycle)

/-! ## Publishing -/

/-- The row a publisher adds: it is staged and nothing has become of it. -/
def stagedRow (id : UUID) (kind : TargetKind) (key label : String)
    (content : SHA256) (signingKeyID : String) (createdAt : Nat) : Version where
  configVersionID := id
  targetKind := kind
  targetKey := key
  versionLabel := label
  contentSHA256 := content
  signingKeyID := signingKeyID
  lifecycle := .staged
  createdAt := createdAt
  activatedAt := none
  provenAt := none
  retiredAt := none
  unprovenReason := none

/-- Add a version with a label of at most 128 characters, unless its target
has one of that label; that one must then be the same. -/
def publish (ledger : Ledger) (id : UUID) (kind : TargetKind)
    (key label : String) (content : SHA256) (signingKeyID : String)
    (createdAt : Nat) : Except ProveError Ledger :=
  match
    ledger.versions.find? fun row =>
      row.targetKind = kind ∧ row.targetKey = key ∧ row.versionLabel = label
  with
  | some row => do
      refuse
        (row.signingKeyID ≠ signingKeyID ∨ row.contentSHA256 ≠ content)
        .labelReused
      pure ledger
  | none =>
      if known :
          id ∈ ledger.versions.map (·.configVersionID) ∨ label = "" ∨
            128 < label.length then
        .error .database
      else
        .ok
          { versions :=
              ledger.versions ++
                [stagedRow id kind key label content signingKeyID createdAt]
            deployments := ledger.deployments
            distinct := by
              rw [List.map_append, List.nodup_append]
              refine ⟨ledger.distinct, List.nodup_singleton _, ?_⟩
              intro held member added single same
              rw [List.map_singleton, List.mem_singleton] at single
              rw [same, single] at member
              exact known (Or.inl member)
            labelled := by
              intro row member
              rcases List.mem_append.mp member with held | added
              · exact ledger.labelled row held
              · rw [List.mem_singleton.mp added]
                exact fun unnamed => known (Or.inr (Or.inl unnamed)) }

/-! ## Reading and marking -/

/-- The later of two versions: by when they were created, then by label. -/
def later (held : Option Version) (row : Version) : Option Version :=
  match held with
  | none => some row
  | some other =>
      if other.createdAt < row.createdAt ∨
          other.createdAt = row.createdAt ∧
            other.versionLabel < row.versionLabel then
        some row
      else some other

def latestVersion (ledger : Ledger) (kind : TargetKind) (key : String) :
    Except ProveError Version := do
  refuse (key = "") .notRecorded
  match
    (ledger.versions.filter fun row =>
      row.targetKind = kind ∧ row.targetKey = key).foldl later none
  with
  | none => .error .noVersion
  | some row => .ok row

/-- A change of one row of the versions, which keeps whose row it is and takes
a version on in its lifecycle. -/
structure Change where
  applies : Version → Bool
  change : Version → Version
  identity : ∀ row, (change row).configVersionID = row.configVersionID
  kind : ∀ row, (change row).targetKind = row.targetKind
  key : ∀ row, (change row).targetKey = row.targetKey
  label : ∀ row, (change row).versionLabel = row.versionLabel
  created : ∀ row, (change row).createdAt = row.createdAt
  unstaged : ∀ row, (change row).lifecycle ≠ .staged

namespace Change

/-- What the change makes of a row. -/
def on (change : Change) (id : UUID) (row : Version) : Version :=
  if row.configVersionID = id ∧ change.applies row then change.change row
  else row

def activation (time : Nat) : Change where
  applies row := row.lifecycle = .staged
  change row :=
    { row with
      lifecycle := .active
      activatedAt := some (row.activatedAt.getD time)
      unprovenReason := none }
  identity _ := rfl
  kind _ := rfl
  key _ := rfl
  label _ := rfl
  created _ := rfl
  unstaged _ := nofun

def proof (time : Nat) : Change where
  applies row := row.lifecycle = .active
  change row :=
    { row with
      lifecycle := .proven
      provenAt := some time
      unprovenReason := none }
  identity _ := rfl
  kind _ := rfl
  key _ := rfl
  label _ := rfl
  created _ := rfl
  unstaged _ := nofun

def rejection (time : Nat) (reason : Reason) : Change where
  applies row := row.lifecycle = .staged ∨ row.lifecycle = .active
  change row :=
    { row with
      lifecycle := .rejected
      retiredAt := some time
      unprovenReason := some reason }
  identity _ := rfl
  kind _ := rfl
  key _ := rfl
  label _ := rfl
  created _ := rfl
  unstaged _ := nofun

variable {change : Change} {id : UUID} {row : Version}

@[simp]
theorem on_identity :
    (change.on id row).configVersionID = row.configVersionID := by
  unfold on
  split
  · exact change.identity row
  · rfl

@[simp]
theorem on_kind : (change.on id row).targetKind = row.targetKind := by
  unfold on
  split
  · exact change.kind row
  · rfl

@[simp]
theorem on_key : (change.on id row).targetKey = row.targetKey := by
  unfold on
  split
  · exact change.key row
  · rfl

@[simp]
theorem on_label : (change.on id row).versionLabel = row.versionLabel := by
  unfold on
  split
  · exact change.label row
  · rfl

@[simp]
theorem on_created : (change.on id row).createdAt = row.createdAt := by
  unfold on
  split
  · exact change.created row
  · rfl

/-- No change makes a version staged. -/
theorem on_of_staged (staged : (change.on id row).lifecycle = .staged) :
    change.on id row = row := by
  unfold on at staged ⊢
  split
  · rename_i applies
    rw [if_pos applies] at staged
    exact absurd staged (change.unstaged row)
  · rfl

theorem on_of_ne (other : row.configVersionID ≠ id) :
    change.on id row = row :=
  if_neg fun facts => other facts.1

end Change

/-- Change the row of a version. -/
def changed (ledger : Ledger) (id : UUID) (change : Change)
    (deployments : List Deployment) : Ledger where
  versions := ledger.versions.map (change.on id)
  deployments := deployments
  distinct := by
    rw [List.map_map]
    have same :
        (fun row : Version => row.configVersionID) ∘ change.on id =
          fun row => row.configVersionID :=
      funext fun _ => Change.on_identity
    rw [same]
    exact ledger.distinct
  labelled := by
    intro row member
    obtain ⟨held, heldMember, rfl⟩ := List.mem_map.mp member
    rw [Change.on_label]
    exact ledger.labelled held heldMember

/-- A host was seen running the version, and a deployment is opened unless
there is one. -/
def markActive (ledger : Ledger) (applicationVersion : String)
    (version : Version) (deploymentID : UUID) (time : Nat) :
    Except ProveError Ledger := do
  refuse (!validUUID deploymentID) .notRecorded
  if ∃ row ∈ ledger.deployments,
      row.configVersionID = version.configVersionID ∧
        row.targetKey = version.targetKey then
    pure
      (ledger.changed version.configVersionID (.activation time)
        ledger.deployments)
  else do
    refuse
      (∃ row ∈ ledger.deployments, row.deploymentID = deploymentID) .database
    pure
      (ledger.changed version.configVersionID (.activation time)
        (ledger.deployments ++
          [{ deploymentID := deploymentID
             targetKey := version.targetKey
             applicationVersion := applicationVersion
             artifactSHA256 := version.contentSHA256
             configVersionID := version.configVersionID
             status := .started
             startedAt := time
             completedAt := none }]))

/-- The deployments of a version are completed with a status; none may be
completed before it was started. -/
def completed (ledger : Ledger) (version : Version)
    (status : DeploymentStatus) (time : Nat) :
    Except ProveError (List Deployment) := do
  refuse
    (∃ row ∈ ledger.deployments,
      row.configVersionID = version.configVersionID ∧
        row.targetKey = version.targetKey ∧ time < row.startedAt)
    .database
  pure
    (ledger.deployments.map fun row =>
      if row.configVersionID = version.configVersionID ∧
          row.targetKey = version.targetKey then
        { row with status := status, completedAt := some time }
      else row)

def markProven (ledger : Ledger) (version : Version) (time : Nat) :
    Except ProveError Ledger := do
  let deployments ← ledger.completed version .healthy time
  pure (ledger.changed version.configVersionID (.proof time) deployments)

def markRejected (ledger : Ledger) (version : Version) (time : Nat)
    (reason : Reason) : Except ProveError Ledger := do
  let deployments ← ledger.completed version .rolledBack time
  pure
    (ledger.changed version.configVersionID (.rejection time reason)
      deployments)

end Ledger

/-! ## The prover -/

/-- What the signed heartbeat reported; no generation is the empty text. -/
structure Observation where
  generation : String
  healthy : Bool
  deriving DecidableEq, Repr

def unprovenReason (observation : Observation) (label : String) :
    Option Reason :=
  if observation.generation = "" then some .heartbeatUnavailable
  else if observation.generation ≠ label then some .generationNotRunning
  else if !observation.healthy then some .transportUnhealthy
  else none

/-- The window fits inside the deadline. -/
structure Prover where
  window : Nat
  deadline : Nat
  positive : 0 < window
  fits : window < deadline

inductive Outcome where
  | activated
  | proven
  | rejected
  | pending
  | settled
  deriving DecidableEq, Repr

structure Result where
  outcome : Outcome
  versionLabel : String
  lifecycle : Lifecycle
  reason : Option Reason
  deriving DecidableEq, Repr

/-- One pass: what was observed when, and whether the database takes its
transactions. -/
structure Pass where
  observation : Observation
  deploymentID : UUID
  now : Nat
  reads : Bool
  writes : Bool
  deriving DecidableEq, Repr

variable (prover : Prover) (applicationVersion : String) (kind : TargetKind)
  (key : String)

/-- Record what the observation establishes about the latest version. -/
def prove (pass : Pass) (ledger : Ledger) :
    Except ProveError (Result × Ledger) := do
  refuse (pass.now = 0) .notRecorded
  refuse (!pass.reads) .database
  let version ← ledger.latestVersion kind key
  if version.lifecycle = .proven ∨ version.lifecycle = .rejected ∨
      version.lifecycle = .retired then
    pure (⟨.settled, version.versionLabel, version.lifecycle, none⟩, ledger)
  else
    match unprovenReason pass.observation version.versionLabel with
    | some reason =>
        if (pass.now : Int) - version.createdAt < prover.deadline then
          pure
            (⟨.pending, version.versionLabel, version.lifecycle, reason⟩,
              ledger)
        else do
          refuse (!pass.writes) .database
          let after ← ledger.markRejected version pass.now reason
          pure (⟨.rejected, version.versionLabel, .rejected, reason⟩, after)
    | none =>
        if version.lifecycle = .staged then do
          refuse (!pass.writes) .database
          let after ←
            ledger.markActive applicationVersion version pass.deploymentID
              pass.now
          pure (⟨.activated, version.versionLabel, .active, none⟩, after)
        else if version.activatedAt.getD 0 = 0 ∨
            (pass.now : Int) - version.activatedAt.getD 0 < prover.window then
          pure
            (⟨.pending, version.versionLabel, version.lifecycle, none⟩,
              ledger)
        else do
          refuse (!pass.writes) .database
          let after ← ledger.markProven version pass.now
          pure (⟨.proven, version.versionLabel, .proven, none⟩, after)

/-! ## Histories -/

/-- The operator publishes a version of some target, or a pass is made over
the one target. -/
inductive Step where
  | publish (id : UUID) (kind : TargetKind) (key label : String)
      (content : SHA256) (signingKeyID : String) (createdAt : Nat)
  | pass (pass : Pass)

def Ledger.next (ledger : Ledger) : Step → Ledger
  | .publish id targetKind targetKey label content signingKeyID createdAt =>
      match
        ledger.publish id targetKind targetKey label content signingKeyID
          createdAt
      with
      | .ok after => after
      | .error _ => ledger
  | .pass pass =>
      match prove prover applicationVersion kind key pass ledger with
      | .ok (_, after) => after
      | .error _ => ledger

/-- The ledger a history leads to. -/
def ledgerAfter (steps : List Step) : Ledger :=
  stateAfter (Ledger.next prover applicationVersion kind key) .empty steps

end Hexroute.ConfigProve
