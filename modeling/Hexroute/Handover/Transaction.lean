import Hexroute.Handover.World

/-!
# Handing the tunnel over and back

A run claims the tunnel, takes it from its holder, starts this runtime's own
and proves that traffic traverses it.  A release stops this runtime's tunnel,
gives the claim back and waits for the previous owner.  An abort undoes what a
session on disk says was reached.
-/

namespace Hexroute.Handover

open Hexroute.Lib

structure Policy where
  proofs : Int
  deadline : Int
  between : Int
  possession : Int
  deriving DecidableEq, Repr

def Policy.invalid (policy : Policy) : Prop :=
  policy.proofs < 1 ∨ policy.deadline ≤ 0 ∨ policy.possession ≤ 0 ∨
    policy.between ≤ 0

instance (policy : Policy) : Decidable policy.invalid :=
  inferInstanceAs (Decidable (_ ∨ _))

/-- How often something is looked at within a time; every wait takes the time
between two looks. -/
def Policy.rounds (policy : Policy) (within : Int) : Nat :=
  (within / policy.between).toNat + 1

/-- What a transaction is given: which collaborators there are, and whether a
release gives the tunnel up. -/
structure Transaction where
  relinquish : Bool
  hasIncumbent : Bool
  hasOwn : Bool
  hasTunnel : Bool
  policy : Policy
  deriving DecidableEq, Repr

inductive Reason where
  | notTraversed
  | notTraversedInTime
  | claimRefused (error : HandoverError)
  | notPossessed (error : HandoverError)
  | tunnelNotStarted
  | proofNotTaken
  | interrupted
  | notStopped (reason : Reason)
  | ownNotStopped (error : HandoverError)
  | claimNotReleased (error : HandoverError)
  | ownerNotTraversed
  | abandoned (phase : Phase)
  | releaseAbandoned (phase : Phase)
  deriving DecidableEq, Repr

structure Outcome where
  transaction : String
  kind : Kind
  rehearsal : Bool
  completed : Bool
  phase : Phase
  proofs : Nat
  reason : Option Reason
  deriving DecidableEq, Repr

section Transactions

variable (outside : Outside) (transaction : Transaction)

/-! ## Waiting -/

/-- A proof that fails starts the count anew. -/
def tally (traversed : Bool) (consecutive : Nat) : Nat :=
  if traversed then consecutive + 1 else 0

/-- Consecutive traversals until there are enough or the deadline is over, and
why it was given up. -/
def proveWithin (needed : Int) : Nat → Nat → Program (Nat × Option Reason)
  | 0, consecutive => pure (consecutive, none)
  | rounds + 1, consecutive => do
      let world ← get
      if outside.expired world.time then
        pure (consecutive, none)
      else do
        match ← attempted (perform outside .traversed id) with
        | none => pure (consecutive, some .proofNotTaken)
        | some _ => do
            let counted := tally (outside.traversed world.time) consecutive
            if
              outside.traversed world.time = true ∧
                needed ≤ (counted : Int)
            then pure (counted, none)
            else if outside.interrupted world.time then
              pure (counted, some .interrupted)
            else proveWithin needed rounds counted

def prove : Program (Nat × Option Reason) :=
  proveWithin outside transaction.policy.proofs
    (transaction.policy.rounds transaction.policy.deadline) 0

/-- Look until nothing runs any more. -/
def waitUntilGone (running : Program (Option Nat)) : Nat → Program Unit
  | 0 => fail .stillThere
  | rounds + 1 => do
      match ← running with
      | none => pure ()
      | some _ => do
          let world ← get
          reject
            (outside.expired world.time = true ∨
              outside.interrupted world.time = true)
            .stillThere
          waitUntilGone running rounds

/-- Stop whatever holds the tunnel, and wait until it is gone. -/
def possess : Program Unit := do
  match ← incumbentRunning outside with
  | none => pure ()
  | some pid => do
      stopIncumbent outside pid
      waitUntilGone outside (incumbentRunning outside)
        (transaction.policy.rounds transaction.policy.possession)

/-- Stop this runtime's tunnel and wait until it is gone; nothing running is
no error. -/
def stopOwn : Program Unit := do
  match ← ownRunning outside with
  | none =>
      modify fun world =>
        { world with givenUp := world.givenUp || transaction.relinquish }
  | some pid => do
      stopOwnProcess outside transaction.relinquish pid
      waitUntilGone outside (ownRunning outside)
        (transaction.policy.rounds transaction.policy.possession)

/-! ## Handover -/

/-- Stop what was started, if it is known. -/
def stopStarted (pid : Nat) (reason : Reason) : Program Reason :=
  if 0 < pid ∧ transaction.hasTunnel = true then do
    match ← attempted (stopTunnel outside pid) with
    | none => pure (.notStopped reason)
    | some _ => pure reason
  else pure reason

/-- Stop what was started, release the claim and close the session. -/
def abortSession (outcome : Outcome) (session : Session) (pid : Nat)
    (reason : Reason) : Program Outcome := do
  let reason ← stopStarted outside transaction pid reason
  releaseClaimOf outside session
  let _ ← advance outside session .aborted
  clear outside
  pure { outcome with reason := some reason, phase := .aborted }

/-- Everything but claiming and starting. -/
def rehearse (outcome : Outcome) (session : Session) : Program Outcome := do
  let (proofs, reason) ← prove outside transaction
  let completed := decide (transaction.policy.proofs ≤ (proofs : Int))
  let reason :=
    if completed then reason else some (reason.getD .notTraversed)
  let phase := if completed then Phase.proven else .aborted
  let _ ← advance outside session phase
  clear outside
  pure
    { outcome with
      proofs := proofs
      reason := reason
      completed := completed
      phase := phase }

/-- The tunnel was started; it stays if it is proved. -/
def proveStarted (outcome : Outcome) (session : Session) (pid : Nat) :
    Program Outcome := do
  let (proofs, reason) ← prove outside transaction
  let proved := { outcome with proofs := proofs }
  if (proofs : Int) < transaction.policy.proofs then
    abortSession outside transaction proved session pid
      (reason.getD .notTraversedInTime)
  else do
    let _ ← advance outside session .proven
    clear outside
    pure { proved with phase := .proven, completed := true }

/-- The tunnel was taken from its holder. -/
def startOwn (outcome : Outcome) (session : Session) : Program Outcome := do
  let session ← advance outside session .started
  let outcome := { outcome with phase := .started }
  match ← attempted (startTunnel outside) with
  | none =>
      abortSession outside transaction outcome session 0 .tunnelNotStarted
  | some pid =>
      proveStarted outside transaction outcome
        { session with startedPID := pid } pid

/-- The session was begun. -/
def handOver (outcome : Outcome) (session : Session) : Program Outcome := do
  let session ← advance outside session .claimed
  let outcome := { outcome with phase := .claimed }
  match ← caught (place outside session) with
  | some error =>
      abortSession outside transaction outcome session 0 (.claimRefused error)
  | none => do
      match ← caught (possess outside transaction) with
      | some error =>
          abortSession outside transaction outcome session 0
            (.notPossessed error)
      | none => startOwn outside transaction outcome session

def run (id : String) (rehearsal : Bool) : Program Outcome := do
  reject transaction.policy.invalid .invalidPolicy
  reject (rehearsal = false ∧ transaction.hasTunnel = false) .noTunnel
  reject (rehearsal = false ∧ transaction.hasIncumbent = false) .noIncumbent
  let session ← beginSession outside id rehearsal .handover
  let outcome : Outcome :=
    { transaction := id
      kind := .handover
      rehearsal := rehearsal
      completed := false
      phase := .prepared
      proofs := 0
      reason := none }
  if rehearsal then rehearse outside transaction outcome session
  else handOver outside transaction outcome session

/-! ## Release -/

/-- Start this runtime's tunnel unless it is seen running. -/
def ensureOwn : Program Unit := do
  match ← attempted (ownRunning outside) with
  | some (some _) => pure ()
  | _ => do
      match ← attempted (startTunnel outside) with
      | none => fail .notReleased
      | some _ => pure ()

/-- Leave the tunnel with this runtime when it could not be stopped. -/
def keep (outcome : Outcome) (session : Session) (reason : Reason) :
    Program Outcome := do
  ensureOwn outside
  let _ ← advance outside session .aborted
  clear outside
  pure { outcome with reason := some reason, phase := .aborted }

/-- Take the tunnel again after the previous owner did not: the claim first,
then whatever runs, then this runtime's own. -/
def restore (outcome : Outcome) (session : Session) (reason : Reason) :
    Program Outcome := do
  let _ ← advance outside session .restored
  let refused ← caught (place outside session)
  reject (refused ≠ none ∧ refused ≠ some .held) .notReleased
  match ← attempted (possess outside transaction) with
  | none => fail .notReleased
  | some _ => do
      ensureOwn outside
      clear outside
      pure { outcome with reason := some reason, phase := .restored }

/-- The claim was given back; the previous owner is to raise the tunnel. -/
def awaitOwner (outcome : Outcome) (session : Session) : Program Outcome := do
  let (proofs, reason) ← prove outside transaction
  let outcome := { outcome with proofs := proofs }
  if (proofs : Int) < transaction.policy.proofs then
    let reason := reason.getD .ownerNotTraversed
    if transaction.relinquish then do
      clear outside
      pure { outcome with reason := some reason }
    else restore outside transaction outcome session reason
  else do
    let _ ← advance outside session .proven
    clear outside
    pure { outcome with phase := .proven, completed := true }

/-- This runtime's tunnel is stopped. -/
def giveBack (outcome : Outcome) (session : Session) : Program Outcome := do
  let session ← advance outside session .released
  let outcome := { outcome with phase := .released }
  match ← caught (releaseClaim outside) with
  | some error =>
      restore outside transaction outcome session (.claimNotReleased error)
  | none => awaitOwner outside transaction outcome session

def release (id : String) : Program Outcome := do
  reject transaction.policy.invalid .invalidPolicy
  reject (transaction.hasOwn = false) .noOwnTunnel
  reject (transaction.hasTunnel = false) .noTunnel
  reject (transaction.hasIncumbent = false) .noIncumbent
  let session ← beginSession outside id false .release
  let outcome : Outcome :=
    { transaction := id
      kind := .release
      rehearsal := false
      completed := false
      phase := .prepared
      proofs := 0
      reason := none }
  let session ← advance outside session .stopping
  let outcome := { outcome with phase := .stopping }
  match ← caught (stopOwn outside transaction) with
  | some error => keep outside outcome session (.ownNotStopped error)
  | none => giveBack outside transaction outcome session

/-! ## Abort -/

/-- Undo a release by its phase. -/
def abortRelease (outcome : Outcome) (session : Session) :
    Program Outcome := do
  reject
    (transaction.hasOwn = false ∨ transaction.hasTunnel = false ∨
      transaction.hasIncumbent = false)
    .noOwnTunnel
  let reason := Reason.releaseAbandoned session.phase
  match session.phase with
  | .prepared => do
      clear outside
      pure { outcome with reason := some reason }
  | .stopping => keep outside outcome session reason
  | _ => restore outside transaction outcome session reason

/-- Undo whatever a previous invocation left behind, if there is something in
flight. -/
def abort : Program (Option Outcome) := do
  match ← readSession outside with
  | none => pure none
  | some session => do
      let outcome : Outcome :=
        { transaction := session.transaction
          kind := session.kind
          rehearsal := session.rehearsal
          completed := false
          phase := session.phase
          proofs := 0
          reason := none }
      match session.kind with
      | .release =>
          some <$> abortRelease outside transaction outcome session
      | .handover =>
          some <$>
            abortSession outside transaction outcome session
              session.startedPID (.abandoned session.phase)

end Transactions

end Hexroute.Handover
