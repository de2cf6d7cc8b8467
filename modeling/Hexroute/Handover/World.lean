import Hexroute.Lib.Interruption

/-!
# The tunnel and who owns it

A claim on disk says that this runtime owns the tunnel, a session says how far
a transaction got, and tunnel processes run or do not.  Every call to a
collaborator is done, fails, or is where a crash lands; which of these is
decided outside, for every call anew.
-/

namespace Hexroute.Handover

open Hexroute.Lib

inductive Phase where
  | prepared
  | claimed
  | started
  | proven
  | aborted
  | stopping
  | released
  | restored
  deriving DecidableEq, Repr

inductive Kind where
  | handover
  | release
  deriving DecidableEq, Repr

/-- The durable record of a transaction.  Its serial is not on disk: it tells
transactions apart that have one name. -/
structure Session where
  transaction : String
  phase : Phase
  rehearsal : Bool
  startedPID : Nat
  kind : Kind
  serial : Nat
  deriving DecidableEq, Repr

/-- A claim and the transaction that placed it, if it was one of this
runtime's. -/
structure Claim where
  transaction : String
  placer : Option Nat
  deriving DecidableEq, Repr

/-- A claim that was removed by aborting a transaction. -/
structure Removal where
  placer : Option Nat
  aborted : Nat
  rehearsal : Bool
  deriving DecidableEq, Repr

/-- What outlasts the process: the claim, the session and this runtime's own
tunnel processes.  Beside them stands how many transactions were begun, which
claims aborts removed, whether this runtime gave the tunnel up since a run was
begun, and whether it took it again after that. -/
structure Facts where
  claim : Option Claim
  session : Option Session
  own : List Nat
  serials : Nat
  removals : List Removal
  givenUp : Bool
  undone : Bool
  deriving DecidableEq, Repr

/-- The facts, the tunnel processes of the previous owner, and the time. -/
structure World extends Facts where
  incumbent : List Nat
  time : Nat
  deriving DecidableEq, Repr

inductive HandoverError where
  | invalidPolicy
  | noTunnel
  | noIncumbent
  | noOwnTunnel
  | invalidSession
  | inFlight
  | held
  | possession
  | stillThere
  | notReleased
  | failedCall
  deriving DecidableEq, Repr

inductive Operation where
  | readSession
  | writeSession
  | clearSession
  | readClaim
  | placeClaim
  | releaseClaim
  | startTunnel
  | stopTunnel
  | ownRunning
  | stopOwn
  | incumbentRunning
  | stopIncumbent
  | traversed
  deriving DecidableEq, Repr

inductive Fate where
  | done
  | fails
  | crashes
  deriving DecidableEq, Repr

/-- A call that cannot fail. -/
def Fate.willing : Fate → Fate
  | .fails => .done
  | fate => fate

/-- What the world does at each point of time. -/
structure Outside where
  fate : Operation → Nat → Fate
  pid : Nat → Nat
  traversed : Nat → Bool
  expired : Nat → Bool
  interrupted : Nat → Bool

/-- Everything is done and every proof is given. -/
def Outside.smooth : Outside where
  fate := fun _ _ => .done
  pid := fun time => time
  traversed := fun _ => true
  expired := fun _ => false
  interrupted := fun _ => false

abbrev Program := EStateM (Stop HandoverError) World

def settle (fate : Fate) (effect : World → World) : Program Unit :=
  fun world =>
    let later := fun world : World => { world with time := world.time + 1 }
    match fate with
    | .done => .ok () (later (effect world))
    | .fails => .error (.failed .failedCall) (later world)
    | .crashes => .error .crashed (later world)

def fail {α : Type} (error : HandoverError) : Program α :=
  throw (.failed error)

def reject (condition : Prop) [Decidable condition] (error : HandoverError) :
    Program Unit :=
  if condition then fail error else pure ()

section Calls

variable (outside : Outside)

def perform (operation : Operation) (effect : World → World) :
    Program Unit :=
  fun world => settle (outside.fate operation world.time) effect world

/-! ## The session -/

def readSession : Program (Option Session) := do
  perform outside .readSession id
  let world ← get
  pure world.session

def inFlight (existing : Option Session) : Prop :=
  ∃ session ∈ existing,
    session.phase ≠ .proven ∧ session.phase ≠ .aborted

instance (existing : Option Session) : Decidable (inFlight existing) :=
  inferInstanceAs
    (Decidable
      (∃ session ∈ existing,
        session.phase ≠ .proven ∧ session.phase ≠ .aborted))

def newSession (world : World) (transaction : String) (rehearsal : Bool)
    (kind : Kind) : Session where
  transaction := transaction
  phase := .prepared
  rehearsal := rehearsal
  startedPID := 0
  kind := kind
  serial := world.serials

/-- A run begins: what was given up may be taken again. -/
def startsRun (session : Session) : Bool :=
  decide (session.kind = .handover) && !session.rehearsal

/-- Record a new transaction beside none that is in flight. -/
def beginSession (transaction : String) (rehearsal : Bool) (kind : Kind) :
    Program Session := do
  reject (transaction = "") .invalidSession
  let existing ← readSession outside
  reject (inFlight existing) .inFlight
  let world ← get
  let session := newSession world transaction rehearsal kind
  perform outside .writeSession fun world =>
    { world with
      session := some session
      serials := world.serials + 1
      givenUp := world.givenUp && !startsRun session }
  pure session

def advance (session : Session) (phase : Phase) : Program Session := do
  let reached := { session with phase := phase }
  perform outside .writeSession fun world =>
    { world with session := some reached }
  pure reached

def clear : Program Unit :=
  perform outside .clearSession fun world => { world with session := none }

/-! ## The claim -/

/-- Place a claim for a transaction; one that is there is not replaced. -/
def place (session : Session) : Program Unit := do
  perform outside .readClaim id
  let world ← get
  reject (world.claim ≠ none) .held
  perform outside .placeClaim fun world =>
    { world with
      claim := some ⟨session.transaction, some session.serial⟩
      undone := world.undone || world.givenUp }

def releaseClaim : Program Unit :=
  perform outside .releaseClaim fun world => { world with claim := none }

/-- The claim an abort of the session would remove. -/
def removal (session : Session) (claim : Option Claim) : List Removal :=
  claim.toList.map fun claim =>
    ⟨claim.placer, session.serial, session.rehearsal⟩

/-- Remove whatever claim is there, in aborting a session. -/
def releaseClaimOf (session : Session) : Program Unit :=
  perform outside .releaseClaim fun world =>
    { world with
      claim := none
      removals := removal session world.claim ++ world.removals }

/-! ## The tunnels -/

def startTunnel : Program Nat := do
  let world ← get
  let pid := outside.pid world.time + 1
  perform outside .startTunnel fun world =>
    { world with
      own := pid :: world.own
      undone := world.undone || world.givenUp }
  pure pid

/-- Stop what was started; stopping a process that runs succeeds. -/
def stopTunnel (pid : Nat) : Program Unit := fun world =>
  let fate := outside.fate .stopTunnel world.time
  settle (if pid ∈ world.own then fate.willing else fate)
    (fun world => { world with own := world.own.filter (· ≠ pid) }) world

def ownRunning : Program (Option Nat) := do
  perform outside .ownRunning id
  let world ← get
  pure world.own.head?

/-- Stop this runtime's tunnel, to give it up or to exchange it. -/
def stopOwnProcess (relinquish : Bool) (pid : Nat) : Program Unit :=
  perform outside .stopOwn fun world =>
    { world with
      own := world.own.filter (· ≠ pid)
      givenUp := world.givenUp || relinquish }

def incumbentRunning : Program (Option Nat) := do
  perform outside .incumbentRunning id
  let world ← get
  pure world.incumbent.head?

def stopIncumbent (pid : Nat) : Program Unit :=
  perform outside .stopIncumbent fun world =>
    { world with incumbent := world.incumbent.filter (· ≠ pid) }

end Calls

end Hexroute.Handover
