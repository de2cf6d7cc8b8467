import Hexroute.IngressAgent.Version
import Hexroute.Lib.Effects
import Hexroute.Lib.History

/-!
# The agent of an ingress host

The agent fetches the current version of its target, applies it if it
verifies and is newer, and retains the version it replaces.  It returns to
the retained version when it is told to, or when the applied version has not
proved itself within a window.  What it knows is in four files; a time it
reads is never the zero time.
-/

namespace Hexroute.IngressAgent

open Hexroute.Lib
open Hexroute.Policy (SHA256)

inductive Outcome where
  | applied
  | unchanged
  | refused
  | unreachable
  | returned
  | proven
  | pending
  deriving DecidableEq, Repr

inductive Reason where
  | storeUnreachable
  | failed (check : VersionError)
  | notNewerThanRunning
  | applyFailed
  | heartbeatUnavailable
  | generationNotRunning
  | transportUnhealthy
  deriving DecidableEq, Repr

/-- A result in the form it is recorded; what is left out is none. -/
structure Result where
  outcome : Outcome
  versionLabel : Option String
  contentSHA256 : Option SHA256
  reason : Option Reason
  time : Nat
  deriving DecidableEq, Repr

inductive AgentError where
  | agent
  | noRetainedVersion
  | apply
  | version (error : VersionError)
  deriving DecidableEq, Repr

/-- The files of the agent, and the content and generation the runtime serves
if the last application went well. -/
structure Host (β : Type) where
  applied : Option β
  appliedAt : Option Nat
  retained : Option β
  lastResult : Option Result
  serves : Option (Content × String)

def Host.fresh {β : Type} : Host β where
  applied := none
  appliedAt := none
  retained := none
  lastResult := none
  serves := none

/-- What a call meets: whether the applier does what it is asked for, the
first and the second time, and the readings of the clock. -/
structure Surroundings where
  applies : Nat → Bool
  clock : Nat → Nat

abbrev Program (β : Type) := EStateM AgentError (Host β)

section Calls

variable {β : Type} (trust : Trust β) (surroundings : Surroundings)

/-! ## The store -/

def read (file : Option β) : Program β (Option (Artifact × β)) :=
  match file with
  | none => pure none
  | some encoded =>
      match decode trust encoded with
      | .error error => throw (.version error)
      | .ok artifact => pure (some (artifact, encoded))

/-- Only what decodes is stored. -/
def write (encoded : β) (store : Host β → Host β) : Program β Unit :=
  match decode trust encoded with
  | .error error => throw (.version error)
  | .ok _ => modify store

def setApplied (encoded : β) (time : Nat) : Program β Unit := do
  write trust encoded fun host => { host with applied := some encoded }
  modify fun host => { host with appliedAt := some time }

def retain (encoded : β) : Program β Unit :=
  write trust encoded fun host => { host with retained := some encoded }

def promoteRetained (time : Nat) : Program β Unit := do
  let host ← get
  match ← read trust host.retained with
  | none => throw .noRetainedVersion
  | some (_, encoded) => do
      setApplied trust encoded time
      modify fun host => { host with retained := none }

def record (result : Result) : Program β Result := do
  modify fun host => { host with lastResult := some result }
  pure result

/-! ## Applying -/

def apply (call : Nat) (content : Content) (generation : String) :
    Program β Bool := do
  modify fun host =>
    { host with
      serves :=
        if surroundings.applies call then some (content, generation)
        else none }
  pure (surroundings.applies call)

/-- Put the retained version back; that this may fail is left. -/
def applyRetained : Program β Unit := do
  let host ← get
  match host.retained.map (decode trust) with
  | some (.ok retained) =>
      match verify trust retained with
      | .ok content => do
          let _ ←
            apply surroundings 1 content retained.statement.versionLabel
          pure ()
      | .error _ => pure ()
  | _ => pure ()

/-- Retain what is applied, if something is. -/
def retainHeld (held : Option β) : Program β Unit :=
  match held with
  | some running => retain trust running
  | none => pure ()

def putBack (held : Option β) : Program β Unit :=
  match held with
  | some _ => applyRetained trust surroundings
  | none => pure ()

/-- Put a version into service that is to replace what was applied. -/
def replace (encoded : β) (artifact : Artifact) (content : Content)
    (held : Option β) : Program β Result := do
  retainHeld trust held
  if ← apply surroundings 0 content artifact.statement.versionLabel then do
    setApplied trust encoded (surroundings.clock 0)
    record
      ⟨.applied, artifact.statement.versionLabel,
        artifact.statement.contentSHA256, none, surroundings.clock 1⟩
  else do
    putBack trust surroundings held
    record
      ⟨.refused, artifact.statement.versionLabel, none, some .applyFailed,
        surroundings.clock 0⟩

/-- Obtain the current version and apply it if it verifies. -/
def sync (fetched : Option β) : Program β Result :=
  match fetched with
  | none =>
      record
        ⟨.unreachable, none, none, some .storeUnreachable,
          surroundings.clock 0⟩
  | some encoded =>
      match decode trust encoded with
      | .error error =>
          record
            ⟨.refused, none, none, some (.failed error),
              surroundings.clock 0⟩
      | .ok artifact =>
          match verify trust artifact with
          | .error error =>
              record
                ⟨.refused, artifact.statement.versionLabel, none,
                  some (.failed error), surroundings.clock 0⟩
          | .ok content => do
              let host ← get
              match ← read trust host.applied with
              | none =>
                  replace trust surroundings encoded artifact content none
              | some (applied, held) =>
                  if applied.statement.contentSHA256 =
                      artifact.statement.contentSHA256 then
                    record
                      ⟨.unchanged, artifact.statement.versionLabel,
                        artifact.statement.contentSHA256, none,
                        surroundings.clock 0⟩
                  else if applied.statement.createdAt <
                      artifact.statement.createdAt then
                    replace trust surroundings encoded artifact content held
                  else
                    record
                      ⟨.refused, artifact.statement.versionLabel, none,
                        some .notNewerThanRunning, surroundings.clock 0⟩

/-- Put the retained version back. -/
def giveBack : Program β Result := do
  let host ← get
  match ← read trust host.retained with
  | none => throw .noRetainedVersion
  | some (retained, _) =>
      match verify trust retained with
      | .error error =>
          record
            ⟨.refused, none, none, some (.failed error),
              surroundings.clock 0⟩
      | .ok content => do
          if ← apply surroundings 0 content
              retained.statement.versionLabel then do
            promoteRetained trust (surroundings.clock 0)
            record
              ⟨.returned, retained.statement.versionLabel,
                retained.statement.contentSHA256, none,
                surroundings.clock 1⟩
          else throw .apply

/-! ## Proof -/

structure Observation where
  generation : String
  healthy : Bool
  deriving DecidableEq, Repr

/-- Why a version is not proven; a heartbeat that could not be read is
none. -/
def unprovenReason (observation : Option Observation) (label : String) :
    Option Reason :=
  match observation with
  | none => some .heartbeatUnavailable
  | some seen =>
      if seen.generation ≠ label then some .generationNotRunning
      else if !seen.healthy then some .transportUnhealthy
      else none

/-- Decide whether the applied version has proved itself, and return from it
if it has not and its window is over.  The clock is read once to decide and
then for the return. -/
def proveOrReturn (observation : Option Observation) (window : Int) :
    Program β Result :=
  if window ≤ 0 then throw .agent
  else do
    let host ← get
    match ← read trust host.applied with
    | none => throw .agent
    | some (applied, _) =>
        match host.appliedAt with
        | none => throw .agent
        | some appliedAt =>
            match
              unprovenReason observation applied.statement.versionLabel
            with
            | none =>
                record
                  ⟨.proven, applied.statement.versionLabel,
                    applied.statement.contentSHA256, none,
                    surroundings.clock 0⟩
            | some reason =>
                if (surroundings.clock 0 : Int) - appliedAt < window then
                  record
                    ⟨.pending, applied.statement.versionLabel,
                      applied.statement.contentSHA256, some reason,
                      surroundings.clock 1⟩
                else do
                  match ← read trust host.retained with
                  | none =>
                      record
                        ⟨.refused, applied.statement.versionLabel, none,
                          some reason, surroundings.clock 1⟩
                  | some _ => do
                      let result ←
                        giveBack trust
                          { surroundings with
                            clock := fun reading =>
                              surroundings.clock (reading + 1) }
                      record
                        { result with
                          reason := some reason
                          time := surroundings.clock 3 }

end Calls

/-! ## Histories -/

/-- A host and the object its store holds as the current one. -/
structure World (β : Type) where
  host : Host β
  current : Option β

def World.fresh {β : Type} : World β where
  host := .fresh
  current := none

/-- The current object is replaced, or the agent is called; a store may be
out of reach. -/
inductive Step (β : Type) where
  | publish (object : Option β)
  | sync (surroundings : Surroundings) (reachable : Bool)
  | giveBack (surroundings : Surroundings)
  | prove (surroundings : Surroundings) (observation : Option Observation)
      (window : Int)

section Histories

variable {β : Type} (trust : Trust β)

def World.fetched (world : World β) (reachable : Bool) : Option β :=
  if reachable then world.current else none

/-- The call of a step and its answer. -/
def World.answer (world : World β) :
    Step β → EStateM.Result AgentError (Host β) (Option Result)
  | .publish _ => .ok none world.host
  | .sync surroundings reachable =>
      (some <$> sync trust surroundings (world.fetched reachable)) world.host
  | .giveBack surroundings =>
      (some <$> giveBack trust surroundings) world.host
  | .prove surroundings observation window =>
      (some <$> proveOrReturn trust surroundings observation window)
        world.host

/-- What a step ended in, if its call gave a result. -/
def World.outcome (world : World β) (step : Step β) : Option Outcome :=
  match world.answer trust step with
  | .ok (some result) _ => some result.outcome
  | _ => none

def World.next (world : World β) (step : Step β) : World β where
  host :=
    match world.answer trust step with
    | .ok _ after => after
    | .error _ after => after
  current :=
    match step with
    | .publish object => object
    | _ => world.current

/-- The world a history leads to. -/
def worldAfter (steps : List (Step β)) : World β :=
  stateAfter (World.next trust) .fresh steps

end Histories

end Hexroute.IngressAgent
