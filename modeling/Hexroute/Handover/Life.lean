import Hexroute.Handover.Transaction

/-!
# Histories of the tunnel

Transactions follow one another over one claim and one session.  Between them
another holder may place a claim, processes may die, and the previous owner
starts its tunnel only while there is no claim.
-/

namespace Hexroute.Handover

open Hexroute.Lib

inductive Step where
  | run
      (outside : Outside) (transaction : Transaction) (id : String)
      (rehearsal : Bool)
  | release (outside : Outside) (transaction : Transaction) (id : String)
  | abort (outside : Outside) (transaction : Transaction)
  | othersPlace (transaction : String)
  | ownDies (pid : Nat)
  | ownerStarts (pid : Nat)
  | ownerDies (pid : Nat)

def World.fresh : World where
  claim := none
  session := none
  own := []
  serials := 0
  removals := []
  givenUp := false
  undone := false
  incumbent := []
  time := 0

/-- What a program leaves, however it ends. -/
def left {α : Type} : EStateM.Result (Stop HandoverError) World α → World
  | .ok _ after => after
  | .error _ after => after

def World.next (world : World) : Step → World
  | .run outside transaction id rehearsal =>
      left (run outside transaction id rehearsal world)
  | .release outside transaction id => left (release outside transaction id world)
  | .abort outside transaction => left (abort outside transaction world)
  | .othersPlace transaction =>
      { world with
        claim := some (world.claim.getD ⟨transaction, none⟩) }
  | .ownDies pid => { world with own := world.own.filter (· ≠ pid) }
  | .ownerStarts pid =>
      if world.claim = none then
        { world with incumbent := pid :: world.incumbent }
      else world
  | .ownerDies pid =>
      { world with incumbent := world.incumbent.filter (· ≠ pid) }

theorem facts_ownerStarts (world : World) (pid : Nat) :
    (world.next (.ownerStarts pid)).toFacts = world.toFacts := by
  change (ite _ _ _ : World).toFacts = _
  split <;> rfl

/-- The worlds of a history in which every step meets a condition on it and on
the world before it. -/
inductive Reached (meets : World → Step → Prop) : World → Prop where
  | fresh : Reached meets .fresh
  | next {world : World} {step : Step}
      (earlier : Reached meets world) (met : meets world step) :
      Reached meets (world.next step)

def World.after (world : World) (steps : List Step) : World :=
  steps.foldl World.next world

/-- Every step meets a condition on it and on the world before it. -/
def Follows (meets : World → Step → Prop) : World → List Step → Prop
  | _, [] => True
  | world, step :: rest =>
      meets world step ∧ Follows meets (world.next step) rest

theorem reached_after
    {meets : World → Step → Prop} {world : World}
    (reached : Reached meets world) {steps : List Step}
    (follows : Follows meets world steps) :
    Reached meets (world.after steps) := by
  induction steps generalizing world with
  | nil => exact reached
  | cons step rest inductionHypothesis =>
      exact inductionHypothesis (.next reached follows.1) follows.2

/-- Every collaborator is there, one traversal is enough. -/
def Transaction.sample (relinquish : Bool) : Transaction where
  relinquish := relinquish
  hasIncumbent := true
  hasOwn := true
  hasTunnel := true
  policy := ⟨1, 2, 1, 2⟩

end Hexroute.Handover
