import Hexroute.Lib.Pairing
import Hexroute.Lib.Refusal
import Hexroute.Lib.StableSort

/-!
# Comparing decisions with rebuilds

A soak sets the decisions of this runtime against the rebuilds of the owning
one.  Decisions of a cause that are close together are an episode.  Episodes
take rebuilds in their order, each the nearest one that is left within the
window.
-/

namespace Hexroute.SoakCompare

open Hexroute.Lib

/-! ## Records -/

inductive Cause where
  | processGone
  | wakeGap
  | carrierChanged
  deriving DecidableEq, Repr

/-- The greatest duration in nanoseconds. -/
def maxDuration : Int := 2 ^ 63 - 1

/-- The time between two times, as far as a duration holds it.  Times are
nanoseconds since the zero time. -/
def elapsed (later earlier : Int) : Int :=
  max (-maxDuration - 1) (min maxDuration (later - earlier))

structure Decision where
  time : Int
  causes : List Cause
  previous : Int

structure Rebuild where
  time : Int
  cause : Cause
  previous : Int
  deriving DecidableEq, Repr

structure Carrier where
  time : Int
  digest : String
  deriving DecidableEq, Repr

structure Induction where
  time : Int
  cause : Cause

structure Dozing where
  start : Int
  stop : Int
  deriving DecidableEq, Repr

structure Episode where
  cause : Cause
  first : Int
  last : Int
  decisions : Nat
  deriving DecidableEq, Repr

structure Result where
  cause : Cause
  agreements : Nat
  induced : Nat
  decidedNotMade : List Episode
  madeNotDecided : List Rebuild
  unobservable : List Rebuild
  explained : List Episode
  deriving DecidableEq, Repr

/-- What `Compare` is given. -/
structure Soak where
  decisions : List Decision
  rebuilds : List Rebuild
  inductions : List Induction
  restarts : List Int
  dozing : List Dozing
  carrier : List Carrier
  window : Int
  start : Int
  stop : Int

inductive CompareError where
  | invalidSoak
  deriving DecidableEq, Repr

/-! ## The comparison -/

def Dozing.holds (dozing : Dozing) (time : Int) : Bool :=
  dozing.start ≤ time && time ≤ dozing.stop

def dozed (spans : List Dozing) (time : Int) : Bool :=
  time ≠ 0 && spans.any (·.holds time)

/-- Extend the current episode or begin another one. -/
def episodesFrom (window : Int) (current : Episode) :
    List Int → List Episode
  | [] => [current]
  | time :: rest =>
      if elapsed time current.last ≤ window then
        episodesFrom window
          { current with last := time, decisions := current.decisions + 1 }
          rest
      else
        current ::
          episodesFrom window ⟨current.cause, time, time, 1⟩ rest

def episodesFor (decisions : List Decision) (cause : Cause) (window : Int)
    (start stop : Int) : List Episode :=
  let times :=
    (decisions.filter fun decision =>
      decide (start ≤ decision.time) && decide (decision.time < stop) &&
        decide (cause ∈ decision.causes)).map (·.time)
  match sortBy id times with
  | [] => []
  | time :: rest => episodesFrom window ⟨cause, time, time, 1⟩ rest

def rebuildsFor (arrangement : Arrangement Rebuild.time)
    (rebuilds : List Rebuild) (cause : Cause) (start stop : Int) :
    List Rebuild :=
  arrangement.sort
    (rebuilds.filter fun rebuild =>
      decide (rebuild.cause = cause) && decide (start ≤ rebuild.time) &&
        decide (rebuild.time < stop))

def Within (window : Int) (episode : Episode) (time : Int) : Prop :=
  episode.first - window ≤ time ∧ time ≤ episode.last + window

instance (window : Int) (episode : Episode) (time : Int) :
    Decidable (Within window episode time) :=
  inferInstanceAs (Decidable (_ ∧ _))

def distance (episode : Episode) (time : Int) : Int :=
  if time < episode.first then elapsed episode.first time
  else if episode.last < time then elapsed time episode.last
  else 0

/-- The nearer one of a rebuild and the best one so far. -/
def nearer (window : Int) (episode : Episode) (best : Option Rebuild)
    (rebuild : Rebuild) : Option Rebuild :=
  if Within window episode rebuild.time then
    match best with
    | none => some rebuild
    | some held =>
        if distance episode rebuild.time < distance episode held.time then
          some rebuild
        else some held
  else best

def nearest (window : Int) (episode : Episode) (rebuilds : List Rebuild) :
    Option Rebuild :=
  rebuilds.foldl (nearer window episode) none

/-- Every episode with the rebuild it takes, and the rebuilds that are
left. -/
def pairUp (window : Int) :
    List Episode → List Rebuild →
      List (Episode × Option Rebuild) × List Rebuild
  | [], left => ([], left)
  | episode :: rest, left =>
      match nearest window episode left with
      | none =>
          let paired := pairUp window rest left
          ((episode, none) :: paired.1, paired.2)
      | some rebuild =>
          let paired := pairUp window rest (left.erase rebuild)
          ((episode, some rebuild) :: paired.1, paired.2)

def induced (inductions : List Induction) (cause : Cause) (window : Int)
    (time : Int) : Bool :=
  inductions.any fun induction =>
    induction.cause = cause && -window ≤ elapsed time induction.time &&
      elapsed time induction.time ≤ window

def restartedWithin (restarts : List Int) (window : Int)
    (episode : Episode) : Bool :=
  restarts.any fun restart => Within window episode restart

def distanceTo (left right : Int) : Int :=
  if left < right then elapsed right left else elapsed left right

/-- A carrier was read before, and no change of it within the window. -/
def unobservable (carrier : List Carrier) (window : Int) (time : Int) :
    Bool :=
  (carrier.any fun mark => mark.time < time) &&
    !carrier.any fun mark => distanceTo mark.time time ≤ window

namespace Soak

variable (soak : Soak) (arrangement : Arrangement Rebuild.time)
  (cause : Cause)

def episodes : List Episode :=
  episodesFor
    (soak.decisions.filter fun decision =>
      !dozed soak.dozing decision.time &&
        !dozed soak.dozing decision.previous)
    cause soak.window soak.start soak.stop

/-- The rebuilds of a cause that are kept. -/
def made : List Rebuild :=
  (rebuildsFor arrangement soak.rebuilds cause soak.start soak.stop).filter
    fun rebuild =>
      !dozed soak.dozing rebuild.time && !dozed soak.dozing rebuild.previous

def paired : List (Episode × Option Rebuild) × List Rebuild :=
  pairUp soak.window (soak.episodes cause) (soak.made arrangement cause)

def explains (episode : Episode) : Bool :=
  cause = .processGone &&
    restartedWithin soak.restarts soak.window episode

def excuses (rebuild : Rebuild) : Bool :=
  cause = .carrierChanged &&
    unobservable soak.carrier soak.window rebuild.time

def judge : Result where
  cause := cause
  agreements :=
    ((soak.paired arrangement cause).1.filterMap Prod.snd).length
  induced :=
    ((soak.paired arrangement cause).1.filterMap Prod.snd).countP
      fun rebuild => induced soak.inductions cause soak.window rebuild.time
  decidedNotMade :=
    (unpairedOf (soak.paired arrangement cause).1).filter fun episode =>
      !soak.explains cause episode
  madeNotDecided :=
    (soak.paired arrangement cause).2.filter fun rebuild =>
      !soak.excuses cause rebuild
  unobservable :=
    (soak.paired arrangement cause).2.filter (soak.excuses cause)
  explained :=
    (unpairedOf (soak.paired arrangement cause).1).filter
      (soak.explains cause)

end Soak

/-- The judgement of every cause. -/
def compare (arrangement : Arrangement Rebuild.time) (soak : Soak) :
    Except CompareError (Cause → Result) := do
  refuse (soak.window ≤ 0 ∨ soak.stop ≤ soak.start) .invalidSoak
  pure (soak.judge arrangement)

/-! ## What is claimed -/

/-- A rebuild within the window of an episode. -/
def Fits (window : Int) (episode : Episode) (rebuild : Rebuild) : Prop :=
  Within window episode rebuild.time

/-- The agreements are as many as there can be, and every episode and every
rebuild lands in one class. -/
structure Finds (soak : Soak) (arrangement : Arrangement Rebuild.time)
    (cause : Cause) (result : Result) : Prop where
  largest :
    LargestPairing (Fits soak.window) (soak.episodes cause)
      (soak.made arrangement cause) result.agreements
  classed :
    ∃ pairs,
      Pairing (Fits soak.window) (soak.episodes cause)
        (soak.made arrangement cause) pairs ∧
      pairs.length = result.agreements ∧
      (soak.episodes cause).Perm
        (pairs.map Prod.fst ++
          (result.explained ++ result.decidedNotMade)) ∧
      (soak.made arrangement cause).Perm
        (pairs.map Prod.snd ++
          (result.unobservable ++ result.madeNotDecided))
  agrees :
    (∃ pairs,
      Pairing (Fits soak.window) (soak.episodes cause)
        (soak.made arrangement cause) pairs ∧
      pairs.length = (soak.episodes cause).length ∧
      pairs.length = (soak.made arrangement cause).length) →
    result.decidedNotMade = [] ∧ result.madeNotDecided = []

/-! ## Episodes lie apart -/

section Episodes

variable {window : Int}

theorem lt_of_lt_elapsed
    {later earlier : Int} (positive : 0 < window)
    (longer : window < elapsed later earlier) : earlier + window < later := by
  unfold elapsed maxDuration at longer
  omega

theorem episodesFrom_ordered
    (positive : 0 < window) {times : List Int} {current : Episode}
    (proper : current.first ≤ current.last)
    (ordered : (current.last :: times).Pairwise (· ≤ ·)) :
    (episodesFrom window current times).Pairwise
        (fun earlier later => earlier.last + window < later.first) ∧
      ∀ episode ∈ episodesFrom window current times,
        current.first ≤ episode.first ∧ episode.first ≤ episode.last := by
  induction times generalizing current with
  | nil =>
      refine ⟨List.pairwise_singleton _ _, ?_⟩
      intro episode member
      rw [List.mem_singleton.mp member]
      exact ⟨le_refl _, proper⟩
  | cons time rest inductionHypothesis =>
      obtain ⟨above, tail⟩ := List.pairwise_cons.mp ordered
      have later : current.last ≤ time := above time List.mem_cons_self
      unfold episodesFrom
      split
      · exact
          @inductionHypothesis
            { current with last := time, decisions := current.decisions + 1 }
            (proper.trans later) tail
      · rename_i longer
        have gap := lt_of_lt_elapsed positive (Int.not_le.mp longer)
        obtain ⟨parts, bounds⟩ :=
          @inductionHypothesis ⟨current.cause, time, time, 1⟩ (le_refl _) tail
        refine ⟨List.pairwise_cons.mpr ⟨?_, parts⟩, ?_⟩
        · intro episode member
          exact lt_of_lt_of_le gap (bounds episode member).1
        · intro episode member
          rcases List.mem_cons.mp member with rfl | inner
          · exact ⟨le_refl _, proper⟩
          · have facts := bounds episode inner
            exact ⟨(proper.trans later).trans facts.1, facts.2⟩

theorem episodesFor_ordered
    (positive : 0 < window) (decisions : List Decision) (cause : Cause)
    (start stop : Int) :
    (episodesFor decisions cause window start stop).Pairwise
        (fun earlier later => earlier.last + window < later.first) ∧
      ∀ episode ∈ episodesFor decisions cause window start stop,
        episode.first ≤ episode.last := by
  have ordered :=
    @sortBy_ordered _ _ _ id
      ((decisions.filter fun decision =>
        decide (start ≤ decision.time) && decide (decision.time < stop) &&
          decide (cause ∈ decision.causes)).map (·.time))
  unfold episodesFor
  dsimp only
  split
  · exact ⟨List.Pairwise.nil, fun _ member => absurd member List.not_mem_nil⟩
  · rename_i time rest sorted
    rw [sorted] at ordered
    obtain ⟨parts, bounds⟩ :=
      @episodesFrom_ordered _ positive rest ⟨cause, time, time, 1⟩
        (le_refl _) ordered
    exact ⟨parts, fun episode member => (bounds episode member).2⟩

end Episodes

/-! ## Pairing up -/

section PairUp

variable {window : Int} {episode : Episode} {rebuilds : List Rebuild}

theorem foldl_nearer_eq_some
    {held : Option Rebuild} {rebuild : Rebuild}
    (found :
      rebuilds.foldl (nearer window episode) held = some rebuild) :
    held = some rebuild ∨
      rebuild ∈ rebuilds ∧ Within window episode rebuild.time := by
  induction rebuilds generalizing held with
  | nil => exact Or.inl found
  | cons next rest inductionHypothesis =>
      rcases inductionHypothesis found with kept | ⟨member, within⟩
      · unfold nearer at kept
        split at kept
        · rename_i within
          split at kept
          · cases kept
            exact Or.inr ⟨List.mem_cons_self, within⟩
          · split at kept
            · cases kept
              exact Or.inr ⟨List.mem_cons_self, within⟩
            · exact Or.inl kept
        · exact Or.inl kept
      · exact Or.inr ⟨List.mem_cons_of_mem _ member, within⟩

theorem nearer_ne_none
    {held : Option Rebuild} {rebuild : Rebuild}
    (some : held ≠ none ∨ Within window episode rebuild.time) :
    nearer window episode held rebuild ≠ none := by
  unfold nearer
  split
  · split
    · exact Option.some_ne_none _
    · split <;> exact Option.some_ne_none _
  · rename_i outside
    exact some.resolve_right outside

theorem foldl_nearer_ne_none
    {held : Option Rebuild}
    (some :
      held ≠ none ∨
        ∃ rebuild ∈ rebuilds, Within window episode rebuild.time) :
    rebuilds.foldl (nearer window episode) held ≠ none := by
  induction rebuilds generalizing held with
  | nil =>
      rcases some with held | ⟨rebuild, member, _⟩
      · exact held
      · exact absurd member List.not_mem_nil
  | cons next rest inductionHypothesis =>
      apply inductionHypothesis
      rcases some with held | ⟨rebuild, member, within⟩
      · exact Or.inl (nearer_ne_none (Or.inl held))
      rcases List.mem_cons.mp member with rfl | inner
      · exact Or.inl (nearer_ne_none (Or.inr within))
      · exact Or.inr ⟨rebuild, inner, within⟩

theorem nearest_eq_none
    (none : nearest window episode rebuilds = none) {rebuild : Rebuild}
    (member : rebuild ∈ rebuilds) : ¬ Within window episode rebuild.time :=
  fun within =>
    foldl_nearer_ne_none (Or.inr ⟨rebuild, member, within⟩) none

theorem nearest_eq_some
    {rebuild : Rebuild}
    (found : nearest window episode rebuilds = some rebuild) :
    rebuild ∈ rebuilds ∧ Within window episode rebuild.time :=
  (foldl_nearer_eq_some found).resolve_left (Option.some_ne_none _).symm

variable {episodes : List Episode}

theorem map_fst_pairUp :
    (pairUp window episodes rebuilds).1.map Prod.fst = episodes := by
  induction episodes generalizing rebuilds with
  | nil => rfl
  | cons episode rest inductionHypothesis =>
      unfold pairUp
      split <;> exact congrArg _ inductionHypothesis

theorem perm_pairUp :
    rebuilds.Perm
      ((pairUp window episodes rebuilds).1.filterMap Prod.snd ++
        (pairUp window episodes rebuilds).2) := by
  induction episodes generalizing rebuilds with
  | nil => exact List.Perm.refl _
  | cons episode rest inductionHypothesis =>
      unfold pairUp
      split
      · exact inductionHypothesis
      · rename_i rebuild found
        exact
          (List.perm_cons_erase (nearest_eq_some found).1).trans
            (inductionHypothesis.cons rebuild)

theorem fit_pairUp
    {pair : Episode × Rebuild}
    (member : pair ∈ pairsOf (pairUp window episodes rebuilds).1) :
    Fits window pair.1 pair.2 := by
  induction episodes generalizing rebuilds with
  | nil => exact absurd member List.not_mem_nil
  | cons episode rest inductionHypothesis =>
      unfold pairUp at member
      split at member
      · exact inductionHypothesis member
      · rename_i rebuild found
        rcases List.mem_cons.mp member with rfl | inner
        · exact (nearest_eq_some found).2
        · exact inductionHypothesis inner

/-- An episode that takes nothing finds nothing within its window that is
taken later. -/
theorem greedy_pairUp
    {before after : List (Episode × Option Rebuild)} {last : Episode}
    (split :
      (pairUp window episodes rebuilds).1 = before ++ (last, none) :: after)
    {pair : Episode × Rebuild} (member : pair ∈ pairsOf after) :
    ¬ Fits window last pair.2 := by
  induction episodes generalizing rebuilds before with
  | nil => simp [pairUp] at split
  | cons episode rest inductionHypothesis =>
      cases before with
      | cons row before =>
          unfold pairUp at split
          split at split <;>
            exact inductionHypothesis (List.cons.inj split).2
      | nil =>
          unfold pairUp at split
          split at split
          · rename_i nothing
            obtain ⟨own, rows⟩ := List.cons.inj split
            cases own
            refine nearest_eq_none nothing ?_
            have kept := @perm_pairUp window rebuilds rest
            rw [rows, ← map_snd_pairsOf] at kept
            exact
              kept.mem_iff.mpr
                (List.mem_append_left _ (List.mem_map_of_mem member))
          · cases (List.cons.inj split).1

end PairUp

/-! ## Agreements -/

section Agreements

variable {soak : Soak} {arrangement : Arrangement Rebuild.time}
  {cause : Cause}

/-- No rebuild is within the window of two episodes that are not
neighbours. -/
theorem apart_paired
    (positive : 0 < soak.window)
    {first second third : Episode × Option Rebuild}
    (inOrder :
      [first, second, third].Sublist (soak.paired arrangement cause).1)
    {rebuild : Rebuild} (within : Fits soak.window first.1 rebuild) :
    ¬ Fits soak.window third.1 rebuild := by
  intro withinThird
  have ordered :=
    episodesFor_ordered positive
      (soak.decisions.filter fun decision =>
        !dozed soak.dozing decision.time &&
          !dozed soak.dozing decision.previous)
      cause soak.start soak.stop
  have listed := inOrder.map Prod.fst
  unfold Soak.paired at listed
  rw [map_fst_pairUp] at listed
  have pairwise := ordered.1.sublist listed
  have proper := ordered.2 second.1 (listed.subset (by simp))
  have toSecond := (List.pairwise_cons.mp pairwise).1 second.1 (by simp)
  have toThird :=
    (List.pairwise_cons.mp (List.pairwise_cons.mp pairwise).2).1 third.1
      (by simp)
  have below := within.2
  have above := withinThird.1
  omega

theorem agreements_judge :
    (soak.judge arrangement cause).agreements =
      (pairsOf (soak.paired arrangement cause).1).length := by
  have counted :=
    congrArg List.length (map_snd_pairsOf (soak.paired arrangement cause).1)
  rw [List.length_map] at counted
  exact counted.symm

theorem largest_iff
    (positive : 0 < soak.window) :
    LargestPairing (Fits soak.window) (soak.episodes cause)
        (soak.made arrangement cause)
        (soak.judge arrangement cause).agreements ↔
      ¬ Displaced (Fits soak.window) (soak.paired arrangement cause).1
        (soak.paired arrangement cause).2 := by
  have rows :
      (soak.paired arrangement cause).1.map Prod.fst = soak.episodes cause :=
    map_fst_pairUp
  have largest :=
    @largestPairing_iff_not_displaced _ _ (Fits soak.window)
      (soak.paired arrangement cause).1 (soak.paired arrangement cause).2
      (fun _ member => fit_pairUp member)
      (fun _ _ _ split _ member => greedy_pairUp split member)
      (fun _ _ _ inOrder _ within => apart_paired positive inOrder within)
  have made :
      (soak.made arrangement cause).Perm
        ((soak.paired arrangement cause).1.filterMap Prod.snd ++
          (soak.paired arrangement cause).2) :=
    perm_pairUp
  rw [← largest, rows, agreements_judge]
  exact LargestPairing.perm made

theorem classed_judge (soak : Soak) (arrangement : Arrangement Rebuild.time)
    (cause : Cause) :
    ∃ pairs,
      Pairing (Fits soak.window) (soak.episodes cause)
        (soak.made arrangement cause) pairs ∧
      pairs.length = (soak.judge arrangement cause).agreements ∧
      (soak.episodes cause).Perm
        (pairs.map Prod.fst ++
          ((soak.judge arrangement cause).explained ++
            (soak.judge arrangement cause).decidedNotMade)) ∧
      (soak.made arrangement cause).Perm
        (pairs.map Prod.snd ++
          ((soak.judge arrangement cause).unobservable ++
            (soak.judge arrangement cause).madeNotDecided)) := by
  have rows :
      (soak.paired arrangement cause).1.map Prod.fst = soak.episodes cause :=
    map_fst_pairUp
  have rebuilds :=
    @perm_pairUp soak.window (soak.made arrangement cause)
      (soak.episodes cause)
  rw [← map_snd_pairsOf] at rebuilds
  have episodes := perm_pairsOf (soak.paired arrangement cause).1
  rw [rows] at episodes
  refine
    ⟨pairsOf (soak.paired arrangement cause).1, ⟨?_, ?_, ?_⟩, ?_, ?_, ?_⟩
  · exact fun _ member => fit_pairUp member
  · exact (List.sublist_append_left _ _).subperm.trans episodes.symm.subperm
  · exact (List.sublist_append_left _ _).subperm.trans rebuilds.symm.subperm
  · exact agreements_judge.symm
  · exact
      episodes.trans
        ((List.filter_append_perm (soak.explains cause) _).symm.append_left _)
  · exact
      rebuilds.trans
        ((List.filter_append_perm (soak.excuses cause) _).symm.append_left _)

end Agreements

section Example

/-- Two decisions eleven apart and two rebuilds, in a window of ten. -/
def soakOf (rebuilds : List Rebuild) : Soak where
  decisions := [⟨20, [.wakeGap], 19⟩, ⟨31, [.wakeGap], 30⟩]
  rebuilds := rebuilds
  inductions := []
  restarts := []
  dozing := []
  carrier := []
  window := 10
  start := 1
  stop := 100

end Example

end Hexroute.SoakCompare
