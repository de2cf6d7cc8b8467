import Hexroute.Lib.Refusal

/-!
# The clock guard

The guard takes one sample of the wall clock and of the monotonic clock after
another.  It accepts a sample if, since the one it accepted before, the wall
clock moved as far as the monotonic clock up to the allowed skew.
-/

namespace Hexroute.PolicyClock

open Hexroute.Lib

/-- Both clocks in nanoseconds.  The zero time is a wall clock of zero. -/
structure Sample where
  wallUTC : Int
  monotonicNS : Int
  deriving DecidableEq, Repr

def minute : Int := 60 * 1000000000

def defaultMaxWallSkew : Int := 2 * minute

def maxDuration : Int := 2 ^ 63 - 1

def minDuration : Int := -2 ^ 63

/-- The difference of two instants, held inside what a duration can say. -/
def sub (later earlier : Int) : Int :=
  max minDuration (min maxDuration (later - earlier))

/-- The allowed skew and the last accepted sample. -/
structure Guard where
  maxWallSkew : Int
  previous : Option Sample
  deriving DecidableEq, Repr

inductive ClockError where
  | clockAnomaly
  | invalidClock
  deriving DecidableEq, Repr

def newGuard (maxWallSkew : Int) : Except ClockError Guard := do
  refuse (maxWallSkew ≤ 0 ∨ 10 * minute < maxWallSkew) .invalidClock
  pure ⟨maxWallSkew, none⟩

/-- How far the wall clock of a sample is from where the monotonic clock puts
it, seen from an earlier sample. -/
def skew (previous sample : Sample) : Int :=
  let elapsed := sample.monotonicNS - previous.monotonicNS
  sub sample.wallUTC (previous.wallUTC + elapsed)

/-- A refused sample leaves the guard as it was. -/
def Guard.observe (guard : Guard) (sample : Sample) :
    Except ClockError Guard := do
  refuse (sample.wallUTC = 0 ∨ sample.monotonicNS < 0) .invalidClock
  match guard.previous with
  | none => pure { guard with previous := some sample }
  | some previous => do
      refuse (sample.monotonicNS < previous.monotonicNS) .clockAnomaly
      refuse
        (skew previous sample < -guard.maxWallSkew ∨
          guard.maxWallSkew < skew previous sample)
        .clockAnomaly
      pure { guard with previous := some sample }

/-- Offer one sample after another; every one of them has to be accepted. -/
def Guard.observeAll (guard : Guard) :
    List Sample → Except ClockError Guard
  | [] => pure guard
  | sample :: later => do
      let next ← guard.observe sample
      next.observeAll later

/-- How much further the wall clock went than the monotonic clock. -/
def drift (first latest : Sample) : Int :=
  (latest.wallUTC - first.wallUTC) -
    (latest.monotonicNS - first.monotonicNS)

/-- Seen from the first sample, the clocks never part by more than the
allowed skew, and the monotonic clock never goes back. -/
structure Steady (maxWallSkew : Int) (samples : List Sample) : Prop where
  drift :
    ∀ first ∈ samples.head?, ∀ latest ∈ samples,
      |drift first latest| ≤ maxWallSkew
  forward :
    samples.Pairwise fun earlier later =>
      earlier.monotonicNS ≤ later.monotonicNS

/-- The skews between neighbouring samples, as the guard measures them. -/
def skews : List Sample → List Int
  | first :: second :: later => skew first second :: skews (second :: later)
  | _ => []

/-- A skew that was accepted was not cut off: it is the drift. -/
theorem skew_eq_drift
    {maxWallSkew : Int} {previous sample : Sample}
    (allowed : maxWallSkew ≤ 10 * minute)
    (low : ¬ skew previous sample < -maxWallSkew)
    (high : ¬ maxWallSkew < skew previous sample) :
    skew previous sample = drift previous sample := by
  simp only [minute, skew, drift, sub, maxDuration, minDuration] at *
  omega

/-- What an accepted sample tells about the one before it. -/
theorem observe_spec
    {guard next : Guard} {previous sample : Sample}
    (known : guard.previous = some previous)
    (allowed : guard.maxWallSkew ≤ 10 * minute) :
    guard.observe sample = .ok next →
      next = { guard with previous := some sample } ∧
        previous.monotonicNS ≤ sample.monotonicNS ∧
          skew previous sample = drift previous sample := by
  intro accepted
  unfold Guard.observe at accepted
  rw [known] at accepted
  simp only [bind_eq_ok_iff, refuse_eq_ok_iff, pure_eq_ok_iff, not_or]
    at accepted
  obtain ⟨_, -, _, forward, _, ⟨low, high⟩, rfl⟩ := accepted
  exact ⟨rfl, not_lt.mp forward, skew_eq_drift allowed low high⟩

/-- Along accepted samples the monotonic clock goes forward, and the measured
skews add up to the drift. -/
theorem observeAll_spec
    {guard final : Guard} {previous : Sample} {samples : List Sample}
    (known : guard.previous = some previous)
    (allowed : guard.maxWallSkew ≤ 10 * minute)
    (accepted : guard.observeAll samples = .ok final) :
    (previous :: samples).Pairwise
        (fun earlier later => earlier.monotonicNS ≤ later.monotonicNS) ∧
      ∀ count,
        ((skews (previous :: samples)).take count).sum =
          drift previous
            ((samples.take count).getLast?.getD previous) := by
  induction samples generalizing guard previous with
  | nil =>
      refine ⟨List.pairwise_singleton _ _, fun count => ?_⟩
      simp [skews, drift]
  | cons sample later inductionHypothesis =>
      simp only [Guard.observeAll, bind_eq_ok_iff] at accepted
      obtain ⟨next, observed, rest⟩ := accepted
      obtain ⟨rfl, forward, measured⟩ :=
        observe_spec known allowed observed
      obtain ⟨ordered, sums⟩ :=
        @inductionHypothesis { guard with previous := some sample } sample
          rfl allowed rest
      constructor
      · refine List.pairwise_cons.mpr ⟨?_, ordered⟩
        intro other member
        rcases List.mem_cons.mp member with rfl | further
        · exact forward
        · exact forward.trans ((List.pairwise_cons.mp ordered).1 _ further)
      · intro count
        cases count with
        | zero => simp [drift]
        | succ count =>
            rw [skews, List.take_succ_cons, List.sum_cons, measured, sums,
              List.take_succ_cons, List.getLast?_cons, Option.getD_some]
            simp only [drift]
            omega

/-- The wall clock runs two minutes ahead from one sample to the next. -/
def walkedSamples : List Sample :=
  [⟨1, 0⟩, ⟨1 + 2 * minute, 0⟩, ⟨1 + 4 * minute, 0⟩]

end Hexroute.PolicyClock
