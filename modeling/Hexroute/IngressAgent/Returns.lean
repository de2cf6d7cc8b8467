import Hexroute.IngressAgent.Outcomes

/-!
# What a host returns from and comes back to

Three properties of every history of a host: a version that was recorded as
proven is not returned from, a version that was left is not applied again
while the store still offers it, and a refused synchronisation does not spend
the way back.  Each of them is compared with the condition it holds under.
-/

namespace Hexroute.IngressAgent

open Hexroute.Lib

section Steps

variable {β : Type} {trust : Trust β} {world : World β}
  {surroundings : Surroundings}

/-- What a call leaves is what its step leaves. -/
theorem ends_step
    {program : Program β Result}
    {promise : Except AgentError Result → Host β → Prop}
    (ends : Ends program world.host promise) :
    ∃ answer after,
      promise answer after ∧
        (match (some <$> program) world.host with
          | .ok _ after => after
          | .error _ after => after) = after ∧
        (match (some <$> program) world.host with
          | .ok (some result) _ => some result.outcome
          | _ => none) = answer.toOption.map (·.outcome) := by
  rw [map_eq_pure_bind]
  change
    ∃ answer after, _ ∧
      (match EStateM.bind program (fun result => pure (some result))
          world.host with
        | .ok _ after => after
        | .error _ after => after) = after ∧
      (match EStateM.bind program (fun result => pure (some result))
          world.host with
        | .ok (some result) _ => some result.outcome
        | _ => none) = _
  unfold EStateM.bind
  unfold Ends at ends
  cases runs : program world.host with
  | ok result after =>
      rw [runs] at ends
      exact ⟨.ok result, after, ends, rfl, rfl⟩
  | error error after =>
      rw [runs] at ends
      exact ⟨.error error, after, ends, rfl, rfl⟩

theorem sync_step (trust : Trust β) (world : World β)
    (surroundings : Surroundings) (reachable : Bool) :
    ∃ answer,
      Synced surroundings world.host
          (wanted trust world.host (world.fetched reachable)) answer
          (world.next trust (.sync surroundings reachable)).host ∧
        world.outcome trust (.sync surroundings reachable) =
          answer.toOption.map (·.outcome) := by
  obtain ⟨answer, after, synced, rfl, outcome⟩ := ends_step (ends_sync _)
  exact ⟨answer, synced, outcome⟩

theorem giveBack_step (trust : Trust β) (world : World β)
    (surroundings : Surroundings) :
    ∃ answer,
      GivenBack surroundings (surroundings.clock 0) world.host
          (returnable trust world.host) answer
          (world.next trust (.giveBack surroundings)).host ∧
        world.outcome trust (.giveBack surroundings) =
          answer.toOption.map (·.outcome) := by
  obtain ⟨answer, after, given, rfl, outcome⟩ := ends_step ends_giveBack
  exact ⟨answer, given, outcome⟩

theorem prove_step (trust : Trust β) (world : World β)
    (surroundings : Surroundings) (observation : Option Observation)
    (window : Int) :
    ∃ answer,
      Judged surroundings window world.host (returnable trust world.host)
          (judged trust world.host observation window) answer
          (world.next trust (.prove surroundings observation window)).host ∧
        world.outcome trust (.prove surroundings observation window) =
          answer.toOption.map (·.outcome) := by
  obtain ⟨answer, after, judged, rfl, outcome⟩ :=
    ends_step (ends_proveOrReturn observation window)
  exact ⟨answer, judged, outcome⟩

/-- The applied version has not proved itself, and its window is over. -/
def Failing (trust : Trust β) (host : Host β) (surroundings : Surroundings)
    (observation : Option Observation) (window : Int) : Prop :=
  ∃ appliedAt reason,
    judged trust host observation window = some (appliedAt, some reason) ∧
      window ≤ (surroundings.clock 0 : Int) - appliedAt

/-- The step is a return, and there is a version to return to that the
applier takes. -/
def Leaves (trust : Trust β) (world : World β) : Step β → Prop
  | .publish _ => False
  | .sync _ _ => False
  | .giveBack surroundings =>
      (returnable trust world.host).isSome ∧ surroundings.applies 0 = true
  | .prove surroundings observation window =>
      Failing trust world.host surroundings observation window ∧
        (returnable trust world.host).isSome ∧ surroundings.applies 0 = true

/-- A step leaves the files and claims nothing, proves a version, applies the
wanted one, retains what is applied for an application that fails, or leaves
a version. -/
inductive Effect (trust : Trust β) (world : World β) :
    Step β → Host β → Option Outcome → Prop where
  | quiet {step : Step β} {after : Host β} {outcome : Option Outcome}
      (files : after.files = world.host.files)
      (silent :
        outcome ≠ some .applied ∧ outcome ≠ some .returned ∧
          outcome ≠ some .proven)
      (stays : ¬ Leaves trust world step) :
      Effect trust world step after outcome
  | proves {after : Host β} (surroundings : Surroundings)
      (observation : Option Observation) (window : Int)
      (files : after.files = world.host.files)
      (stays :
        ¬ Leaves trust world (.prove surroundings observation window)) :
      Effect trust world (.prove surroundings observation window) after
        (some .proven)
  | applies {after : Host β} {encoded : β} {artifact : Artifact}
      {content : Content} (surroundings : Surroundings) (reachable : Bool)
      (wants :
        wanted trust world.host (world.fetched reachable) =
          some (encoded, artifact, content))
      (applied : surroundings.applies 0 = true)
      (files :
        after.files =
          (some encoded, some (surroundings.clock 0),
            world.host.applied.or world.host.retained)) :
      Effect trust world (.sync surroundings reachable) after (some .applied)
  | spends {after : Host β} {encoded : β} {artifact : Artifact}
      {content : Content} (surroundings : Surroundings) (reachable : Bool)
      (wants :
        wanted trust world.host (world.fetched reachable) =
          some (encoded, artifact, content))
      (fails : surroundings.applies 0 = false)
      (files :
        after.files =
          (world.host.applied, world.host.appliedAt,
            world.host.applied.or world.host.retained)) :
      Effect trust world (.sync surroundings reachable) after (some .refused)
  | returns {step : Step β} {after : Host β} {encoded : β}
      {artifact : Artifact} (time : Nat)
      (held : returnable trust world.host = some (encoded, artifact))
      (files : after.files = (some encoded, some time, none))
      (leaves : Leaves trust world step) :
      Effect trust world step after (some .returned)

theorem Quiet.outcome
    {answer : Except AgentError Result} (quiet : Quiet answer) :
    answer.toOption.map (·.outcome) ≠ some .applied ∧
      answer.toOption.map (·.outcome) ≠ some .returned ∧
      answer.toOption.map (·.outcome) ≠ some .proven := by
  cases answer with
  | error error => exact ⟨nofun, nofun, nofun⟩
  | ok result =>
      obtain ⟨notApplied, notReturned, notProven⟩ := quiet result rfl
      exact
        ⟨fun same => notApplied (Option.some.inj same),
          fun same => notReturned (Option.some.inj same),
          fun same => notProven (Option.some.inj same)⟩

theorem outcome_of_ok
    {answer : Except AgentError Result} {outcome : Outcome}
    (ends : ∃ result, answer = .ok result ∧ result.outcome = outcome) :
    answer.toOption.map (·.outcome) = some outcome := by
  obtain ⟨result, rfl, rfl⟩ := ends
  rfl

/-- A call that may return leaves the files, or it is a return. -/
theorem GivenBack.effect
    {step : Step β} {time : Nat} {answer : Except AgentError Result}
    {after : Host β}
    (given :
      GivenBack surroundings time world.host (returnable trust world.host)
        answer after)
    (leaves :
      Leaves trust world step ↔
        (returnable trust world.host).isSome ∧
          surroundings.applies 0 = true) :
    Effect trust world step after (answer.toOption.map (·.outcome)) := by
  unfold GivenBack at given
  cases held : returnable trust world.host with
  | none =>
      rw [held] at given leaves
      refine .quiet given.2 given.1.outcome fun leaving => ?_
      cases (leaves.mp leaving).1
  | some pair =>
      obtain ⟨encoded, artifact⟩ := pair
      rw [held] at given leaves
      dsimp only at given
      split at given
      · rename_i applies
        rw [outcome_of_ok given.1]
        exact .returns time held given.2 (leaves.mpr ⟨rfl, applies⟩)
      · rename_i fails
        exact
          .quiet given.2 given.1.outcome fun leaving =>
            fails (leaves.mp leaving).2

theorem step_effect (trust : Trust β) (world : World β) (step : Step β) :
    Effect trust world step (world.next trust step).host
      (world.outcome trust step) := by
  cases step with
  | publish object => exact .quiet rfl ⟨nofun, nofun, nofun⟩ id
  | sync surroundings reachable =>
      obtain ⟨answer, synced, outcome⟩ :=
        sync_step trust world surroundings reachable
      rw [outcome]
      unfold Synced at synced
      split at synced
      · exact .quiet synced.2 synced.1.outcome id
      · rename_i wants
        split at synced
        · rename_i applied
          rw [outcome_of_ok synced.1]
          exact .applies surroundings reachable wants applied synced.2
        · rename_i fails
          rw [outcome_of_ok synced.1]
          exact
            .spends surroundings reachable wants (by simpa using fails)
              synced.2
  | giveBack surroundings =>
      obtain ⟨answer, given, outcome⟩ :=
        giveBack_step trust world surroundings
      rw [outcome]
      exact given.effect Iff.rfl
  | prove surroundings observation window =>
      obtain ⟨answer, judges, outcome⟩ :=
        prove_step trust world surroundings observation window
      rw [outcome]
      unfold Judged at judges
      split at judges
      · rename_i unjudged
        refine .quiet judges.2 judges.1.outcome ?_
        rintro ⟨⟨_, _, isJudged, _⟩, _⟩
        rw [unjudged] at isJudged
        cases isJudged
      · rename_i proven
        rw [outcome_of_ok judges.1]
        refine .proves surroundings observation window judges.2 ?_
        rintro ⟨⟨_, _, isJudged, _⟩, _⟩
        rw [proven] at isJudged
        cases isJudged
      · rename_i appliedAt reason isJudged
        split at judges
        · rename_i early
          refine .quiet judges.2 judges.1.outcome ?_
          rintro ⟨⟨_, _, same, late⟩, _⟩
          rw [isJudged] at same
          cases same
          exact absurd early (not_lt.mpr late)
        · rename_i late
          refine judges.effect ⟨fun leaves => leaves.2, fun can => ⟨?_, can⟩⟩
          exact ⟨appliedAt, reason, isJudged, not_lt.mp late⟩

theorem outcome_returned_iff (step : Step β) :
    world.outcome trust step = some .returned ↔ Leaves trust world step := by
  have effect := step_effect trust world step
  generalize (world.next trust step).host = after at effect
  generalize world.outcome trust step = outcome at effect ⊢
  cases effect with
  | quiet files silent stays =>
      exact
        ⟨fun returned => absurd returned silent.2.1,
          fun leaves => absurd leaves stays⟩
  | proves _ _ _ files stays =>
      exact ⟨nofun, fun leaves => absurd leaves stays⟩
  | applies => exact ⟨nofun, False.elim⟩
  | spends => exact ⟨nofun, False.elim⟩
  | returns time held files leaves => exact ⟨fun _ => leaves, fun _ => rfl⟩

/-- A file that is there holds a version that verifies. -/
def Genuine (trust : Trust β) (file : Option β) : Prop :=
  ∀ encoded, file = some encoded →
    ∃ artifact content,
      decode trust encoded = .ok artifact ∧
        verify trust artifact = .ok content

theorem genuine_or
    {first second : Option β} (applied : Genuine trust first)
    (retained : Genuine trust second) : Genuine trust (first.or second) := by
  cases first with
  | none => exact retained
  | some held => exact applied

theorem genuine_of_wanted
    {host : Host β} {fetched : Option β} {encoded : β} {artifact : Artifact}
    {content : Content}
    (wants : wanted trust host fetched = some (encoded, artifact, content)) :
    decode trust encoded = .ok artifact ∧
      verify trust artifact = .ok content ∧ fetched = some encoded ∧
      ∀ held, host.applied = some held →
        ∃ applied, decode trust held = .ok applied ∧
          applied.statement.contentSHA256 ≠
            artifact.statement.contentSHA256 := by
  unfold wanted at wants
  split at wants
  · cases wants
  split at wants
  · cases wants
  rename_i decoded
  split at wants
  · cases wants
  rename_i verified
  split at wants
  · rename_i nothing
    cases wants
    refine ⟨decoded, verified, rfl, fun held holds => ?_⟩
    rw [nothing] at holds
    cases holds
  rename_i held holds
  split at wants
  · cases wants
  rename_i applied readable
  split at wants
  · cases wants
  rename_i differs
  split at wants
  · cases wants
    refine ⟨decoded, verified, rfl, fun other same => ?_⟩
    rw [holds] at same
    cases same
    exact ⟨applied, readable, differs⟩
  · cases wants

theorem genuine_of_returnable
    {host : Host β} {encoded : β} {artifact : Artifact}
    (held : returnable trust host = some (encoded, artifact)) :
    host.retained = some encoded := by
  unfold returnable at held
  split at held
  · cases held
  rename_i kept
  split at held
  · cases held
  split at held
  · cases held
  · cases held
    exact kept

/-- Both files hold versions that verify, and nothing is retained before
something is applied. -/
structure Stored (trust : Trust β) (host : Host β) : Prop where
  applied : Genuine trust host.applied
  retained : Genuine trust host.retained
  grounded : host.applied = none → host.retained = none

theorem stored_fresh : Stored trust .fresh where
  applied _ held := by cases held
  retained _ held := by cases held
  grounded _ := rfl

theorem stored_of_files
    {after : Host β} {files : Option β × Option Nat × Option β}
    (same : after.files = files) (applied : Genuine trust files.1)
    (retained : Genuine trust files.2.2)
    (grounded : files.1 = none → files.2.2 = none) : Stored trust after := by
  subst same
  exact ⟨applied, retained, grounded⟩

theorem stored_next
    (step : Step β) (stored : Stored trust world.host) :
    Stored trust (world.next trust step).host := by
  obtain ⟨applied, retained, grounded⟩ := stored
  have effect := step_effect trust world step
  generalize (world.next trust step).host = after at effect
  generalize world.outcome trust step = outcome at effect
  cases effect with
  | quiet files => exact stored_of_files files applied retained grounded
  | proves _ _ _ files =>
      exact stored_of_files files applied retained grounded
  | applies _ _ wants _ files =>
      obtain ⟨decoded, verified, _⟩ := genuine_of_wanted wants
      refine
        stored_of_files files ?_ (genuine_or applied retained) nofun
      rintro _ ⟨⟩
      exact ⟨_, _, decoded, verified⟩
  | spends _ _ _ _ files =>
      refine
        stored_of_files files applied (genuine_or applied retained)
          fun nothing => ?_
      dsimp only at nothing ⊢
      rw [nothing, grounded nothing]
      rfl
  | returns _ held files =>
      refine stored_of_files files ?_ (fun _ none => by cases none) nofun
      dsimp only
      rw [← genuine_of_returnable held]
      exact retained

theorem stored_worldAfter (trust : Trust β) (steps : List (Step β)) :
    Stored trust (worldAfter trust steps).host :=
  stateAfter_invariant (fun world : World β => Stored trust world.host)
    stored_fresh (fun _ step stored => stored_next step stored) steps

theorem returnable_isSome_iff
    {host : Host β} (stored : Stored trust host) :
    (returnable trust host).isSome ↔ host.retained ≠ none := by
  unfold returnable
  cases holds : host.retained with
  | none => simp
  | some encoded =>
      obtain ⟨artifact, content, decoded, verified⟩ :=
        stored.retained encoded holds
      simp [decoded, verified]

end Steps

section Order

variable {β : Type} (trust : Trust β)

/-- The second file holds a version no older than the first. -/
def NoOlder (first second : Option β) : Prop :=
  ∀ held artifact, first = some held → decode trust held = .ok artifact →
    ∃ kept later, second = some kept ∧ decode trust kept = .ok later ∧
      artifact.statement.createdAt ≤ later.statement.createdAt

variable {trust}

theorem noOlder_none {file : Option β} : NoOlder trust none file := by
  intro held artifact holds
  cases holds

theorem noOlder_refl {file : Option β} : NoOlder trust file file := by
  intro held artifact holds decoded
  exact ⟨held, artifact, holds, decoded, le_rfl⟩

theorem noOlder_or
    {first second third : Option β} (grounded : first = none → second = none)
    (newer : NoOlder trust first third) :
    NoOlder trust (first.or second) third := by
  cases first with
  | none =>
      rw [grounded rfl]
      exact noOlder_none
  | some _ => exact newer

theorem noOlder_of_wanted
    {host : Host β} {fetched : Option β} {encoded : β} {artifact : Artifact}
    {content : Content}
    (wants : wanted trust host fetched = some (encoded, artifact, content)) :
    NoOlder trust host.applied (some encoded) := by
  intro held applied holds readable
  refine ⟨encoded, artifact, rfl, (genuine_of_wanted wants).1, ?_⟩
  unfold wanted at wants
  rw [holds] at wants
  grind

/-- A step keeps the retained version the older one, and goes back to it or
not at all. -/
theorem Effect.noOlder
    {world : World β} {step : Step β} {after : Host β}
    {outcome : Option Outcome}
    (effect : Effect trust world step after outcome)
    (stored : Stored trust world.host)
    (ordered : NoOlder trust world.host.retained world.host.applied) :
    NoOlder trust after.retained after.applied ∧
      (NoOlder trust world.host.applied after.applied ∨
        outcome = some .returned ∧ after.applied = world.host.retained) := by
  change
    NoOlder trust after.files.2.2 after.files.1 ∧
      (NoOlder trust world.host.applied after.files.1 ∨
        outcome = some .returned ∧ after.files.1 = world.host.retained)
  cases effect with
  | quiet files | proves _ _ _ files =>
      rw [files]
      exact ⟨ordered, Or.inl noOlder_refl⟩
  | applies _ _ wants _ files =>
      rw [files]
      have newer := noOlder_of_wanted wants
      exact ⟨noOlder_or stored.grounded newer, Or.inl newer⟩
  | spends _ _ _ _ files =>
      rw [files]
      exact
        ⟨noOlder_or stored.grounded noOlder_refl, Or.inl noOlder_refl⟩
  | returns _ held files =>
      rw [files]
      exact
        ⟨noOlder_none, Or.inr ⟨rfl, (genuine_of_returnable held).symm⟩⟩

/-- Whatever is published, both files hold versions the host trusts, the
retained one is not the newer, and only a return goes back to it. -/
theorem only_a_return_goes_back
    (trust : Trust β) (steps : List (Step β)) (step : Step β) :
    let world := worldAfter trust steps
    let after := (world.next trust step).host
    Stored trust after ∧ NoOlder trust after.retained after.applied ∧
      (NoOlder trust world.host.applied after.applied ∨
        world.outcome trust step = some .returned ∧
          after.applied = world.host.retained) := by
  intro world after
  have kept :
      Stored trust world.host ∧
        NoOlder trust world.host.retained world.host.applied :=
    stateAfter_invariant
      (fun world : World β => Stored trust world.host ∧
        NoOlder trust world.host.retained world.host.applied)
      ⟨stored_fresh, noOlder_none⟩
      (fun _ step kept =>
        ⟨stored_next step kept.1,
          ((step_effect trust _ step).noOlder kept.1 kept.2).1⟩)
      steps
  exact
    ⟨stored_next step kept.1,
      (step_effect trust world step).noOlder kept.1 kept.2⟩

end Order

section WayBack

variable {β : Type} (trust : Trust β)

/-- What is applied and what is retained, if both are there, differ in their
content. -/
def Differ (host : Host β) : Prop :=
  ∀ held kept applied retained,
    host.applied = some held → host.retained = some kept →
    decode trust held = .ok applied → decode trust kept = .ok retained →
    applied.content ≠ retained.content

/-- A synchronisation that does not end in an application leaves the files,
and there is always a way back to another content. -/
def KeepsWayBack (steps : List (Step β)) : Prop :=
  EachStep (World.next trust) .fresh
      (fun world step =>
        ∀ surroundings reachable, step = .sync surroundings reachable →
          world.outcome trust step ≠ some .applied →
          (world.next trust step).host.files = world.host.files)
      steps ∧
    ∀ before rest, steps = before ++ rest →
      Differ trust (worldAfter trust before).host

/-- Whenever a synchronisation is to replace an applied version, the applier
does what it is asked for. -/
def Replaces (steps : List (Step β)) : Prop :=
  EachStep (World.next trust) .fresh
    (fun world step =>
      ∀ surroundings reachable, step = .sync surroundings reachable →
        (wanted trust world.host (world.fetched reachable)).isSome →
        world.host.applied.isSome → surroundings.applies 0 = true)
    steps

variable {trust}

theorem differ_of_files
    {host after : Host β} (same : after.files = host.files)
    (differ : Differ trust host) : Differ trust after := by
  intro held kept applied retained holds keeps
  exact
    differ held kept applied retained
      ((congrArg (·.1) same).symm.trans holds)
      ((congrArg (·.2.2) same).symm.trans keeps)

/-- One step keeps the difference, unless it retains what stays applied. -/
theorem differ_next
    {world : World β} {step : Step β}
    (replaces :
      ∀ surroundings reachable, step = .sync surroundings reachable →
        (wanted trust world.host (world.fetched reachable)).isSome →
        world.host.applied.isSome → surroundings.applies 0 = true)
    (stored : Stored trust world.host) (differ : Differ trust world.host) :
    Differ trust (world.next trust step).host ∧
      ((∃ surroundings reachable, step = .sync surroundings reachable) →
        world.outcome trust step ≠ some .applied →
        (world.next trust step).host.files = world.host.files) := by
  have effect := step_effect trust world step
  generalize (world.next trust step).host = after at effect ⊢
  generalize world.outcome trust step = outcome at effect ⊢
  cases effect with
  | quiet files => exact ⟨differ_of_files files differ, fun _ _ => files⟩
  | proves _ _ _ files =>
      exact ⟨differ_of_files files differ, fun _ _ => files⟩
  | @applies _ encoded artifact content _ _ wants _ files =>
      refine ⟨?_, fun _ unapplied => absurd rfl unapplied⟩
      intro held kept applied retained holds keeps decoded kepts same
      obtain ⟨decodes, verified, _, older⟩ := genuine_of_wanted wants
      cases (congrArg (·.1) files).symm.trans holds
      have keeps := (congrArg (·.2.2) files).symm.trans keeps
      cases decodes.symm.trans decoded
      cases runs : world.host.applied with
      | none =>
          rw [runs, stored.grounded runs] at keeps
          cases keeps
      | some running =>
          rw [runs] at keeps
          cases keeps
          obtain ⟨was, readable, differs⟩ := older kept runs
          cases readable.symm.trans kepts
          obtain ⟨_, _, readable, genuine⟩ := stored.applied kept runs
          cases kepts.symm.trans readable
          refine differs ?_
          rw [← (content_of_verify verified).2,
            ← (content_of_verify genuine).2, same]
  | spends surroundings reachable wants fails files =>
      have nothing : world.host.applied = none := by
        by_contra something
        have applies :=
          replaces surroundings reachable rfl (by simp [wants])
            (Option.isSome_iff_ne_none.mpr something)
        rw [fails] at applies
        cases applies
      have same : after.files = world.host.files := by
        rw [files, nothing]
        exact congrArg (·, _, _) nothing.symm
      exact ⟨differ_of_files same differ, fun _ _ => same⟩
  | returns _ _ files leaves =>
      refine ⟨?_, ?_⟩
      · intro held kept applied retained _ keeps
        cases (congrArg (·.2.2) files).symm.trans keeps
      · rintro ⟨surroundings, reachable, rfl⟩
        exact False.elim leaves

/-- An application that fails has what stays applied retained. -/
theorem retained_of_fails
    {world : World β} {surroundings : Surroundings} {reachable : Bool}
    (wants : (wanted trust world.host (world.fetched reachable)).isSome)
    (something : world.host.applied.isSome)
    (fails : surroundings.applies 0 ≠ true) :
    world.outcome trust (.sync surroundings reachable) ≠ some .applied ∧
      (world.next trust (.sync surroundings reachable)).host.retained =
        world.host.applied := by
  obtain ⟨answer, synced, outcome⟩ :=
    sync_step trust world surroundings reachable
  obtain ⟨⟨encoded, artifact, content⟩, wants⟩ :=
    Option.isSome_iff_exists.mp wants
  obtain ⟨running, runs⟩ := Option.isSome_iff_exists.mp something
  unfold Synced at synced
  rw [wants] at synced
  dsimp only at synced
  rw [if_neg fails] at synced
  rw [outcome, outcome_of_ok synced.1]
  refine ⟨nofun, ?_⟩
  have retained := congrArg (·.2.2) synced.2
  rw [runs] at retained ⊢
  exact retained

/-- The way back is kept exactly in the histories in which the applier does
what it is asked for whenever it is to replace an applied version. -/
theorem keepsWayBack_iff (trust : Trust β) (steps : List (Step β)) :
    KeepsWayBack trust steps ↔ Replaces trust steps := by
  constructor
  · rintro ⟨keeps, differ⟩ before step rest split surroundings reachable rfl
      wants something
    by_contra fails
    obtain ⟨unapplied, retained⟩ := retained_of_fails wants something fails
    have files := keeps before _ rest split surroundings reachable rfl unapplied
    have same := (congrArg (·.2.2) files).symm.trans retained
    obtain ⟨running, runs⟩ := Option.isSome_iff_exists.mp something
    obtain ⟨artifact, _, decoded, _⟩ :=
      (stored_worldAfter trust before).applied running runs
    exact
      differ before _ split running running artifact artifact runs
        (same.trans runs) decoded decoded rfl
  · intro replaces
    have holds (before rest : List (Step β)) (split : steps = before ++ rest) :
        Differ trust (worldAfter trust before).host := by
      subst split
      refine
        (replaces.of_append.invariant
          (fun world => Stored trust world.host ∧ Differ trust world.host)
          ⟨stored_fresh, ?_⟩ ?_).2
      · intro _ _ _ _ nothing
        cases nothing
      · rintro world step ⟨stored, differ⟩ met
        exact ⟨stored_next step stored, (differ_next met stored differ).1⟩
    refine ⟨?_, holds⟩
    intro before step rest split surroundings reachable is unapplied
    exact
      (differ_next (replaces before step rest split)
        (stored_worldAfter trust before)
        (holds before (step :: rest) split)).2
        ⟨surroundings, reachable, is⟩ unapplied

end WayBack

section Proven

variable {β : Type} (trust : Trust β)

/-- No step after the history applies a version or returns from one. -/
def Unmoved (before later : List (Step β)) : Prop :=
  ∀ (inner : List (Step β)) (step : Step β) (rest : List (Step β)),
    later = inner ++ step :: rest →
    (worldAfter trust (before ++ inner)).outcome trust step ≠
        some .applied ∧
      (worldAfter trust (before ++ inner)).outcome trust step ≠
        some .returned

/-- The applied version was recorded as proven, and no other one was applied
since then. -/
def ProvenSince (steps : List (Step β)) : Prop :=
  ∃ (earlier : List (Step β)) (proof : Step β) (later : List (Step β)),
    steps = earlier ++ proof :: later ∧
    (worldAfter trust earlier).outcome trust proof = some .proven ∧
    Unmoved trust (earlier ++ [proof]) later

/-- No call that is to prove or return returns from a version that was
recorded as proven. -/
def KeepsProven (steps : List (Step β)) : Prop :=
  ∀ (before : List (Step β)) (surroundings : Surroundings)
    (observation : Option Observation) (window : Int)
    (rest : List (Step β)),
    steps = before ++ .prove surroundings observation window :: rest →
    ProvenSince trust before →
    (worldAfter trust before).outcome trust
        (.prove surroundings observation window) ≠ some .returned

/-- Such a call finds the heartbeat of the version healthy or comes within
its window, or nothing is retained, or the applier does not take what is. -/
def FindsHealthy (steps : List (Step β)) : Prop :=
  ∀ (before : List (Step β)) (surroundings : Surroundings)
    (observation : Option Observation) (window : Int)
    (rest : List (Step β)),
    steps = before ++ .prove surroundings observation window :: rest →
    ProvenSince trust before →
    ¬ Failing trust (worldAfter trust before).host surroundings observation
        window ∨
      (worldAfter trust before).host.retained = none ∨
      surroundings.applies 0 = false

/-- A proven version is kept exactly in the histories in which its heartbeat
is healthy whenever it is judged after its window and could be left. -/
theorem keepsProven_iff (steps : List (Step β)) :
    KeepsProven trust steps ↔ FindsHealthy trust steps := by
  have stays
      (before : List (Step β)) (surroundings : Surroundings)
      (observation : Option Observation) (window : Int) :
      (worldAfter trust before).outcome trust
            (.prove surroundings observation window) ≠ some .returned ↔
        ¬ Failing trust (worldAfter trust before).host surroundings
            observation window ∨
          (worldAfter trust before).host.retained = none ∨
          surroundings.applies 0 = false := by
    rw [Ne, outcome_returned_iff]
    unfold Leaves
    rw [returnable_isSome_iff (stored_worldAfter trust before), not_and_or,
      not_and_or, not_not, Bool.not_eq_true]
  constructor
  · intro keeps before surroundings observation window rest split proven
    exact
      (stays before surroundings observation window).mp
        (keeps before surroundings observation window rest split proven)
  · intro finds before surroundings observation window rest split proven
    exact
      (stays before surroundings observation window).mpr
        (finds before surroundings observation window rest split proven)

end Proven

section Left

variable {β : Type} (trust : Trust β)

/-- The object is a version that verifies, with this content. -/
def Offers (object : Option β) (content : Content) : Prop :=
  ∃ encoded artifact,
    object = some encoded ∧ decode trust encoded = .ok artifact ∧
      verify trust artifact = .ok content

/-- The step puts a version that verifies in the place of the current
object, which is another one. -/
def PublishesOther (world : World β) (step : Step β) : Prop :=
  ∃ object content,
    step = .publish object ∧ object ≠ world.current ∧
      Offers trust object content

/-- After a return away from a content no synchronisation applies it again,
unless another version was published in between. -/
def StaysLeft (steps : List (Step β)) : Prop :=
  ∀ (earlier : List (Step β)) (leave : Step β) (between : List (Step β))
    (surroundings : Surroundings) (reachable : Bool) (rest : List (Step β))
    (left : Content),
    steps =
      earlier ++ leave :: between ++ .sync surroundings reachable :: rest →
    (worldAfter trust earlier).outcome trust leave = some .returned →
    Offers trust (worldAfter trust earlier).host.applied left →
    (∀ inner step later, between = inner ++ step :: later →
      ¬ PublishesOther trust (worldAfter trust (earlier ++ leave :: inner))
        step) →
    (worldAfter trust (earlier ++ leave :: between)).outcome trust
        (.sync surroundings reachable) = some .applied →
    ¬ Offers trust
      (worldAfter trust
        (earlier ++ leave :: between ++
          [.sync surroundings reachable])).host.applied left

/-- A version is left only when the store does not offer its content. -/
def Withdrawn (world : World β) (step : Step β) : Prop :=
  Leaves trust world step →
    ∀ content, Offers trust world.host.applied content →
      ¬ Offers trust world.current content

variable {trust}

/-- While no other version is published, what is not offered is not
offered. -/
theorem not_offers_after
    {before between : List (Step β)} {content : Content}
    (withdrawn : ¬ Offers trust (worldAfter trust before).current content)
    (same :
      ∀ inner step later, between = inner ++ step :: later →
        ¬ PublishesOther trust (worldAfter trust (before ++ inner)) step) :
    ¬ Offers trust (worldAfter trust (before ++ between)).current
      content := by
  induction between using List.reverseRecOn with
  | nil =>
      rw [List.append_nil]
      exact withdrawn
  | append_singleton between step inductionHypothesis =>
      have earlier :
          ¬ Offers trust (worldAfter trust (before ++ between)).current
            content := by
        refine inductionHypothesis fun inner other later split => ?_
        refine same inner other (later ++ [step]) ?_
        rw [split, List.append_assoc, List.cons_append]
      intro offers
      rw [← List.append_assoc] at offers
      unfold worldAfter at offers
      rw [stateAfter_snoc] at offers
      change
        Offers trust
          ((worldAfter trust (before ++ between)).next trust step).current
          content at offers
      cases step with
      | publish object =>
          refine same between _ [] rfl ⟨object, content, rfl, ?_, offers⟩
          rintro rfl
          exact earlier offers
      | sync => exact earlier offers
      | giveBack => exact earlier offers
      | prove => exact earlier offers

/-- What a synchronisation applies is what the store offers. -/
theorem offers_of_applied
    {world : World β} {surroundings : Surroundings} {reachable : Bool}
    {content : Content}
    (applies :
      world.outcome trust (.sync surroundings reachable) = some .applied)
    (offers :
      Offers trust
        (world.next trust (.sync surroundings reachable)).host.applied
        content) :
    Offers trust world.current content := by
  have effect := step_effect trust world (.sync surroundings reachable)
  rw [applies] at effect
  generalize
    (world.next trust (.sync surroundings reachable)).host = after
    at effect offers
  cases effect with
  | quiet files silent => exact absurd rfl silent.1
  | applies _ _ wants _ files =>
      obtain ⟨_, _, fetched, _⟩ := genuine_of_wanted wants
      have current : world.current = after.applied := by
        unfold World.fetched at fetched
        split at fetched
        · exact fetched.trans (congrArg (·.1) files).symm
        · cases fetched
      rw [current]
      exact offers

/-- In every history in which a version is left only when the store does not
offer it, a version that was left stays left. -/
theorem staysLeft_of_withdrawn
    (trust : Trust β) (steps : List (Step β))
    (withdrawn :
      EachStep (World.next trust) .fresh (Withdrawn trust) steps) :
    StaysLeft trust steps := by
  intro earlier leave between surroundings reachable rest left split returned
    applied same applies offers
  have absent :
      ¬ Offers trust (worldAfter trust earlier).current left := by
    refine
      withdrawn earlier leave
        (between ++ .sync surroundings reachable :: rest) ?_
        ((outcome_returned_iff leave).mp returned) left applied
    rw [split, List.append_assoc, List.cons_append]
  have stays :
      (worldAfter trust (earlier ++ [leave])).current =
        (worldAfter trust earlier).current := by
    unfold worldAfter
    rw [stateAfter_snoc]
    have leaves := (outcome_returned_iff leave).mp returned
    cases leave with
    | publish object => exact False.elim leaves
    | sync => rfl
    | giveBack => rfl
    | prove => rfl
  have still :
      ¬ Offers trust
        (worldAfter trust (earlier ++ leave :: between)).current left := by
    rw [List.append_cons]
    refine not_offers_after (stays ▸ absent) ?_
    intro inner step later divided
    rw [← List.append_cons]
    exact same inner step later divided
  unfold worldAfter at offers
  rw [stateAfter_snoc] at offers
  exact still (offers_of_applied applies offers)

end Left

section Example

/-- Artifacts are their own bytes, and the key has signed them all. -/
def plainTrust : Trust Artifact where
  parse := some
  sha256 content := BitVec.ofNat 256 content.length
  fingerprint := 7
  genuine _ _ := true
  target := ⟨.node, "ingress"⟩

/-- A version created at a time, with so many bytes of content. -/
def versionAt (time bytes : Nat) (label : String) : Artifact where
  statement :=
    { schema := statementSchema
      version := statementVersion
      target := ⟨.node, "ingress"⟩
      versionLabel := label
      contentSHA256 := BitVec.ofNat 256 bytes
      contentBytes := bytes
      signerFingerprint := 7
      createdAt := time }
  signature := 0
  content := List.replicate bytes 0

/-- A time at which the applier does what it is asked for. -/
def calmAt (time : Nat) : Surroundings where
  applies _ := true
  clock _ := time

def failingAt (time : Nat) : Surroundings where
  applies _ := false
  clock _ := time

/-- The second version is applied after the first one. -/
def upgraded : List (Step Artifact) :=
  [Step.publish (some (versionAt 1 1 "v1")), Step.sync (calmAt 10) true,
    Step.publish (some (versionAt 2 2 "v2")), Step.sync (calmAt 20) true]

/-- An application that fails spends the way back: the version that stays
applied is the retained one. -/
theorem failed_application_spends_way_back :
    ¬ KeepsWayBack plainTrust
      (upgraded ++
        [Step.publish (some (versionAt 3 3 "v3")),
          Step.sync (failingAt 30) true]) := by
  rintro ⟨_, differ⟩
  exact
    differ _ [] (List.append_nil _).symm (versionAt 2 2 "v2")
      (versionAt 2 2 "v2") (versionAt 2 2 "v2") (versionAt 2 2 "v2")
      (by decide +kernel) (by decide +kernel) (by decide +kernel)
      (by decide +kernel) rfl

/-- The second version is recorded as proven within its window, and left when
a later heartbeat is not healthy. -/
theorem proven_version_is_left :
    ¬ KeepsProven plainTrust
      (upgraded ++
        [Step.prove (calmAt 25) (some ⟨"v2", true⟩) 10,
          Step.prove (calmAt 100) (some ⟨"v2", false⟩) 10]) := by
  intro keeps
  refine
    keeps (upgraded ++ [Step.prove (calmAt 25) (some ⟨"v2", true⟩) 10])
      (calmAt 100) (some ⟨"v2", false⟩) 10 [] rfl
      ⟨upgraded, Step.prove (calmAt 25) (some ⟨"v2", true⟩) 10, [], rfl,
        by decide +kernel, ?_⟩
      (by decide +kernel)
  intro inner step rest split
  exact absurd split (by simp)

/-- The second version is left, and applied again by the next
synchronisation, since the store still offers it. -/
theorem left_version_comes_back :
    ¬ StaysLeft plainTrust
      (upgraded ++
        [Step.giveBack (calmAt 30), Step.sync (calmAt 40) true]) := by
  intro stays
  refine
    stays upgraded (.giveBack (calmAt 30)) [] (calmAt 40) true []
      [0, 0] rfl (by decide +kernel)
      ⟨versionAt 2 2 "v2", versionAt 2 2 "v2", by decide +kernel,
        by decide +kernel, by decide +kernel⟩ ?_ (by decide +kernel)
      ⟨versionAt 2 2 "v2", versionAt 2 2 "v2", by decide +kernel,
        by decide +kernel, by decide +kernel⟩
  intro inner step later split
  exact absurd split (by simp)

/-- The second version is withdrawn from the store before it is left. -/
theorem withdrawn_version_stays_left :
    (worldAfter plainTrust (upgraded ++ [Step.publish none])).outcome plainTrust
        (.giveBack (calmAt 30)) = some .returned ∧
      StaysLeft plainTrust
        (upgraded ++ [Step.publish none] ++ [Step.giveBack (calmAt 30)] ++
          [Step.sync (calmAt 40) true]) := by
  refine ⟨by decide +kernel, staysLeft_of_withdrawn _ _ ?_⟩
  have published : EachStep (World.next plainTrust) .fresh
      (Withdrawn plainTrust) (upgraded ++ [Step.publish none]) := by
    change
      EachStep _ _ _
        (List.append
          (List.append
            (List.append
              (List.append
                (List.append []
                  [Step.publish (some (versionAt 1 1 "v1"))])
                [Step.sync (calmAt 10) true])
              [Step.publish (some (versionAt 2 2 "v2"))])
            [Step.sync (calmAt 20) true])
          [Step.publish none])
    exact
      ((((eachStep_nil.snoc False.elim).snoc False.elim).snoc
        False.elim).snoc False.elim).snoc False.elim
  refine (published.snoc ?_).snoc False.elim
  rintro _ content _ ⟨encoded, artifact, offered, _⟩
  have nothing :
      (worldAfter plainTrust (upgraded ++ [Step.publish none])).current =
        none := by
    decide +kernel
  cases nothing.symm.trans offered

end Example

end Hexroute.IngressAgent
