import Hexroute.IngressAgent.Agent

/-!
# What a call of the agent ends in

Each call is decided by the files of the host, by what it fetches or observes
and by the applier.  The functions here say when a version is wanted, when
there is a version to return to, and when a version has failed to prove
itself; the lemmas say what the call leaves then.
-/

namespace Hexroute.IngressAgent

open Hexroute.Lib

variable {β : Type} (trust : Trust β)

/-- What is applied, since when, and what is retained. -/
def Host.files (host : Host β) : Option β × Option Nat × Option β :=
  (host.applied, host.appliedAt, host.retained)

/-- The fetched version, if it verifies and is other and newer than what is
applied. -/
def wanted (host : Host β) (fetched : Option β) :
    Option (β × Artifact × Content) :=
  match fetched with
  | none => none
  | some encoded =>
      match decode trust encoded with
      | .error _ => none
      | .ok artifact =>
          match verify trust artifact with
          | .error _ => none
          | .ok content =>
              match host.applied with
              | none => some (encoded, artifact, content)
              | some held =>
                  match decode trust held with
                  | .error _ => none
                  | .ok applied =>
                      if applied.statement.contentSHA256 =
                          artifact.statement.contentSHA256 then
                        none
                      else if applied.statement.createdAt <
                          artifact.statement.createdAt then
                        some (encoded, artifact, content)
                      else none

/-- The retained version, if it verifies. -/
def returnable (host : Host β) : Option (β × Artifact) :=
  match host.retained with
  | none => none
  | some encoded =>
      match decode trust encoded with
      | .error _ => none
      | .ok artifact =>
          match verify trust artifact with
          | .error _ => none
          | .ok _ => some (encoded, artifact)

/-- What a heartbeat says of the applied version, if there is one that was
applied at a known time and a window to judge it in. -/
def judged (host : Host β) (observation : Option Observation)
    (window : Int) : Option (Nat × Option Reason) :=
  if window ≤ 0 then none
  else
    match host.applied.map (decode trust), host.appliedAt with
    | some (.ok applied), some appliedAt =>
        some
          (appliedAt,
            unprovenReason observation applied.statement.versionLabel)
    | _, _ => none

/-- No application and no return is claimed, and no proof. -/
def Quiet (answer : Except AgentError Result) : Prop :=
  ∀ result, answer = .ok result →
    result.outcome ≠ .applied ∧ result.outcome ≠ .returned ∧
      result.outcome ≠ .proven

variable {trust} {surroundings : Surroundings} {host : Host β}
  {encoded : β} {artifact : Artifact} {content : Content}

theorem ends_record
    {result : Result} {outcome : Except AgentError Result → Host β → Prop} :
    Ends (record result) host outcome ↔
      outcome (.ok result) { host with lastResult := some result } :=
  Iff.rfl

theorem quiet_ok
    {result : Result}
    (other :
      result.outcome ≠ .applied ∧ result.outcome ≠ .returned ∧
        result.outcome ≠ .proven) :
    Quiet (.ok result) := by
  rintro _ ⟨⟩
  exact other

theorem quiet_error {error : AgentError} : Quiet (.error error) :=
  nofun

/-! ## Small calls -/

theorem ends_apply
    {call : Nat} {label : String}
    {outcome : Except AgentError Bool → Host β → Prop} :
    Ends (apply surroundings call content label) host outcome ↔
      outcome (.ok (surroundings.applies call))
        { host with
          serves :=
            if surroundings.applies call then some (content, label)
            else none } :=
  Iff.rfl

theorem ends_write
    {store : Host β → Host β} {outcome : Except AgentError Unit → Host β → Prop}
    (decoded : decode trust encoded = .ok artifact)
    (kept : outcome (.ok ⟨⟩) (store host)) :
    Ends (write trust encoded store) host outcome := by
  unfold write
  rw [decoded]
  exact kept

theorem ends_setApplied
    {time : Nat} {outcome : Except AgentError Unit → Host β → Prop}
    (decoded : decode trust encoded = .ok artifact)
    (kept :
      outcome (.ok ⟨⟩)
        { host with applied := some encoded, appliedAt := some time }) :
    Ends (setApplied trust encoded time) host outcome := by
  unfold setApplied
  rw [ends_bind]
  exact ends_write decoded kept

theorem ends_read_none
    {outcome : Except AgentError (Option (Artifact × β)) → Host β → Prop}
    (kept : outcome (.ok none) host) :
    Ends (read trust none) host outcome :=
  kept

theorem ends_read_some
    {outcome : Except AgentError (Option (Artifact × β)) → Host β → Prop}
    (decoded : decode trust encoded = .ok artifact)
    (kept : outcome (.ok (some (artifact, encoded))) host) :
    Ends (read trust (some encoded)) host outcome := by
  unfold read
  dsimp only
  rw [decoded]
  exact kept

theorem ends_read_error
    {error : VersionError}
    {outcome : Except AgentError (Option (Artifact × β)) → Host β → Prop}
    (damaged : decode trust encoded = .error error)
    (kept : outcome (.error (.version error)) host) :
    Ends (read trust (some encoded)) host outcome := by
  unfold read
  dsimp only
  rw [damaged]
  exact kept

theorem ends_promoteRetained
    {time : Nat} {outcome : Except AgentError Unit → Host β → Prop}
    (held : host.retained = some encoded)
    (decoded : decode trust encoded = .ok artifact)
    (kept :
      outcome (.ok ⟨⟩)
        { host with
          applied := some encoded
          appliedAt := some time
          retained := none }) :
    Ends (promoteRetained trust time) host outcome := by
  unfold promoteRetained
  refine ends_get_bind ?_
  rw [held, ends_bind]
  refine ends_read_some decoded ?_
  dsimp only
  rw [ends_bind]
  exact ends_setApplied decoded kept

theorem ends_applyRetained :
    Ends (applyRetained trust surroundings) host fun answer after =>
      answer = .ok ⟨⟩ ∧ after.files = host.files := by
  unfold applyRetained
  refine ends_get_bind ?_
  split
  · split
    · exact ⟨rfl, rfl⟩
    · exact ⟨rfl, rfl⟩
  · exact ⟨rfl, rfl⟩

/-! ## Synchronising -/

theorem ends_retainHeld
    (reads : ∀ running, host.applied = some running →
      ∃ applied, decode trust running = .ok applied) :
    Ends (retainHeld trust host.applied) host fun answer after =>
      answer = .ok ⟨⟩ ∧
        after.files =
          (host.applied, host.appliedAt, host.applied.or host.retained) := by
  unfold retainHeld
  cases holds : host.applied with
  | none =>
      exact ⟨rfl, congrArg (·, host.appliedAt, host.retained) holds⟩
  | some running =>
      obtain ⟨applied, readable⟩ := reads running holds
      exact
        ends_write readable
          ⟨rfl, congrArg (·, host.appliedAt, some running) holds⟩

theorem ends_putBack (held : Option β) :
    Ends (putBack trust surroundings held) host fun answer after =>
      answer = .ok ⟨⟩ ∧ after.files = host.files := by
  cases held with
  | none => exact ⟨rfl, rfl⟩
  | some running => exact ends_applyRetained

/-- What a synchronisation leaves, by the version that is wanted.  What is
applied is retained before it is known whether the applier does what it is
asked for. -/
def Synced (surroundings : Surroundings) (host : Host β)
    (wanted : Option (β × Artifact × Content))
    (answer : Except AgentError Result) (after : Host β) : Prop :=
  match wanted with
  | none => Quiet answer ∧ after.files = host.files
  | some (encoded, _, _) =>
      if surroundings.applies 0 = true then
        (∃ result, answer = .ok result ∧ result.outcome = .applied) ∧
          after.files =
            (some encoded, some (surroundings.clock 0),
              host.applied.or host.retained)
      else
        (∃ result, answer = .ok result ∧ result.outcome = .refused) ∧
          after.files =
            (host.applied, host.appliedAt, host.applied.or host.retained)

theorem ends_replace
    (decoded : decode trust encoded = .ok artifact)
    (reads : ∀ running, host.applied = some running →
      ∃ applied, decode trust running = .ok applied) :
    Ends (replace trust surroundings encoded artifact content host.applied)
      host (Synced surroundings host (some (encoded, artifact, content))) := by
  unfold replace
  rw [ends_bind]
  refine (ends_retainHeld reads).mono fun answer after facts => ?_
  obtain ⟨rfl, files⟩ := facts
  dsimp only
  rw [ends_bind, ends_apply]
  unfold Synced
  cases surroundings.applies 0 with
  | true =>
      dsimp only
      rw [if_pos rfl, ends_bind]
      refine ends_setApplied decoded ?_
      refine ends_record.mpr ⟨⟨_, rfl, rfl⟩, ?_⟩
      have retained := congrArg (·.2.2) files
      exact Prod.ext rfl (Prod.ext rfl retained)
  | false =>
      dsimp only
      rw [if_neg (by decide), ends_bind]
      refine (ends_putBack _).mono fun answer later facts => ?_
      obtain ⟨rfl, same⟩ := facts
      exact ends_record.mpr ⟨⟨_, rfl, rfl⟩, same.trans files⟩

theorem synced_quiet
    {result : Result}
    (other :
      result.outcome ≠ .applied ∧ result.outcome ≠ .returned ∧
        result.outcome ≠ .proven) :
    Ends (record result) host (Synced surroundings host none) :=
  ends_record.mpr ⟨quiet_ok other, rfl⟩

theorem ends_sync (fetched : Option β) :
    Ends (sync trust surroundings fetched) host
      (Synced surroundings host (wanted trust host fetched)) := by
  unfold sync
  cases fetched with
  | none => exact synced_quiet ⟨nofun, nofun, nofun⟩
  | some encoded =>
      dsimp only
      unfold wanted
      dsimp only
      cases decoded : decode trust encoded with
      | error error => exact synced_quiet ⟨nofun, nofun, nofun⟩
      | ok artifact =>
          dsimp only
          cases verify trust artifact with
          | error error => exact synced_quiet ⟨nofun, nofun, nofun⟩
          | ok content =>
              refine ends_get_bind ?_
              dsimp only
              rw [ends_bind]
              have replaces :=
                @ends_replace β trust surroundings host encoded artifact
                  content decoded
              cases holds : host.applied with
              | none =>
                  rw [holds] at replaces
                  exact ends_read_none (replaces nofun)
              | some held =>
                  dsimp only
                  rw [holds] at replaces
                  cases readable : decode trust held with
                  | error error =>
                      exact ends_read_error readable ⟨quiet_error, rfl⟩
                  | ok applied =>
                      refine ends_read_some readable ?_
                      dsimp only
                      split
                      · exact synced_quiet ⟨nofun, nofun, nofun⟩
                      · split
                        · refine replaces ?_
                          rintro _ ⟨⟩
                          exact ⟨applied, readable⟩
                        · exact synced_quiet ⟨nofun, nofun, nofun⟩

/-! ## Returning and proving -/

theorem returnable_of_none (nothing : host.retained = none) :
    returnable trust host = none := by
  unfold returnable
  rw [nothing]

theorem returnable_of_error
    {error : VersionError} (held : host.retained = some encoded)
    (damaged : decode trust encoded = .error error) :
    returnable trust host = none := by
  unfold returnable
  rw [held]
  dsimp only
  rw [damaged]

/-- What a return leaves, by the version there is to return to. -/
def GivenBack (surroundings : Surroundings) (time : Nat) (host : Host β)
    (returnable : Option (β × Artifact))
    (answer : Except AgentError Result) (after : Host β) : Prop :=
  match returnable with
  | none => Quiet answer ∧ after.files = host.files
  | some (encoded, _) =>
      if surroundings.applies 0 = true then
        (∃ result, answer = .ok result ∧ result.outcome = .returned) ∧
          after.files = (some encoded, some time, none)
      else Quiet answer ∧ after.files = host.files

theorem ends_giveBack :
    Ends (giveBack trust surroundings) host
      (GivenBack surroundings (surroundings.clock 0) host
        (returnable trust host)) := by
  unfold giveBack returnable
  refine ends_get_bind ?_
  rw [ends_bind]
  cases holds : host.retained with
  | none => exact ends_read_none ⟨quiet_error, rfl⟩
  | some encoded =>
      dsimp only
      cases decoded : decode trust encoded with
      | error error => exact ends_read_error decoded ⟨quiet_error, rfl⟩
      | ok artifact =>
          refine ends_read_some decoded ?_
          dsimp only
          cases verify trust artifact with
          | error error =>
              exact
                ends_record.mpr ⟨quiet_ok ⟨nofun, nofun, nofun⟩, rfl⟩
          | ok content =>
              dsimp only
              rw [ends_bind, ends_apply]
              unfold GivenBack
              cases surroundings.applies 0 with
              | true =>
                  dsimp only
                  rw [if_pos rfl, ends_bind]
                  refine ends_promoteRetained holds decoded ?_
                  exact ends_record.mpr ⟨⟨_, rfl, rfl⟩, rfl⟩
              | false => exact ⟨quiet_error, rfl⟩

/-- What a judgement leaves: a version is proven, or it is left if its window
is over. -/
def Judged (surroundings : Surroundings) (window : Int) (host : Host β)
    (returnable : Option (β × Artifact))
    (judged : Option (Nat × Option Reason))
    (answer : Except AgentError Result) (after : Host β) : Prop :=
  match judged with
  | none => Quiet answer ∧ after.files = host.files
  | some (_, none) =>
      (∃ result, answer = .ok result ∧ result.outcome = .proven) ∧
        after.files = host.files
  | some (appliedAt, some _) =>
      if (surroundings.clock 0 : Int) - appliedAt < window then
        Quiet answer ∧ after.files = host.files
      else
        GivenBack surroundings (surroundings.clock 1) host returnable answer
          after

/-- Recording the answer of a return again changes nothing about it. -/
theorem GivenBack.recorded
    {time : Nat} {returned : Option (β × Artifact)} {result later : Result}
    {after : Host β}
    (given :
      GivenBack surroundings time host returned (.ok result) after)
    (same : later.outcome = result.outcome) :
    GivenBack surroundings time host returned (.ok later)
      { after with lastResult := some later } := by
  unfold GivenBack at given ⊢
  have quiet (known : Quiet (.ok result)) : Quiet (.ok later) := by
    refine quiet_ok ?_
    rw [same]
    exact known result rfl
  split at given
  · exact ⟨quiet given.1, given.2⟩
  · split at given
    · rename_i applies
      obtain ⟨⟨_, ⟨⟩, outcome⟩, files⟩ := given
      rw [if_pos applies]
      exact ⟨⟨later, rfl, same.trans outcome⟩, files⟩
    · rename_i fails
      rw [if_neg fails]
      exact ⟨quiet given.1, given.2⟩

theorem ends_proveOrReturn
    (observation : Option Observation) (window : Int) :
    Ends (proveOrReturn trust surroundings observation window) host
      (Judged surroundings window host (returnable trust host)
        (judged trust host observation window)) := by
  unfold proveOrReturn judged
  split
  · exact ⟨quiet_error, rfl⟩
  refine ends_get_bind ?_
  rw [ends_bind]
  cases holds : host.applied with
  | none => exact ends_read_none ⟨quiet_error, rfl⟩
  | some held =>
      rw [Option.map_some]
      cases readable : decode trust held with
      | error error => exact ends_read_error readable ⟨quiet_error, rfl⟩
      | ok applied =>
          refine ends_read_some readable ?_
          dsimp only
          cases host.appliedAt with
          | none => exact ⟨quiet_error, rfl⟩
          | some appliedAt =>
              dsimp only
              cases unprovenReason observation
                  applied.statement.versionLabel with
              | none => exact ends_record.mpr ⟨⟨_, rfl, rfl⟩, rfl⟩
              | some reason =>
                  unfold Judged
                  dsimp only
                  split
                  · exact
                      ends_record.mpr ⟨quiet_ok ⟨nofun, nofun, nofun⟩, rfl⟩
                  · rw [ends_bind]
                    cases kept : host.retained with
                    | none =>
                        rw [returnable_of_none kept]
                        refine ends_read_none (ends_record.mpr ?_)
                        exact ⟨quiet_ok ⟨nofun, nofun, nofun⟩, rfl⟩
                    | some encoded =>
                        cases decoded : decode trust encoded with
                        | error error =>
                            rw [returnable_of_error kept decoded]
                            exact
                              ends_read_error decoded ⟨quiet_error, rfl⟩
                        | ok artifact =>
                            refine ends_read_some decoded ?_
                            dsimp only
                            rw [ends_bind]
                            refine
                              ends_giveBack.mono fun answer after given => ?_
                            cases answer with
                            | ok result =>
                                exact ends_record.mpr (given.recorded rfl)
                            | error error => exact given

end Hexroute.IngressAgent
