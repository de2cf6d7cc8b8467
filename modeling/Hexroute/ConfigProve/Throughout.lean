import Hexroute.ConfigProve.Ledger

/-!
# What a proven version has been through

A version is to be proven by health across its whole window, and rejected by
a pass that finds it not healthy after its deadline.  A pass that finds an
active version not healthy before its deadline leaves no trace in the ledger.
-/

namespace Hexroute.ConfigProve

open Hexroute.Lib
open Hexroute.Policy (UUID)

/-- The pass observed the label running and healthy. -/
def Serving (label : String) (pass : Pass) : Prop :=
  pass.observation.generation = label ∧ pass.observation.healthy = true

instance (label : String) (pass : Pass) : Decidable (Serving label pass) :=
  inferInstanceAs (Decidable (_ ∧ _))

theorem serving_of_unprovenReason
    {pass : Pass} {label : String}
    (proven : unprovenReason pass.observation label = none) :
    Serving label pass := by
  unfold unprovenReason at proven
  split at proven
  · cases proven
  · split at proven
    · cases proven
    · rename_i same
      split at proven
      · cases proven
      · rename_i healthy
        exact ⟨not_not.mp same, by simpa using healthy⟩

/-- A missing reason is what a served label has, the empty one apart. -/
theorem not_serving_of_unprovenReason
    {pass : Pass} {label : String} {reason : Reason} (named : label ≠ "")
    (unproven : unprovenReason pass.observation label = some reason) :
    ¬ Serving label pass := by
  rintro ⟨rfl, healthy⟩
  unfold unprovenReason at unproven
  rw [if_neg named, if_neg (not_not.mpr rfl), healthy] at unproven
  cases unproven

theorem Lifecycle.unsettled
    {lifecycle : Lifecycle}
    (unsettled :
      ¬ (lifecycle = .proven ∨ lifecycle = .rejected ∨
        lifecycle = .retired)) :
    lifecycle = .staged ∨ lifecycle = .active := by
  cases lifecycle <;> simp at unsettled ⊢

namespace Ledger

variable {ledger : Ledger} {id : UUID} {change : Change}
  {deployments : List Deployment}

/-! ## Rows -/

theorem version_eq_some_iff {version : Version} :
    ledger.version id = some version ↔
      version ∈ ledger.versions ∧ version.configVersionID = id := by
  unfold Ledger.version
  constructor
  · intro found
    exact
      ⟨List.mem_of_find?_eq_some found,
        by simpa using List.find?_some found⟩
  · rintro ⟨member, rfl⟩
    cases found :
        ledger.versions.find? fun row =>
          row.configVersionID = version.configVersionID with
    | none =>
        have missing := List.find?_eq_none.mp found version member
        simp at missing
    | some other =>
        have held := List.mem_of_find?_eq_some found
        have same : other.configVersionID = version.configVersionID := by
          simpa using List.find?_some found
        rw [List.inj_on_of_nodup_map ledger.distinct held member same]

theorem version_changed (other : UUID) :
    (ledger.changed id change deployments).version other =
      (ledger.version other).map (change.on id) := by
  unfold Ledger.version changed
  rw [List.find?_map]
  congr 2
  funext row
  simp [Function.comp]

theorem lifecycle_changed_of_ne {other : UUID} (differs : other ≠ id) :
    (ledger.changed id change deployments).lifecycle other =
      ledger.lifecycle other := by
  unfold lifecycle
  rw [version_changed]
  cases found : ledger.version other with
  | none => rfl
  | some row =>
      have whose := (version_eq_some_iff.mp found).2
      rw [Option.map_some, Change.on_of_ne (whose ▸ differs)]

/-! ## The latest version -/

theorem foldl_later_map (rows : List Version) (held : Option Version) :
    (rows.map (change.on id)).foldl later (held.map (change.on id)) =
      (rows.foldl later held).map (change.on id) := by
  induction rows generalizing held with
  | nil => rfl
  | cons row rest inductionHypothesis =>
      rw [List.map_cons, List.foldl_cons, List.foldl_cons,
        ← inductionHypothesis]
      congr 1
      cases held with
      | none => rfl
      | some other =>
          simp only [later, Option.map_some, Change.on_created,
            Change.on_label]
          split <;> rfl

theorem mem_of_foldl_later
    {rows : List Version} {held : Option Version} {version : Version}
    (found : rows.foldl later held = some version) :
    held = some version ∨ version ∈ rows := by
  induction rows generalizing held with
  | nil => exact Or.inl found
  | cons row rest inductionHypothesis =>
      rcases inductionHypothesis found with kept | member
      · cases held with
        | none => exact Or.inr (by simpa [later, eq_comm] using Or.inl kept)
        | some other =>
            unfold later at kept
            dsimp only at kept
            split at kept
            · cases kept
              exact Or.inr List.mem_cons_self
            · exact Or.inl kept
      · exact Or.inr (List.mem_cons_of_mem row member)

variable {kind : TargetKind} {key : String} {version : Version}

theorem latestVersion_eq_ok_iff :
    ledger.latestVersion kind key = .ok version ↔
      key ≠ "" ∧
        (ledger.versions.filter fun row =>
          row.targetKind = kind ∧ row.targetKey = key).foldl later none =
          some version := by
  unfold latestVersion
  rw [bind_eq_ok_iff]
  simp only [refuse_eq_ok_iff]
  constructor
  · rintro ⟨_, named, found⟩
    refine ⟨named, ?_⟩
    split at found
    · cases found
    · rename_i row same
      cases found
      exact same
  · rintro ⟨named, found⟩
    exact ⟨⟨⟩, named, by rw [found]⟩

theorem latestVersion_mem
    (latest : ledger.latestVersion kind key = .ok version) :
    version ∈ ledger.versions := by
  rcases mem_of_foldl_later (latestVersion_eq_ok_iff.mp latest).2 with
    none | member
  · cases none
  · exact (List.mem_filter.mp member).1

theorem version_of_latest
    (latest : ledger.latestVersion kind key = .ok version) :
    ledger.version version.configVersionID = some version :=
  version_eq_some_iff.mpr ⟨latestVersion_mem latest, rfl⟩

theorem latestVersion_changed
    (latest :
      (ledger.changed id change deployments).latestVersion kind key =
        .ok version) :
    ∃ row, ledger.latestVersion kind key = .ok row ∧
      change.on id row = version := by
  obtain ⟨named, found⟩ := latestVersion_eq_ok_iff.mp latest
  have targets :
      (fun row : Version =>
          decide (row.targetKind = kind ∧ row.targetKey = key)) ∘
            change.on id =
        fun row => decide (row.targetKind = kind ∧ row.targetKey = key) := by
    funext row
    simp [Function.comp]
  change
    ((ledger.versions.map (change.on id)).filter _).foldl later
      (none.map (change.on id)) = _ at found
  rw [List.filter_map, targets, foldl_later_map] at found
  obtain ⟨row, chosen, same⟩ := Option.map_eq_some_iff.mp found
  exact ⟨row, latestVersion_eq_ok_iff.mpr ⟨named, chosen⟩, same⟩

end Ledger

section Passes

variable {prover : Prover} {applicationVersion : String} {kind : TargetKind}
  {key : String}

/-- A pass leaves the ledger, or activates, proves or rejects the latest
version. -/
inductive Effect (prover : Prover) (kind : TargetKind) (key : String)
    (pass : Pass) (ledger : Ledger) : Ledger → Prop where
  | same : Effect prover kind key pass ledger ledger
  | activates {version : Version} (deployments : List Deployment)
      (latest : ledger.latestVersion kind key = .ok version)
      (staged : version.lifecycle = .staged)
      (serving : Serving version.versionLabel pass) :
      Effect prover kind key pass ledger
        (ledger.changed version.configVersionID (.activation pass.now)
          deployments)
  | proves {version : Version} (deployments : List Deployment)
      (latest : ledger.latestVersion kind key = .ok version)
      (active : version.lifecycle = .active)
      (serving : Serving version.versionLabel pass)
      (elapsed :
        (prover.window : Int) ≤ pass.now - version.activatedAt.getD 0) :
      Effect prover kind key pass ledger
        (ledger.changed version.configVersionID (.proof pass.now) deployments)
  | rejects {version : Version} {reason : Reason}
      (deployments : List Deployment)
      (latest : ledger.latestVersion kind key = .ok version)
      (unsettled : version.lifecycle = .staged ∨ version.lifecycle = .active)
      (unproven :
        unprovenReason pass.observation version.versionLabel = some reason)
      (late : (prover.deadline : Int) ≤ pass.now - version.createdAt) :
      Effect prover kind key pass ledger
        (ledger.changed version.configVersionID (.rejection pass.now reason)
          deployments)

theorem markActive_eq_ok
    {ledger after : Ledger} {version : Version} {deploymentID : UUID}
    {time : Nat}
    (marked :
      ledger.markActive applicationVersion version deploymentID time =
        .ok after) :
    ∃ deployments,
      after =
        ledger.changed version.configVersionID (.activation time)
          deployments := by
  unfold Ledger.markActive at marked
  obtain ⟨_, _, marked⟩ := bind_eq_ok_iff.mp marked
  split at marked
  · exact ⟨_, (pure_eq_ok_iff.mp marked).symm⟩
  · obtain ⟨_, _, marked⟩ := bind_eq_ok_iff.mp marked
    exact ⟨_, (pure_eq_ok_iff.mp marked).symm⟩

theorem effect_of_prove
    {pass : Pass} {ledger after : Ledger} {result : Result}
    (proves :
      prove prover applicationVersion kind key pass ledger =
        .ok (result, after)) :
    Effect prover kind key pass ledger after := by
  unfold prove at proves
  obtain ⟨_, _, proves⟩ := bind_eq_ok_iff.mp proves
  obtain ⟨_, _, proves⟩ := bind_eq_ok_iff.mp proves
  obtain ⟨version, latest, proves⟩ := bind_eq_ok_iff.mp proves
  split at proves
  · cases proves
    exact .same
  rename_i unsettled
  have unsettled := Lifecycle.unsettled unsettled
  split at proves
  · rename_i reason unproven
    split at proves
    · cases proves
      exact .same
    · rename_i late
      obtain ⟨_, _, proves⟩ := bind_eq_ok_iff.mp proves
      obtain ⟨marked, marks, proves⟩ := bind_eq_ok_iff.mp proves
      obtain ⟨deployments, _, marks⟩ := bind_eq_ok_iff.mp marks
      cases marks
      cases proves
      exact .rejects deployments latest unsettled unproven (not_lt.mp late)
  · rename_i proven
    have serving := serving_of_unprovenReason proven
    split at proves
    · rename_i staged
      obtain ⟨_, _, proves⟩ := bind_eq_ok_iff.mp proves
      obtain ⟨marked, marks, proves⟩ := bind_eq_ok_iff.mp proves
      obtain ⟨deployments, rfl⟩ := markActive_eq_ok marks
      cases proves
      exact .activates deployments latest staged serving
    · rename_i unstaged
      split at proves
      · cases proves
        exact .same
      · rename_i elapsed
        obtain ⟨_, _, proves⟩ := bind_eq_ok_iff.mp proves
        obtain ⟨marked, marks, proves⟩ := bind_eq_ok_iff.mp proves
        obtain ⟨deployments, _, marks⟩ := bind_eq_ok_iff.mp marks
        cases marks
        cases proves
        have active := unsettled.resolve_left unstaged
        rw [not_or] at elapsed
        exact
          .proves deployments latest active serving (not_lt.mp elapsed.2)

theorem effect_next (pass : Pass) (ledger : Ledger) :
    Effect prover kind key pass ledger
      (ledger.next prover applicationVersion kind key (.pass pass)) := by
  unfold Ledger.next
  dsimp only
  split
  · rename_i proves
    exact effect_of_prove proves
  · exact .same

/-! ## What a step marks -/

/-- A step gives a version this place in its lifecycle. -/
def Marks (lifecycle : Lifecycle) (id : UUID) (before after : Ledger) : Prop :=
  before.lifecycle id ≠ some lifecycle ∧ after.lifecycle id = some lifecycle

variable {ledger after : Ledger} {id : UUID} {lifecycle : Lifecycle}
  {change : Ledger.Change} {deployments : List Deployment}
  {version : Version}

theorem not_marks_same : ¬ Marks lifecycle id ledger ledger :=
  fun marks => marks.1 marks.2

/-- A change of the latest version marks no other one. -/
theorem marks_changed
    (latest : ledger.latestVersion kind key = .ok version)
    (marks :
      Marks lifecycle id ledger
        (ledger.changed version.configVersionID change deployments)) :
    id = version.configVersionID ∧
      (change.on version.configVersionID version).lifecycle = lifecycle := by
  have same : id = version.configVersionID := by
    by_contra differs
    refine marks.1 ?_
    rw [← marks.2, Ledger.lifecycle_changed_of_ne differs]
  refine ⟨same, ?_⟩
  have marked := marks.2
  unfold Ledger.lifecycle at marked
  rw [Ledger.version_changed, same, Ledger.version_of_latest latest] at marked
  exact Option.some.inj marked

theorem activation_on_lifecycle
    {time : Nat} (staged : version.lifecycle = .staged) :
    ((Ledger.Change.activation time).on version.configVersionID
      version).lifecycle = .active := by
  unfold Ledger.Change.on
  rw [if_pos ⟨rfl, by simp [Ledger.Change.activation, staged]⟩]
  rfl

theorem proof_on_lifecycle
    {time : Nat} (active : version.lifecycle = .active) :
    ((Ledger.Change.proof time).on version.configVersionID
      version).lifecycle = .proven := by
  unfold Ledger.Change.on
  rw [if_pos ⟨rfl, by simp [Ledger.Change.proof, active]⟩]
  rfl

theorem rejection_on_lifecycle
    {time : Nat} {reason : Reason}
    (unsettled : version.lifecycle = .staged ∨ version.lifecycle = .active) :
    ((Ledger.Change.rejection time reason).on version.configVersionID
      version).lifecycle = .rejected := by
  unfold Ledger.Change.on
  rw [if_pos ⟨rfl, by simpa [Ledger.Change.rejection] using unsettled⟩]
  rfl

/-- Only a pass that finds the latest version active and served long enough
proves, and it proves that one. -/
theorem Effect.marks_proven
    {pass : Pass} (effect : Effect prover kind key pass ledger after)
    (marks : Marks .proven id ledger after) :
    ∃ version, ledger.latestVersion kind key = .ok version ∧
      id = version.configVersionID ∧ version.lifecycle = .active ∧
      Serving version.versionLabel pass ∧
      (prover.window : Int) ≤ pass.now - version.activatedAt.getD 0 := by
  cases effect with
  | same => exact absurd marks not_marks_same
  | activates deployments latest staged serving =>
      have marked := (marks_changed latest marks).2
      rw [activation_on_lifecycle staged] at marked
      cases marked
  | proves deployments latest active serving elapsed =>
      exact
        ⟨_, latest, (marks_changed latest marks).1, active, serving, elapsed⟩
  | rejects deployments latest unsettled unproven late =>
      have marked := (marks_changed latest marks).2
      rw [rejection_on_lifecycle unsettled] at marked
      cases marked

theorem Effect.marks_rejected
    {pass : Pass} (effect : Effect prover kind key pass ledger after)
    (marks : Marks .rejected id ledger after) :
    ∃ version, ledger.version id = some version ∧
      ¬ Serving version.versionLabel pass ∧
      (prover.deadline : Int) ≤ pass.now - version.createdAt := by
  cases effect with
  | same => exact absurd marks not_marks_same
  | activates deployments latest staged serving =>
      have marked := (marks_changed latest marks).2
      rw [activation_on_lifecycle staged] at marked
      cases marked
  | proves deployments latest active serving elapsed =>
      have marked := (marks_changed latest marks).2
      rw [proof_on_lifecycle active] at marked
      cases marked
  | rejects deployments latest unsettled unproven late =>
      have named := ledger.labelled _ (Ledger.latestVersion_mem latest)
      refine ⟨_, ?_, not_serving_of_unprovenReason named unproven, late⟩
      rw [(marks_changed latest marks).1]
      exact Ledger.version_of_latest latest

/-! ## Publishing -/

/-- Publishing leaves the ledger, or adds a row nothing has become of. -/
inductive Published (ledger : Ledger) : Ledger → Prop where
  | same : Published ledger ledger
  | added {after : Ledger} (row : Version)
      (fresh : row.configVersionID ∉ ledger.versions.map (·.configVersionID))
      (staged : row.lifecycle = .staged) (unseen : row.activatedAt = none)
      (rows : after.versions = ledger.versions ++ [row]) :
      Published ledger after

theorem published_of_publish
    {targetKind : TargetKind} {targetKey label : String}
    {content : Policy.SHA256} {signingKeyID : String} {createdAt : Nat}
    (published :
      ledger.publish id targetKind targetKey label content signingKeyID
        createdAt = .ok after) :
    Published ledger after ∧ after.deployments = ledger.deployments := by
  unfold Ledger.publish at published
  split at published
  · obtain ⟨_, _, published⟩ := bind_eq_ok_iff.mp published
    rw [← pure_eq_ok_iff.mp published]
    exact ⟨.same, rfl⟩
  · split at published
    · cases published
    · rename_i fresh
      cases published
      refine ⟨.added _ (fun known => fresh (Or.inl known)) ?_ ?_ rfl, rfl⟩
      · rfl
      · rfl

theorem published_next
    (targetKind : TargetKind) (targetKey label : String)
    (content : Policy.SHA256) (signingKeyID : String) (createdAt : Nat) :
    Published ledger
      (ledger.next prover applicationVersion kind key
        (.publish id targetKind targetKey label content signingKeyID
          createdAt)) := by
  unfold Ledger.next
  dsimp only
  split
  · rename_i published
    exact (published_of_publish published).1
  · exact .same

theorem Published.marks
    (published : Published ledger after)
    (marks : Marks lifecycle id ledger after) : lifecycle = .staged := by
  cases published with
  | same => exact absurd marks not_marks_same
  | added row fresh staged unseen rows =>
      obtain ⟨unmarked, marked⟩ := marks
      obtain ⟨version, found, stands⟩ := Option.map_eq_some_iff.mp marked
      obtain ⟨member, whose⟩ := Ledger.version_eq_some_iff.mp found
      rw [rows, List.mem_append, List.mem_singleton] at member
      rcases member with held | rfl
      · refine absurd ?_ unmarked
        unfold Ledger.lifecycle
        rw [Ledger.version_eq_some_iff.mpr ⟨held, whose⟩]
        exact congrArg some stands
      · exact stands.symm.trans staged

theorem Published.latest
    (published : Published ledger after)
    (latest : after.latestVersion kind key = .ok version) :
    version.lifecycle = .staged ∨
      ledger.latestVersion kind key = .ok version := by
  cases published with
  | same => exact Or.inr latest
  | added row fresh staged unseen rows =>
      obtain ⟨named, found⟩ := Ledger.latestVersion_eq_ok_iff.mp latest
      rw [rows, List.filter_append, List.foldl_append] at found
      by_cases addressed : row.targetKind = kind ∧ row.targetKey = key
      · rw [List.filter_singleton, decide_eq_true addressed] at found
        change Ledger.later _ row = some version at found
        unfold Ledger.later at found
        split at found
        · cases found
          exact Or.inl staged
        · rename_i other chosen
          split at found
          · cases found
            exact Or.inl staged
          · cases found
            exact
              Or.inr (Ledger.latestVersion_eq_ok_iff.mpr ⟨named, chosen⟩)
      · rw [List.filter_singleton, decide_eq_false addressed] at found
        exact Or.inr (Ledger.latestVersion_eq_ok_iff.mpr ⟨named, found⟩)

end Passes

section Histories

variable (prover : Prover) (applicationVersion : String) (kind : TargetKind)
  (key : String)

/-- Whenever a version is marked proven, every pass from the one that
activated it to the one that proves it observed its label running and
healthy, and they span the window. -/
def ProvenThroughout (steps : List Step) : Prop :=
  ∀ (before : List Step) (step : Step) (rest : List Step) (id : UUID),
    steps = before ++ step :: rest →
    Marks .proven id (ledgerAfter prover applicationVersion kind key before)
      (ledgerAfter prover applicationVersion kind key (before ++ [step])) →
    ∃ (version : Version) (earlier : List Step) (activation : Pass)
      (later : List Step) (pass : Pass),
      (ledgerAfter prover applicationVersion kind key before).version id =
        some version ∧
      step = .pass pass ∧ before = earlier ++ Step.pass activation :: later ∧
      Marks .active id
        (ledgerAfter prover applicationVersion kind key earlier)
        (ledgerAfter prover applicationVersion kind key
          (earlier ++ [.pass activation])) ∧
      (∀ other : Pass,
        Step.pass other ∈ Step.pass activation :: later ++ [step] →
          Serving version.versionLabel other) ∧
      (prover.window : Int) ≤ (pass.now : Int) - activation.now

/-- Whenever a version is marked rejected, the pass that rejects it observed
it not healthy, at or after its deadline. -/
def RejectedUnhealthy (steps : List Step) : Prop :=
  ∀ (before : List Step) (step : Step) (rest : List Step) (id : UUID),
    steps = before ++ step :: rest →
    Marks .rejected id (ledgerAfter prover applicationVersion kind key before)
      (ledgerAfter prover applicationVersion kind key (before ++ [step])) →
    ∃ (version : Version) (pass : Pass),
      (ledgerAfter prover applicationVersion kind key before).version id =
        some version ∧
      step = .pass pass ∧ ¬ Serving version.versionLabel pass ∧
      (prover.deadline : Int) ≤ pass.now - version.createdAt

/-- The database takes a rejection of the version by this pass. -/
def Takes (ledger : Ledger) (version : Version) (pass : Pass) : Prop :=
  pass.now ≠ 0 ∧ pass.reads = true ∧ pass.writes = true ∧
    ∀ row ∈ ledger.deployments,
      row.configVersionID = version.configVersionID →
      row.targetKey = version.targetKey → row.startedAt ≤ pass.now

/-- A pass that finds the latest version active observes it running and
healthy, or rejects it because the deadline has passed. -/
def Attended (ledger : Ledger) : Step → Prop
  | .publish .. => True
  | .pass pass =>
      ∀ version, ledger.latestVersion kind key = .ok version →
        version.lifecycle = .active →
        Serving version.versionLabel pass ∨
          (prover.deadline : Int) ≤ pass.now - version.createdAt ∧
            Takes ledger version pass

/-- Every pass of the history is so. -/
abbrev Attends (steps : List Step) : Prop :=
  EachStep (Ledger.next prover applicationVersion kind key) .empty
    (Attended prover kind key) steps

variable {prover applicationVersion kind key} {steps : List Step}

theorem ledgerAfter_snoc (step : Step) :
    ledgerAfter prover applicationVersion kind key (steps ++ [step]) =
      (ledgerAfter prover applicationVersion kind key steps).next prover
        applicationVersion kind key step :=
  stateAfter_snoc steps step

/-- One step publishes or makes a pass. -/
theorem moves_snoc (steps : List Step) (step : Step) :
    Published (ledgerAfter prover applicationVersion kind key steps)
        (ledgerAfter prover applicationVersion kind key (steps ++ [step])) ∨
      ∃ pass, step = .pass pass ∧
        Effect prover kind key pass
          (ledgerAfter prover applicationVersion kind key steps)
          (ledgerAfter prover applicationVersion kind key
            (steps ++ [step])) := by
  rw [ledgerAfter_snoc]
  cases step with
  | publish => exact Or.inl (published_next _ _ _ _ _ _)
  | pass pass => exact Or.inr ⟨pass, rfl, effect_next pass _⟩

/-- A version that is staged has not been activated. -/
theorem unseen_of_staged
    {row : Version}
    (member :
      row ∈ (ledgerAfter prover applicationVersion kind key steps).versions)
    (staged : row.lifecycle = .staged) : row.activatedAt = none := by
  induction steps using List.reverseRecOn generalizing row with
  | nil => exact absurd member List.not_mem_nil
  | append_singleton steps step inductionHypothesis =>
      have unchanged
          {id : UUID} {change : Ledger.Change}
          {deployments : List Deployment}
          (member :
            row ∈
              ((ledgerAfter prover applicationVersion kind key steps).changed
                id change deployments).versions) :
          row.activatedAt = none := by
        obtain ⟨held, heldMember, same⟩ := List.mem_map.mp member
        rw [← same] at staged
        have kept := Ledger.Change.on_of_staged staged
        rw [← same, kept]
        exact inductionHypothesis heldMember (kept ▸ staged)
      rcases moves_snoc steps step with published | ⟨pass, rfl, effect⟩
      · generalize
          ledgerAfter prover applicationVersion kind key (steps ++ [step]) =
            after at member published
        cases published with
        | same => exact inductionHypothesis member staged
        | added added fresh isStaged unseen rows =>
            rw [rows, List.mem_append, List.mem_singleton] at member
            rcases member with held | rfl
            · exact inductionHypothesis held staged
            · exact unseen
      · generalize
          ledgerAfter prover applicationVersion kind key
            (steps ++ [.pass pass]) = after at member effect
        cases effect with
        | same => exact inductionHypothesis member staged
        | activates => exact unchanged member
        | proves => exact unchanged member
        | rejects => exact unchanged member

/-- A rejection the database takes is made. -/
theorem next_of_takes
    (applicationVersion : String) {ledger : Ledger} {version : Version}
    {pass : Pass}
    (latest : ledger.latestVersion kind key = .ok version)
    (active : version.lifecycle = .active)
    (unserved : ¬ Serving version.versionLabel pass)
    (late : (prover.deadline : Int) ≤ pass.now - version.createdAt)
    (takes : Takes ledger version pass) :
    ∃ reason deployments,
      ledger.next prover applicationVersion kind key (.pass pass) =
        ledger.changed version.configVersionID (.rejection pass.now reason)
          deployments := by
  obtain ⟨timed, reads, writes, started⟩ := takes
  obtain ⟨reason, unproven⟩ :
      ∃ reason,
        unprovenReason pass.observation version.versionLabel =
          some reason := by
    cases unproven :
        unprovenReason pass.observation version.versionLabel with
    | none => exact absurd (serving_of_unprovenReason unproven) unserved
    | some reason => exact ⟨reason, rfl⟩
  obtain ⟨deployments, completes⟩ :
      ∃ deployments,
        ledger.completed version .rolledBack pass.now = .ok deployments := by
    unfold Ledger.completed
    refine ⟨_, bind_eq_ok_iff.mpr ⟨⟨⟩, refuse_eq_ok_iff.mpr ?_, rfl⟩⟩
    rintro ⟨row, member, whose, target, early⟩
    exact absurd (started row member whose target) (not_le.mpr early)
  refine ⟨reason, deployments, ?_⟩
  have proves :
      prove prover applicationVersion kind key pass ledger =
        .ok
          (⟨.rejected, version.versionLabel, .rejected, some reason⟩,
            ledger.changed version.configVersionID
              (.rejection pass.now reason) deployments) := by
    unfold prove
    rw [bind_eq_ok_iff]
    refine ⟨⟨⟩, refuse_eq_ok_iff.mpr timed, ?_⟩
    rw [bind_eq_ok_iff]
    refine ⟨⟨⟩, refuse_eq_ok_iff.mpr (by simp [reads]), ?_⟩
    rw [bind_eq_ok_iff]
    refine ⟨version, latest, ?_⟩
    rw [if_neg (by simp [active]), unproven]
    dsimp only
    rw [if_neg (not_lt.mpr late), bind_eq_ok_iff]
    refine ⟨⟨⟩, refuse_eq_ok_iff.mpr (by simp [writes]), ?_⟩
    unfold Ledger.markRejected
    rw [completes]
    rfl
  unfold Ledger.next
  dsimp only
  rw [proves]

/-- The latest version, if it is active, was activated at the time it keeps,
and every pass since then observed it running and healthy. -/
def Watched (prover : Prover) (applicationVersion : String)
    (kind : TargetKind) (key : String) (steps : List Step) : Prop :=
  ∀ version : Version,
    (ledgerAfter prover applicationVersion kind key steps).latestVersion kind
        key = .ok version →
    version.lifecycle = .active →
    ∃ (earlier : List Step) (activation : Pass) (later : List Step),
      steps = earlier ++ Step.pass activation :: later ∧
      Marks .active version.configVersionID
        (ledgerAfter prover applicationVersion kind key earlier)
        (ledgerAfter prover applicationVersion kind key
          (earlier ++ [.pass activation])) ∧
      version.activatedAt = some activation.now ∧
      ∀ other : Pass, Step.pass other ∈ Step.pass activation :: later →
        Serving version.versionLabel other

/-- Where the latest version of a step is active, it was so before, or the
step is a pass that activates it. -/
theorem latest_snoc
    {step : Step} {version : Version}
    (latest :
      (ledgerAfter prover applicationVersion kind key
        (steps ++ [step])).latestVersion kind key = .ok version)
    (active : version.lifecycle = .active) :
    (ledgerAfter prover applicationVersion kind key steps).latestVersion kind
        key = .ok version ∨
      ∃ pass, step = .pass pass ∧
        Marks .active version.configVersionID
          (ledgerAfter prover applicationVersion kind key steps)
          (ledgerAfter prover applicationVersion kind key
            (steps ++ [.pass pass])) ∧
        version.activatedAt = some pass.now ∧
        Serving version.versionLabel pass := by
  rcases moves_snoc steps step with published | ⟨pass, rfl, effect⟩
  · rcases published.latest latest with staged | earlier
    · rw [staged] at active
      cases active
    · exact Or.inl earlier
  generalize reached :
    ledgerAfter prover applicationVersion kind key (steps ++ [.pass pass]) =
      after at latest effect
  cases effect with
  | same => exact Or.inl latest
  | @activates row deployments earlier staged serving =>
      obtain ⟨held, found, rfl⟩ := Ledger.latestVersion_changed latest
      cases earlier.symm.trans found
      have unseen := unseen_of_staged (Ledger.latestVersion_mem earlier) staged
      refine Or.inr ⟨pass, rfl, ⟨?_, ?_⟩, ?_, ?_⟩
      · unfold Ledger.lifecycle
        rw [Ledger.Change.on_identity, Ledger.version_of_latest earlier,
          Option.map_some, staged]
        nofun
      · unfold Ledger.lifecycle
        rw [reached, Ledger.version_of_latest latest]
        exact congrArg some active
      · unfold Ledger.Change.on
        rw [if_pos ⟨rfl, by simp [Ledger.Change.activation, staged]⟩]
        simp [Ledger.Change.activation, unseen]
      · rw [Ledger.Change.on_label]
        exact serving
  | proves deployments earlier isActive serving elapsed =>
      obtain ⟨held, found, rfl⟩ := Ledger.latestVersion_changed latest
      cases earlier.symm.trans found
      rw [proof_on_lifecycle isActive] at active
      cases active
  | rejects deployments earlier unsettled unproven late =>
      obtain ⟨held, found, rfl⟩ := Ledger.latestVersion_changed latest
      cases earlier.symm.trans found
      rw [rejection_on_lifecycle unsettled] at active
      cases active

/-- A pass that finds an active version and leaves it the active latest one
observed it running and healthy. -/
theorem serving_of_attended
    {pass : Pass} {version : Version}
    (attended :
      Attended prover kind key
        (ledgerAfter prover applicationVersion kind key steps) (.pass pass))
    (earlier :
      (ledgerAfter prover applicationVersion kind key steps).latestVersion
        kind key = .ok version)
    (active : version.lifecycle = .active)
    (latest :
      (ledgerAfter prover applicationVersion kind key
        (steps ++ [.pass pass])).latestVersion kind key = .ok version) :
    Serving version.versionLabel pass := by
  by_contra unserved
  obtain ⟨late, takes⟩ :=
    (attended version earlier active).resolve_left unserved
  obtain ⟨reason, deployments, moved⟩ :=
    next_of_takes applicationVersion earlier active unserved late takes
  rw [ledgerAfter_snoc, moved] at latest
  obtain ⟨held, found, same⟩ := Ledger.latestVersion_changed latest
  cases earlier.symm.trans found
  have rejected := congrArg Version.lifecycle same
  rw [rejection_on_lifecycle (Or.inr active), active] at rejected
  cases rejected

/-- A pass that observes the label of the latest version running. -/
theorem attended_of_label
    {ledger : Ledger} {pass : Pass} (label : String)
    (named :
      (ledger.latestVersion kind key).toOption.map (·.versionLabel) =
        some label)
    (serving : Serving label pass) :
    Attended prover kind key ledger (.pass pass) := by
  intro version latest _
  rw [latest] at named
  cases named
  exact Or.inl serving

theorem watched_of_attends
    (attends : Attends prover applicationVersion kind key steps) :
    Watched prover applicationVersion kind key steps := by
  induction steps using List.reverseRecOn with
  | nil =>
      intro version latest
      exact absurd (Ledger.latestVersion_mem latest) List.not_mem_nil
  | append_singleton steps step inductionHypothesis =>
      intro version latest active
      rcases latest_snoc latest active with
        held | ⟨pass, rfl, marks, activated, serving⟩
      · obtain ⟨earlier, activation, later, rfl, marks, activated, serving⟩ :=
          inductionHypothesis attends.of_append version held active
        refine
          ⟨earlier, activation, later ++ [step], by simp, marks, activated,
            ?_⟩
        intro other member
        rw [← List.cons_append, List.mem_append, List.mem_singleton] at member
        rcases member with since | rfl
        · exact serving other since
        · exact
            serving_of_attended attends.last held active latest
      · refine ⟨steps, pass, [], rfl, marks, activated, ?_⟩
        intro other member
        rw [List.mem_singleton, Step.pass.injEq] at member
        rw [member]
        exact serving

/-! ## Proven and rejected versions -/

theorem rejectedUnhealthy_of_any (steps : List Step) :
    RejectedUnhealthy prover applicationVersion kind key steps := by
  intro before step rest id _ marks
  rcases moves_snoc before step with published | ⟨pass, rfl, effect⟩
  · cases published.marks marks
  · obtain ⟨version, found, unserved, late⟩ := effect.marks_rejected marks
    exact ⟨version, pass, found, rfl, unserved, late⟩

theorem provenThroughout_of_attends
    (attends : Attends prover applicationVersion kind key steps) :
    ProvenThroughout prover applicationVersion kind key steps := by
  intro before step rest id split marks
  subst split
  rcases moves_snoc before step with published | ⟨pass, rfl, effect⟩
  · cases published.marks marks
  obtain ⟨version, latest, rfl, active, serving, elapsed⟩ :=
    effect.marks_proven marks
  obtain ⟨earlier, activation, later, split, activates, activated, served⟩ :=
    watched_of_attends attends.of_append version latest active
  refine
    ⟨version, earlier, activation, later, pass,
      Ledger.version_of_latest latest, rfl, split, activates, ?_, ?_⟩
  · intro other member
    rcases List.mem_append.mp member with since | now
    · exact served other since
    · rw [List.mem_singleton, Step.pass.injEq] at now
      rw [now]
      exact serving
  · rw [activated] at elapsed
    exact elapsed

/-- In every history in which a pass over an active version observes it
running and healthy, or rejects it after its deadline, a proven version was
healthy throughout, and a rejected one was not when it was rejected. -/
theorem lifecycle_as_observed
    (prover : Prover) (applicationVersion : String) (kind : TargetKind)
    (key : String) (steps : List Step)
    (attends : Attends prover applicationVersion kind key steps) :
    ProvenThroughout prover applicationVersion kind key steps ∧
      RejectedUnhealthy prover applicationVersion kind key steps :=
  ⟨provenThroughout_of_attends attends, rejectedUnhealthy_of_any steps⟩

end Histories

section Example

/-- A window of ten and a deadline of a hundred microseconds. -/
def shortProver : Prover where
  window := 10
  deadline := 100
  positive := by decide
  fits := by decide

def firstVersion : Step :=
  .publish (.version4 1) .node "ingress" "v1" 7 "operator" 1

def passAt (now : Nat) (healthy : Bool) : Pass :=
  ⟨⟨"v1", healthy⟩, .version4 2, now, true, true⟩

def steadySteps : List Step :=
  [firstVersion, .pass (passAt 2 true), .pass (passAt 5 true),
    .pass (passAt 12 true)]

def interruptedSteps : List Step :=
  [firstVersion, .pass (passAt 2 true), .pass (passAt 5 false),
    .pass (passAt 12 true)]

/-- The version is activated, and proven after its window. -/
theorem steady_version_is_proven :
    (ledgerAfter shortProver "1.0" .node "ingress" steadySteps).lifecycle
        (.version4 1) = some .proven ∧
      ProvenThroughout shortProver "1.0" .node "ingress" steadySteps ∧
        RejectedUnhealthy shortProver "1.0" .node "ingress" steadySteps := by
  refine ⟨by decide +kernel, lifecycle_as_observed _ _ _ _ _ ?_⟩
  change
    Attends _ _ _ _
      (List.append
        (List.append
          (List.append (List.append [] [firstVersion])
            [Step.pass (passAt 2 true)])
          [Step.pass (passAt 5 true)])
        [Step.pass (passAt 12 true)])
  refine (((EachStep.snoc ?_ ?_).snoc ?_).snoc ?_).snoc ?_
  · exact eachStep_nil
  · trivial
  · exact attended_of_label "v1" (by decide +kernel) (by decide)
  · exact attended_of_label "v1" (by decide +kernel) (by decide)
  · exact attended_of_label "v1" (by decide +kernel) (by decide)

/-- The version is observed not healthy within its window, and proven. -/
theorem interrupted_version_is_proven :
    ¬ ProvenThroughout shortProver "1.0" .node "ingress"
      interruptedSteps := by
  intro throughout
  obtain ⟨version, earlier, activation, later, pass, _, _, split, _, served,
      _⟩ :=
    throughout
      [firstVersion, .pass (passAt 2 true), .pass (passAt 5 false)]
      (.pass (passAt 12 true)) [] (.version4 1) rfl
      ⟨by decide +kernel, by decide +kernel⟩
  -- The pass before the proof is the last one since the activation.
  have last :
      Step.pass (passAt 5 false) ∈ Step.pass activation :: later := by
    refine List.mem_of_getLast? ?_
    have ends := congrArg List.getLast? split
    rw [List.getLast?_append_of_ne_nil _ (List.cons_ne_nil _ _)] at ends
    exact ends.symm
  have serving :=
    served (passAt 5 false) (List.mem_append_left _ last)
  exact absurd serving.2 (by decide)

end Example

end Hexroute.ConfigProve
