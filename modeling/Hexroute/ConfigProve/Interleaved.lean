import Hexroute.ConfigProve.Throughout

/-!
# Passes that overlap

A pass reads the latest version in one transaction and marks it in another
one, and other passes may come between.  The mark changes the version only
from the place in its lifecycle that it expects, and the deployment in any
case.
-/

namespace Hexroute.ConfigProve

open Hexroute.Lib
open Hexroute.Policy (UUID SHA256)

/-- What a pass is going to mark. -/
inductive Mark where
  | active (deploymentID : UUID)
  | proven
  | rejected (reason : Reason)
  deriving DecidableEq, Repr

/-- A pass between its two transactions: the version it has read. -/
structure Pending where
  version : Version
  mark : Mark
  now : Nat
  deriving DecidableEq, Repr

structure Passes where
  ledger : Ledger
  pending : List Pending

/-- A version is published, a pass reads, or the pass at some place marks. -/
inductive Move where
  | publish (id : UUID) (kind : TargetKind) (key label : String)
      (content : SHA256) (signingKeyID : String) (createdAt : Nat)
  | read (pass : Pass)
  | mark (place : Nat)

section Model

variable (prover : Prover) (applicationVersion : String) (kind : TargetKind)
  (key : String)

/-- What a pass makes of the version it has read. -/
def decision (pass : Pass) (version : Version) : Option Mark :=
  if version.lifecycle = .proven ∨ version.lifecycle = .rejected ∨
      version.lifecycle = .retired then
    none
  else
    match unprovenReason pass.observation version.versionLabel with
    | some reason =>
        if (pass.now : Int) - version.createdAt < prover.deadline then none
        else some (.rejected reason)
    | none =>
        if version.lifecycle = .staged then some (.active pass.deploymentID)
        else if version.activatedAt.getD 0 = 0 ∨
            (pass.now : Int) - version.activatedAt.getD 0 < prover.window then
          none
        else some .proven

/-- The first transaction of a pass. -/
def begin (pass : Pass) (ledger : Ledger) :
    Except ProveError (Option Pending) := do
  refuse (pass.now = 0) .notRecorded
  refuse (!pass.reads) .database
  let version ← ledger.latestVersion kind key
  pure ((decision prover pass version).map (⟨version, ·, pass.now⟩))

/-- The second one. -/
def Pending.commit (pending : Pending) (ledger : Ledger) :
    Except ProveError Ledger :=
  match pending.mark with
  | .active deploymentID =>
      ledger.markActive applicationVersion pending.version deploymentID
        pending.now
  | .proven => ledger.markProven pending.version pending.now
  | .rejected reason =>
      ledger.markRejected pending.version pending.now reason

def Passes.next (passes : Passes) : Move → Passes
  | .publish id targetKind targetKey label content signingKeyID createdAt =>
      match
        passes.ledger.publish id targetKind targetKey label content
          signingKeyID createdAt
      with
      | .ok ledger => { passes with ledger := ledger }
      | .error _ => passes
  | .read pass =>
      match begin prover kind key pass passes.ledger with
      | .ok (some pending) =>
          { passes with pending := passes.pending ++ [pending] }
      | _ => passes
  | .mark place =>
      match passes.pending[place]? with
      | none => passes
      | some pending =>
          match pending.commit applicationVersion passes.ledger with
          | .error _ =>
              { passes with pending := passes.pending.eraseIdx place }
          | .ok ledger => ⟨ledger, passes.pending.eraseIdx place⟩

/-- Where an interleaving leads to. -/
abbrev passesAfter (moves : List Move) : Passes :=
  stateAfter (Passes.next prover applicationVersion kind key) ⟨.empty, []⟩
    moves

/-- A pass with nothing in between is its two transactions. -/
theorem prove_eq_commit
    {pass : Pass} {ledger after : Ledger} {result : Result}
    (proves :
      prove prover applicationVersion kind key pass ledger =
        .ok (result, after)) :
    ∃ pending, begin prover kind key pass ledger = .ok pending ∧
      (match pending with
        | none => after = ledger
        | some mark => mark.commit applicationVersion ledger = .ok after) := by
  unfold prove at proves
  obtain ⟨_, started, proves⟩ := bind_eq_ok_iff.mp proves
  obtain ⟨_, read, proves⟩ := bind_eq_ok_iff.mp proves
  obtain ⟨version, latest, proves⟩ := bind_eq_ok_iff.mp proves
  refine ⟨(decision prover pass version).map (⟨version, ·, pass.now⟩), ?_, ?_⟩
  · unfold begin
    rw [started, ok_bind, read, ok_bind, latest, ok_bind]
    rfl
  unfold decision
  split at proves
  · rename_i settled
    rw [if_pos settled]
    cases proves
    rfl
  rename_i unsettled
  rw [if_neg unsettled]
  cases reasoned :
      unprovenReason pass.observation version.versionLabel with
  | some reason =>
      simp only [reasoned] at proves ⊢
      split at proves
      · rename_i early
        rw [if_pos early]
        cases proves
        rfl
      · rename_i late
        rw [if_neg late]
        obtain ⟨_, _, proves⟩ := bind_eq_ok_iff.mp proves
        obtain ⟨marked, marks, proves⟩ := bind_eq_ok_iff.mp proves
        cases proves
        exact marks
  | none =>
      simp only [reasoned] at proves ⊢
      split at proves
      · rename_i staged
        rw [if_pos staged]
        obtain ⟨_, _, proves⟩ := bind_eq_ok_iff.mp proves
        obtain ⟨marked, marks, proves⟩ := bind_eq_ok_iff.mp proves
        cases proves
        exact marks
      · rename_i unstaged
        rw [if_neg unstaged]
        split at proves
        · rename_i short
          rw [if_pos short]
          cases proves
          rfl
        · rename_i long
          rw [if_neg long]
          obtain ⟨_, _, proves⟩ := bind_eq_ok_iff.mp proves
          obtain ⟨marked, marks, proves⟩ := bind_eq_ok_iff.mp proves
          cases proves
          exact marks

end Model

/-! ## A version and its deployment -/

def Deployment.Of (row : Deployment) (version : Version) : Prop :=
  row.configVersionID = version.configVersionID ∧
    row.targetKey = version.targetKey

instance (row : Deployment) (version : Version) :
    Decidable (row.Of version) :=
  inferInstanceAs (Decidable (_ ∧ _))

def Ledger.deploymentsOf (ledger : Ledger) (version : Version) :
    List Deployment :=
  ledger.deployments.filter fun row => row.Of version

/-- What deployments are to say of a place in the lifecycle. -/
def Agree (rows : List Deployment) : Lifecycle → Prop
  | .proven => rows ≠ [] ∧ ∀ row ∈ rows, row.status = .healthy
  | .rejected => ∀ row ∈ rows, row.status = .rolledBack
  | _ => True

def Lifecycle.Settled (lifecycle : Lifecycle) : Prop :=
  lifecycle = .proven ∨ lifecycle = .rejected ∨ lifecycle = .retired

/-- A settled lifecycle never changes, and deployments always agree with
their versions. -/
structure Consistent (prover : Prover) (applicationVersion : String)
    (kind : TargetKind) (key : String) (moves : List Move) : Prop where
  settled :
    ∀ before rest, moves = before ++ rest →
      ∀ (id : UUID) (lifecycle : Lifecycle), lifecycle.Settled →
        (passesAfter prover applicationVersion kind key
          before).ledger.lifecycle id = some lifecycle →
        (passesAfter prover applicationVersion kind key
          moves).ledger.lifecycle id = some lifecycle
  agrees :
    ∀ before rest, moves = before ++ rest →
      ∀ version ∈
          (passesAfter prover applicationVersion kind key
            before).ledger.versions,
        Agree
          ((passesAfter prover applicationVersion kind key
            before).ledger.deploymentsOf version)
          version.lifecycle

/-- The version a pass has read was settled the other way since. -/
def Pending.Crosses (pending : Pending) (ledger : Ledger) : Prop :=
  match pending.mark with
  | .active _ =>
      ledger.lifecycle pending.version.configVersionID = some .rejected ∧
        ledger.deploymentsOf pending.version = []
  | .proven =>
      ledger.lifecycle pending.version.configVersionID = some .rejected
  | .rejected _ =>
      ledger.lifecycle pending.version.configVersionID = some .proven

/-- No mark that is taken comes to a version settled the other way. -/
def Uncrossed (applicationVersion : String) (passes : Passes) : Move → Prop
  | .mark place =>
      ∀ pending, passes.pending[place]? = some pending →
        ∀ after, pending.commit applicationVersion passes.ledger = .ok after →
          ¬ pending.Crosses passes.ledger
  | _ => True

/-! ## What a mark does -/

namespace Pending

def change (pending : Pending) : Ledger.Change :=
  match pending.mark with
  | .active _ => .activation pending.now
  | .proven => .proof pending.now
  | .rejected reason => .rejection pending.now reason

/-- The place in the lifecycle that a mark leads to. -/
def leads (pending : Pending) (lifecycle : Lifecycle) : Lifecycle :=
  match pending.mark, lifecycle with
  | .active _, .staged => .active
  | .proven, .active => .proven
  | .rejected _, .staged => .rejected
  | .rejected _, .active => .rejected
  | _, other => other

/-- What a mark makes of the deployments of its version. -/
inductive Redeploys (pending : Pending) (rows : List Deployment) :
    List Deployment → Prop where
  | opens {id : UUID} (row : Deployment) (marks : pending.mark = .active id)
      (none : rows = []) (started : row.status = .started) :
      Redeploys pending rows [row]
  | keeps {id : UUID} (marks : pending.mark = .active id)
      (held : rows ≠ []) : Redeploys pending rows rows
  | completes {after : List Deployment} {status : DeploymentStatus}
      (marks :
        pending.mark = .proven ∧ status = .healthy ∨
          (∃ reason, pending.mark = .rejected reason) ∧ status = .rolledBack)
      (same : after.length = rows.length)
      (all : ∀ row ∈ after, row.status = status) :
      Redeploys pending rows after

variable {pending : Pending} {version : Version} {ledger after : Ledger}
  {applicationVersion : String}

theorem on_lifecycle (own : version.configVersionID =
      pending.version.configVersionID) :
    (pending.change.on pending.version.configVersionID version).lifecycle =
      pending.leads version.lifecycle := by
  obtain ⟨_, mark, _⟩ := pending
  unfold Ledger.Change.on
  cases mark <;> cases stands : version.lifecycle <;>
    simp [change, leads, Ledger.Change.activation, Ledger.Change.proof,
      Ledger.Change.rejection, own, stands]

theorem leads_of_settled {lifecycle : Lifecycle}
    (settled : lifecycle.Settled) : pending.leads lifecycle = lifecycle := by
  obtain ⟨_, mark, _⟩ := pending
  rcases settled with rfl | rfl | rfl <;> cases mark <;> rfl

end Pending

section Deployments

variable {ledger : Ledger} {version other : Version} {status : DeploymentStatus}
  {time : Nat} {deployments : List Deployment}

theorem filter_completed
    (done : ledger.completed version status time = .ok deployments) :
    deployments.filter (fun row => row.Of other) =
      (ledger.deploymentsOf other).map fun row =>
        if row.Of version then
          { row with status := status, completedAt := some time }
        else row := by
  unfold Ledger.completed at done
  obtain ⟨_, _, done⟩ := bind_eq_ok_iff.mp done
  cases done
  rw [List.filter_map]
  congr 2
  funext row
  simp only [Function.comp_apply, Deployment.Of]
  split <;> rfl

theorem owned_completed
    (done : ledger.completed version status time = .ok deployments)
    {row : Deployment} (member : row ∈ deployments) :
    ∃ held ∈ ledger.deployments,
      held.configVersionID = row.configVersionID := by
  unfold Ledger.completed at done
  obtain ⟨_, _, done⟩ := bind_eq_ok_iff.mp done
  cases done
  obtain ⟨held, heldMember, rfl⟩ := List.mem_map.mp member
  refine ⟨held, heldMember, ?_⟩
  split <;> rfl

end Deployments

/-- The facts about a mark that is taken. -/
structure Taken (pending : Pending) (ledger after : Ledger) : Prop where
  versions :
    after.versions =
      ledger.versions.map
        (pending.change.on pending.version.configVersionID)
  own :
    pending.Redeploys (ledger.deploymentsOf pending.version)
      (after.deploymentsOf pending.version)
  others :
    ∀ version : Version,
      version.configVersionID ≠ pending.version.configVersionID →
        after.deploymentsOf version = ledger.deploymentsOf version
  owned :
    ∀ row ∈ after.deployments,
      row.configVersionID = pending.version.configVersionID ∨
        ∃ held ∈ ledger.deployments,
          held.configVersionID = row.configVersionID

theorem taken_of_completed
    {pending : Pending} {ledger : Ledger} {status : DeploymentStatus}
    {deployments : List Deployment}
    (marks :
      pending.mark = .proven ∧ status = .healthy ∨
        (∃ reason, pending.mark = .rejected reason) ∧ status = .rolledBack)
    (done :
      ledger.completed pending.version status pending.now =
        .ok deployments) :
    Taken pending ledger
      (ledger.changed pending.version.configVersionID pending.change
        deployments) where
  versions := rfl
  own := by
    have own := @filter_completed _ _ pending.version _ _ _ done
    change
      pending.Redeploys _
        (deployments.filter fun row => row.Of pending.version)
    rw [own]
    refine .completes marks (List.length_map _) ?_
    intro row member
    obtain ⟨held, heldMember, rfl⟩ := List.mem_map.mp member
    have holds := (List.mem_filter.mp heldMember).2
    rw [if_pos (by simpa using holds)]
  others := by
    intro version differs
    have kept := @filter_completed _ _ version _ _ _ done
    change deployments.filter (fun row => row.Of version) = _
    rw [kept]
    refine (List.map_congr_left ?_).trans (List.map_id _)
    intro row member
    have holds : row.Of version := by
      simpa using (List.mem_filter.mp member).2
    rw [if_neg fun own => differs (holds.1.symm.trans own.1)]
    rfl
  owned := fun row member => Or.inr (owned_completed done member)

theorem taken_of_markActive
    {pending : Pending} {ledger after : Ledger} {applicationVersion : String}
    {deploymentID : UUID} (marks : pending.mark = .active deploymentID)
    (commits :
      ledger.markActive applicationVersion pending.version deploymentID
        pending.now = .ok after) :
    Taken pending ledger after := by
  have change : pending.change = .activation pending.now := by
    unfold Pending.change
    rw [marks]
  unfold Ledger.markActive at commits
  obtain ⟨_, _, commits⟩ := bind_eq_ok_iff.mp commits
  rw [← change] at commits
  split at commits
  · rename_i held
    cases commits
    obtain ⟨row, member, holds⟩ := held
    have some : row ∈ ledger.deploymentsOf pending.version :=
      List.mem_filter.mpr ⟨member, decide_eq_true holds⟩
    exact
      ⟨rfl, .keeps marks (List.ne_nil_of_mem some), fun _ _ => rfl,
        fun row member => Or.inr ⟨row, member, rfl⟩⟩
  · rename_i absent
    obtain ⟨_, _, commits⟩ := bind_eq_ok_iff.mp commits
    cases commits
    have none : ledger.deploymentsOf pending.version = [] := by
      apply List.filter_eq_nil_iff.mpr
      intro row member holds
      exact absent ⟨row, member, of_decide_eq_true holds⟩
    refine ⟨rfl, ?_, ?_, ?_⟩
    · unfold Ledger.deploymentsOf Ledger.changed
      rw [List.filter_append]
      change
        pending.Redeploys _ (ledger.deploymentsOf pending.version ++ _)
      rw [none, List.nil_append, List.filter_cons_of_pos]
      · exact .opens _ marks none rfl
      · exact decide_eq_true ⟨rfl, rfl⟩
    · intro version differs
      unfold Ledger.deploymentsOf Ledger.changed
      rw [List.filter_append, List.filter_cons_of_neg, List.filter_nil,
        List.append_nil]
      intro holds
      exact differs (of_decide_eq_true holds).1.symm
    · intro row member
      rcases List.mem_append.mp member with held | added
      · exact Or.inr ⟨row, held, rfl⟩
      · rw [List.mem_singleton.mp added]
        exact Or.inl rfl

theorem taken_of_commit
    {pending : Pending} {ledger after : Ledger} {applicationVersion : String}
    (commits : pending.commit applicationVersion ledger = .ok after) :
    Taken pending ledger after := by
  unfold Pending.commit at commits
  cases marks : pending.mark with
  | active deploymentID =>
      rw [marks] at commits
      exact taken_of_markActive marks commits
  | proven =>
      rw [marks] at commits
      obtain ⟨deployments, done, commits⟩ := bind_eq_ok_iff.mp commits
      cases commits
      have taken := taken_of_completed (Or.inl ⟨marks, rfl⟩) done
      rwa [Pending.change, marks] at taken
  | rejected reason =>
      rw [marks] at commits
      obtain ⟨deployments, done, commits⟩ := bind_eq_ok_iff.mp commits
      cases commits
      have taken :=
        taken_of_completed (Or.inr ⟨⟨reason, marks⟩, rfl⟩) done
      rwa [Pending.change, marks] at taken

/-! ## What moves keep -/

/-- What the deployments of a version look like where passes agree. -/
def Fitting (rows : List Deployment) : Lifecycle → Prop
  | .staged => rows = []
  | .active => rows ≠ []
  | .proven => rows ≠ [] ∧ ∀ row ∈ rows, row.status = .healthy
  | .rejected => ∀ row ∈ rows, row.status = .rolledBack
  | .retired => False

theorem Fitting.agree {rows : List Deployment} {lifecycle : Lifecycle}
    (fitting : Fitting rows lifecycle) : Agree rows lifecycle := by
  cases lifecycle with
  | proven => exact fitting
  | rejected => exact fitting
  | _ => trivial

/-- A mark that comes to a version settled the other way. -/
def Mark.Against (mark : Mark) (lifecycle : Lifecycle)
    (rows : List Deployment) : Prop :=
  match mark with
  | .active _ => lifecycle = .rejected ∧ rows = []
  | .proven => lifecycle = .rejected
  | .rejected _ => lifecycle = .proven

section Marking

variable {pending : Pending} {rows after : List Deployment}
  {lifecycle : Lifecycle}

theorem Pending.Redeploys.ne_nil
    (redeploys : pending.Redeploys rows after) (held : rows ≠ []) :
    after ≠ [] := by
  cases redeploys with
  | opens _ _ none _ => exact absurd none held
  | keeps _ _ => exact held
  | completes _ same _ =>
      intro empty
      rw [empty] at same
      exact held (List.length_eq_zero_iff.mp same.symm)

/-- A mark that goes with the version keeps the two together. -/
theorem Fitting.mark
    (fitting : Fitting rows lifecycle)
    (redeploys : pending.Redeploys rows after)
    (deployed : pending.mark = .proven → rows ≠ [])
    (along : ¬ pending.mark.Against lifecycle rows) :
    Fitting after (pending.leads lifecycle) := by
  have grows := @Pending.Redeploys.ne_nil _ _ _ redeploys
  unfold Pending.leads
  cases redeploys with
  | opens row marks none started =>
      rw [marks] at along ⊢
      cases lifecycle with
      | staged => exact List.cons_ne_nil _ _
      | active => exact absurd none fitting
      | proven => exact absurd none fitting.1
      | rejected => exact absurd ⟨rfl, none⟩ along
      | retired => exact fitting
  | keeps marks held =>
      rw [marks]
      cases lifecycle with
      | staged => exact absurd fitting held
      | _ => exact fitting
  | completes marks same all =>
      rcases marks with ⟨marks, rfl⟩ | ⟨⟨reason, marks⟩, rfl⟩
      · have held := deployed marks
        rw [marks] at along ⊢
        cases lifecycle with
        | staged => exact absurd fitting held
        | active => exact ⟨grows held, all⟩
        | proven => exact ⟨grows held, all⟩
        | rejected => exact absurd rfl along
        | retired => exact fitting
      · rw [marks] at along ⊢
        cases lifecycle with
        | staged => exact all
        | active => exact all
        | proven => exact absurd rfl along
        | rejected => exact all
        | retired => exact fitting

/-- One that goes against it takes them apart. -/
theorem Fitting.not_agree
    (fitting : Fitting rows lifecycle)
    (redeploys : pending.Redeploys rows after)
    (deployed : pending.mark = .proven → rows ≠ [])
    (against : pending.mark.Against lifecycle rows) :
    ¬ Agree after (pending.leads lifecycle) := by
  have grows := @Pending.Redeploys.ne_nil _ _ _ redeploys
  unfold Pending.leads
  intro agree
  cases redeploys with
  | opens row marks none started =>
      rw [marks] at against agree
      obtain ⟨rfl, _⟩ := against
      have status := agree row List.mem_cons_self
      rw [started] at status
      cases status
  | keeps marks held =>
      rw [marks] at against
      exact held against.2
  | completes marks same all =>
      rcases marks with ⟨marks, rfl⟩ | ⟨⟨reason, marks⟩, rfl⟩
      · obtain ⟨row, member⟩ :=
          List.exists_mem_of_ne_nil _ (grows (deployed marks))
        rw [marks] at against agree
        cases against
        have status := agree row member
        rw [all row member] at status
        cases status
      · rw [marks] at against agree
        cases against
        obtain ⟨row, member⟩ := List.exists_mem_of_ne_nil _ agree.1
        have status := agree.2 row member
        rw [all row member] at status
        cases status

end Marking

structure Coherent (passes : Passes) : Prop where
  fits :
    ∀ version ∈ passes.ledger.versions,
      Fitting (passes.ledger.deploymentsOf version) version.lifecycle
  owned :
    ∀ row ∈ passes.ledger.deployments,
      row.configVersionID ∈
        passes.ledger.versions.map (·.configVersionID)
  known :
    ∀ pending ∈ passes.pending, ∃ version ∈ passes.ledger.versions,
      version.configVersionID = pending.version.configVersionID ∧
        version.targetKey = pending.version.targetKey
  deployed :
    ∀ pending ∈ passes.pending, pending.mark = .proven →
      passes.ledger.deploymentsOf pending.version ≠ []

theorem deploymentsOf_congr
    {ledger : Ledger} {version other : Version}
    (id : version.configVersionID = other.configVersionID)
    (key : version.targetKey = other.targetKey) :
    ledger.deploymentsOf version = ledger.deploymentsOf other := by
  apply List.filter_congr
  intro row _
  apply decide_eq_decide.mpr
  unfold Deployment.Of
  rw [id, key]

namespace Coherent

variable {passes : Passes} {pending : Pending}

/-- A pass and the ledger agree on the target of a version. -/
theorem key_eq
    (coherent : Coherent passes) (member : pending ∈ passes.pending)
    {version : Version} (held : version ∈ passes.ledger.versions)
    (own : version.configVersionID = pending.version.configVersionID) :
    version.targetKey = pending.version.targetKey := by
  obtain ⟨other, otherHeld, otherOwn, key⟩ := coherent.known _ member
  have same : version = other :=
    List.inj_on_of_nodup_map passes.ledger.distinct held otherHeld
      (own.trans otherOwn.symm)
  rw [same, key]

theorem crosses_iff
    {version : Version} (held : version ∈ passes.ledger.versions)
    (own : version.configVersionID = pending.version.configVersionID) :
    pending.Crosses passes.ledger ↔
      pending.mark.Against version.lifecycle
        (passes.ledger.deploymentsOf pending.version) := by
  have stands :
      passes.ledger.lifecycle pending.version.configVersionID =
        some version.lifecycle := by
    unfold Ledger.lifecycle
    rw [Ledger.version_eq_some_iff.mpr ⟨held, own⟩]
    rfl
  unfold Pending.Crosses Mark.Against
  rw [stands]
  cases pending.mark <;> simp

section Commit

variable {place : Nat} {after : Ledger}
  (coherent : Coherent passes) (member : pending ∈ passes.pending)
  (taken : Taken pending passes.ledger after)

include coherent member taken

theorem fits_of_taken
    (along : ¬ pending.Crosses passes.ledger) {version : Version}
    (listed : version ∈ after.versions) :
    Fitting (after.deploymentsOf version) version.lifecycle := by
  rw [taken.versions] at listed
  obtain ⟨before, held, rfl⟩ := List.mem_map.mp listed
  have same :
      after.deploymentsOf
          (pending.change.on pending.version.configVersionID before) =
        after.deploymentsOf before :=
    deploymentsOf_congr Ledger.Change.on_identity Ledger.Change.on_key
  rw [same]
  by_cases own : before.configVersionID = pending.version.configVersionID
  · have key := coherent.key_eq member held own
    have fitting := coherent.fits before held
    rw [deploymentsOf_congr own key] at fitting ⊢
    rw [Pending.on_lifecycle own]
    exact
      fitting.mark taken.own (coherent.deployed _ member)
        fun against => along ((crosses_iff held own).mpr against)
  · rw [Ledger.Change.on_of_ne own, taken.others before own]
    exact coherent.fits before held

/-- A mark that crosses leaves a version whose deployments disagree. -/
theorem disagree_of_crosses (crosses : pending.Crosses passes.ledger) :
    ∃ version ∈ after.versions,
      ¬ Agree (after.deploymentsOf version) version.lifecycle := by
  obtain ⟨version, held, own, key⟩ := coherent.known _ member
  refine
    ⟨pending.change.on pending.version.configVersionID version, ?_, ?_⟩
  · rw [taken.versions]
    exact List.mem_map_of_mem held
  have same :
      after.deploymentsOf
          (pending.change.on pending.version.configVersionID version) =
        after.deploymentsOf pending.version :=
    deploymentsOf_congr (Ledger.Change.on_identity.trans own)
      (Ledger.Change.on_key.trans key)
  have fitting := coherent.fits version held
  rw [deploymentsOf_congr own key] at fitting
  rw [same, Pending.on_lifecycle own]
  exact
    fitting.not_agree taken.own (coherent.deployed _ member)
      ((crosses_iff held own).mp crosses)

theorem ne_nil_of_taken
    {other : Pending} (waits : other ∈ passes.pending)
    (held : passes.ledger.deploymentsOf other.version ≠ []) :
    after.deploymentsOf other.version ≠ [] := by
  by_cases own :
      other.version.configVersionID = pending.version.configVersionID
  · obtain ⟨version, listed, otherOwn, otherKey⟩ := coherent.known _ waits
    have key := coherent.key_eq member listed (otherOwn.trans own)
    have same := otherKey.symm.trans key
    rw [deploymentsOf_congr own same] at held ⊢
    exact taken.own.ne_nil held
  · rwa [taken.others _ own]

theorem commit (along : ¬ pending.Crosses passes.ledger) :
    Coherent ⟨after, passes.pending.eraseIdx place⟩ where
  fits _ listed := coherent.fits_of_taken member taken along listed
  owned := by
    intro row listed
    have same :
        after.versions.map (·.configVersionID) =
          passes.ledger.versions.map (·.configVersionID) := by
      rw [taken.versions, List.map_map]
      apply List.map_congr_left
      intro version _
      exact Ledger.Change.on_identity
    dsimp only
    rw [same]
    rcases taken.owned row listed with own | ⟨held, heldMember, whose⟩
    · obtain ⟨version, known, identity, _⟩ := coherent.known _ member
      rw [own, ← identity]
      exact List.mem_map_of_mem known
    · rw [← whose]
      exact coherent.owned held heldMember
  known := by
    intro other listed
    obtain ⟨version, held, own, key⟩ :=
      coherent.known other (List.mem_of_mem_eraseIdx listed)
    refine
      ⟨pending.change.on pending.version.configVersionID version, ?_,
        Ledger.Change.on_identity.trans own,
        Ledger.Change.on_key.trans key⟩
    dsimp only
    rw [taken.versions]
    exact List.mem_map_of_mem held
  deployed := by
    intro other listed marks
    have waits := List.mem_of_mem_eraseIdx listed
    exact
      coherent.ne_nil_of_taken member taken waits
        (coherent.deployed other waits marks)

end Commit

theorem forget (coherent : Coherent passes) (place : Nat) :
    Coherent { passes with pending := passes.pending.eraseIdx place } where
  fits := coherent.fits
  owned := coherent.owned
  known other listed :=
    coherent.known other (List.mem_of_mem_eraseIdx listed)
  deployed other listed :=
    coherent.deployed other (List.mem_of_mem_eraseIdx listed)

theorem publish
    (coherent : Coherent passes) {after : Ledger}
    (published : Published passes.ledger after)
    (same : after.deployments = passes.ledger.deployments) :
    Coherent { passes with ledger := after } := by
  cases published with
  | same => exact coherent
  | added row fresh staged _ rows =>
      have rowsOf :
          ∀ version,
            after.deploymentsOf version =
              passes.ledger.deploymentsOf version := by
        intro version
        unfold Ledger.deploymentsOf
        rw [same]
      constructor
      case fits =>
        intro version listed
        dsimp only at listed ⊢
        rw [rows] at listed
        rw [rowsOf]
        rcases List.mem_append.mp listed with held | added
        · exact coherent.fits version held
        · rw [List.mem_singleton.mp added, staged]
          apply List.filter_eq_nil_iff.mpr
          intro deployment member holds
          have own : deployment.configVersionID = row.configVersionID :=
            (of_decide_eq_true holds).1
          exact fresh (own ▸ coherent.owned deployment member)
      case owned =>
        intro deployment member
        dsimp only at member ⊢
        rw [same] at member
        rw [rows, List.map_append]
        exact List.mem_append_left _ (coherent.owned deployment member)
      case known =>
        intro other listed
        obtain ⟨version, held, facts⟩ := coherent.known other listed
        refine ⟨version, ?_, facts⟩
        dsimp only
        rw [rows]
        exact List.mem_append_left _ held
      case deployed =>
        intro other listed marks
        dsimp only
        rw [rowsOf]
        exact coherent.deployed other listed marks

end Coherent

/-! ## One move -/

section Moves

variable {prover : Prover} {applicationVersion : String} {kind : TargetKind}
  {key : String} {passes : Passes}

theorem next_publish
    (id : UUID) (targetKind : TargetKind) (targetKey label : String)
    (content : SHA256) (signingKeyID : String) (createdAt : Nat) :
    ∃ after : Ledger,
      passes.next prover applicationVersion kind key
          (.publish id targetKind targetKey label content signingKeyID
            createdAt) =
        { passes with ledger := after } ∧
      Published passes.ledger after ∧
      after.deployments = passes.ledger.deployments := by
  unfold Passes.next
  dsimp only
  cases published :
      passes.ledger.publish id targetKind targetKey label content
        signingKeyID createdAt with
  | ok after => exact ⟨after, rfl, published_of_publish published⟩
  | error error => exact ⟨passes.ledger, rfl, .same, rfl⟩

/-- A pass that has read waits with a version of the ledger, and proves one
that is active. -/
theorem begin_eq_some
    {pass : Pass} {ledger : Ledger} {pending : Pending}
    (begins : begin prover kind key pass ledger = .ok (some pending)) :
    pending.version ∈ ledger.versions ∧
      (pending.mark = .proven → pending.version.lifecycle = .active) := by
  unfold begin at begins
  obtain ⟨_, _, begins⟩ := bind_eq_ok_iff.mp begins
  obtain ⟨_, _, begins⟩ := bind_eq_ok_iff.mp begins
  obtain ⟨version, latest, begins⟩ := bind_eq_ok_iff.mp begins
  have decided := pure_eq_ok_iff.mp begins
  obtain ⟨mark, decides, rfl⟩ := Option.map_eq_some_iff.mp decided
  refine ⟨Ledger.latestVersion_mem latest, ?_⟩
  rintro rfl
  unfold decision at decides
  split at decides
  · cases decides
  · rename_i unsettled
    split at decides
    · split at decides <;> cases decides
    · split at decides
      · cases decides
      · rename_i unstaged
        exact (Lifecycle.unsettled unsettled).resolve_left unstaged

/-- A move takes a mark, or it is one that crosses nothing. -/
theorem Coherent.next
    (coherent : Coherent passes) {move : Move}
    (uncrossed : Uncrossed applicationVersion passes move) :
    Coherent (passes.next prover applicationVersion kind key move) := by
  cases move with
  | publish id targetKind targetKey label content signingKeyID createdAt =>
      obtain ⟨after, next, published, same⟩ :=
        @next_publish prover applicationVersion kind key passes id targetKind
          targetKey label content signingKeyID createdAt
      rw [next]
      exact coherent.publish published same
  | read pass =>
      unfold Passes.next
      dsimp only
      split
      · rename_i pending begins
        have facts := begin_eq_some begins
        refine ⟨coherent.fits, coherent.owned, ?_, ?_⟩
        · intro other listed
          rcases List.mem_append.mp listed with held | added
          · exact coherent.known other held
          · rw [List.mem_singleton.mp added]
            exact ⟨pending.version, facts.1, rfl, rfl⟩
        · intro other listed marks
          rcases List.mem_append.mp listed with held | added
          · exact coherent.deployed other held marks
          · rw [List.mem_singleton.mp added] at marks ⊢
            have fitting := coherent.fits pending.version facts.1
            rw [facts.2 marks] at fitting
            exact fitting
      · exact coherent
  | mark place =>
      unfold Passes.next
      dsimp only
      split
      · exact coherent
      · rename_i pending found
        split
        · exact coherent.forget place
        · rename_i after commits
          exact
            coherent.commit (List.mem_of_getElem? found)
              (taken_of_commit commits) (uncrossed pending found after commits)

theorem settled_next
    {id : UUID} {lifecycle : Lifecycle} (settled : lifecycle.Settled)
    (stands : passes.ledger.lifecycle id = some lifecycle) (move : Move) :
    (passes.next prover applicationVersion kind key move).ledger.lifecycle
      id = some lifecycle := by
  obtain ⟨version, found, rfl⟩ := Option.map_eq_some_iff.mp stands
  obtain ⟨held, own⟩ := Ledger.version_eq_some_iff.mp found
  have of_mem :
      ∀ (after : Ledger) (row : Version), row ∈ after.versions →
        row.configVersionID = id → row.lifecycle = version.lifecycle →
          after.lifecycle id = some version.lifecycle := by
    intro after row member whose same
    unfold Ledger.lifecycle
    rw [Ledger.version_eq_some_iff.mpr ⟨member, whose⟩, Option.map_some,
      same]
  cases move with
  | publish newID targetKind targetKey label content signingKeyID
      createdAt =>
      obtain ⟨after, next, published, _⟩ :=
        @next_publish prover applicationVersion kind key passes newID
          targetKind targetKey label content signingKeyID createdAt
      rw [next]
      cases published with
      | same => exact stands
      | added row _ _ _ rows =>
          refine of_mem after version ?_ own rfl
          rw [rows]
          exact List.mem_append_left _ held
  | read pass =>
      unfold Passes.next
      dsimp only
      split
      · exact stands
      · exact stands
  | mark place =>
      unfold Passes.next
      dsimp only
      split
      · exact stands
      · rename_i pending found
        split
        · exact stands
        · rename_i after commits
          have taken := taken_of_commit commits
          refine
            of_mem after
              (pending.change.on pending.version.configVersionID version)
              ?_ (Ledger.Change.on_identity.trans own) ?_
          · rw [taken.versions]
            exact List.mem_map_of_mem held
          · by_cases same :
                version.configVersionID = pending.version.configVersionID
            · rw [Pending.on_lifecycle same,
                Pending.leads_of_settled settled]
            · rw [Ledger.Change.on_of_ne same]

end Moves

/-! ## Interleavings -/

section Interleavings

variable {prover : Prover} {applicationVersion : String} {kind : TargetKind}
  {key : String} {moves : List Move}

theorem coherent_of_uncrossed
    (uncrossed :
      EachStep (Passes.next prover applicationVersion kind key) ⟨.empty, []⟩
        (Uncrossed applicationVersion) moves) :
    Coherent (passesAfter prover applicationVersion kind key moves) := by
  refine uncrossed.invariant Coherent ?_ ?_
  · exact
      ⟨by simp [Ledger.empty], by simp [Ledger.empty], by simp, by simp⟩
  · intro passes move coherent met
    exact coherent.next met

theorem settled_throughout
    {before rest : List Move} {id : UUID} {lifecycle : Lifecycle}
    (settled : lifecycle.Settled)
    (stands :
      (passesAfter prover applicationVersion kind key
        before).ledger.lifecycle id = some lifecycle) :
    (passesAfter prover applicationVersion kind key
      (before ++ rest)).ledger.lifecycle id = some lifecycle := by
  induction rest using List.reverseRecOn with
  | nil => rwa [List.append_nil]
  | append_singleton rest move inductionHypothesis =>
      rw [← List.append_assoc]
      unfold passesAfter
      rw [stateAfter_snoc]
      exact settled_next settled inductionHypothesis move

theorem uncrossed_of_agrees
    (agrees :
      ∀ before rest, moves = before ++ rest →
        ∀ version ∈
            (passesAfter prover applicationVersion kind key
              before).ledger.versions,
          Agree
            ((passesAfter prover applicationVersion kind key
              before).ledger.deploymentsOf version)
            version.lifecycle) :
    EachStep (Passes.next prover applicationVersion kind key) ⟨.empty, []⟩
      (Uncrossed applicationVersion) moves := by
  induction moves using List.reverseRecOn with
  | nil => exact eachStep_nil
  | append_singleton moves move inductionHypothesis =>
      have each := inductionHypothesis (by
        intro before rest split
        exact
          agrees before (rest ++ [move])
            (by rw [split, List.append_assoc]))
      have coherent := coherent_of_uncrossed each
      refine each.snoc ?_
      cases move with
      | publish => trivial
      | read _ => trivial
      | mark place =>
          intro pending found after commits crosses
          obtain ⟨version, listed, disagree⟩ :=
            coherent.disagree_of_crosses (List.mem_of_getElem? found)
              (taken_of_commit commits) crosses
          have reached :
              (passesAfter prover applicationVersion kind key
                (moves ++ [.mark place])).ledger = after := by
            unfold passesAfter
            rw [stateAfter_snoc, Passes.next, found]
            dsimp only
            rw [commits]
          have agree := agrees _ [] (List.append_nil _).symm
          rw [reached] at agree
          exact disagree (agree version listed)

/-- Passes that overlap leave versions and deployments that agree exactly
when no mark comes to a version that was settled the other way since the pass
has read it. -/
theorem consistent_iff_uncrossed (prover : Prover)
    (applicationVersion : String) (kind : TargetKind) (key : String)
    (moves : List Move) :
    Consistent prover applicationVersion kind key moves ↔
      EachStep (Passes.next prover applicationVersion kind key) ⟨.empty, []⟩
        (Uncrossed applicationVersion) moves := by
  constructor
  · intro consistent
    exact uncrossed_of_agrees consistent.agrees
  · intro uncrossed
    constructor
    case settled =>
      rintro before rest rfl id lifecycle settled stands
      exact settled_throughout settled stands
    case agrees =>
      rintro before rest rfl version listed
      have coherent := coherent_of_uncrossed uncrossed.of_append
      exact (coherent.fits version listed).agree

end Interleavings

/-- One pass finds the version healthy after its window, and another one
that has found it unhealthy after the deadline marks it later. -/
def crossingMoves : List Move :=
  [.publish (.version4 1) .node "ingress" "v1" 7 "operator" 1,
    .read (passAt 2 true), .mark 0, .read (passAt 120 true),
    .read (passAt 120 false), .mark 0, .mark 0]

/-- The version is proven, and its deployment is rolled back. -/
theorem proven_version_is_rolled_back :
    ¬ Consistent shortProver "1.0" .node "ingress" crossingMoves := by
  intro consistent
  have agrees := consistent.agrees crossingMoves [] rfl
  have disagree :
      ∃ version ∈
          (passesAfter shortProver "1.0" .node "ingress"
            crossingMoves).ledger.versions,
        version.lifecycle = .proven ∧
          ∃ row ∈
            (passesAfter shortProver "1.0" .node "ingress"
              crossingMoves).ledger.deploymentsOf version,
            row.status = .rolledBack := by
    decide +kernel
  obtain ⟨version, listed, proven, row, member, status⟩ := disagree
  have agree := agrees version listed
  rw [proven] at agree
  have healthy := agree.2 row member
  rw [status] at healthy
  cases healthy

end Hexroute.ConfigProve
