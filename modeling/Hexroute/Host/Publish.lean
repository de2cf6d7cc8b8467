import Hexroute.Host.Runtime

/-!
# What a publication does

The facts a publication journals are exactly the ones that were ordered
before the first failed write; the fact whose write failed was ordered too,
and is in neither the journal nor the queue.
-/

namespace Hexroute.Host

open Hexroute.Connectivity
open Hexroute.Safety
open Hexroute.Lib
open Hexroute.Accept (Event Screened State accept order orderAll screen)

/-- The arrival passes the screen of the domain it names. -/
def Passes (digest : Fact → Option String) (item : Screened) : Prop :=
  screen digest item.fact item.fact.domain = .ok (item.role, item.digest)

theorem Passes.sound
    {digest : Fact → Option String} {item : Screened}
    (passes : Passes digest item) : item.Sound := by
  have member :
      item ∈ Accept.screened digest [(item.fact, item.fact.domain)] := by
    rw [Passes] at passes
    simp [Accept.screened, passes]
  exact Accept.screened_sound member

/-- A call of the acceptor is rejected by the screen, or orders an arrival
that passes it. -/
theorem accept_cases
    (digest : Fact → Option String) (state : State) (fact : Fact)
    (domain : Domain) :
    (∃ rejection,
        screen digest fact domain = .error rejection ∧
          accept digest state fact domain = .error rejection) ∨
      ∃ item : Screened,
        Passes digest item ∧ item.fact = fact ∧ fact.domain = domain ∧
          screen digest fact domain = .ok (item.role, item.digest) ∧
            accept digest state fact domain =
              .ok (order state item.fact item.digest item.role) := by
  cases outcome : screen digest fact domain with
  | error rejection =>
      left
      refine ⟨rejection, rfl, ?_⟩
      simp [accept, outcome, bind, Except.bind]
  | ok result =>
      right
      have own : fact.domain = domain := by
        have established := Accept.screen_eq_ok_iff.mp outcome
        exact
          (classifyConnectivityFact_eq_ok_iff.mp established.2.1).1
      refine ⟨⟨fact, result.2, result.1⟩, ?_, rfl, own, rfl, ?_⟩
      · rw [Passes, own]
        exact outcome
      · simp [accept, outcome, bind, Except.bind, pure, Except.pure]

/-- The record of a folded event. -/
def recordOf (event : Event) : Record :=
  { hostSequence := event.acceptance.hostSequence
    foldPosition := event.acceptance.foldPosition
    outcome := event.acceptance.outcome
    role := event.acceptance.role
    digest := event.acceptance.digest
    fact := event.fact }

theorem order_role_digest
    (state : State) {item : Screened} (sound : item.Sound) :
    (order state item.fact item.digest item.role).1.role = item.role ∧
      (order state item.fact item.digest item.role).1.digest =
        item.digest := by
  have decided :=
    Accept.decideSource_decided state.hostSequence
      state.sources[item.fact.sourceID]? item.digest item.role sound.positive
  exact ⟨decided.role, decided.digest⟩

/-- The journal of an arrival's domain takes what the acceptor decided about
it whenever the spool does. -/
theorem append_ordered
    {digest : Fact → Option String} {item : Screened}
    (passes : Passes digest item) (state : State) (writes : Bool)
    (journal : Journal) :
    let acceptance := (order state item.fact item.digest item.role).1
    let appended :=
      journal.append digest writes item.fact acceptance.hostSequence
        acceptance.foldPosition acceptance.outcome acceptance.role
    if journal.domain = item.fact.domain ∧ writes = true then
      appended =
        .ok
          { journal with
            records :=
              journal.records ++ [recordOf ⟨acceptance, item.fact⟩] }
    else
      ∃ error, appended = .error error := by
  intro acceptance appended
  have established := Accept.screen_eq_ok_iff.mp passes
  have counters :=
    Accept.order_spec state item.digest item.role passes.sound.positive
  have named := order_role_digest state passes.sound
  simp only at counters
  have fold : acceptance.foldPosition ≠ 0 := by
    have position : acceptance.foldPosition = state.foldPosition + 1 :=
      counters.1
    omega
  have host :
      acceptance.outcome = .accepted ↔ acceptance.hostSequence ≠ 0 := by
    have sequence := counters.2.2.1
    by_cases accepted : acceptance.outcome = .accepted
    · rw [if_pos accepted] at sequence
      have positive : acceptance.hostSequence ≠ 0 := by
        intro zero
        rw [zero] at sequence
        omega
      simp [accepted, positive]
    · rw [if_neg accepted] at sequence
      have zero : acceptance.hostSequence = 0 := sequence
      simp [accepted, zero]
  have record :
      canonicalConnectivityRecord digest item.fact acceptance.hostSequence
          acceptance.foldPosition acceptance.outcome acceptance.role =
        .ok (recordOf ⟨acceptance, item.fact⟩) := by
    rw [canonicalConnectivityRecord_eq_ok_iff]
    refine ⟨item.digest, established.2.2, host, ?_⟩
    rw [← named.2]
    rfl
  split
  · rename_i taken
    simp [appended, Journal.append, taken, established.2.1, fold, record,
      refuse, bind, Except.bind, Except.mapError, pure, Except.pure]
  · rename_i refused
    cases outcome : appended with
    | error error =>
        exact ⟨error, rfl⟩
    | ok taken =>
        simp only [appended, Journal.append, bind_eq_ok_iff,
          refuse_eq_ok_iff, not_not] at outcome
        obtain ⟨_, own, _, _, _, _, _, _, _, written, _⟩ := outcome
        exact absurd ⟨own.symm, by simpa using written⟩ refused

/-- Which writes a publication attempts, and with what result.  It stops at
the first that fails. -/
def attempted
    (digest : Fact → Option String) (domain : Domain) (writable : Bool) :
    List Offer → List Bool
  | [] => []
  | (fact, writes) :: rest =>
      match screen digest fact domain with
      | .error _ => attempted digest domain writable rest
      | .ok _ =>
          if writable && writes then
            true :: attempted digest domain writable rest
          else
            [false]

/-- A publication journalled and queued `written`, and ordered `lost`
without either. -/
structure Published
    (digest : Fact → Option String) (domain : Domain)
    (before after : Publication) (written : List Screened)
    (lost : Option Screened) : Prop where
  passes : ∀ item ∈ written ++ lost.toList, Passes digest item
  owned : ∀ item ∈ written ++ lost.toList, item.fact.domain = domain
  acceptor :
    after.acceptor =
      (orderAll before.acceptor (written ++ lost.toList)).2
  pending :
    after.pending =
      before.pending ++ (orderAll before.acceptor written).1
  domain : after.journal.domain = before.journal.domain
  records :
    after.journal.records =
      before.journal.records ++
        (orderAll before.acceptor written).1.map recordOf

/-- Whatever is offered, a publication splits into what it wrote and what it
lost. -/
theorem publishFacts_spec
    (digest : Fact → Option String) (domain : Domain)
    (publication : Publication) (offers : List Offer) :
    ∃ written lost,
      Published digest domain publication
          (publishFacts digest domain publication offers).2 written lost ∧
        attempted digest domain (decide (publication.journal.domain = domain))
            offers =
          List.replicate written.length true ++
            List.replicate lost.toList.length false := by
  induction offers generalizing publication with
  | nil =>
      refine ⟨[], none, ?_, rfl⟩
      constructor <;> simp [publishFacts, orderAll]
  | cons offer rest inductionHypothesis =>
      obtain ⟨fact, writes⟩ := offer
      rcases accept_cases digest publication.acceptor fact domain with
        ⟨rejection, screened, rejected⟩ |
          ⟨item, passes, rfl, own, screened, ordered⟩
      · obtain ⟨written, lost, published, attempts⟩ :=
          inductionHypothesis
            { publication with report := publication.report.count .rejected }
        refine ⟨written, lost, ?_, ?_⟩
        · simp only [publishFacts, rejected]
          exact { published with }
        · simp only [attempted, screened]
          exact attempts
      · have offered :=
          (Accept.order_spec publication.acceptor item.digest item.role
            passes.sound.positive).2.2.2.2
        have appends :=
          append_ordered passes publication.acceptor writes
            publication.journal
        simp only at appends
        simp only [publishFacts, ordered, if_neg offered, attempted, screened]
        by_cases taken :
            publication.journal.domain = item.fact.domain ∧ writes = true
        · rw [if_pos taken] at appends
          rw [appends]
          simp only
          obtain ⟨written, lost, published, attempts⟩ :=
            inductionHypothesis
              { report :=
                  publication.report.count
                    (order publication.acceptor item.fact item.digest
                      item.role).1.outcome
                acceptor :=
                  (order publication.acceptor item.fact item.digest
                    item.role).2
                journal :=
                  { publication.journal with
                    records :=
                      publication.journal.records ++
                        [recordOf
                          ⟨(order publication.acceptor item.fact item.digest
                              item.role).1, item.fact⟩] }
                pending :=
                  publication.pending ++
                    [⟨(order publication.acceptor item.fact item.digest
                        item.role).1, item.fact⟩] }
          refine ⟨item :: written, lost, ?_, ?_⟩
          · obtain ⟨passed, owned, acceptor, pending, kept, records⟩ :=
              published
            refine ⟨?_, ?_, acceptor, ?_, kept, ?_⟩
            · rw [List.cons_append, List.forall_mem_cons]
              exact ⟨passes, passed⟩
            · rw [List.cons_append, List.forall_mem_cons]
              exact ⟨own, owned⟩
            · rw [pending, Accept.orderAll_cons]
              simp
            · rw [records, Accept.orderAll_cons]
              simp
          · have writable :
                (decide (publication.journal.domain = domain) && writes) =
                  true := by
              simp [← own, taken.1, taken.2]
            rw [if_pos writable]
            simp only at attempts
            rw [attempts]
            rfl
        · rw [if_neg taken] at appends
          obtain ⟨error, appends⟩ := appends
          rw [appends]
          refine ⟨[], some item, ?_, ?_⟩
          · refine ⟨?_, ?_, rfl, by simp [orderAll], rfl,
              by simp [orderAll]⟩
            · simpa using passes
            · simpa using own
          · have unwritable :
                ¬(decide (publication.journal.domain = domain) && writes) =
                  true := by
              intro both
              rw [Bool.and_eq_true, decide_eq_true_eq, ← own] at both
              exact taken both
            rw [if_neg unwritable]
            rfl

end Hexroute.Host
