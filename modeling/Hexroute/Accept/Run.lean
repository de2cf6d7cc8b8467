import Hexroute.Accept.Acceptor

/-!
# Runs of the acceptor

An arrival is a fact together with the domain its transport proved.  A run
offers arrivals one by one; the arrivals that are not rejected become the
events a reduction is later given.
-/

namespace Hexroute.Accept

open Hexroute.Connectivity
open Hexroute.Safety
open Hexroute.Lib

/-- One arrival paired with what the acceptor decided about it. -/
structure Event where
  acceptance : Acceptance
  fact : Fact
  deriving DecidableEq, Repr

/-- A fact and the domain the transport authenticated it under. -/
abbrev Arrival := Fact × Domain

/-- An arrival that passed every check made before the order is touched. -/
structure Screened where
  fact : Fact
  digest : String
  role : SourceRole
  deriving DecidableEq, Repr

/-- The arrivals that enter the order, with the role and digest they enter
it under.  Whether an arrival is screened out does not depend on the state. -/
def screened
    (digest : Fact → Option String) (arrivals : List Arrival) :
    List Screened :=
  arrivals.filterMap fun arrival =>
    match screen digest arrival.1 arrival.2 with
    | .ok (role, encoded) => some ⟨arrival.1, encoded, role⟩
    | .error _ => none

/-- Order already screened arrivals. -/
def orderAll (state : State) : List Screened → List Event × State
  | [] => ([], state)
  | item :: rest =>
      let (acceptance, next) := order state item.fact item.digest item.role
      let (events, final) := orderAll next rest
      (⟨acceptance, item.fact⟩ :: events, final)

/-- Offer arrivals one by one and keep the decisions that were not
rejections. -/
def acceptAll
    (digest : Fact → Option String) (state : State) :
    List Arrival → List Event × State
  | [] => ([], state)
  | (fact, domain) :: rest =>
      match accept digest state fact domain with
      | .error _ => acceptAll digest state rest
      | .ok (acceptance, next) =>
          let (events, final) := acceptAll digest next rest
          (⟨acceptance, fact⟩ :: events, final)

theorem acceptAll_nil (digest : Fact → Option String) (state : State) :
    acceptAll digest state [] = ([], state) :=
  rfl

/-- What passing the screen established. -/
theorem screen_eq_ok_iff
    {digest : Fact → Option String} {fact : Fact} {domain : Domain}
    {role : SourceRole} {encoded : String} :
    screen digest fact domain = .ok (role, encoded) ↔
      validate fact = .ok () ∧
        classifyConnectivityFact fact domain = .ok role ∧
          digest fact = some encoded := by
  unfold screen
  cases encoding : digest fact with
  | none =>
      simp
  | some _ =>
      simp only [bind_eq_ok_iff, mapError_eq_ok_iff, pure_eq_ok_iff,
        Prod.mk.injEq, Option.some.injEq]
      constructor
      · rintro ⟨_, valid, _, classified, rfl, same⟩
        exact ⟨valid, classified, same⟩
      · rintro ⟨valid, classified, same⟩
        exact ⟨(), valid, role, classified, rfl, same⟩

/-- A screened arrival advances past a zero watermark and speaks about a
component its source is declared for, in the declared role. -/
structure Screened.Sound (item : Screened) : Prop where
  valid : validate item.fact = .ok ()
  positive : 0 < item.fact.sourceSequence
  declared :
    item.fact.component ∈ connectivitySourceComponents item.fact.sourceID
  classified :
    ∃ declaration,
      connectivityByKey item.fact.sourceID item.fact.component =
          some declaration ∧
        declaration.role = item.role

theorem screened_sound
    {digest : Fact → Option String} {arrivals : List Arrival}
    {item : Screened} (member : item ∈ screened digest arrivals) :
    item.Sound := by
  obtain ⟨⟨fact, domain⟩, _, passed⟩ := List.mem_filterMap.mp member
  cases outcome : screen digest fact domain with
  | error _ =>
      simp [outcome] at passed
  | ok result =>
      obtain ⟨role, encoded⟩ := result
      simp only [outcome, Option.some.injEq] at passed
      obtain ⟨valid, classified, _⟩ := screen_eq_ok_iff.mp outcome
      obtain ⟨_, declaration, found, _, role⟩ :=
        classifyConnectivityFact_eq_ok_iff.mp classified
      subst passed
      exact ⟨valid, sourceSequence_pos_of_validate valid,
        component_mem_of_classify classified, declaration, found, role⟩

/-- Rejections leave no trace: a run is the ordering of its screened
arrivals. -/
theorem acceptAll_eq_orderAll
    (digest : Fact → Option String) (state : State)
    (arrivals : List Arrival) :
    acceptAll digest state arrivals =
      orderAll state (screened digest arrivals) := by
  induction arrivals generalizing state with
  | nil =>
      rfl
  | cons arrival rest inductionHypothesis =>
      obtain ⟨fact, domain⟩ := arrival
      cases outcome : screen digest fact domain with
      | error rejection =>
          have refused :
              accept digest state fact domain = .error rejection := by
            simp [accept, outcome, bind, Except.bind]
          simp [acceptAll, refused, inductionHypothesis, screened, outcome]
      | ok result =>
          obtain ⟨role, encoded⟩ := result
          have ordered :
              accept digest state fact domain =
                .ok (order state fact encoded role) := by
            simp [accept, outcome, bind, Except.bind, pure, Except.pure]
          simp [acceptAll, ordered, inductionHypothesis, screened, outcome,
            orderAll]

theorem orderAll_cons
    (state : State) (item : Screened) (rest : List Screened) :
    orderAll state (item :: rest) =
      (⟨(order state item.fact item.digest item.role).1, item.fact⟩ ::
          (orderAll (order state item.fact item.digest item.role).2 rest).1,
        (orderAll (order state item.fact item.digest item.role).2 rest).2) :=
  rfl

theorem orderAll_append
    (state : State) (first second : List Screened) :
    orderAll state (first ++ second) =
      ((orderAll state first).1 ++
          (orderAll (orderAll state first).2 second).1,
        (orderAll (orderAll state first).2 second).2) := by
  induction first generalizing state with
  | nil =>
      simp [orderAll]
  | cons item rest inductionHypothesis =>
      simp [orderAll, inductionHypothesis]

@[simp]
theorem orderAll_length (state : State) (items : List Screened) :
    (orderAll state items).1.length = items.length := by
  induction items generalizing state with
  | nil =>
      rfl
  | cons item rest inductionHypothesis =>
      simp [orderAll_cons, inductionHypothesis]

/-- Cutting the decisions of a run cuts the run. -/
theorem orderAll_split
    {state : State} {items : List Screened} {first second : List Event}
    (cut : (orderAll state items).1 = first ++ second) :
    ∃ before after,
      items = before ++ after ∧ (orderAll state before).1 = first ∧
        (orderAll (orderAll state before).2 after).1 = second := by
  refine
    ⟨items.take first.length, items.drop first.length,
      (List.take_append_drop _ _).symm, ?_⟩
  have lengths : first.length ≤ items.length := by
    have total := congrArg List.length cut
    simp only [orderAll_length, List.length_append] at total
    omega
  have whole := congrArg Prod.fst
    (orderAll_append state (items.take first.length)
      (items.drop first.length))
  rw [List.take_append_drop, cut] at whole
  have parts :=
    List.append_inj whole.symm (by simp [Nat.min_eq_left lengths])
  exact parts

theorem orderAll_concat
    (state : State) (items : List Screened) (item : Screened) :
    orderAll state (items ++ [item]) =
      ((orderAll state items).1 ++
          [⟨(order (orderAll state items).2 item.fact item.digest
              item.role).1, item.fact⟩],
        (order (orderAll state items).2 item.fact item.digest item.role).2) := by
  simp [orderAll_append, orderAll]

/-- Every property that holds initially and survives one ordered arrival
holds after every run. -/
theorem orderAll_induction
    {motive : List Event → State → Prop} {state : State}
    {items : List Screened}
    (initial : motive [] state)
    (step :
      ∀ events current item, item ∈ items → motive events current →
        motive
          (events ++
            [⟨(order current item.fact item.digest item.role).1, item.fact⟩])
          (order current item.fact item.digest item.role).2) :
    motive (orderAll state items).1 (orderAll state items).2 := by
  induction items using List.reverseRecOn with
  | nil =>
      exact initial
  | append_singleton items item inductionHypothesis =>
      rw [orderAll_concat]
      exact
        step _ _ item (by simp)
          (inductionHypothesis fun events current earlier member =>
            step events current earlier (by simp [member]))

end Hexroute.Accept
