import Hexroute.Host.Process

/-!
# What the journals hold since a start

A process that starts over begins a new numbering above everything the
journals hold.  From there on, restarts included, what was journalled is one
run of the acceptor: the journals hold its events, each in its own domain,
and every checkpoint stored since is sealed at one of its positions.
-/

namespace Hexroute.Host

open Hexroute.Connectivity
open Hexroute.Lib
open Hexroute.Accept (Event Screened State order orderAll)
open Hexroute.Lineage (Checkpoint Resume Store)
open Hexroute.Reduce (Describes)

section Records

/-- The arrival a record was made of. -/
def Record.screened (record : Record) : Screened :=
  ⟨record.fact, record.digest, record.role⟩

/-- Accepting records again whose facts pass the screen orders them. -/
theorem reaccept_of_passes
    {digest : Fact → Option String} {records : List Record}
    (passes : ∀ record ∈ records, Passes digest record.screened)
    (state : State) :
    reaccept digest state records =
      .ok (orderAll state (records.map Record.screened)) := by
  induction records generalizing state with
  | nil =>
      rfl
  | cons record rest inductionHypothesis =>
      have own := passes record (by simp)
      have accepts :
          Accept.accept digest state record.fact record.fact.domain =
            .ok (order state record.fact record.digest record.role) := by
        rw [Passes] at own
        simp only [Record.screened] at own
        simp [Accept.accept, own, bind, Except.bind, pure, Except.pure]
      have offered :
          (order state record.fact record.digest record.role).1.outcome ≠
            .rejected :=
        (Accept.order_spec state record.digest record.role
          own.sound.positive).2.2.2.2
      have later :=
        inductionHypothesis
          (fun other member => passes other (List.mem_cons_of_mem _ member))
          (order state record.fact record.digest record.role).2
      rw [reaccept, accepts]
      simp only [refuse_bind_of_not offered, later, ok_bind]
      rfl

theorem recordOf_screened
    (state : State) {item : Screened} (sound : item.Sound) :
    (recordOf
        ⟨(order state item.fact item.digest item.role).1,
          item.fact⟩).screened = item := by
  have named := order_role_digest state sound
  simp only [recordOf, Record.screened, named.1, named.2]

/-- The records of a run hold its arrivals. -/
theorem orderAll_screened
    (state : State) {items : List Screened}
    (sound : ∀ item ∈ items, item.Sound) :
    ((orderAll state items).1.map recordOf).map Record.screened = items := by
  induction items generalizing state with
  | nil =>
      rfl
  | cons item rest inductionHypothesis =>
      rw [Accept.orderAll_cons, List.map_cons, List.map_cons,
        recordOf_screened state (sound item (by simp)),
        inductionHypothesis _
          fun other member => sound other (List.mem_cons_of_mem _ member)]

theorem recordOf_eq_of_same
    {left right : Event} (same : left.Same right) :
    recordOf left = recordOf right := by
  obtain ⟨fact, ⟨_, rest⟩⟩ := same
  unfold recordOf
  rw [rest, fact]

theorem map_recordOf_of_same
    {left right : List Event} (same : List.Forall₂ Event.Same left right) :
    left.map recordOf = right.map recordOf := by
  induction same with
  | nil =>
      rfl
  | cons head _ inductionHypothesis =>
      rw [List.map_cons, List.map_cons, recordOf_eq_of_same head,
        inductionHypothesis]

/-- Reading backwards until the watermark finds every later record of a
journal whose positions rise. -/
theorem tailAfter_eq_filter
    {journal : Journal} (watermark : Nat)
    (rising :
      journal.records.Pairwise fun earlier later =>
        earlier.foldPosition < later.foldPosition) :
    journal.tailAfter watermark =
      journal.records.filter
        fun record => decide (watermark < record.foldPosition) := by
  obtain ⟨domain, records⟩ := journal
  simp only [Journal.tailAfter] at rising ⊢
  induction records using List.reverseRecOn with
  | nil =>
      rfl
  | append_singleton records record inductionHypothesis =>
      rw [List.pairwise_append] at rising
      rw [List.reverse_concat, List.takeWhile_cons, List.filter_append]
      by_cases after : watermark < record.foldPosition
      · rw [if_pos (decide_eq_true after), List.reverse_cons,
          inductionHypothesis rising.1]
        simp [after]
      · rw [if_neg (by simpa using after)]
        have below :
            ∀ earlier ∈ records, earlier.foldPosition ≤ watermark := by
          intro earlier member
          have lower := rising.2.2 earlier member record (by simp)
          omega
        simpa [after, List.filter_eq_nil_iff] using below

end Records

section Runs

/-- Positions of a run are consecutive. -/
theorem orderAll_folds
    (state : State) {items : List Screened}
    (sound : ∀ item ∈ items, item.Sound) :
    (orderAll state items).1.map (·.acceptance.foldPosition) =
      List.range' (state.foldPosition + 1) items.length := by
  have orders :=
    (inOrder_iff.mp (Reduce.orderAll_inOrder state sound).1).1
  rw [Accept.orderAll_length] at orders
  exact orders

theorem orderAll_rising
    (state : State) {items : List Screened}
    (sound : ∀ item ∈ items, item.Sound) :
    (orderAll state items).1.Pairwise fun earlier later =>
      earlier.acceptance.foldPosition < later.acceptance.foldPosition := by
  have positions :=
    @List.pairwise_lt_range' (state.foldPosition + 1) items.length 1
  rw [← orderAll_folds state sound, List.pairwise_map] at positions
  exact positions

theorem orderAll_fold_bounds
    {state : State} {items : List Screened}
    (sound : ∀ item ∈ items, item.Sound) {event : Event}
    (member : event ∈ (orderAll state items).1) :
    state.foldPosition < event.acceptance.foldPosition ∧
      event.acceptance.foldPosition ≤ state.foldPosition + items.length := by
  have listed :
      event.acceptance.foldPosition ∈
        (orderAll state items).1.map (·.acceptance.foldPosition) :=
    List.mem_map_of_mem member
  rw [orderAll_folds state sound, List.mem_range'_1] at listed
  omega

theorem orderAll_foldPosition
    (state : State) {items : List Screened}
    (sound : ∀ item ∈ items, item.Sound) :
    (orderAll state items).2.foldPosition =
      state.foldPosition + items.length := by
  rw [(Reduce.orderAll_inOrder state sound).2.2, Accept.orderAll_length]

/-- The events after a position are the ones after as many arrivals. -/
theorem orderAll_filter_after
    (state : State) {items : List Screened}
    (sound : ∀ item ∈ items, item.Sound) (count : Nat) :
    (orderAll state items).1.filter
        (fun event =>
          decide
            (state.foldPosition + count < event.acceptance.foldPosition)) =
      (orderAll state items).1.drop count := by
  have before : ∀ item ∈ items.take count, item.Sound :=
    fun item member => sound item (List.mem_of_mem_take member)
  have after : ∀ item ∈ items.drop count, item.Sound :=
    fun item member => sound item (List.mem_of_mem_drop member)
  have whole :=
    Accept.orderAll_append state (items.take count) (items.drop count)
  rw [List.take_append_drop] at whole
  rw [orderAll_drop, whole, List.filter_append]
  have none :
      (orderAll state (items.take count)).1.filter
          (fun event =>
            decide
              (state.foldPosition + count <
                event.acceptance.foldPosition)) = [] := by
    rw [List.filter_eq_nil_iff]
    intro event member
    have bounds := orderAll_fold_bounds before member
    rw [List.length_take] at bounds
    simp only [decide_eq_true_eq]
    omega
  have all :
      ∀ event ∈
          (orderAll (orderAll state (items.take count)).2
            (items.drop count)).1,
        state.foldPosition + count < event.acceptance.foldPosition := by
    intro event member
    have bounds := orderAll_fold_bounds after member
    rw [orderAll_foldPosition state before, List.length_take,
      List.length_drop] at bounds
    omega
  rw [none, List.nil_append, List.filter_eq_self]
  simpa using all

end Runs

/-- Every domain is one of two. -/
theorem domain_filter_perm (events : List Event) :
    (events.filter (·.fact.domain = .root) ++
        events.filter (·.fact.domain = .user)).Perm events := by
  have other :
      events.filter (·.fact.domain = .user) =
        events.filter (fun event => !decide (event.fact.domain = .root)) := by
    apply List.filter_congr
    intro event _
    cases event.fact.domain <;> rfl
  rw [other]
  exact List.filter_append_perm _ events

/-- Only accepted events have a host sequence. -/
theorem orderAll_host
    (state : State) {items : List Screened}
    (sound : ∀ item ∈ items, item.Sound) :
    ∀ event ∈ (orderAll state items).1,
      event.acceptance.outcome = .accepted ↔
        event.acceptance.hostSequence ≠ 0 := by
  induction items generalizing state with
  | nil =>
      simp [orderAll]
  | cons item rest inductionHypothesis =>
      rw [Accept.orderAll_cons, List.forall_mem_cons]
      constructor
      · have host :=
          (Accept.order_spec state item.digest item.role
            (sound item (by simp)).positive).2.2.1
        by_cases accepted :
            (order state item.fact item.digest item.role).1.outcome =
              .accepted
        · rw [if_pos accepted] at host
          simp [accepted, host]
        · rw [if_neg accepted] at host
          simp [accepted, host]
      · exact
          inductionHypothesis _ fun other member =>
            sound other (List.mem_cons_of_mem _ member)

theorem orderAll_hostSequence
    (state : State) {items : List Screened}
    (sound : ∀ item ∈ items, item.Sound) :
    (orderAll state items).2.hostSequence =
      state.hostSequence + (acceptedOf (orderAll state items).1).length := by
  rw [(Reduce.orderAll_inOrder state sound).2.1, foldl_nextConsumed]

/-- No event of a run is numbered above where the run ends. -/
theorem orderAll_host_le
    {state : State} {items : List Screened}
    (sound : ∀ item ∈ items, item.Sound) {event : Event}
    (member : event ∈ (orderAll state items).1) :
    event.acceptance.hostSequence ≤ (orderAll state items).2.hostSequence := by
  by_cases accepted : event.acceptance.outcome = .accepted
  · have orders := inOrder_iff.mp (Reduce.orderAll_inOrder state sound).1
    have listed :
        event.acceptance.hostSequence ∈
          (acceptedOf (orderAll state items).1).map
            (·.acceptance.hostSequence) :=
      List.mem_map_of_mem
        (List.mem_filter.mpr ⟨member, by simpa using accepted⟩)
    rw [orders.2.1, List.mem_range'_1] at listed
    rw [orderAll_hostSequence state sound]
    omega
  · have zero : event.acceptance.hostSequence = 0 := by
      by_contra some
      exact accepted ((orderAll_host state sound event member).mpr some)
    omega

/-- When only the first event of a run may lack a host sequence, the host
sequences rise along the run. -/
theorem orderAll_hosts_rising
    (state : State) {items : List Screened}
    (sound : ∀ item ∈ items, item.Sound)
    (later :
      ∀ event ∈ (orderAll state items).1.tail,
        event.acceptance.outcome = .accepted) :
    ((orderAll state items).1.map recordOf).Pairwise fun earlier later =>
      earlier.hostSequence < later.hostSequence := by
  have orders := inOrder_iff.mp (Reduce.orderAll_inOrder state sound).1
  have hosts := orderAll_host state sound
  rw [List.pairwise_map]
  cases run : (orderAll state items).1 with
  | nil =>
      exact List.Pairwise.nil
  | cons first rest =>
      rw [run] at orders hosts later
      have rest_accepted : acceptedOf rest = rest :=
        List.filter_eq_self.mpr (by simpa using later)
      have rising :
          ∀ start count : Nat, ∀ events : List Event,
            events.map (·.acceptance.hostSequence) =
                List.range' start count →
              events.Pairwise fun earlier later =>
                earlier.acceptance.hostSequence <
                  later.acceptance.hostSequence := by
        intro start count events positions
        have listed := @List.pairwise_lt_range' start count 1
        rw [← positions, List.pairwise_map] at listed
        exact listed
      by_cases accepted : first.acceptance.outcome = .accepted
      · have all : acceptedOf (first :: rest) = first :: rest := by
          simp only [acceptedOf] at rest_accepted ⊢
          rw [List.filter_cons_of_pos (by simpa using accepted),
            rest_accepted]
        rw [all] at orders
        exact rising _ _ _ orders.2.1
      · have all : acceptedOf (first :: rest) = rest := by
          simp only [acceptedOf] at rest_accepted ⊢
          rw [List.filter_cons_of_neg (by simpa using accepted),
            rest_accepted]
        rw [all] at orders
        have zero : first.acceptance.hostSequence = 0 := by
          by_contra some
          exact accepted ((hosts first (by simp)).mpr some)
        refine List.Pairwise.cons ?_ (rising _ _ _ orders.2.1)
        intro event member
        have some := (hosts event (by simp [member])).mp (later event member)
        simp only [recordOf]
        omega

/-- Every record but perhaps the earliest was accepted. -/
def OnlyFirstUnaccepted (records : List Record) : Prop :=
  ∀ record ∈ records, ∀ earlier ∈ records,
    earlier.foldPosition < record.foldPosition →
      record.outcome = .accepted

/-- `base` is where the numbering began, `all` is what has been journalled
since, `old` what the journals held before, and `inherited` the store at that
time.  `lost` is what the present process has ordered without journalling. -/
structure Epoch
    (digest : Fact → Option String) (base : State)
    (all lost : List Screened) (old : Domain → List Record)
    (inherited : Store) (runtime : Runtime) : Prop where
  wellFormed : base.WellFormed
  passes : ∀ item ∈ all, Passes digest item
  below :
    ∀ domain, ∀ record ∈ old domain,
      record.foldPosition ≤ base.foldPosition ∧
        record.hostSequence ≤ base.hostSequence
  rising :
    ∀ domain,
      (old domain).Pairwise fun earlier later =>
        earlier.foldPosition < later.foldPosition
  records :
    ∀ domain journal,
      runtime.journals domain = some journal →
        journal.records =
          old domain ++
            ((orderAll base all).1.filter
              (·.fact.domain = domain)).map recordOf
  journalled :
    ∀ item ∈ all, (runtime.journals item.fact.domain).isSome = true
  sealed :
    ∀ checkpoint,
      runtime.store.Holds checkpoint →
        inherited.Holds checkpoint ∨
          ∃ count ≤ all.length,
            SealedAt checkpoint (orderAll base (all.take count)).2
  process :
    ∃ count origin folded,
      count ≤ all.length ∧
        origin.Same (orderAll base (all.take count)).2 ∧
          Process digest origin (all.drop count) lost folded runtime

namespace Epoch

variable {environment : Environment} {base : State}
  {all lost : List Screened} {old : Domain → List Record}
  {inherited : Store} {runtime : Runtime}

theorem sound
    (epoch : Epoch environment.digest base all lost old inherited runtime) :
    ∀ item ∈ all, item.Sound :=
  fun item member => (epoch.passes item member).sound

/-- The acceptor stands where the journalled run leaves it, once what was
lost is set aside. -/
theorem acceptor
    (epoch : Epoch environment.digest base all lost old inherited runtime) :
    ∃ state : State,
      state.Same (orderAll base all).2 ∧
        runtime.acceptor = (orderAll state lost).2 := by
  obtain ⟨count, origin, folded, _, same, process⟩ := epoch.process
  refine ⟨(orderAll origin (all.drop count)).2, ?_, ?_⟩
  · have whole := Accept.orderAll_append base (all.take count) (all.drop count)
    rw [List.take_append_drop] at whole
    rw [whole]
    exact (Accept.orderAll_same same (all.drop count)).2
  · rw [process.acceptor, Accept.orderAll_append]

/-- Positions rise along every journal. -/
theorem journal_rising
    (epoch : Epoch environment.digest base all lost old inherited runtime)
    {domain : Domain} {journal : Journal}
    (held : runtime.journals domain = some journal) :
    journal.records.Pairwise fun earlier later =>
      earlier.foldPosition < later.foldPosition := by
  rw [epoch.records domain journal held, List.pairwise_append]
  refine ⟨epoch.rising domain, ?_, ?_⟩
  · rw [List.pairwise_map]
    exact (orderAll_rising base epoch.sound).sublist List.filter_sublist
  · intro record before later after
    obtain ⟨event, member, rfl⟩ := List.mem_map.mp after
    have low := (epoch.below domain record before).1
    have high :=
      (orderAll_fold_bounds epoch.sound (List.mem_of_mem_filter member)).1
    simp only [recordOf]
    omega

/-- A tick continues the epoch; what it stores is sealed at its end. -/
theorem tick
    (epoch : Epoch environment.digest base all lost old inherited runtime)
    (input : TickInput) (id : Option String)
    (fires : Lineage.Operation → Boundary → Bool) :
    Epoch environment.digest base all lost old inherited
      (runtime.tick environment fires id input).2.2 := by
  obtain ⟨count, origin, folded, bound, same, process⟩ := epoch.process
  obtain ⟨⟨later, continued⟩, stored⟩ :=
    process.tick environment fires id input
  have frame :
      ((runtime.tick environment fires id input).2.2).journals =
        runtime.journals := by
    rcases Runtime.tick_cases environment fires id runtime input with
      kept | ⟨_, _, _, _, _, folds, _⟩
    · rw [kept]
    · rw [folds]
      rfl
  refine
    { epoch with
      records := ?_
      journalled := ?_
      sealed := ?_
      process := ⟨count, origin, later, bound, same, continued⟩ }
  · rw [frame]
    exact epoch.records
  · rw [frame]
    exact epoch.journalled
  · intro checkpoint holds
    rcases stored checkpoint holds with before | new
    · exact epoch.sealed checkpoint before
    · right
      refine ⟨all.length, le_rfl, ?_⟩
      have whole :=
        Accept.orderAll_append base (all.take count) (all.drop count)
      rw [List.take_append_drop] at whole
      rw [List.take_length, whole]
      exact
        new.same (Accept.orderAll_same same (all.drop count)).2

/-- What a publication journals is what the run of the epoch would decide. -/
theorem written_records
    (epoch : Epoch environment.digest base all lost old inherited runtime)
    {written : List Screened} (early : lost ≠ [] → written = []) :
    (orderAll runtime.acceptor written).1.map recordOf =
      (orderAll (orderAll base all).2 written).1.map recordOf := by
  by_cases none : lost = []
  · obtain ⟨state, same, stands⟩ := epoch.acceptor
    rw [none] at stands
    rw [stands]
    exact map_recordOf_of_same (Accept.orderAll_same same written).1
  · rw [early none]
    rfl

/-- A publication continues the epoch, as long as it journals nothing after
a failed write. -/
theorem publish
    (epoch : Epoch environment.digest base all lost old inherited runtime)
    {offers : List Offer} {domain : Domain} {journal : Journal}
    (enabled : runtime.enabled = true)
    (known : runtime.journals domain = some journal)
    (inTime :
      lost ≠ [] →
        true ∉ (Step.publish offers domain).attempts environment runtime) :
    ∃ written missed,
      Epoch environment.digest base (all ++ written) (lost ++ missed) old
          inherited (runtime.publish environment offers domain).2.2 ∧
        (false ∉ (Step.publish offers domain).attempts environment runtime →
          missed = []) := by
  obtain ⟨after, written, missed, published, attempts, publishes⟩ :=
    Runtime.publish_eq environment offers enabled known
  have early : lost ≠ [] → written = [] := by
    intro some
    have never := inTime some
    rw [attempts] at never
    by_contra nonempty
    exact never (by simp [List.mem_replicate, nonempty])
  obtain ⟨count, origin, folded, bound, same, process⟩ := epoch.process
  have owned :
      ∀ event ∈ (orderAll (orderAll base all).2 written).1,
        event.fact.domain = domain := by
    intro event member
    have fact : event.fact ∈ written.map Screened.fact := by
      rw [← orderAll_facts (orderAll base all).2]
      exact List.mem_map_of_mem member
    obtain ⟨item, listed, own⟩ := List.mem_map.mp fact
    rw [← own]
    exact published.owned item (by simp [listed])
  refine ⟨written, missed.toList, ?_, ?_⟩
  · rw [publishes]
    constructor
    · exact epoch.wellFormed
    · intro item member
      rcases List.mem_append.mp member with before | new
      · exact epoch.passes item before
      · exact published.passes item (by simp [new])
    · exact epoch.below
    · exact epoch.rising
    · intro other held holds
      rw [Accept.orderAll_append, List.filter_append, List.map_append,
        ← List.append_assoc]
      by_cases own : other = domain
      · subst own
        simp only [Function.update_self, Option.some.injEq] at holds
        have kept :
            (orderAll (orderAll base all).2 written).1.filter
                (·.fact.domain = other) =
              (orderAll (orderAll base all).2 written).1 :=
          List.filter_eq_self.mpr (by simpa using owned)
        rw [← holds, published.records, epoch.records other journal known,
          kept]
        congr 1
        exact epoch.written_records early
      · simp only [Function.update_of_ne own] at holds
        have none :
            (orderAll (orderAll base all).2 written).1.filter
                (·.fact.domain = other) = [] := by
          rw [List.filter_eq_nil_iff]
          intro event member
          rw [owned event member]
          simpa using Ne.symm own
        rw [epoch.records other held holds, none]
        simp
    · intro item member
      by_cases own : item.fact.domain = domain
      · simp [own]
      · simp only [Function.update_of_ne own]
        rcases List.mem_append.mp member with before | new
        · exact epoch.journalled item before
        · exact absurd (published.owned item (by simp [new])) own
    · intro checkpoint holds
      rcases epoch.sealed checkpoint holds with before | new
      · exact Or.inl before
      · obtain ⟨position, within, stands⟩ := new
        refine Or.inr ⟨position, ?_, ?_⟩
        · rw [List.length_append]
          omega
        · rw [List.take_append_of_le_length within]
          exact stands
    · refine ⟨count, origin, folded, ?_, ?_, ?_⟩
      · rw [List.length_append]
        omega
      · rw [List.take_append_of_le_length bound]
        exact same
      · rw [List.drop_append_of_le_length bound]
        exact
          process.extend published.passes rfl rfl rfl published.pending
            published.acceptor early
  · intro succeeds
    cases missed with
    | none =>
        rfl
    | some item =>
        rw [attempts] at succeeds
        simp at succeeds

/-- What the journals hold beyond a position of the epoch. -/
theorem heldAfter_eq
    (epoch : Epoch environment.digest base all lost old inherited runtime)
    (count : Nat) (domain : Domain) :
    heldAfter runtime.journals (base.foldPosition + count) domain =
      (((orderAll base all).1.drop count).filter
        (·.fact.domain = domain)).map recordOf := by
  have after := orderAll_filter_after base epoch.sound count
  unfold heldAfter
  cases held : runtime.journals domain with
  | none =>
      have foreign :
          ∀ event ∈ (orderAll base all).1.drop count,
            event.fact.domain ≠ domain := by
        intro event member own
        have fact : event.fact ∈ all.map Screened.fact := by
          rw [← orderAll_facts base]
          exact List.mem_map_of_mem (List.mem_of_mem_drop member)
        obtain ⟨item, listed, same⟩ := List.mem_map.mp fact
        have some := epoch.journalled item listed
        rw [same, own, held] at some
        exact absurd some (by decide)
      rw [List.filter_eq_nil_iff.mpr (by simpa using foreign)]
      rfl
  | some journal =>
      have own := epoch.records domain journal held
      simp only [Journal.recordsAfter]
      rw [tailAfter_eq_filter _ (epoch.journal_rising held), own,
        List.filter_append]
      have none :
          (old domain).filter
              (fun record =>
                decide
                  (base.foldPosition + count < record.foldPosition)) =
            [] := by
        rw [List.filter_eq_nil_iff]
        intro record member
        have low := (epoch.below domain record member).1
        simp only [decide_eq_true_eq]
        omega
      rw [none, List.nil_append, List.filter_map, List.filter_comm]
      congr 2

/-- The journals hold exactly the events beyond a position, in some order. -/
theorem beyond_perm
    (epoch : Epoch environment.digest base all lost old inherited runtime)
    (count : Nat) :
    (recordsBeyond runtime.journals (base.foldPosition + count)).Perm
      (((orderAll base all).1.drop count).map recordOf) := by
  have both :
      recordsBeyond runtime.journals (base.foldPosition + count) =
        ((((orderAll base all).1.drop count).filter
            (·.fact.domain = .root)) ++
          (((orderAll base all).1.drop count).filter
            (·.fact.domain = .user))).map recordOf := by
    simp only [recordsBeyond, List.flatMap_cons, List.flatMap_nil,
      List.append_nil, epoch.heldAfter_eq, List.map_append]
  rw [both]
  exact (domain_filter_perm _).map recordOf

section Beyond

variable {checkpoint : Checkpoint} {count : Nat}

/-- Where a sealed checkpoint cuts the epoch. -/
theorem consumedTo_eq
    (epoch : Epoch environment.digest base all lost old inherited runtime)
    (bound : count ≤ all.length)
    (sealed : SealedAt checkpoint (orderAll base (all.take count)).2) :
    checkpoint.consumedTo = base.foldPosition + count := by
  have before : ∀ item ∈ all.take count, item.Sound :=
    fun item member => epoch.sound item (List.mem_of_mem_take member)
  rw [sealed.consumedTo, sealed.describes.folded,
    orderAll_foldPosition base before, List.length_take]
  omega

/-- The events beyond a position, decided from there. -/
theorem tail
    (epoch : Epoch environment.digest base all lost old inherited runtime)
    (count : Nat) :
    (orderAll base all).1.drop count =
        (orderAll (orderAll base (all.take count)).2
          (all.drop count)).1 ∧
      (orderAll base all).2 =
        (orderAll (orderAll base (all.take count)).2
          (all.drop count)).2 ∧
      ∀ item ∈ all.drop count, item.Sound := by
  refine ⟨orderAll_drop base all count, ?_, ?_⟩
  · have whole :=
      Accept.orderAll_append base (all.take count) (all.drop count)
    rw [List.take_append_drop] at whole
    rw [whole]
  · exact fun item member =>
      epoch.sound item (List.mem_of_mem_drop member)

/-- When only the first record lacks a host sequence, every arrangement is
the order of the positions. -/
theorem arranged
    (epoch : Epoch environment.digest base all lost old inherited runtime)
    (only :
      OnlyFirstUnaccepted
        (recordsBeyond runtime.journals (base.foldPosition + count)))
    (arrangement : Arrangement) :
    arrangement.arrange
        (recordsBeyond runtime.journals (base.foldPosition + count)) =
      ((orderAll base all).1.drop count).map recordOf := by
  have beyond := epoch.beyond_perm count
  obtain ⟨cut, _, sound⟩ := epoch.tail count
  have rising :
      (((orderAll base all).1.drop count).map recordOf).Pairwise
        fun earlier later => earlier.hostSequence < later.hostSequence := by
    rw [cut]
    apply orderAll_hosts_rising _ sound
    intro event member
    rw [← cut] at member
    cases run : (orderAll base all).1.drop count with
    | nil =>
        simp [run] at member
    | cons first rest =>
        rw [run, List.tail_cons] at member
        rw [run] at beyond
        have positions :=
          orderAll_rising (orderAll base (all.take count)).2 sound
        rw [← cut, run, List.pairwise_cons] at positions
        have own :=
          only (recordOf event)
            (beyond.mem_iff.mpr (by simp [List.mem_map_of_mem member]))
            (recordOf first) (beyond.mem_iff.mpr (by simp))
            (positions.1 event member)
        exact own
  exact
    eq_of_perm_of_rising ((arrangement.perm _).trans beyond)
      (arrangement.ordered _) rising

/-- Every record the journals hold beyond a position passes the screen. -/
theorem beyond_passes
    (epoch : Epoch environment.digest base all lost old inherited runtime)
    {record : Record}
    (member :
      record ∈ recordsBeyond runtime.journals (base.foldPosition + count)) :
    Passes environment.digest record.screened := by
  have kept := (epoch.beyond_perm count).mem_iff.mp member
  rw [List.map_drop] at kept
  have arrival :
      record.screened ∈
        ((orderAll base all).1.map recordOf).map Record.screened :=
    List.mem_map_of_mem (List.mem_of_mem_drop kept)
  rw [orderAll_screened base epoch.sound] at arrival
  exact epoch.passes _ arrival

/-- The acceptor a sealed checkpoint is restored to. -/
theorem restores
    (epoch : Epoch environment.digest base all lost old inherited runtime)
    (sealed : SealedAt checkpoint (orderAll base (all.take count)).2) :
    ∃ origin : State,
      Reduce.restoreAcceptor checkpoint.snapshot
          checkpoint.sourceWatermarks = .ok origin ∧
        origin.Same (orderAll base (all.take count)).2 := by
  have before : ∀ item ∈ all.take count, item.Sound :=
    fun item member => epoch.sound item (List.mem_of_mem_take member)
  obtain ⟨restored, same⟩ :=
    sealed.describes.restore
      (Accept.orderAll_wellFormed before epoch.wellFormed)
  rw [← sealed.watermarks] at restored same
  exact ⟨_, restored, same⟩

end Beyond

end Epoch

end Hexroute.Host
