import Hexroute.Lib.Reclaim
import Hexroute.Spool.Store

/-!
# What an append evicts

Room is made by class and then by age, and a critical record goes only for
another one and for the report of the overflow.
-/

namespace Hexroute.Spool

open Hexroute.Lib

def indexLastSequence (records : List StableRecord) : Nat :=
  (records.getLast?.map StableRecord.sequence).getD 0

def indexTotalSize (records : List StableRecord) : Nat :=
  totalSize StableRecord.size records

def excessBytes (size maximum : Nat) : Nat :=
  if size ≤ maximum then 0 else size - maximum

def priorities (includeCritical : Bool) : List Priority :=
  [.diagnostic, .operational] ++ if includeCritical then [.critical] else []

def chooseEvictions (candidates : List StableRecord) (required : Nat)
    (includeCritical : Bool) : List StableRecord × Bool :=
  if required = 0 then ([], true)
  else
    reclaim StableRecord.size required 0
      ((priorities includeCritical).flatMap fun priority =>
        candidates.filter fun candidate => candidate.priority = some priority)

namespace State

def recordOverflow (world : World) (state : State)
    (candidates : List StableRecord) : Option Fault × State :=
  match state.overflowEntry world with
  | none => (some .metadata, state)
  | some (overflow, issued) =>
      if world.maxBytes < overflow.size then (some .recordTooLarge, issued)
      else
        let chosen :=
          chooseEvictions candidates
            (excessBytes (indexTotalSize candidates + overflow.size)
              world.maxBytes)
            true
        if chosen.2 then (none, issued.commit [overflow] chosen.1)
        else (some .recordTooLarge, issued)

/-- The append of a critical record that the others leave no room for. -/
def appendCritical (world : World) (state : State)
    (candidates : List StableRecord) (entry : File) :
    Except AppendError Nat × State :=
  match state.overflowEntry world with
  | none => (.error (.fault .metadata), state)
  | some (overflow, issued) =>
      if world.maxBytes < entry.size + overflow.size then
        (.error (.fault .recordTooLarge), issued)
      else
        let chosen :=
          chooseEvictions candidates
            (excessBytes
              (indexTotalSize candidates + entry.size + overflow.size)
              world.maxBytes)
            true
        if chosen.2 then
          (.ok entry.sequence, issued.commit [entry, overflow] chosen.1)
        else (.error (.fault .recordTooLarge), issued)

/-- The append at the bound. -/
def appendEvicting (world : World) (state : State)
    (candidates : List StableRecord) (entry : File) :
    Except AppendError Nat × State :=
  let chosen :=
    chooseEvictions candidates
      (excessBytes (indexTotalSize candidates + entry.size) world.maxBytes)
      false
  if chosen.2 then (.ok entry.sequence, state.commit [entry] chosen.1)
  else if entry.priority = .critical then
    state.appendCritical world candidates entry
  else
    let recorded := state.recordOverflow world candidates
    (.error (.spoolFull recorded.1), recorded.2)

def appendReported (world : World) (state : State) (incoming : Incoming) :
    Option (Except AppendError Nat × State) :=
  match state.learn.next world with
  | none => some (.error (.fault .metadata), state.learn)
  | some (sequence, issued) =>
      let entry := incoming.entry sequence
      if sequence ≤ indexLastSequence state.index then
        some (.error (.fault .corruptSpool), issued)
      else if world.maxBytes < entry.size then
        some (.error (.fault .recordTooLarge), issued)
      else if
          excessBytes (indexTotalSize state.index + entry.size)
            world.maxBytes = 0 then
        some (.ok sequence, issued.commit [entry] [])
      else
        (issued.evictable (issued.files.length + 1)).map fun classified =>
          classified.2.appendEvicting world classified.1 entry

def append (world : World) (state : State) (incoming : Incoming) :
    Option (Except AppendError Nat × State) :=
  if incoming.decodes = false then
    some (.error (.fault .undecodable), state)
  else
    match state.reportQuarantine world with
    | (some fault, reported) => some (.error (.fault fault), reported)
    | (none, reported) => reported.appendReported world incoming

end State

/-! ## What is to be shown -/

def Priority.rank : Priority → Nat
  | .diagnostic => 0
  | .operational => 1
  | .critical => 2

theorem Priority.rank_lt_critical
    {priority : Priority} (other : priority ≠ .critical) :
    priority.rank < Priority.critical.rank := by
  cases priority with
  | critical => exact absurd rfl other
  | _ => decide

def File.place (file : File) : Nat ×ₗ Nat :=
  toLex (file.priority.rank, file.sequence)

/-- Diagnostics first, then operational records, then critical ones, and the
older ones first within a class. -/
def byClassAndAge (files : List File) : List File :=
  sortBy File.place files

def criticals (files : List File) : List File :=
  files.filter fun file => file.priority = .critical

/-- The stored files and the new ones are within the bound once the removed
ones are gone. -/
def Fits (world : World) (stored committed removed : List File) : Prop :=
  totalSize File.size stored + totalSize File.size committed ≤
    world.maxBytes + totalSize File.size removed

/-- How an append evicts. -/
structure Evicts (world : World) (incoming : Incoming) (stored : List File)
    (result : Except AppendError Nat) (after : State)
    (evicted committed : List File) : Prop where
  formed : after.Formed
  files : after.files = without evicted stored ++ committed
  isPrefix : evicted <+: byClassAndAge stored
  shortest :
    ∀ shorter, shorter <+: byClassAndAge stored →
      shorter.length < evicted.length →
        ¬ Fits world stored committed shorter
  fits : committed ≠ [] → Fits world stored committed evicted
  unchanged : committed = [] → evicted = []
  critical :
    ∀ file ∈ evicted, file.priority = .critical →
      (∀ other ∈ stored, other.priority ≠ .critical → other ∈ evicted) ∧
        ∃ overflow ∈ committed,
          overflow.purpose = .overflow ∧ overflow.priority = .critical
  accepted :
    ∀ sequence, result = .ok sequence →
      incoming.entry sequence ∈ committed
  refused :
    ∀ error, result = .error error → ∀ entry ∈ committed,
      committed = [entry] ∧ entry.purpose = .overflow ∧
        incoming.priority ≠ .critical ∧
          ∀ chosen, chosen <+: byClassAndAge stored →
            Fits world stored [entry] chosen →
              (criticals (without chosen stored)).length ≤
                (criticals (without evicted stored)).length

/-! ## The order of eviction -/

/-- The files of the given classes, class by class. -/
def classes (wanted : List Priority) (files : List File) : List File :=
  wanted.flatMap fun priority =>
    files.filter fun file => file.priority = priority

theorem classes_rising
    {files : List File}
    (rising :
      files.Pairwise fun earlier later => earlier.sequence < later.sequence) :
    (classes (priorities true) files).Pairwise fun earlier later =>
      earlier.place < later.place := by
  apply List.pairwise_flatMap.mpr
  constructor
  · intro priority _
    have inside := rising.filter fun file => file.priority = priority
    apply inside.imp_of_mem
    intro earlier later earlierMember laterMember below
    have left : earlier.priority = priority := by
      simpa using (List.mem_filter.mp earlierMember).2
    have right : later.priority = priority := by
      simpa using (List.mem_filter.mp laterMember).2
    apply Prod.Lex.toLex_lt_toLex.mpr
    exact Or.inr ⟨by rw [left, right], below⟩
  · have ranks :
        (priorities true).Pairwise fun earlier later =>
          earlier.rank < later.rank := by
      decide
    apply ranks.imp
    intro lower upper below earlier earlierMember later laterMember
    have left : earlier.priority = lower := by
      simpa using (List.mem_filter.mp earlierMember).2
    have right : later.priority = upper := by
      simpa using (List.mem_filter.mp laterMember).2
    apply Prod.Lex.toLex_lt_toLex.mpr
    exact Or.inl (by rw [left, right]; exact below)

theorem mem_classes
    {files : List File} {file : File} {includeCritical : Bool} :
    file ∈ classes (priorities includeCritical) files ↔
      file ∈ files ∧
        (file.priority = .critical → includeCritical = true) := by
  simp only [classes, List.mem_flatMap, List.mem_filter, decide_eq_true_eq]
  cases includeCritical <;> cases file.priority <;> simp [priorities]

theorem byClassAndAge_eq
    {files : List File}
    (rising :
      files.Pairwise fun earlier later => earlier.sequence < later.sequence) :
    byClassAndAge files = classes (priorities true) files := by
  have distinct : files.Nodup :=
    rising.imp fun below same => by
      rw [same] at below
      exact below.false
  have order := classes_rising rising
  have ordered : (classes (priorities true) files).Nodup :=
    order.imp fun below same => by
      rw [same] at below
      exact below.false
  have same : (byClassAndAge files).Perm (classes (priorities true) files) := by
    apply (sortBy_perm files).trans
    apply (List.perm_ext_iff_of_nodup distinct ordered).mpr
    intro file
    rw [mem_classes]
    simp
  exact eq_of_perm_of_rising same (sortBy_ordered files) order

/-- Without the critical ones the walk is a prefix of the whole one. -/
theorem classes_isPrefix (includeCritical : Bool) (files : List File) :
    classes (priorities includeCritical) files <+:
      classes (priorities true) files := by
  cases includeCritical with
  | true => exact List.prefix_rfl
  | false =>
      refine ⟨classes [.critical] files, ?_⟩
      simp [classes, priorities]

theorem choose_listed
    (files : List File) (required : Nat) (includeCritical : Bool) :
    chooseEvictions (files.map fun file => file.listed true) required
        includeCritical =
      if required = 0 then ([], true)
      else
        Prod.map (List.map fun file => file.listed true) id
          (reclaim File.size required 0
            (classes (priorities includeCritical) files)) := by
  have listed :
      ((priorities includeCritical).flatMap fun priority =>
        (files.map fun file => file.listed true).filter fun candidate =>
          candidate.priority = some priority) =
        (classes (priorities includeCritical) files).map fun file =>
          file.listed true := by
    simp only [classes, List.map_flatMap, List.filter_map]
    congr 1
    funext priority
    congr 2
    funext file
    simp [File.listed]
  rw [chooseEvictions, listed, reclaim_map]
  rfl

/-- What is chosen is the shortest prefix that frees what is required. -/
theorem choose_spec
    {files : List File}
    (rising :
      files.Pairwise fun earlier later => earlier.sequence < later.sequence)
    (required : Nat) (includeCritical : Bool) :
    ∃ evicted,
      (chooseEvictions (files.map fun file => file.listed true) required
          includeCritical).1 =
        evicted.map (fun file => file.listed true) ∧
      evicted <+: byClassAndAge files ∧
      (∀ shorter, shorter <+: byClassAndAge files →
        shorter.length < evicted.length →
          totalSize File.size shorter < required) ∧
      ((chooseEvictions (files.map fun file => file.listed true) required
          includeCritical).2 = true →
        required ≤ totalSize File.size evicted) ∧
      (∀ file ∈ evicted, file.priority = .critical →
        includeCritical = true) := by
  rw [choose_listed, byClassAndAge_eq rising]
  by_cases none : required = 0
  · refine ⟨[], ?_⟩
    simp [none]
  · have positive : 0 < required := Nat.pos_of_ne_zero none
    have walked :=
      reclaim_isPrefix File.size required 0
        (classes (priorities includeCritical) files)
    have whole := classes_isPrefix includeCritical files
    refine
      ⟨(reclaim File.size required 0
        (classes (priorities includeCritical) files)).1, ?_⟩
    simp only [none, if_false]
    refine ⟨rfl, walked.trans whole, ?_, ?_, ?_⟩
    · intro shorter isPrefix less
      have inside : shorter <+: classes (priorities includeCritical) files :=
        List.prefix_of_prefix_length_le isPrefix whole
          (less.le.trans walked.length_le)
      have bound := reclaim_shortest positive inside less
      simpa using bound
    · intro covered
      have bound :=
        @reclaim_enough _ File.size required 0
          (classes (priorities includeCritical) files) covered
      simpa using bound
    · intro file member
      exact (mem_classes.mp (walked.subset member)).2

/-- A critical record comes after all records of the other classes. -/
theorem others_of_critical
    {files evicted : List File}
    (rising :
      files.Pairwise fun earlier later => earlier.sequence < later.sequence)
    (isPrefix : evicted <+: byClassAndAge files)
    {file : File} (member : file ∈ evicted)
    (critical : file.priority = .critical) :
    ∀ other ∈ files, other.priority ≠ .critical → other ∈ evicted := by
  intro other stored kind
  rw [byClassAndAge_eq rising] at isPrefix
  obtain ⟨rest, whole⟩ := isPrefix
  have order := classes_rising rising
  have listed : other ∈ classes (priorities true) files :=
    mem_classes.mpr ⟨stored, fun _ => rfl⟩
  rw [← whole] at order listed
  rcases List.mem_append.mp listed with inside | later
  · exact inside
  · have above := (List.pairwise_append.mp order).2.2 file member other later
    have lower : other.place < file.place := by
      apply Prod.Lex.toLex_lt_toLex.mpr
      left
      rw [critical]
      exact Priority.rank_lt_critical kind
    exact absurd (lower.trans above) (lt_irrefl _)

/-! ## One append -/

section Append

variable {world : World} {state : State} {incoming : Incoming}

theorem indexTotalSize_listed (files : List File) (known : File → Bool) :
    indexTotalSize (files.map fun file => file.listed (known file)) =
      totalSize File.size files := by
  simp [indexTotalSize, totalSize, Function.comp_def, File.listed]

theorem fits_iff {stored committed removed : List File} :
    Fits world stored committed removed ↔
      excessBytes
          (totalSize File.size stored + totalSize File.size committed)
          world.maxBytes ≤
        totalSize File.size removed := by
  rw [Fits, excessBytes]
  split <;> omega

/-- Nothing is stored and nothing goes. -/
theorem evicts_nothing
    (formed : state.Formed) (error : AppendError) :
    Evicts world incoming state.files (.error error) state [] [] where
  formed := formed
  files := by simp [without]
  isPrefix := List.nil_prefix
  shortest := by simp
  fits := by simp
  unchanged := fun _ => rfl
  critical := by simp
  accepted := by simp
  refused := by simp

theorem criticals_without_le
    {stored evicted chosen : List File} (fewer : evicted <+: chosen) :
    (criticals (without chosen stored)).length ≤
      (criticals (without evicted stored)).length := by
  apply List.Sublist.length_le
  apply List.Sublist.filter
  apply List.monotone_filter_right
  intro file kept
  have absent : file ∉ chosen := by simpa using kept
  have spared : file ∉ evicted := fun member =>
    absent (fewer.subset member)
  simpa using spared

/-- Files that may be committed: new ones, among them the record of the
overflow if critical records may go. -/
structure Staged (incoming : Incoming) (state : State)
    (includeCritical : Bool) (result : Except AppendError Nat)
    (committed : List File) : Prop where
  present : committed ≠ []
  order :
    committed.Pairwise fun earlier later => earlier.sequence < later.sequence
  issued : ∀ entry ∈ committed, entry.sequence ≤ state.sequence
  fresh :
    ∀ file ∈ state.files, ∀ entry ∈ committed, file.sequence < entry.sequence
  reports :
    includeCritical = true →
      ∃ overflow ∈ committed,
        overflow.purpose = .overflow ∧ overflow.priority = .critical
  accepted :
    ∀ sequence, result = .ok sequence → incoming.entry sequence ∈ committed
  refused :
    ∀ error, result = .error error → ∀ entry ∈ committed,
      committed = [entry] ∧ entry.purpose = .overflow ∧
        incoming.priority ≠ .critical

/-- What an append comes to: its commit, if there is one, evicts by class and
age, and it sets nothing more aside. -/
structure Evicting (world : World) (incoming : Incoming) (state : State)
    (appended : Except AppendError Nat × State) : Prop where
  evicts :
    ∃ evicted committed,
      Evicts world incoming state.files appended.1 appended.2 evicted
        committed
  quarantined : appended.2.quarantined = state.quarantined

theorem evicting_nothing
    {before : State} {error : AppendError} (formed : state.Formed)
    (files : state.files = before.files)
    (aside : state.quarantined = before.quarantined) :
    Evicting world incoming before (.error error, state) :=
  ⟨⟨[], [], files ▸ evicts_nothing formed error⟩, aside⟩

/-- A commit with the shortest prefix that makes room for it. -/
theorem evicting_commit
    {committed : List File} {result : Except AppendError Nat}
    {includeCritical : Bool} {size : Nat} {before : State}
    (formed : state.Formed) (files : state.files = before.files)
    (aside : state.quarantined = before.quarantined)
    (staged : Staged incoming state includeCritical result committed)
    (needs :
      size =
        totalSize File.size before.files + totalSize File.size committed)
    (covered :
      (chooseEvictions (before.files.map fun file => file.listed true)
        (excessBytes size world.maxBytes) includeCritical).2 = true) :
    Evicting world incoming before
      (result,
        state.commit committed
          (chooseEvictions (before.files.map fun file => file.listed true)
            (excessBytes size world.maxBytes) includeCritical).1) := by
  subst needs
  rw [← files] at covered ⊢
  obtain ⟨evicted, chosen, isPrefix, shortest, enough, kinds⟩ :=
    choose_spec formed.rising _ includeCritical
  have inside : ∀ file ∈ evicted, file ∈ state.files := by
    intro file member
    exact (sortBy_perm state.files).mem_iff.mp (isPrefix.subset member)
  have short :
      ∀ shorter, shorter <+: byClassAndAge state.files →
        shorter.length < evicted.length →
          ¬ Fits world state.files committed shorter := by
    intro shorter before less fits
    exact (shortest shorter before less).not_ge (fits_iff.mp fits)
  refine ⟨⟨evicted, committed, ?_⟩, aside⟩
  rw [chosen, ← files]
  refine
    ⟨formed.commit staged.order staged.issued staged.fresh,
      formed.commit_files committed inside, isPrefix, short,
      fun _ => fits_iff.mpr (enough covered),
      fun none => absurd none staged.present, ?_, staged.accepted, ?_⟩
  · intro file member critical
    exact
      ⟨others_of_critical formed.rising isPrefix member critical,
        staged.reports (kinds file member critical)⟩
  · intro error failed entry member
    obtain ⟨single, purpose, other⟩ := staged.refused error failed entry member
    refine ⟨single, purpose, other, ?_⟩
    intro rival before room
    have least : evicted.length ≤ rival.length := by
      by_contra less
      exact short rival before (not_le.mp less) (single ▸ room)
    exact
      criticals_without_le
        (List.prefix_of_prefix_length_le isPrefix before least)

/-- A commit that there is room for. -/
theorem evicting_within
    {committed : List File} {result : Except AppendError Nat}
    {before : State} (formed : state.Formed)
    (files : state.files = before.files)
    (aside : state.quarantined = before.quarantined)
    (staged : Staged incoming state false result committed)
    (room :
      excessBytes
        (totalSize File.size before.files + totalSize File.size committed)
        world.maxBytes = 0) :
    Evicting world incoming before (result, state.commit committed []) := by
  have evicting :=
    @evicting_commit world state incoming committed result false _ before
      formed files aside staged rfl (by simp [chooseEvictions, room])
  simpa [chooseEvictions, room] using evicting

theorem staged_entry
    {sequence : Nat} (issued : sequence ≤ state.sequence)
    (fresh : ∀ file ∈ state.files, file.sequence < sequence) :
    Staged incoming state false (.ok sequence)
      [incoming.entry sequence] where
  present := by simp
  order := by simp
  issued := by simpa [Incoming.entry] using issued
  fresh := by simpa [Incoming.entry] using fresh
  reports := by simp
  accepted := by simp
  refused := by simp

theorem staged_overflow
    {overflow : File} {error : AppendError} (formed : state.Formed)
    (handed : overflow.sequence = state.sequence + 1)
    (purpose : overflow.purpose = .overflow)
    (critical : overflow.priority = .critical)
    (other : incoming.priority ≠ .critical) :
    Staged incoming { state with sequence := state.sequence + 1 } true
      (.error error) [overflow] where
  present := by simp
  order := by simp
  issued := by simp [handed]
  fresh := by
    intro file member entry new
    rw [List.mem_singleton.mp new, handed]
    exact Nat.lt_succ_of_le (formed.issued file member)
  reports := fun _ => ⟨overflow, by simp, purpose, critical⟩
  accepted := by simp
  refused := by
    intro _ _ entry new
    rw [List.mem_singleton.mp new]
    exact ⟨rfl, purpose, other⟩

theorem staged_both
    {sequence : Nat} {overflow : File} (formed : state.Formed)
    (issued : sequence ≤ state.sequence)
    (fresh : ∀ file ∈ state.files, file.sequence < sequence)
    (handed : overflow.sequence = state.sequence + 1)
    (purpose : overflow.purpose = .overflow)
    (critical : overflow.priority = .critical) :
    Staged incoming { state with sequence := state.sequence + 1 } true
      (.ok sequence) [incoming.entry sequence, overflow] where
  present := by simp
  order := by simpa [Incoming.entry, handed] using Nat.lt_succ_of_le issued
  issued := by simp [Incoming.entry, handed, issued.trans]
  fresh := by
    intro file member entry new
    rcases List.mem_pair.mp new with rfl | rfl
    · exact fresh file member
    · rw [handed]
      exact Nat.lt_succ_of_le (formed.issued file member)
  reports := fun _ => ⟨overflow, by simp, purpose, critical⟩
  accepted := by simp
  refused := by simp

theorem recordOverflow_evicting
    (formed : state.Formed) (other : incoming.priority ≠ .critical) :
    Evicting world incoming state
      (.error
          (.spoolFull
            (state.recordOverflow world
              (state.files.map fun file => file.listed true)).1),
        (state.recordOverflow world
          (state.files.map fun file => file.listed true)).2) := by
  rw [State.recordOverflow, State.overflowEntry]
  cases handed : state.next world with
  | none => exact evicting_nothing formed rfl rfl
  | some pair =>
      obtain ⟨sequence, issued⟩ := pair
      obtain ⟨rfl, rfl⟩ := State.next_eq_some handed
      simp only [Option.map_some]
      split
      · exact evicting_nothing formed.next rfl rfl
      · split
        · rename_i covered
          have listed := indexTotalSize_listed state.files fun _ => true
          exact
            evicting_commit formed.next rfl rfl
              (staged_overflow formed rfl rfl rfl other) (by simp [listed])
              covered
        · exact evicting_nothing formed.next rfl rfl

theorem appendCritical_evicting
    {sequence : Nat} (formed : state.Formed)
    (issued : sequence ≤ state.sequence)
    (fresh : ∀ file ∈ state.files, file.sequence < sequence) :
    Evicting world incoming state
      (state.appendCritical world
        (state.files.map fun file => file.listed true)
        (incoming.entry sequence)) := by
  rw [State.appendCritical, State.overflowEntry]
  cases handed : state.next world with
  | none => exact evicting_nothing formed rfl rfl
  | some pair =>
      obtain ⟨following, next⟩ := pair
      obtain ⟨rfl, rfl⟩ := State.next_eq_some handed
      simp only [Option.map_some]
      split
      · exact evicting_nothing formed.next rfl rfl
      · split
        · rename_i covered
          have listed := indexTotalSize_listed state.files fun _ => true
          exact
            evicting_commit formed.next rfl rfl
              (staged_both formed issued fresh rfl rfl rfl)
              (by simp [listed, Nat.add_assoc]) covered
        · exact evicting_nothing formed.next rfl rfl

theorem appendEvicting_evicting
    {sequence : Nat} (formed : state.Formed)
    (issued : sequence ≤ state.sequence)
    (fresh : ∀ file ∈ state.files, file.sequence < sequence) :
    Evicting world incoming state
      (state.appendEvicting world
        (state.files.map fun file => file.listed true)
        (incoming.entry sequence)) := by
  rw [State.appendEvicting]
  dsimp only
  split
  · rename_i covered
    have listed := indexTotalSize_listed state.files fun _ => true
    exact
      evicting_commit formed rfl rfl (staged_entry issued fresh)
        (by simp [listed]) covered
  · split
    · exact appendCritical_evicting formed issued fresh
    · rename_i other
      exact recordOverflow_evicting formed other

/-- Some of the files that are present are set aside, and what goes of the
others goes by class and age. -/
def Appends (world : World) (incoming : Incoming) (present : List File)
    (appended : Except AppendError Nat × State) : Prop :=
  ∃ stored evicted committed,
    SetsAside present appended.2 stored ∧
      Evicts world incoming stored appended.1 appended.2 evicted committed

theorem Evicting.appends
    {before : State} {appended : Except AppendError Nat × State}
    (evicting : Evicting world incoming before appended) :
    Appends world incoming before.files appended := by
  obtain ⟨⟨evicted, committed, evicts⟩, _⟩ := evicting
  refine ⟨before.files, evicted, committed, ?_, evicts⟩
  exact ⟨List.Sublist.refl _, fun _ member absent => absurd member absent⟩

theorem State.Classifies.appends
    {after : State} {stored : List File} {sequence : Nat}
    (spec : State.Classifies state after stored)
    (issued : sequence ≤ state.sequence)
    (fresh : ∀ file ∈ state.files, file.sequence < sequence) :
    Appends world incoming state.files
      (after.appendEvicting world (stored.map fun file => file.listed true)
        (incoming.entry sequence)) := by
  have evicting : Evicting world incoming after _ :=
    appendEvicting_evicting spec.formed (spec.sequence ▸ issued)
      (fun file member =>
        fresh file (spec.aside.sublist.subset (spec.files ▸ member)))
  rw [spec.files] at evicting
  obtain ⟨⟨evicted, committed, evicts⟩, same⟩ := evicting
  rw [spec.files] at evicts
  refine ⟨stored, evicted, committed, ⟨spec.aside.sublist, ?_⟩, evicts⟩
  rw [same]
  exact spec.aside.aside

theorem appendReported_appends (formed : state.Formed) :
    ∃ appended,
      state.appendReported world incoming = some appended ∧
        Appends world incoming state.files appended := by
  rw [State.appendReported]
  cases handed : state.learn.next world with
  | none =>
      exact ⟨_, rfl, (evicting_nothing formed.learn rfl rfl).appends⟩
  | some pair =>
      obtain ⟨sequence, issued⟩ := pair
      obtain ⟨rfl, rfl⟩ := State.next_eq_some handed
      have ready := formed.learn.next
      have refused :
          ∀ error,
            Appends world incoming state.files
              (.error error,
                { state.learn with sequence := state.learn.sequence + 1 }) :=
        fun error => (evicting_nothing ready rfl rfl).appends
      have fresh :
          ∀ file ∈ state.files, file.sequence < state.learn.sequence + 1 :=
        fun file member => Nat.lt_succ_of_le (formed.issued file member)
      dsimp only
      split
      · exact ⟨_, rfl, refused _⟩
      split
      · exact ⟨_, rfl, refused _⟩
      split
      · rename_i room
        obtain ⟨known, listing⟩ := formed.index
        rw [listing, indexTotalSize_listed] at room
        refine ⟨_, rfl, @Evicting.appends world incoming state _ ?_⟩
        exact
          evicting_within ready rfl rfl (staged_entry le_rfl fresh)
            (by simpa using room)
      · obtain ⟨stored, after, classified, spec⟩ :=
          State.evictable_spec ready (Nat.lt_succ_self _)
        rw [classified]
        exact ⟨_, rfl, spec.appends le_rfl fresh⟩

theorem reportQuarantine_formed (formed : state.Formed) :
    (state.reportQuarantine world).2.Formed ∧
      ∃ reports,
        (state.reportQuarantine world).2.files = state.files ++ reports ∧
          ∀ report ∈ reports,
            report.purpose = .quarantine ∧ report.priority = .critical := by
  rw [State.reportQuarantine]
  split
  · exact ⟨formed, [], by simp, by simp⟩
  · cases handed : state.forgetIndex.next world with
    | none => exact ⟨formed.forgetIndex, [], by simp [State.forgetIndex], by simp⟩
    | some pair =>
        obtain ⟨sequence, issued⟩ := pair
        obtain ⟨rfl, rfl⟩ := State.next_eq_some handed
        have ready := formed.forgetIndex.next
        dsimp only
        split
        · exact ⟨ready, [], by simp [State.forgetIndex], by simp⟩
        · let entry : File :=
            ⟨state.sequence + 1,
              world.quarantineSize (state.sequence + 1)
                state.quarantined.length,
              .critical, .quarantine, true⟩
          obtain ⟨reported, files⟩ := formed.forgetIndex.commit_next entry rfl
          exact
            ⟨⟨reported.rising, reported.issued, reported.listed⟩, [entry],
              files, by simp [entry]⟩

end Append

/-- A spool at its bound, with a record that cannot be read. -/
def crowded : State where
  files :=
    [⟨1, 3, .diagnostic, .observation, true⟩,
      ⟨2, 3, .critical, .observation, true⟩,
      ⟨3, 2, .operational, .observation, false⟩,
      ⟨4, 2, .critical, .observation, true⟩]
  indexed := none
  quarantined := []
  sequence := 4

theorem crowded_formed : crowded.Formed where
  rising := by decide
  issued := by decide
  listed := by
    intro records kept
    cases kept

end Hexroute.Spool
