import Hexroute.Lib.Keyed
import Hexroute.Lib.StableSort

/-!
# The spool's directory

The spool works from a listing it keeps of its directory and learns the class
of a record only where something has to go.  A record whose class cannot be
read is set aside, and the next append reports that.
-/

namespace Hexroute.Spool

open Hexroute.Lib

inductive Priority where
  | diagnostic
  | operational
  | critical
  deriving DecidableEq, Repr

/-- What a record was written for. -/
inductive Purpose where
  | observation
  | overflow
  | quarantine
  deriving DecidableEq, Repr

/-- A stable file: the sequence it is filed under, its size, the class of its
record, and whether reading the envelope gives that class. -/
structure File where
  sequence : Nat
  size : Nat
  priority : Priority
  purpose : Purpose
  readable : Bool
  deriving DecidableEq, Repr

/-- A line of the listing; the class is empty until it is needed. -/
structure StableRecord where
  sequence : Nat
  size : Nat
  priority : Option Priority
  deriving DecidableEq, Repr

/-- The bound, whether the clock or the random source fails after a sequence
was handed out, and the sizes of the records the spool writes itself. -/
structure World where
  maxBytes : Nat
  stalls : Nat → Bool
  overflowSize : Nat → Nat
  quarantineSize : Nat → Nat → Nat

/-- The event that is appended; its record has a size for each sequence. -/
structure Incoming where
  decodes : Bool
  priority : Priority
  size : Nat → Nat

inductive Fault where
  | undecodable
  | metadata
  | corruptSpool
  | recordTooLarge
  deriving DecidableEq, Repr

inductive AppendError where
  | fault (fault : Fault)
  | spoolFull (joined : Option Fault)
  deriving DecidableEq, Repr

/-- The directory in the order of its names, the listing if one is kept, the
sequences set aside and not reported, and the last sequence handed out. -/
structure State where
  files : List File
  indexed : Option (List StableRecord)
  quarantined : List Nat
  sequence : Nat
  deriving DecidableEq, Repr

/-- A file as a line of the listing, with its class if that is known. -/
def File.listed (file : File) (known : Bool) : StableRecord :=
  ⟨file.sequence, file.size, if known then some file.priority else none⟩

def Incoming.entry (incoming : Incoming) (sequence : Nat) : File :=
  ⟨sequence, incoming.size sequence, incoming.priority, .observation, true⟩

namespace State

def scanIndex (state : State) : List StableRecord :=
  sortBy StableRecord.sequence (state.files.map fun file => file.listed false)

def index (state : State) : List StableRecord :=
  state.indexed.getD state.scanIndex

/-- Asking for the listing keeps it. -/
def learn (state : State) : State :=
  { state with indexed := some state.index }

def forgetIndex (state : State) : State :=
  { state with indexed := none }

/-- The generator hands out the next sequence. -/
def next (world : World) (state : State) : Option (Nat × State) :=
  if state.sequence = 2 ^ 64 - 1 ∨ world.stalls state.sequence = true then
    none
  else
    some (state.sequence + 1, { state with sequence := state.sequence + 1 })

def noteCommitted (state : State) (staged : List File)
    (evictions : List StableRecord) : State :=
  { state with
    indexed := state.indexed.map fun records =>
      sortBy StableRecord.sequence
        ((records.filter fun record =>
          record.sequence ∉ evictions.map StableRecord.sequence) ++
          staged.map fun file => file.listed true) }

def commit (state : State) (staged : List File)
    (evictions : List StableRecord) : State :=
  noteCommitted
    { state with
      files :=
        (state.files.filter fun file =>
          file.sequence ∉ evictions.map StableRecord.sequence) ++
          staged }
    staged evictions

def quarantine (state : State) (sequence : Nat) : State :=
  { state with
    files := state.files.filter fun file => file.sequence ≠ sequence
    quarantined :=
      if sequence ∈ state.quarantined then state.quarantined
      else state.quarantined ++ [sequence] }

def readPriority (state : State) (sequence : Nat) : Option Priority :=
  (state.files.find? fun file => file.sequence = sequence).bind fun file =>
    if file.readable then some file.priority else none

/-- One pass over the listing that reads the classes it lacks. -/
def classify (state : State) : List StableRecord :=
  state.index.map fun record =>
    { record with
      priority :=
        record.priority.or (state.readPriority record.sequence) }

def unclassified (state : State) : List Nat :=
  (state.classify.filter fun record => record.priority = none).map
    StableRecord.sequence

/-- The passes until every record that is left has a class. -/
def evictable : (fuel : Nat) → State → Option (List StableRecord × State)
  | 0, _ => none
  | fuel + 1, state =>
      if state.unclassified = [] then
        some (state.classify, { state with indexed := some state.classify })
      else
        evictable fuel
          (state.unclassified.foldl quarantine state).forgetIndex

/-- What was set aside is reported before the append takes its sequence. -/
def reportQuarantine (world : World) (state : State) :
    Option Fault × State :=
  if state.quarantined = [] then (none, state)
  else
    match state.forgetIndex.next world with
    | none => (some .metadata, state.forgetIndex)
    | some (sequence, issued) =>
        let entry : File :=
          ⟨sequence, world.quarantineSize sequence state.quarantined.length,
            .critical, .quarantine, true⟩
        if world.maxBytes < entry.size then (none, issued)
        else (none, { issued.commit [entry] [] with quarantined := [] })

def overflowEntry (world : World) (state : State) : Option (File × State) :=
  (state.next world).map fun issued =>
    (⟨issued.1, world.overflowSize issued.1, .critical, .overflow, true⟩,
      issued.2)

/-- The files stand in the order of their sequences, none beyond the last one
handed out, and a listing that is kept is the directory's. -/
structure Formed (state : State) : Prop where
  rising :
    state.files.Pairwise fun earlier later =>
      earlier.sequence < later.sequence
  issued : ∀ file ∈ state.files, file.sequence ≤ state.sequence
  listed :
    ∀ records, state.indexed = some records →
      ∃ known : File → Bool,
        records = state.files.map fun file => file.listed (known file)

end State

/-! ## The directory and the listing -/

def without (removed files : List File) : List File :=
  files.filter fun file => file ∉ removed

/-- Of the files that were there, only ones whose class cannot be read are not
stored any more when room is made, and these were set aside. -/
structure SetsAside (present : List File) (after : State)
    (stored : List File) : Prop where
  sublist : stored.Sublist present
  aside :
    ∀ file ∈ present, file ∉ stored →
      file.readable = false ∧ file.sequence ∈ after.quarantined

section Directory

variable {world : World} {state : State}

theorem listing_ordered
    {files : List File} (known : File → Bool)
    (rising :
      files.Pairwise fun earlier later => earlier.sequence < later.sequence) :
    (files.map fun file => file.listed (known file)).Pairwise
      fun earlier later => earlier.sequence ≤ later.sequence :=
  List.pairwise_map.mpr (rising.imp fun below => below.le)

namespace State

theorem next_eq_some
    {sequence : Nat} {issued : State}
    (handed : state.next world = some (sequence, issued)) :
    sequence = state.sequence + 1 ∧
      issued = { state with sequence := state.sequence + 1 } := by
  rw [next] at handed
  split at handed
  · cases handed
  · cases handed
    exact ⟨rfl, rfl⟩

theorem foldl_quarantine (sequences : List Nat) (state : State) :
    (sequences.foldl quarantine state).files =
        (state.files.filter fun file => file.sequence ∉ sequences) ∧
      (sequences.foldl quarantine state).sequence = state.sequence ∧
      ∀ sequence,
        sequence ∈ (sequences.foldl quarantine state).quarantined ↔
          sequence ∈ state.quarantined ∨ sequence ∈ sequences := by
  induction sequences generalizing state with
  | nil => simp
  | cons first later induction =>
      obtain ⟨files, handed, aside⟩ := induction (state.quarantine first)
      rw [List.foldl_cons]
      refine ⟨?_, handed, ?_⟩
      · rw [files, quarantine, List.filter_filter]
        congr 1
        funext file
        simp [Bool.and_comm]
      · intro sequence
        rw [aside, quarantine]
        by_cases known : first ∈ state.quarantined
        · simp only [known, if_true, List.mem_cons]
          constructor
          · tauto
          · rintro (old | rfl | new)
            · exact Or.inl old
            · exact Or.inl known
            · exact Or.inr new
        · simp only [known, if_false, List.mem_append, List.mem_cons,
            List.not_mem_nil, or_false]
          tauto

namespace Formed

theorem distinct (formed : state.Formed) :
    (state.files.map File.sequence).Nodup :=
  List.pairwise_map.mpr (formed.rising.imp fun below => below.ne)

theorem index (formed : state.Formed) :
    ∃ known : File → Bool,
      state.index = state.files.map fun file => file.listed (known file) := by
  cases kept : state.indexed with
  | some records =>
      obtain ⟨known, same⟩ := formed.listed records kept
      exact ⟨known, by simp [State.index, kept, same]⟩
  | none =>
      refine ⟨fun _ => false, ?_⟩
      have sorted :=
        sortBy_eq_self (listing_ordered (fun _ => false) formed.rising)
      simp only [State.index, kept, Option.getD_none, scanIndex]
      exact sorted

theorem learn (formed : state.Formed) : state.learn.Formed where
  rising := formed.rising
  issued := formed.issued
  listed := by
    intro records kept
    cases kept
    exact formed.index

theorem forgetIndex (formed : state.Formed) : state.forgetIndex.Formed where
  rising := formed.rising
  issued := formed.issued
  listed := by
    intro records kept
    cases kept

theorem next (formed : state.Formed) :
    { state with sequence := state.sequence + 1 : State }.Formed where
  rising := formed.rising
  issued := fun file member => (formed.issued file member).trans (by simp)
  listed := formed.listed

theorem readPriority (formed : state.Formed) {file : File}
    (member : file ∈ state.files) :
    state.readPriority file.sequence =
      if file.readable then some file.priority else none := by
  rw [State.readPriority, find?_of_keys_nodup _ formed.distinct member]
  rfl

theorem classify (formed : state.Formed) :
    ∃ known : File → Bool,
      (∀ file, file.readable = true → known file = true) ∧
        state.classify =
          state.files.map fun file => file.listed (known file) := by
  obtain ⟨known, listing⟩ := formed.index
  refine ⟨fun file => known file || file.readable, by simp_all, ?_⟩
  rw [State.classify, listing, List.map_map]
  apply List.map_congr_left
  intro file member
  have read := formed.readPriority member
  cases noted : known file <;> cases readable : file.readable <;>
    simp_all [File.listed]

theorem commit (formed : state.Formed) {staged : List File}
    {evictions : List StableRecord}
    (order :
      staged.Pairwise fun earlier later => earlier.sequence < later.sequence)
    (issued : ∀ entry ∈ staged, entry.sequence ≤ state.sequence)
    (fresh :
      ∀ file ∈ state.files, ∀ entry ∈ staged,
        file.sequence < entry.sequence) :
    (state.commit staged evictions).Formed := by
  have rising :
      (state.commit staged evictions).files.Pairwise fun earlier later =>
        earlier.sequence < later.sequence := by
    apply List.pairwise_append.mpr
    refine ⟨formed.rising.filter _, order, ?_⟩
    intro file member
    exact fresh file (List.mem_filter.mp member).1
  refine ⟨rising, ?_, ?_⟩
  · intro file member
    rcases List.mem_append.mp member with old | new
    · exact formed.issued file (List.mem_filter.mp old).1
    · exact issued file new
  · intro records kept
    obtain ⟨before, listing, rfl⟩ := Option.map_eq_some_iff.mp kept
    obtain ⟨known, rfl⟩ := formed.listed before listing
    refine ⟨fun file => known file || decide (file ∈ staged), ?_⟩
    rw [← sortBy_eq_self (listing_ordered _ rising)]
    congr 1
    simp only [State.commit, noteCommitted, List.map_append, List.filter_map]
    congr 1
    · apply List.map_congr_left
      intro file member
      have old := (List.mem_filter.mp member).1
      have absent : file ∉ staged := fun new =>
        (fresh file old file new).false
      simp [absent]
    · apply List.map_congr_left
      intro file member
      simp [member]

theorem commit_files (formed : state.Formed) (staged : List File)
    {evicted : List File} (inside : ∀ file ∈ evicted, file ∈ state.files) :
    (state.commit staged (evicted.map fun file => file.listed true)).files =
      without evicted state.files ++ staged := by
  simp only [State.commit, noteCommitted, without]
  congr 1
  apply List.filter_congr
  intro file member
  simp only [List.map_map, decide_eq_decide, not_iff_not, List.mem_map]
  constructor
  · rintro ⟨other, chosen, same⟩
    have equal :=
      List.inj_on_of_nodup_map formed.distinct (inside other chosen) member
        same
    rwa [← equal]
  · intro chosen
    exact ⟨file, chosen, rfl⟩

/-- A file under the next sequence goes to the end of the directory. -/
theorem commit_next (formed : state.Formed) (entry : File)
    (handed : entry.sequence = state.sequence + 1) :
    ({ state with sequence := state.sequence + 1 : State }.commit [entry]
        []).Formed ∧
      ({ state with sequence := state.sequence + 1 : State }.commit [entry]
        []).files = state.files ++ [entry] := by
  constructor
  · apply formed.next.commit
    · simp
    · simp [handed]
    · intro file member new same
      rw [List.mem_singleton.mp same, handed]
      exact Nat.lt_succ_of_le (formed.issued file member)
  · simp [State.commit, noteCommitted]

end Formed

/-- What the passes over the listing leave. -/
structure Classifies (before after : State) (stored : List File) : Prop where
  formed : after.Formed
  files : after.files = stored
  sequence : after.sequence = before.sequence
  quarantined : ∀ sequence ∈ before.quarantined, sequence ∈ after.quarantined
  aside : SetsAside before.files after stored

theorem unclassified_eq
    {known : File → Bool}
    (classified :
      state.classify =
        state.files.map fun file => file.listed (known file)) :
    state.unclassified =
      (state.files.filter fun file => !known file).map File.sequence := by
  have unknown :
      ((fun record : StableRecord => decide (record.priority = none)) ∘
          fun file => file.listed (known file)) =
        fun file => !known file := by
    funext file
    cases noted : known file <;> simp [File.listed, noted]
  rw [unclassified, classified, List.filter_map, unknown, List.map_map]
  rfl

theorem classify_of_complete (formed : state.Formed)
    (complete : state.unclassified = []) :
    state.classify = state.files.map fun file => file.listed true := by
  obtain ⟨known, _, classified⟩ := formed.classify
  have unread := unclassified_eq classified
  rw [complete, eq_comm, List.map_eq_nil_iff, List.filter_eq_nil_iff]
    at unread
  rw [classified]
  apply List.map_congr_left
  intro file member
  have noted : known file = true := by
    simpa using unread file member
  rw [noted]

theorem exists_mem_unclassified (formed : state.Formed)
    (incomplete : state.unclassified ≠ []) :
    ∃ file ∈ state.files, file.sequence ∈ state.unclassified := by
  obtain ⟨known, _, classified⟩ := formed.classify
  obtain ⟨sequence, member⟩ := List.exists_mem_of_ne_nil _ incomplete
  have found := member
  rw [unclassified_eq classified] at found
  obtain ⟨file, chosen, rfl⟩ := List.mem_map.mp found
  exact ⟨file, (List.mem_filter.mp chosen).1, member⟩

theorem unreadable_of_mem_unclassified (formed : state.Formed) {file : File}
    (member : file ∈ state.files)
    (chosen : file.sequence ∈ state.unclassified) :
    file.readable = false := by
  obtain ⟨known, readable, classified⟩ := formed.classify
  rw [unclassified_eq classified] at chosen
  obtain ⟨other, unknown, same⟩ := List.mem_map.mp chosen
  obtain ⟨inside, unknown⟩ := List.mem_filter.mp unknown
  have equal := List.inj_on_of_nodup_map formed.distinct inside member same
  subst equal
  by_contra legible
  simp [readable other (by simpa using legible)] at unknown

/-- What a pass that is not the last one leaves. -/
def setAside (state : State) : State :=
  (state.unclassified.foldl quarantine state).forgetIndex

theorem setAside_files (state : State) :
    state.setAside.files =
      state.files.filter fun file => file.sequence ∉ state.unclassified :=
  (foldl_quarantine state.unclassified state).1

theorem setAside_sequence (state : State) :
    state.setAside.sequence = state.sequence :=
  (foldl_quarantine state.unclassified state).2.1

theorem mem_setAside_quarantined (state : State) (sequence : Nat) :
    sequence ∈ state.setAside.quarantined ↔
      sequence ∈ state.quarantined ∨ sequence ∈ state.unclassified :=
  (foldl_quarantine state.unclassified state).2.2 sequence

theorem Formed.setAside (formed : state.Formed) : state.setAside.Formed where
  rising := by
    rw [setAside_files]
    exact formed.rising.filter _
  issued := by
    intro file member
    rw [setAside_files] at member
    rw [setAside_sequence]
    exact formed.issued file (List.mem_filter.mp member).1
  listed := by
    intro records kept
    cases kept

/-- Each pass that is not the last one sets a file aside. -/
theorem setAside_shorter (formed : state.Formed)
    (incomplete : state.unclassified ≠ []) :
    state.setAside.files.length < state.files.length := by
  obtain ⟨file, member, chosen⟩ := exists_mem_unclassified formed incomplete
  rw [setAside_files]
  apply List.length_filter_lt_length_iff_exists.mpr
  exact ⟨file, member, by simpa using chosen⟩

/-- The last pass leaves the directory as it is. -/
theorem Classifies.learn (formed : state.Formed)
    (complete : state.unclassified = []) :
    Classifies state { state with indexed := some state.classify }
      state.files where
  formed := by
    refine ⟨formed.rising, formed.issued, ?_⟩
    intro records kept
    cases kept
    exact ⟨fun _ => true, classify_of_complete formed complete⟩
  files := rfl
  sequence := rfl
  quarantined := fun _ old => old
  aside :=
    ⟨List.Sublist.refl _, fun _ member absent => absurd member absent⟩

theorem Classifies.of_setAside {after : State} {stored : List File}
    (formed : state.Formed)
    (classifies : Classifies state.setAside after stored) :
    Classifies state after stored where
  formed := classifies.formed
  files := classifies.files
  sequence := classifies.sequence.trans state.setAside_sequence
  quarantined := by
    intro sequence old
    apply classifies.quarantined
    exact (mem_setAside_quarantined state sequence).mpr (Or.inl old)
  aside := by
    refine ⟨?_, ?_⟩
    · apply classifies.aside.sublist.trans
      rw [setAside_files]
      exact List.filter_sublist
    · intro file member absent
      by_cases chosen : file.sequence ∈ state.unclassified
      · refine ⟨unreadable_of_mem_unclassified formed member chosen, ?_⟩
        apply classifies.quarantined
        exact (mem_setAside_quarantined state _).mpr (Or.inr chosen)
      · apply classifies.aside.aside file _ absent
        rw [setAside_files]
        exact List.mem_filter.mpr ⟨member, by simpa using chosen⟩

/-- The passes come to an end. -/
theorem evictable_spec
    {fuel : Nat} (formed : state.Formed)
    (enough : state.files.length < fuel) :
    ∃ stored after,
      evictable fuel state =
          some (stored.map fun file => file.listed true, after) ∧
        Classifies state after stored := by
  induction fuel generalizing state with
  | zero => omega
  | succ fuel induction =>
      rw [evictable]
      by_cases complete : state.unclassified = []
      · rw [if_pos complete]
        refine ⟨state.files, _, ?_, Classifies.learn formed complete⟩
        rw [classify_of_complete formed complete]
      · rw [if_neg complete]
        have shorter := setAside_shorter formed complete
        obtain ⟨stored, after, result, classifies⟩ :=
          induction formed.setAside (by omega)
        exact ⟨stored, after, result, classifies.of_setAside formed⟩

end State

end Directory

end Hexroute.Spool
