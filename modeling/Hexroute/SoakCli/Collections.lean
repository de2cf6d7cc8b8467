import Hexroute.Lib.AppendNew
import Hexroute.SoakCompare.Compare

/-!
# Collections of a soak

The archive is read in collections.  Each one is scanned on its own for the
stretches in which the machine dozed and for the moments at which the reading
of the carrier changed, and a scan begins with nothing.
-/

namespace Hexroute.SoakCli

open Hexroute.Lib
open Hexroute.SoakCompare (Dozing Carrier Soak Rebuild compare)

/-- What a cycle saw. -/
structure Grounds where
  complete : Bool
  suspended : Option Bool
  carrierDigest : String
  deriving DecidableEq, Repr

/-- An archived tunnel decision. -/
structure Record where
  time : Int
  grounds : Option Grounds
  deriving DecidableEq, Repr

/-- The machine says whether it dozed; a record that does not say so has only
an unfinished cycle to go on. -/
def Record.dozing (record : Record) : Bool :=
  match record.grounds with
  | none => false
  | some grounds => grounds.suspended.getD (!grounds.complete)

def Record.reading (record : Record) : Option String :=
  record.grounds.bind fun grounds =>
    if grounds.carrierDigest = "" then none else some grounds.carrierDigest

/-! ## The two scans -/

def carrierMarks (last : String) : List Record → List Carrier
  | [] => []
  | record :: rest =>
      match record.reading with
      | none => carrierMarks last rest
      | some digest =>
          if digest = last then carrierMarks last rest
          else ⟨record.time, digest⟩ :: carrierMarks digest rest

def dozingCycles : Nat := 3

/-- An open stretch. -/
structure Doze where
  start : Int
  suspended : Nat
  last : Int

/-- A stretch of enough cycles is a span. -/
def Doze.span (doze : Option Doze) (stop : Doze → Int) : List Dozing :=
  match doze with
  | none => []
  | some doze =>
      if dozingCycles ≤ doze.suspended then [⟨doze.start, stop doze⟩] else []

def Doze.extend (doze : Option Doze) (record : Record) : Doze :=
  match doze with
  | none => ⟨record.time, 1, record.time⟩
  | some doze => ⟨doze.start, doze.suspended + 1, record.time⟩

def dozingSpans (doze : Option Doze) : List Record → List Dozing
  | [] => Doze.span doze Doze.last
  | record :: rest =>
      if record.dozing then
        dozingSpans (some (Doze.extend doze record)) rest
      else Doze.span doze (fun _ => record.time) ++ dozingSpans none rest

/-! ## Collections together -/

def collectedDozing (parts : List (List Record)) : List Dozing :=
  parts.flatMap (dozingSpans none)

def collectedMarks (parts : List (List Record)) : List Carrier :=
  parts.flatMap (carrierMarks "")

/-- What is judged: the marks are taken once each and sorted. -/
def judged (soak : Soak) (marks : Arrangement Carrier.time)
    (parts : List (List Record)) : Soak :=
  { soak with
    dozing := collectedDozing parts
    carrier := marks.sort (appendNew [] (collectedMarks parts)) }

/-- The collections say what the undivided records say. -/
structure Same (parts : List (List Record)) : Prop where
  covered :
    ∀ time : Int,
      (∃ span ∈ collectedDozing parts, span.holds time) ↔
        ∃ span ∈ collectedDozing [parts.flatten], span.holds time
  marks :
    ∀ mark,
      mark ∈ collectedMarks parts ↔ mark ∈ collectedMarks [parts.flatten]
  report :
    ∀ soak marks (arrangement : Arrangement Rebuild.time),
      compare arrangement (judged soak marks parts) =
        compare arrangement (judged soak marks [parts.flatten])

/-- A boundary lies in a stretch of enough cycles: records that doze come
before it, and the stretch goes on or ends after it. -/
def Interrupts (left right : List Record) : Prop :=
  left.rtakeWhile Record.dozing ≠ [] ∧ right ≠ [] ∧
    dozingCycles ≤
      (left.rtakeWhile Record.dozing).length +
        (right.takeWhile Record.dozing).length

/-- The next reading after a boundary is the last one before it. -/
def Repeats (left right : List Record) : Prop :=
  ∃ digest, (left.filterMap Record.reading).getLast? = some digest ∧
    (right.filterMap Record.reading).head? = some digest

/-- No boundary interrupts a doze or comes before a repeated reading. -/
def Clean (parts : List (List Record)) : Prop :=
  ∀ before after, parts = before ++ after →
    ¬ Interrupts before.flatten after.flatten ∧
      ¬ Repeats before.flatten after.flatten

/-- Records that lie more than a nanosecond apart. -/
def Spread (records : List Record) : Prop :=
  records.Pairwise fun earlier later => earlier.time + 1 < later.time

/-! ## Carrier marks at a boundary -/

section Marks

variable {left right records : List Record} {last digest : String}

theorem reading_ne_empty
    {record : Record} (reads : record.reading = some digest) :
    digest ≠ "" := by
  obtain ⟨grounds, _, found⟩ := Option.bind_eq_some_iff.mp reads
  split at found
  · cases found
  · rename_i nonempty
    cases found
    exact nonempty

theorem carrierMarks_append :
    carrierMarks last (left ++ right) =
      carrierMarks last left ++
        carrierMarks
          (((left.filterMap Record.reading).getLast?).getD last) right := by
  induction left generalizing last with
  | nil => rfl
  | cons record rest inductionHypothesis =>
      rw [List.cons_append, carrierMarks, carrierMarks]
      cases reads : record.reading with
      | none =>
          rw [List.filterMap_cons_none reads]
          exact inductionHypothesis
      | some digest =>
          rw [List.filterMap_cons_some reads, List.getLast?_cons,
            Option.getD_some]
          dsimp only
          split
          · rename_i same
            rw [same]
            exact inductionHypothesis
          · rw [inductionHypothesis, List.cons_append]

/-- A scan does not depend on a last reading that the next one differs
from. -/
theorem carrierMarks_of_head_ne
    (fresh : (records.filterMap Record.reading).head? ≠ some last) :
    carrierMarks last records = carrierMarks "" records := by
  induction records with
  | nil => rfl
  | cons record rest inductionHypothesis =>
      rw [carrierMarks, carrierMarks]
      cases reads : record.reading with
      | none =>
          rw [List.filterMap_cons_none reads] at fresh
          exact inductionHypothesis fresh
      | some digest =>
          rw [List.filterMap_cons_some reads] at fresh
          have differs : digest ≠ last := fun same => fresh (by rw [same]; rfl)
          dsimp only
          rw [if_neg differs, if_neg (reading_ne_empty reads)]

theorem carrierMarks_append_of_not_repeats
    (fresh : ¬ Repeats left right) :
    carrierMarks "" (left ++ right) =
      carrierMarks "" left ++ carrierMarks "" right := by
  rw [carrierMarks_append]
  congr 1
  cases reads : (left.filterMap Record.reading).getLast? with
  | none => rfl
  | some digest =>
      rw [Option.getD_some]
      exact carrierMarks_of_head_ne fun same => fresh ⟨digest, reads, same⟩

/-- Marks stand at the times of records. -/
theorem exists_record_of_mark
    {mark : Carrier} (member : mark ∈ carrierMarks last records) :
    ∃ record ∈ records, record.time = mark.time := by
  induction records generalizing last with
  | nil => exact absurd member List.not_mem_nil
  | cons record rest inductionHypothesis =>
      rw [carrierMarks] at member
      cases reads : record.reading with
      | none =>
          rw [reads] at member
          obtain ⟨other, listed, same⟩ := inductionHypothesis member
          exact ⟨other, List.mem_cons_of_mem _ listed, same⟩
      | some digest =>
          rw [reads] at member
          dsimp only at member
          split at member
          · obtain ⟨other, listed, same⟩ := inductionHypothesis member
            exact ⟨other, List.mem_cons_of_mem _ listed, same⟩
          · rcases List.mem_cons.mp member with rfl | inner
            · exact ⟨record, List.mem_cons_self, rfl⟩
            · obtain ⟨other, listed, same⟩ := inductionHypothesis inner
              exact ⟨other, List.mem_cons_of_mem _ listed, same⟩

/-- The first record that reads a carrier. -/
def firstReading (records : List Record) : Option Record :=
  records.find? (·.reading.isSome)

theorem exists_firstReading
    (head : (records.filterMap Record.reading).head? = some digest) :
    ∃ record, firstReading records = some record ∧
      record.reading = some digest := by
  induction records with
  | nil => cases head
  | cons record rest inductionHypothesis =>
      unfold firstReading
      cases reads : record.reading with
      | none =>
          rw [List.filterMap_cons_none reads] at head
          rw [List.find?_cons_of_neg (by simp [reads])]
          exact inductionHypothesis head
      | some other =>
          rw [List.filterMap_cons_some reads] at head
          cases head
          rw [List.find?_cons_of_pos (by simp [reads])]
          exact ⟨record, rfl, reads⟩

/-- The first reading of a scan is a mark. -/
theorem mark_of_firstReading
    {record : Record} (first : firstReading records = some record)
    (reads : record.reading = some digest) :
    ⟨record.time, digest⟩ ∈ carrierMarks "" records := by
  induction records with
  | nil => cases first
  | cons head rest inductionHypothesis =>
      unfold firstReading at first
      rw [carrierMarks]
      cases readsHead : head.reading with
      | none =>
          rw [List.find?_cons_of_neg (by simp [readsHead])] at first
          exact inductionHypothesis first
      | some other =>
          rw [List.find?_cons_of_pos (by simp [readsHead])] at first
          cases first
          cases readsHead.symm.trans reads
          dsimp only
          rw [if_neg (reading_ne_empty reads)]
          exact List.mem_cons_self

/-- A first reading that is the last one of before is none, and marks come
later. -/
theorem lt_of_mark_after_repeat
    (spread : Spread records) {record : Record}
    (first : firstReading records = some record)
    (reads : record.reading = some digest) {mark : Carrier}
    (member : mark ∈ carrierMarks digest records) :
    record.time < mark.time := by
  induction records with
  | nil => cases first
  | cons head rest inductionHypothesis =>
      obtain ⟨later, tail⟩ := List.pairwise_cons.mp spread
      unfold firstReading at first
      rw [carrierMarks] at member
      cases readsHead : head.reading with
      | none =>
          rw [List.find?_cons_of_neg (by simp [readsHead])] at first
          rw [readsHead] at member
          exact inductionHypothesis tail first member
      | some other =>
          rw [List.find?_cons_of_pos (by simp [readsHead])] at first
          cases first
          cases readsHead.symm.trans reads
          rw [readsHead] at member
          dsimp only at member
          rw [if_pos rfl] at member
          obtain ⟨next, listed, same⟩ := exists_record_of_mark member
          have after := later next listed
          omega

end Marks

/-! ## Spans at a boundary -/

section Spans

variable {left right records : List Record}

def Doze.count (doze : Option Doze) : Nat :=
  (doze.map Doze.suspended).getD 0

/-- The stretch that is open after some records. -/
def dozeAfter (doze : Option Doze) (records : List Record) : Option Doze :=
  records.foldl
    (fun doze record =>
      if record.dozing then some (Doze.extend doze record) else none)
    doze

/-- Where a stretch stays too short, it does not matter how it began. -/
theorem dozingSpans_of_short
    {doze other : Option Doze}
    (short :
      Doze.count doze + (records.takeWhile Record.dozing).length <
        dozingCycles)
    (shorter :
      Doze.count other + (records.takeWhile Record.dozing).length <
        dozingCycles) :
    dozingSpans doze records = dozingSpans other records := by
  have noSpan :
      ∀ (doze : Option Doze) (stop : Doze → Int),
        Doze.count doze < dozingCycles → Doze.span doze stop = [] := by
    intro doze stop few
    cases doze with
    | none => rfl
    | some doze => exact if_neg (Nat.not_le.mpr few)
  have extended :
      ∀ (doze : Option Doze) (record : Record),
        Doze.count (some (Doze.extend doze record)) =
          Doze.count doze + 1 := by
    intro doze record
    cases doze <;> rfl
  induction records generalizing doze other with
  | nil =>
      rw [dozingSpans, dozingSpans, noSpan doze _ short,
        noSpan other _ shorter]
  | cons record rest inductionHypothesis =>
      rw [dozingSpans, dozingSpans]
      split
      · rename_i dozes
        rw [List.takeWhile_cons_of_pos dozes, List.length_cons]
          at short shorter
        apply inductionHypothesis
        · rw [extended]
          omega
        · rw [extended]
          omega
      · rename_i awake
        rw [List.takeWhile_cons_of_neg awake, List.length_nil]
          at short shorter
        rw [noSpan doze _ short, noSpan other _ shorter]

theorem dozingSpans_append
    {doze : Option Doze}
    (clean :
      dozeAfter doze left = none ∨ right = [] ∨
        Doze.count (dozeAfter doze left) +
            (right.takeWhile Record.dozing).length <
          dozingCycles) :
    dozingSpans doze (left ++ right) =
      dozingSpans doze left ++ dozingSpans none right := by
  induction left generalizing doze with
  | nil =>
      rcases clean with closed | empty | short
      · cases (show doze = none from closed)
        rfl
      · rw [empty]
        exact (List.append_nil _).symm
      · have few : Doze.count doze < dozingCycles :=
          lt_of_le_of_lt (Nat.le_add_right _ _) short
        have none : dozingSpans doze [] = dozingSpans Option.none [] :=
          dozingSpans_of_short few (by decide)
        rw [none, List.nil_append]
        refine dozingSpans_of_short short ?_
        exact
          lt_of_le_of_lt (Nat.add_le_add_right (Nat.zero_le _) _) short
  | cons record rest inductionHypothesis =>
      rw [List.cons_append, dozingSpans, dozingSpans]
      unfold dozeAfter at clean
      rw [List.foldl_cons] at clean
      split
      · rename_i dozes
        rw [if_pos dozes] at clean
        exact inductionHypothesis clean
      · rename_i awake
        rw [if_neg awake] at clean
        rw [inductionHypothesis clean, List.append_assoc]

theorem dozeAfter_concat (doze : Option Doze) (record : Record) :
    dozeAfter doze (left ++ [record]) =
      if record.dozing then some (Doze.extend (dozeAfter doze left) record)
      else none :=
  List.foldl_concat _ _ _ _

/-- The open stretch is the records at the end that doze. -/
theorem count_dozeAfter :
    Doze.count (dozeAfter none left) =
      (left.rtakeWhile Record.dozing).length := by
  induction left using List.reverseRecOn with
  | nil => rfl
  | append_singleton rest record inductionHypothesis =>
      rw [dozeAfter_concat]
      by_cases dozes : record.dozing
      · rw [if_pos dozes, List.rtakeWhile_concat_pos _ _ _ dozes,
          List.length_append, ← inductionHypothesis]
        cases dozeAfter none rest <;> rfl
      · rw [if_neg dozes, List.rtakeWhile_concat_neg _ _ _ dozes]
        rfl

theorem dozeAfter_eq_none (awake : left.rtakeWhile Record.dozing = []) :
    dozeAfter none left = none := by
  induction left using List.reverseRecOn with
  | nil => rfl
  | append_singleton rest record _ =>
      rw [dozeAfter_concat]
      by_cases dozes : record.dozing
      · rw [List.rtakeWhile_concat_pos _ _ _ dozes] at awake
        exact absurd awake (by simp)
      · exact if_neg dozes

theorem dozingSpans_append_of_not_interrupts
    (clean : ¬ Interrupts left right) :
    dozingSpans none (left ++ right) =
      dozingSpans none left ++ dozingSpans none right := by
  apply dozingSpans_append
  by_cases awake : left.rtakeWhile Record.dozing = []
  · exact Or.inl (dozeAfter_eq_none awake)
  by_cases empty : right = []
  · exact Or.inr (Or.inl empty)
  refine Or.inr (Or.inr ?_)
  rw [count_dozeAfter]
  by_contra many
  exact clean ⟨awake, empty, Nat.not_lt.mp many⟩

/-- An open stretch begins at a record. -/
theorem exists_record_of_dozeAfter
    {doze : Doze} (found : dozeAfter none left = some doze) :
    ∃ record ∈ left, record.time = doze.start := by
  induction left using List.reverseRecOn generalizing doze with
  | nil => cases found
  | append_singleton rest record inductionHypothesis =>
      rw [dozeAfter_concat] at found
      split at found
      · cases found
        cases opened : dozeAfter none rest with
        | none => exact ⟨record, by simp, rfl⟩
        | some earlier =>
            obtain ⟨first, member, same⟩ := inductionHypothesis opened
            exact ⟨first, List.mem_append_left _ member, same⟩
      · cases found

/-- Both ends of a span are times of records. -/
theorem exists_records_of_span
    {doze : Option Doze} {span : Dozing}
    (member : span ∈ dozingSpans doze records) :
    ((∃ record ∈ records, record.time = span.start) ∨
      ∃ held ∈ doze, held.start = span.start) ∧
    ((∃ record ∈ records, record.time = span.stop) ∨
      ∃ held ∈ doze, held.last = span.stop) := by
  have spans :
      ∀ (doze : Option Doze) (stop : Doze → Int),
        span ∈ Doze.span doze stop →
          ∃ held ∈ doze, held.start = span.start ∧ stop held = span.stop := by
    intro doze stop listed
    cases doze with
    | none => exact absurd listed List.not_mem_nil
    | some held =>
        unfold Doze.span at listed
        dsimp only at listed
        split at listed
        · rw [List.mem_singleton.mp listed]
          exact ⟨held, rfl, rfl, rfl⟩
        · exact absurd listed List.not_mem_nil
  induction records generalizing doze with
  | nil =>
      obtain ⟨held, isHeld, start, stop⟩ := spans doze _ member
      exact ⟨Or.inr ⟨held, isHeld, start⟩, Or.inr ⟨held, isHeld, stop⟩⟩
  | cons record rest inductionHypothesis =>
      have later :
          ∀ {time : Int}, (∃ other ∈ rest, other.time = time) →
            ∃ other ∈ record :: rest, other.time = time := by
        rintro time ⟨other, listed, same⟩
        exact ⟨other, List.mem_cons_of_mem _ listed, same⟩
      rw [dozingSpans] at member
      split at member
      · obtain ⟨start, stop⟩ := inductionHypothesis member
        constructor
        · rcases start with inRest | ⟨held, isHeld, same⟩
          · exact Or.inl (later inRest)
          · cases isHeld
            cases doze with
            | none => exact Or.inl ⟨record, List.mem_cons_self, same⟩
            | some earlier => exact Or.inr ⟨earlier, rfl, same⟩
        · rcases stop with inRest | ⟨held, isHeld, same⟩
          · exact Or.inl (later inRest)
          · cases isHeld
            refine Or.inl ⟨record, List.mem_cons_self, ?_⟩
            cases doze <;> exact same
      · rcases List.mem_append.mp member with own | inRest
        · obtain ⟨held, isHeld, start, stop⟩ := spans doze _ own
          exact
            ⟨Or.inr ⟨held, isHeld, start⟩,
              Or.inl ⟨record, List.mem_cons_self, stop⟩⟩
        · obtain ⟨start, stop⟩ := inductionHypothesis inRest
          refine ⟨Or.inl ?_, Or.inl ?_⟩
          · exact later (start.resolve_right (by simp))
          · exact later (stop.resolve_right (by simp))

theorem mem_dozingSpans_append
    {doze : Option Doze} {span : Dozing}
    (member : span ∈ dozingSpans (dozeAfter doze left) right) :
    span ∈ dozingSpans doze (left ++ right) := by
  induction left generalizing doze with
  | nil => exact member
  | cons record rest inductionHypothesis =>
      unfold dozeAfter at member
      rw [List.foldl_cons] at member
      rw [List.cons_append, dozingSpans]
      split
      · rename_i dozes
        rw [if_pos dozes] at member
        exact inductionHypothesis member
      · rename_i awake
        rw [if_neg awake] at member
        exact List.mem_append_right _ (inductionHypothesis member)

/-- A stretch of enough cycles that ends here is a span up to here. -/
theorem span_of_awake
    {doze : Doze} {record : Record} {rest : List Record}
    (awake : ¬ record.dozing = true)
    (many :
      dozingCycles ≤
        doze.suspended +
          ((record :: rest).takeWhile Record.dozing).length) :
    ⟨doze.start, record.time⟩ ∈ dozingSpans (some doze) (record :: rest) := by
  rw [List.takeWhile_cons_of_neg awake] at many
  have counted : dozingCycles ≤ doze.suspended := many
  rw [dozingSpans, if_neg awake]
  exact List.mem_append_left _ (by simp [Doze.span, counted])

/-- A stretch of enough cycles reaches the next record at least. -/
theorem exists_span
    {doze : Doze} {record : Record} {rest : List Record}
    (ordered : (record :: rest).Pairwise fun a b => a.time ≤ b.time)
    (many :
      dozingCycles ≤
        doze.suspended +
          ((record :: rest).takeWhile Record.dozing).length) :
    ∃ span ∈ dozingSpans (some doze) (record :: rest),
      span.start = doze.start ∧ record.time ≤ span.stop := by
  induction rest generalizing doze record with
  | nil =>
      by_cases dozes : record.dozing = true
      · rw [List.takeWhile_cons_of_pos dozes] at many
        refine ⟨⟨doze.start, record.time⟩, ?_, rfl, le_refl _⟩
        have counted : dozingCycles ≤ doze.suspended + 1 := many
        rw [dozingSpans, if_pos dozes]
        exact List.mem_of_mem_head? (by simp [dozingSpans, Doze.span,
          Doze.extend, counted])
      · exact ⟨_, span_of_awake dozes many, rfl, le_refl _⟩
  | cons next rest inductionHypothesis =>
      obtain ⟨below, tail⟩ := List.pairwise_cons.mp ordered
      by_cases dozes : record.dozing = true
      · rw [List.takeWhile_cons_of_pos dozes, List.length_cons] at many
        obtain ⟨span, member, start, stop⟩ :=
          @inductionHypothesis (Doze.extend (some doze) record) next tail (by
            change dozingCycles ≤ doze.suspended + 1 + _
            omega)
        rw [dozingSpans, if_pos dozes]
        exact
          ⟨span, member, start,
            (below next List.mem_cons_self).trans stop⟩
      · exact ⟨_, span_of_awake dozes many, rfl, le_refl _⟩

/-- A stretch of enough cycles that goes on at a boundary is a span of the
whole. -/
theorem exists_span_across
    {next : Record} {rest : List Record}
    (ordered : (next :: rest).Pairwise fun a b => a.time ≤ b.time)
    (interrupts : Interrupts left (next :: rest)) :
    ∃ span ∈ dozingSpans none (left ++ next :: rest),
      (∃ record ∈ left, record.time = span.start) ∧
        next.time ≤ span.stop := by
  obtain ⟨dozes, _, many⟩ := interrupts
  rw [← count_dozeAfter] at many
  cases opened : dozeAfter none left with
  | none =>
      have counted := @count_dozeAfter left
      rw [opened] at counted
      exact absurd (List.length_eq_zero_iff.mp counted.symm) dozes
  | some doze =>
      rw [opened] at many
      obtain ⟨span, member, start, stop⟩ :=
        @exists_span doze next rest ordered many
      obtain ⟨first, listed, isStart⟩ := exists_record_of_dozeAfter opened
      refine ⟨span, ?_, ⟨first, listed, isStart.trans start.symm⟩, stop⟩
      apply mem_dozingSpans_append
      rw [opened]
      exact member

end Spans

/-! ## Divisions -/

section Divisions

variable {parts before after : List (List Record)}

theorem length_takeWhile_le (records more : List Record) :
    (records.takeWhile Record.dozing).length ≤
      ((records ++ more).takeWhile Record.dozing).length := by
  induction records with
  | nil => exact Nat.zero_le _
  | cons record rest inductionHypothesis =>
      rw [List.cons_append]
      by_cases dozes : record.dozing
      · rw [List.takeWhile_cons_of_pos dozes,
          List.takeWhile_cons_of_pos dozes]
        exact Nat.succ_le_succ inductionHypothesis
      · rw [List.takeWhile_cons_of_neg dozes]
        exact Nat.zero_le _

theorem Clean.of_concat {part : List Record} (clean : Clean (parts ++ [part])) :
    Clean parts := by
  intro before after split
  have facts :=
    clean before (after ++ [part]) (by rw [split, List.append_assoc])
  rw [List.flatten_append] at facts
  constructor
  · rintro ⟨dozes, some, many⟩
    refine facts.1 ⟨dozes, ?_, many.trans ?_⟩
    · exact fun empty => some (List.append_eq_nil_iff.mp empty).1
    · exact Nat.add_le_add_left (length_takeWhile_le _ _) _
  · rintro ⟨digest, last, first⟩
    refine facts.2 ⟨digest, last, ?_⟩
    rw [List.filterMap_append, List.head?_append, first]
    rfl

/-- A clean division has the spans and the marks of the whole. -/
theorem collected_of_clean (clean : Clean parts) :
    collectedDozing parts = collectedDozing [parts.flatten] ∧
      collectedMarks parts = collectedMarks [parts.flatten] := by
  unfold collectedDozing collectedMarks
  rw [List.flatMap_singleton, List.flatMap_singleton]
  induction parts using List.reverseRecOn with
  | nil => exact ⟨rfl, rfl⟩
  | append_singleton parts part inductionHypothesis =>
      obtain ⟨spans, marks⟩ := inductionHypothesis clean.of_concat
      obtain ⟨whole, fresh⟩ := clean parts [part] rfl
      rw [List.flatten_singleton] at whole fresh
      rw [List.flatMap_append, List.flatMap_append, List.flatten_append,
        List.flatten_singleton, List.flatMap_singleton,
        List.flatMap_singleton, spans, marks,
        dozingSpans_append_of_not_interrupts whole,
        carrierMarks_append_of_not_repeats fresh]
      exact ⟨rfl, rfl⟩

theorem same_of_clean (clean : Clean parts) : Same parts := by
  obtain ⟨spans, marks⟩ := collected_of_clean clean
  constructor
  · intro time
    rw [spans]
  · intro mark
    rw [marks]
  · intro soak sorting arrangement
    unfold judged
    rw [spans, marks]

theorem mem_flatten_of_mem
    {part : List Record} (listed : part ∈ parts) {record : Record}
    (member : record ∈ part) : record ∈ parts.flatten :=
  List.mem_flatten.mpr ⟨part, listed, member⟩

theorem Dozing.holds_iff {span : Dozing} {time : Int} :
    span.holds time = true ↔ span.start ≤ time ∧ time ≤ span.stop := by
  unfold SoakCompare.Dozing.holds
  rw [Bool.and_eq_true, decide_eq_true_eq, decide_eq_true_eq]

/-- A boundary in a doze leaves out the time after the last record. -/
theorem not_interrupts_of_same
    (spread : Spread (before ++ after).flatten)
    (same : Same (before ++ after)) :
    ¬ Interrupts before.flatten after.flatten := by
  intro interrupts
  have covered := same.covered
  unfold collectedDozing at covered
  rw [List.flatMap_singleton] at covered
  rw [List.flatten_append] at covered spread
  obtain ⟨leftSpread, rightSpread, across⟩ := List.pairwise_append.mp spread
  rcases List.eq_nil_or_concat before.flatten with none | ⟨init, last, ends⟩
  · rw [none] at interrupts
    exact interrupts.1 rfl
  rw [List.concat_eq_append] at ends
  have lastMember : last ∈ before.flatten := by simp [ends]
  have upTo : ∀ record ∈ before.flatten, record.time ≤ last.time := by
    intro record member
    rw [ends] at member leftSpread
    rcases List.mem_append.mp member with inInit | isLast
    · have lower :=
        (List.pairwise_append.mp leftSpread).2.2 record inInit last
          List.mem_cons_self
      omega
    · rw [List.mem_singleton.mp isLast]
  cases follows : after.flatten with
  | nil => exact interrupts.2.1 follows
  | cons next rest =>
      rw [follows] at interrupts rightSpread across covered
      have reached := across last lastMember next List.mem_cons_self
      have onwards : ∀ record ∈ next :: rest, next.time ≤ record.time := by
        intro record member
        rcases List.mem_cons.mp member with rfl | inRest
        · exact le_refl _
        · have lower :=
            (List.pairwise_cons.mp rightSpread).1 record inRest
          omega
      obtain ⟨span, whole, ⟨first, firstMember, start⟩, stop⟩ :=
        exists_span_across (rightSpread.imp fun lower => by omega) interrupts
      have early := upTo first firstMember
      obtain ⟨other, listed, holds⟩ :=
        (covered (last.time + 1)).mpr
          ⟨span, whole, Dozing.holds_iff.mpr ⟨by omega, by omega⟩⟩
      obtain ⟨below, above⟩ := Dozing.holds_iff.mp holds
      obtain ⟨part, isPart, inPart⟩ := List.mem_flatMap.mp listed
      obtain ⟨starts, stops⟩ := exists_records_of_span inPart
      -- A collection lies on one side of the boundary.
      rcases List.mem_append.mp isPart with inBefore | inAfter
      · obtain ⟨record, member, time⟩ := stops.resolve_right (by simp)
        have late := upTo record (mem_flatten_of_mem inBefore member)
        omega
      · obtain ⟨record, member, time⟩ := starts.resolve_right (by simp)
        have inRight := mem_flatten_of_mem inAfter member
        rw [follows] at inRight
        have late := onwards record inRight
        omega

/-- The first reading of a collection is a mark of it. -/
theorem not_repeats_of_same
    (spread : Spread (before ++ after).flatten)
    (same : Same (before ++ after)) :
    ¬ Repeats before.flatten after.flatten := by
  rintro ⟨digest, last, head⟩
  have marks := same.marks
  unfold collectedMarks at marks
  rw [List.flatMap_singleton] at marks
  rw [List.flatten_append] at marks spread
  obtain ⟨_, rightSpread, across⟩ := List.pairwise_append.mp spread
  obtain ⟨record, first, reads⟩ := exists_firstReading head
  have listed : record ∈ after.flatten := List.mem_of_find?_eq_some first
  have found : ∃ part ∈ after, firstReading part = some record := by
    unfold firstReading at first
    rw [List.find?_flatten] at first
    exact List.exists_of_findSome?_eq_some first
  obtain ⟨part, inAfter, firstOfPart⟩ := found
  have marked :
      (⟨record.time, digest⟩ : Carrier) ∈
        (before ++ after).flatMap (carrierMarks "") :=
    List.mem_flatMap.mpr
      ⟨part, List.mem_append_right _ inAfter,
        mark_of_firstReading firstOfPart reads⟩
  have whole := (marks _).mp marked
  rw [carrierMarks_append, last, Option.getD_some] at whole
  rcases List.mem_append.mp whole with inLeft | inRight
  · obtain ⟨earlier, member, sameTime⟩ := exists_record_of_mark inLeft
    have below := across earlier member record listed
    dsimp only at sameTime
    omega
  · have later := lt_of_mark_after_repeat rightSpread first reads inRight
    exact lt_irrefl _ later

end Divisions

/-- A division that interrupts no doze and repeats no reading changes nothing,
and no other one of records that lie apart does. -/
theorem collections_same_iff_clean (parts : List (List Record)) :
    (Clean parts → Same parts) ∧
      (Spread parts.flatten → (Same parts ↔ Clean parts)) := by
  refine ⟨same_of_clean, fun spread => ⟨?_, same_of_clean⟩⟩
  rintro same before after rfl
  exact
    ⟨not_interrupts_of_same spread same, not_repeats_of_same spread same⟩

section Example

def dozingAt (time : Int) : Record :=
  ⟨time, some ⟨false, some true, ""⟩⟩

/-- Four cycles of one doze, collected two by two. -/
theorem divided_doze_is_missed :
    ¬ Same [[dozingAt 60, dozingAt 120], [dozingAt 180, dozingAt 240]] := by
  intro same
  have covered := (same.covered 60).mpr (by decide +kernel)
  revert covered
  decide +kernel

end Example

end Hexroute.SoakCli
