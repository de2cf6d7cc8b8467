import Hexroute.Connectivity.Model
import Hexroute.Lib.Intervals
import Hexroute.Lib.StableSort
import Hexroute.Policy.Model

/-!
# Canonical port ranges

Selectors that mean the same are compared by a canonical form.  The ranges of
an endpoint are sorted, and a range that overlaps the one before or starts
right after it is joined to it.  Ports are words of 16 bits, and the port
after the greatest one is never computed.
-/

namespace Hexroute.Policy

open Hexroute.Connectivity (Domain)
open Hexroute.Lib

/-! ## Selectors -/

inductive SelectorKind where
  | endpoint
  | route
  | action
  | credential
  deriving DecidableEq, Repr

inductive Protocol where
  | tcp
  | udp
  deriving DecidableEq, Repr

inductive TLSMode where
  | disabled
  | required
  | passthrough
  deriving DecidableEq, Repr

inductive NetworkPath where
  | physical
  | managedTUN
  | upstreamVPN
  | twilight
  deriving DecidableEq, Repr

structure PortRange where
  first : UInt16
  last : UInt16
  deriving DecidableEq, Repr

structure EndpointSelector where
  host : String
  ports : List PortRange
  protocol : Protocol
  tls : TLSMode
  path : NetworkPath
  deriving DecidableEq, Repr

structure RouteSelector where
  network : String
  path : NetworkPath
  deriving DecidableEq, Repr

structure ActionSelector where
  capability : Capability
  target : String
  deriving DecidableEq, Repr

structure CredentialSelector where
  reference : String
  owner : Domain
  deriving DecidableEq, Repr

structure Selector where
  id : String
  kind : SelectorKind
  endpoint : Option EndpointSelector
  route : Option RouteSelector
  action : Option ActionSelector
  credential : Option CredentialSelector
  deriving DecidableEq, Repr

def Selector.ports (selector : Selector) : List PortRange :=
  selector.endpoint.toList.flatMap EndpointSelector.ports

/-- What the check of an endpoint asks of a range. -/
def PortRange.valid (range : PortRange) : Bool :=
  range.first ≠ 0 && range.first ≤ range.last

/-! ## Normalization -/

/-- The greatest port, all bits of a word set. -/
def maxPort : UInt16 := 65535

/-- A range overlaps the last one or starts right after it. -/
def PortRange.Joins (last candidate : PortRange) : Prop :=
  candidate.first ≤ last.last ∨
    last.last < maxPort ∧ candidate.first = last.last + 1

instance (last candidate : PortRange) : Decidable (last.Joins candidate) :=
  inferInstanceAs (Decidable (_ ∨ _))

/-- Take one more range into those merged so far, the newest first. -/
def mergePort (merged : List PortRange) (candidate : PortRange) :
    List PortRange :=
  match merged with
  | [] => [candidate]
  | last :: rest =>
      if last.Joins candidate then
        { last with
          last :=
            if last.last < candidate.last then candidate.last
            else last.last } :: rest
      else candidate :: last :: rest

def portKey (range : PortRange) : Nat ×ₗ Nat :=
  toLex (range.first.toNat, range.last.toNat)

def normalizePorts (ports : List PortRange) : List PortRange :=
  ((sortBy portKey ports).foldl mergePort []).reverse

def normalizeSelector (selector : Selector) : Selector :=
  { selector with
    endpoint :=
      selector.endpoint.map fun endpoint =>
        { endpoint with ports := normalizePorts endpoint.ports } }

/-! ## What is claimed -/

/-- Some range holds the port. -/
def Covers (ports : List PortRange) (port : UInt16) : Prop :=
  ∃ range ∈ ports, range.first ≤ port ∧ port ≤ range.last

/-- The ranges are valid and in order, and a port is left out between each
two of them. -/
structure Canonical (ports : List PortRange) : Prop where
  valid : ∀ range ∈ ports, range.valid = true
  gaps :
    ports.Pairwise fun earlier later =>
      earlier.last.toNat + 1 < later.first.toNat

/-! ## Ranges as intervals of numbers -/

/-- The ranges as intervals of numbers, without a bound. -/
abbrev CoversNumber (ports : List PortRange) (number : Nat) : Prop :=
  Covered (fun range => range.first.toNat) (fun range => range.last.toNat)
    ports number

theorem coversNumber_cons
    {range : PortRange} {ports : List PortRange} {number : Nat} :
    CoversNumber (range :: ports) number ↔
      (range.first.toNat ≤ number ∧ number ≤ range.last.toNat) ∨
        CoversNumber ports number :=
  covered_cons

theorem valid_iff {range : PortRange} :
    range.valid = true ↔
      0 < range.first.toNat ∧ range.first.toNat ≤ range.last.toNat := by
  rw [PortRange.valid, Bool.and_eq_true, decide_eq_true_eq,
    decide_eq_true_eq, UInt16.le_iff_toNat_le, ne_eq, ← UInt16.toNat_inj]
  exact and_congr_left' Nat.pos_iff_ne_zero.symm

theorem covers_iff {ports : List PortRange} {port : UInt16} :
    Covers ports port ↔ CoversNumber ports port.toNat := by
  simp only [Covers, Covered, UInt16.le_iff_toNat_le]

/-- No range holds a number that is no port. -/
theorem coversNumber_iff {ports : List PortRange} {number : Nat} :
    CoversNumber ports number ↔
      ∃ port : UInt16, port.toNat = number ∧ Covers ports port := by
  constructor
  · rintro ⟨range, member, low, high⟩
    have bound : number < 65536 :=
      high.trans_lt range.last.toNat_lt
    have isNumber : (UInt16.ofNat number).toNat = number :=
      UInt16.toNat_ofNat_of_lt bound
    refine ⟨UInt16.ofNat number, isNumber, covers_iff.mpr ?_⟩
    rw [isNumber]
    exact ⟨range, member, low, high⟩
  · rintro ⟨port, rfl, covers⟩
    exact covers_iff.mp covers

theorem Canonical.separate
    {ports : List PortRange} (canonical : Canonical ports) :
    Separate (fun range => range.first.toNat)
      (fun range => range.last.toNat) ports :=
  ⟨fun range member => (valid_iff.mp (canonical.valid range member)).2,
    canonical.gaps⟩

/-- The test for the next port is exact at the greatest port as well: there
every range overlaps. -/
theorem joins_iff {last candidate : PortRange} :
    last.Joins candidate ↔
      candidate.first.toNat ≤ last.last.toNat + 1 := by
  have bound := candidate.first.toNat_lt
  have greatest : maxPort.toNat = 65535 := rfl
  unfold PortRange.Joins
  rw [UInt16.le_iff_toNat_le, UInt16.lt_iff_toNat_lt, greatest,
    ← UInt16.toNat_inj, UInt16.toNat_add]
  have one : (1 : UInt16).toNat = 1 := rfl
  rw [one]
  omega

/-! ## The merge -/

/-- What has been merged of ranges up to a start: canonical ranges, the
newest first, that cover the same ports. -/
structure Merged (ports merged : List PortRange) : Prop where
  valid : ∀ range ∈ merged, range.valid = true
  gaps :
    merged.Pairwise fun later earlier =>
      earlier.last.toNat + 1 < later.first.toNat
  same : ∀ number, CoversNumber merged number ↔ CoversNumber ports number

theorem toNat_joined (last candidate : UInt16) :
    (if last < candidate then candidate else last).toNat =
      max last.toNat candidate.toNat := by
  split
  · rename_i lower
    exact (Nat.max_eq_right (UInt16.lt_iff_toNat_lt.mp lower).le).symm
  · rename_i upper
    rw [UInt16.lt_iff_toNat_lt] at upper
    exact (Nat.max_eq_left (Nat.not_lt.mp upper)).symm

/-- Taking in a range that starts no earlier keeps the merged ones in
order. -/
theorem Merged.mergePort
    {ports merged : List PortRange} {candidate : PortRange}
    (facts : Merged ports merged) (valid : candidate.valid = true)
    (below :
      ∀ last ∈ merged.head?, last.first.toNat ≤ candidate.first.toNat) :
    Merged (candidate :: ports) (mergePort merged candidate) := by
  have proper := valid_iff.mp valid
  cases merged with
  | nil =>
      refine ⟨?_, List.pairwise_singleton _ _, ?_⟩
      · intro range member
        rw [List.mem_singleton.mp member]
        exact valid
      · intro number
        rw [Policy.mergePort, coversNumber_cons, coversNumber_cons,
          facts.same]
  | cons last rest =>
      have order := below last rfl
      have own :=
        valid_iff.mp (facts.valid last List.mem_cons_self)
      obtain ⟨apart, restGaps⟩ := List.pairwise_cons.mp facts.gaps
      have sameCons :
          ∀ number, CoversNumber (candidate :: ports) number ↔
            (candidate.first.toNat ≤ number ∧
                number ≤ candidate.last.toNat) ∨
              CoversNumber (last :: rest) number := by
        intro number
        rw [coversNumber_cons, facts.same]
      simp only [Policy.mergePort]
      split
      · rename_i joins
        have touching := joins_iff.mp joins
        refine ⟨?_, List.pairwise_cons.mpr ⟨apart, restGaps⟩, ?_⟩
        · refine List.forall_mem_cons.mpr ⟨valid_iff.mpr ?_, ?_⟩
          · simp only [toNat_joined]
            omega
          · intro range member
            exact facts.valid range (List.mem_cons_of_mem _ member)
        · intro number
          rw [sameCons, coversNumber_cons, coversNumber_cons, toNat_joined]
          -- the joined range holds exactly what the two ranges hold
          have joined :
              (last.first.toNat ≤ number ∧
                  number ≤ max last.last.toNat candidate.last.toNat) ↔
                (candidate.first.toNat ≤ number ∧
                    number ≤ candidate.last.toNat) ∨
                  last.first.toNat ≤ number ∧
                    number ≤ last.last.toNat := by
            omega
          rw [joined, or_assoc]
      · rename_i separate
        have beyond := joins_iff.not.mp separate
        refine ⟨?_, List.pairwise_cons.mpr ⟨?_, facts.gaps⟩, ?_⟩
        · exact List.forall_mem_cons.mpr ⟨valid, facts.valid⟩
        · refine List.forall_mem_cons.mpr ⟨by omega, ?_⟩
          intro earlier member
          have gap := apart earlier member
          omega
        · intro number
          rw [sameCons, coversNumber_cons]

theorem head_mergePort
    {merged : List PortRange} {candidate : PortRange}
    (below :
      ∀ last ∈ merged.head?, last.first.toNat ≤ candidate.first.toNat) :
    ∀ last ∈ (mergePort merged candidate).head?,
      last.first.toNat ≤ candidate.first.toNat := by
  cases merged with
  | nil => simp [mergePort]
  | cons last rest =>
      have order := below last rfl
      simp only [mergePort]
      split <;> simp [order]

theorem merged_foldl
    {ports done merged : List PortRange}
    (ordered :
      ports.Pairwise fun left right =>
        left.first.toNat ≤ right.first.toNat)
    (valid : ∀ range ∈ ports, range.valid = true)
    (below :
      ∀ last ∈ merged.head?, ∀ range ∈ ports,
        last.first.toNat ≤ range.first.toNat)
    (facts : Merged done merged) :
    Merged (ports.reverse ++ done) (ports.foldl mergePort merged) := by
  induction ports generalizing done merged with
  | nil => exact facts
  | cons range rest inductionHypothesis =>
      obtain ⟨least, restOrdered⟩ := List.pairwise_cons.mp ordered
      obtain ⟨own, restValid⟩ := List.forall_mem_cons.mp valid
      have first :
          ∀ last ∈ merged.head?,
            last.first.toNat ≤ range.first.toNat :=
        fun last member => below last member range List.mem_cons_self
      have step :=
        inductionHypothesis restOrdered restValid
          (fun last member later laterMember =>
            (head_mergePort first last member).trans
              (least later laterMember))
          (facts.mergePort own first)
      rw [List.reverse_cons, List.append_assoc, List.singleton_append]
      exact step

theorem sortBy_portKey_ordered (ports : List PortRange) :
    (sortBy portKey ports).Pairwise fun left right =>
      left.first.toNat ≤ right.first.toNat := by
  refine (sortBy_ordered ports).imp ?_
  intro left right below
  rcases Prod.Lex.toLex_le_toLex.mp below with lower | ⟨same, _⟩
  · exact Nat.le_of_lt lower
  · exact same.le

theorem normalizePorts_merged
    {ports : List PortRange}
    (valid : ∀ range ∈ ports, range.valid = true) :
    Canonical (normalizePorts ports) ∧
      ∀ port, Covers (normalizePorts ports) port ↔ Covers ports port := by
  have facts :=
    @merged_foldl (sortBy portKey ports) [] []
      (sortBy_portKey_ordered ports)
      (fun range member => valid range ((sortBy_perm ports).mem_iff.mp member))
      (by simp) ⟨by simp, List.Pairwise.nil, fun _ => Iff.rfl⟩
  refine ⟨⟨?_, List.pairwise_reverse.mpr facts.gaps⟩, ?_⟩
  · intro range member
    exact facts.valid range (List.mem_reverse.mp member)
  · intro port
    rw [covers_iff, covers_iff]
    have same := facts.same port.toNat
    simp only [Covered, List.append_nil, List.mem_reverse,
      (sortBy_perm ports).mem_iff] at same
    simp only [Covered, normalizePorts, List.mem_reverse]
    exact same

/-- Normalization gives a canonical list that covers the same ports, and the
same list for all lists that cover these ports. -/
theorem normalizeSelector_canonical
    (selector : Selector)
    (valid : ∀ range ∈ selector.ports, range.valid = true) :
    Canonical (normalizeSelector selector).ports ∧
      (∀ port, Covers (normalizeSelector selector).ports port ↔
        Covers selector.ports port) ∧
      ∀ other : Selector,
        (∀ range ∈ other.ports, range.valid = true) →
        (∀ port, Covers other.ports port ↔ Covers selector.ports port) →
          (normalizeSelector other).ports =
            (normalizeSelector selector).ports := by
  have ports :
      ∀ any : Selector,
        (normalizeSelector any).ports = normalizePorts any.ports := by
    intro any
    cases endpoint : any.endpoint with
    | none => simp [normalizeSelector, Selector.ports, endpoint]; rfl
    | some body => simp [normalizeSelector, Selector.ports, endpoint]
  obtain ⟨canonical, same⟩ := normalizePorts_merged valid
  rw [ports]
  refine ⟨canonical, same, ?_⟩
  intro other otherValid covers
  obtain ⟨otherCanonical, otherSame⟩ := normalizePorts_merged otherValid
  rw [ports]
  refine otherCanonical.separate.eq_of_covered_iff ?_ canonical.separate ?_
  · intro one another starts ends
    cases one
    cases another
    rw [PortRange.mk.injEq]
    exact ⟨UInt16.toNat_inj.mp starts, UInt16.toNat_inj.mp ends⟩
  · intro number
    refine coversNumber_iff.trans (Iff.trans ?_ coversNumber_iff.symm)
    refine exists_congr fun port => and_congr_right fun _ => ?_
    rw [otherSame, same, covers]

def endpointOf (ports : List PortRange) : Selector where
  id := "selector"
  kind := .endpoint
  endpoint := some ⟨"example", ports, .tcp, .required, .physical⟩
  route := none
  action := none
  credential := none

/-- Ranges up to the greatest port that overlap, touch and lie apart. -/
theorem touching_ranges_are_canonical :
    Canonical
      (normalizeSelector
        (endpointOf
          [⟨65535, 65535⟩, ⟨443, 450⟩, ⟨60000, 65534⟩, ⟨440, 443⟩])).ports :=
  (normalizeSelector_canonical
    (endpointOf
      [⟨65535, 65535⟩, ⟨443, 450⟩, ⟨60000, 65534⟩, ⟨440, 443⟩])
    (by decide)).1

end Hexroute.Policy
