import Mathlib

/-!
# Instants and their texts

Policy records carry instants as RFC 3339 texts.  A text is empty, the
canonical text of one instant, or something no record accepts.  Canonical
texts are compared as texts where the audit index orders its entries, and
that order is not the order of time: a fraction is printed without its
trailing zeros, and the letter that ends a text is greater than a digit.
-/

namespace Hexroute.Policy

/-- Nanoseconds since the first instant of year one.  The first instant
itself is the zero time. -/
abbrev Instant := Nat

def nanosecondsPerSecond : Nat := 1000000000

def secondsPerDay : Nat := 86400

/-- The first instant of year ten thousand, which has no canonical text. -/
def endOfYears : Instant := 3652059 * secondsPerDay * nanosecondsPerSecond

/-- What a timestamp field holds. -/
inductive Stamp where
  | empty
  | utc (instant : Instant)
  | other (text : String)
  deriving DecidableEq, Repr

/-- The instant a canonical text denotes. -/
def Stamp.parseCanonicalUTC : Stamp → Option Instant
  | .empty => none
  | .utc instant => if instant < endOfYears then some instant else none
  | .other _ => none

def Stamp.validCanonicalUTC (stamp : Stamp) : Bool :=
  stamp.parseCanonicalUTC.isSome

/-- Two stamps denote instants that stand in the given relation. -/
def Stamp.compares
    (relation : Instant → Instant → Bool) (left right : Stamp) : Bool :=
  match left.parseCanonicalUTC, right.parseCanonicalUTC with
  | some first, some second => relation first second
  | _, _ => false

end Hexroute.Policy
