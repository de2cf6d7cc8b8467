import Mathlib

/-!
# Texts a policy record may carry

Digests, identities, identifiers and targets are texts with a closed
alphabet.
-/

namespace Hexroute.Policy

def lowercase (rune : Char) : Bool :=
  'a' ≤ rune && rune ≤ 'z'

def decimal (rune : Char) : Bool :=
  '0' ≤ rune && rune ≤ '9'

abbrev SHA256 := BitVec 256

/-- A digest as its text is read: 64 lowercase hexadecimal digits are 256
bits, and every other text that is not empty is no digest. -/
inductive Digest where
  | empty
  | sha256 (bits : SHA256)
  | other (text : String)
  deriving DecidableEq, Repr

/-- A SHA-256 in lowercase hexadecimal. -/
def validSHA256 : Digest → Bool
  | .sha256 _ => true
  | _ => false

/-- An identity as its text is read: a lowercase version 4 UUID has 122 free
bits. -/
inductive UUID where
  | version4 (bits : BitVec 122)
  | other (text : String)
  deriving DecidableEq, Repr

/-- A lowercase version 4 UUID. -/
def validUUID : UUID → Bool
  | .version4 _ => true
  | .other _ => false

def maxIdentifierBytes : Nat := 64

def maxTargetBytes : Nat := 64

def validIdentifier (value : String) : Bool :=
  decide (value.utf8ByteSize ≤ maxIdentifierBytes) &&
    value.toList.head?.any lowercase &&
    value.toList.all fun rune =>
      lowercase rune || decimal rune || rune ∈ ['.', '_', '-']

def validTarget (value : String) : Bool :=
  decide (value.utf8ByteSize ≤ maxTargetBytes) && validIdentifier value

end Hexroute.Policy
