import SealedPoll.Curve.Edwards
import SealedPoll.Curve.Montgomery
import SealedPoll.Hash.Sha2

/-!
# Signatures on the Edwards curve

* `SigningKey` : a 32-byte seed; `SigningKey.sign` is deterministic;
* `VerifyingKey` : an encoded point with the point; `VerifyingKey.decode?` reads one;
* `VerifyingKey.verify` : strict verification. The second half of the signature is below the group
  order, neither its first half nor the key has small order, and the first half is the very encoding
  that the equation asks for.
-/

namespace SealedPoll.Curve
open scoped NatPower

def groupOrder : Nat := 2 ^ (252 : Nat) + 27742317777372353535851937790883648493

/-- An encoded point and a scalar. -/
abbrev Signature := Octets 64

/-- A number modulo the group order, from a digest. -/
def digestScalar (message : Bytes) : Nat := (Hash.sha512 message).toNatLE % groupOrder

/-- The number that binds a signature's point, the signer's key and the message. -/
def challenge (point key : Octets 32) (message : Bytes) : Nat :=
  digestScalar (point.toList ++ key.toList ++ message)

structure VerifyingKey where
  encoded : Octets 32
  point : Point
deriving DecidableEq

namespace VerifyingKey

/-- The key with this encoding, if it encodes a point. -/
def decode? (bs : Octets 32) : Option VerifyingKey :=
  (Point.decode? bs).map fun p => ⟨bs, p⟩

/-- The point that a signature over a message has to start with, given the signature's own start and
scalar. -/
def expectedPoint (key : VerifyingKey) (message : Bytes) (start : Octets 32) (s : Nat) : Point :=
  (Point.mul s Point.base).add (Point.mul (challenge start key.encoded message) key.point.neg)

/-- Strict verification of a signature over a message. -/
def verify (key : VerifyingKey) (message : Bytes) (signature : Signature) : Bool :=
  let start : Octets 32 := Octets.take (n := 32) signature
  let s := (Octets.drop (m := 32) signature : Octets 32).toNatLE
  if groupOrder ≤ s then false
  else match Point.decode? start with
    | none => false
    | some r =>
      !r.isSmallOrder && !key.point.isSmallOrder &&
        decide ((key.expectedPoint message start s).encode = start)

end VerifyingKey

structure SigningKey where
  seed : Octets 32
deriving DecidableEq

namespace SigningKey

/-- The digest that a key is expanded from. -/
def expanded (key : SigningKey) : Octets 64 := Hash.sha512 key.seed.toList

def scalar (key : SigningKey) : Nat := clamp (Octets.take (n := 32) key.expanded)

/-- The bytes that make nonces unpredictable. -/
def nonceSecret (key : SigningKey) : Octets 32 := Octets.drop (m := 32) key.expanded

def verifyingKey (key : SigningKey) : VerifyingKey :=
  let point := Point.mul key.scalar Point.base
  ⟨point.encode, point⟩

def sign (key : SigningKey) (message : Bytes) : Signature :=
  let nonce := digestScalar (key.nonceSecret.toList ++ message)
  let start := (Point.mul nonce Point.base).encode
  let k := challenge start key.verifyingKey.encoded message
  Octets.append (n := 32) start (Octets.ofNatLE 32 ((nonce + k * key.scalar) % groupOrder))

end SigningKey

end SealedPoll.Curve
