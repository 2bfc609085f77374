import SealedPoll.Curve.Field

/-!
# Key agreement on the Montgomery curve

The curve is `y ^ 2 = x ^ 3 + 486662 x ^ 2 + x`; only first coordinates are used.

* `clamp` : the scalar that 32 secret bytes stand for, a multiple of 8 between `2 ^ 254` and
  `2 ^ 255`;
* `Ladder.step` : from the coordinates of two neighbouring multiples of a point to the next pair;
* `scalarMul` : the coordinate of a multiple of a point, zero for the point at infinity;
* `publicKey`, `agree` : a public key, and the secret that two parties share.
-/

namespace SealedPoll.Curve
open scoped NatPower

/-- The scalar that secret bytes stand for: its lowest three bits and bit 255 are dropped and bit
254 is set. -/
def clamp (secret : Octets 32) : Nat := secret.toNatLE % 2 ^ (254 : Nat) / 8 * 8 + 2 ^ (254 : Nat)

/-- The projective first coordinates of two neighbouring multiples of a point. -/
structure Ladder where
  x2 : FieldElement
  z2 : FieldElement
  x3 : FieldElement
  z3 : FieldElement

namespace Ladder

/-- The multiples 0 and 1. -/
def initial (u : FieldElement) : Ladder := ⟨1, 0, u, 1⟩

/-- The two multiples in the other order, if asked for. -/
def swapIf (bit : Bool) (s : Ladder) : Ladder := if bit then ⟨s.x3, s.z3, s.x2, s.z2⟩ else s

/-- The double of the first multiple and the sum of both, `u` being their difference. -/
def doubleAdd (u : FieldElement) (s : Ladder) : Ladder :=
  let a := s.x2 + s.z2
  let b := s.x2 - s.z2
  let aa := a * a
  let bb := b * b
  let e := aa - bb
  let da := (s.x3 - s.z3) * a
  let cb := (s.x3 + s.z3) * b
  let sum := da + cb
  let difference := da - cb
  ⟨aa * bb, e * (aa + 121665 * e), sum * sum, u * (difference * difference)⟩

/-- From the multiples `k` and `k + 1` to `2 k` and `2 k + 1`, or one more each. -/
def step (u : FieldElement) (s : Ladder) (bit : Bool) : Ladder :=
  ((s.swapIf bit).doubleAdd u).swapIf bit

/-- The multiples `k` and `k + 1` of the point of coordinate `u`. -/
def run (u : FieldElement) (k : Nat) : Ladder := (highBits 255 k).foldl (step u) (initial u)

end Ladder

/-- The coordinate of the `k`-th multiple of the point of coordinate `u`; `k` is below `2 ^ 255`. -/
def scalarMul (k : Nat) (u : FieldElement) : FieldElement :=
  (Ladder.run u k).x2 * inverse (Ladder.run u k).z2

/-- The secret shared between the holder of `secret` and the holder of the key to `peer`. -/
def agree (secret peer : Octets 32) : Octets 32 :=
  (scalarMul (clamp secret) (FieldElement.ofOctets peer)).toOctets

/-- The public key of secret bytes: the base point has coordinate 9. -/
def publicKey (secret : Octets 32) : Octets 32 := (scalarMul (clamp secret) 9).toOctets

end SealedPoll.Curve
