import SealedPoll.Curve.Field

/-!
# The twisted Edwards curve

The curve is `- x ^ 2 + y ^ 2 = 1 + d x ^ 2 y ^ 2`, its points in projective coordinates.

* `Point.add`, `Point.neg`, `Point.mul` : the group operations, by formulas without exceptions;
* `Point.encode` : second coordinate and the sign of the first in 32 bytes;
* `Point.decode?` : reads such an encoding, not only a reduced one;
* `Point.isSmallOrder` : the order divides 8.
-/

namespace SealedPoll.Curve
open scoped NatPower

/-- The coefficient `-121665 / 121666` of the curve. -/
def coefficient : FieldElement :=
  37095705934669439343138083508754565189542113879843219016388785533085940283555

/-- A square root of minus one. -/
def rootOfMinusOne : FieldElement :=
  19681161376707505956807079304988542015446066515923890162744021073123829784752

/-- A point of the curve: `x / z` and `y / z` are its coordinates. -/
structure Point where
  x : FieldElement
  y : FieldElement
  z : FieldElement
deriving DecidableEq

namespace Point

/-- The neutral element. -/
def identity : Point := ⟨0, 1, 1⟩

/-- The base point, of second coordinate `4 / 5`. -/
def base : Point where
  x := 15112221349535400772501151409588531511454012693041857206046113283949847762202
  y := 46316835694926478169428394003475163141307993866256225615783033603165251855960
  z := 1

def add (p q : Point) : Point :=
  let a := p.z * q.z
  let b := a * a
  let c := p.x * q.x
  let d := p.y * q.y
  let e := coefficient * c * d
  let f := b - e
  let g := b + e
  ⟨a * f * ((p.x + p.y) * (q.x + q.y) - c - d), a * g * (d + c), f * g⟩

def neg (p : Point) : Point := ⟨-p.x, p.y, p.z⟩

/-- The multiple by a number below `2 ^ 256`, by doubling and adding. -/
def mul (n : Nat) (p : Point) : Point :=
  (highBits 256 n).foldl (fun q bit => if bit then (q.add q).add p else q.add q) identity

def timesEight (p : Point) : Point :=
  let two := p.add p
  let four := two.add two
  four.add four

def isIdentity (p : Point) : Bool := p.x = 0 && p.y = p.z

/-- The order of the point divides 8. -/
def isSmallOrder (p : Point) : Bool := p.timesEight.isIdentity

/-- The second coordinate, least significant byte first, with the parity of the first in bit 255. -/
def encode (p : Point) : Octets 32 :=
  let x := p.x * inverse p.z
  let y := p.y * inverse p.z
  Octets.ofNatLE 32 (y.val + if x.isOdd then 2 ^ (255 : Nat) else 0)

/-- A square root of `u / v`, if there is one. -/
def rootOfQuotient? (u v : FieldElement) : Option FieldElement :=
  let v3 := v * v * v
  let r := u * v3 * power (u * v3 * v3 * v) ((prime - 5) / 8)
  let check := v * r * r
  if check = u then some r
  else if check = -u then some (r * rootOfMinusOne)
  else none

/-- The coordinate of the given parity among `x` and `-x`; zero has no odd form and stays. -/
def withParity (odd : Bool) (x : FieldElement) : FieldElement :=
  let even := if x.isOdd then -x else x
  if odd then -even else even

/-- The point with this encoding. The second coordinate need not be reduced, and the parity of a
zero first coordinate may be wrong. -/
def decode? (bs : Octets 32) : Option Point :=
  let y := FieldElement.ofOctets bs
  let yy := y * y
  (rootOfQuotient? (yy - 1) (coefficient * yy + 1)).map fun x =>
    ⟨withParity (bs.toNatLE.testBit 255) x, y, 1⟩

end Point

end SealedPoll.Curve
