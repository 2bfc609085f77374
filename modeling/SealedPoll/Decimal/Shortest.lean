import SealedPoll.Bytes.Basic

/-!
# The shortest decimal of a binary number

A number `m · 2 ^ q` with `m < 2 ^ 53` stands for all reals that round to it: those within half a
unit of `m`, or a quarter below a power of two, the ends included when `m` is even.

* `Interval` : those reals, in quarters of a unit;
* `shortest` : the decimal among them with the fewest digits and, of those, the nearest to the
  number, an even one if two are as near.
-/

namespace SealedPoll
open scoped NatPower

/-- The decimal `digits · 10 ^ exponent`. -/
structure Decimal where
  digits : Nat
  exponent : Int
deriving DecidableEq

namespace Decimal

/-- The reals that round to a number: `low`, `middle` and `high` times `2 ^ exponent`. -/
structure Interval where
  low : Nat
  middle : Nat
  high : Nat
  exponent : Int
  /-- The ends belong to it. -/
  closed : Bool

/-- The reals that round to `m · 2 ^ q`, given whether `m` is the least number of its binade. -/
def Interval.around (m : Nat) (q : Int) (least : Bool) : Interval :=
  ⟨4 * m - (if least then 1 else 2), 4 * m, 4 * m + 2, q - 2, m % 2 = 0⟩

/-- The multiple `c` of a grid lies in the interval, both given over one denominator. -/
def Interval.holds (i : Interval) (scale unit c : Nat) : Bool :=
  if i.closed then i.low * scale ≤ c * unit && c * unit ≤ i.high * scale
  else i.low * scale < c * unit && c * unit < i.high * scale

/-- The multiple of `10 ^ g` in the interval that is nearest to its middle, the even one of two, if
there is a positive one. -/
def Interval.onGrid? (i : Interval) (g : Int) : Option Decimal :=
  let scale := 2 ^ i.exponent.toNat * 10 ^ (-g).toNat
  let unit := 2 ^ (-i.exponent).toNat * 10 ^ g.toNat
  let middle := i.middle * scale
  let below := middle / unit
  let above := below + 1
  let hasBelow := 0 < below && i.holds scale unit below
  let belowNearer := 2 * middle < (2 * below + 1) * unit ||
    (2 * middle == (2 * below + 1) * unit && below % 2 == 0)
  if hasBelow && (belowNearer || !i.holds scale unit above) then some ⟨below, g⟩
  else if i.holds scale unit above then some ⟨above, g⟩
  else none

/-- The shortest decimal in an interval of double precision: the coarsest grid with a hit wins. -/
def Interval.shortest (i : Interval) : Decimal :=
  ((List.range 660).findSome? fun k => i.onGrid? (310 - Int.ofNat k)).getD ⟨0, 0⟩

/-- The shortest decimal of a positive number of double precision, given by its bits. -/
def shortest (bits : Nat) : Decimal :=
  let fraction := bits % 2 ^ (52 : Nat)
  let binade := bits / 2 ^ (52 : Nat)
  if binade = 0 then (Interval.around fraction (-1074) false).shortest
  else (Interval.around (2 ^ (52 : Nat) + fraction) (Int.ofNat binade - 1075)
    (fraction = 0 && 1 < binade)).shortest

/-- How decimals are written. -/
structure Style where
  /-- The least and the greatest power of ten of a first digit that is written without exponent. -/
  leastPlain : Int
  greatestPlain : Int
  /-- What stands before the exponent, by its sign. -/
  positiveMark : List Char
  negativeMark : List Char

/-- A decimal in positional notation, with at least one digit on both sides of the point. -/
def plain (ds : List Char) (point : Int) : List Char :=
  if point ≤ 0 then ['0', '.'] ++ List.replicate (-point).toNat '0' ++ ds
  else if ds.length ≤ point.toNat then
    ds ++ List.replicate (point.toNat - ds.length) '0' ++ ['.', '0']
  else ds.take point.toNat ++ ['.'] ++ ds.drop point.toNat

/-- A decimal with one digit before the point and its exponent; a lone digit has no point. -/
def scientific (style : Style) (ds : List Char) (power : Int) : List Char :=
  ds.take 1 ++ (if ds.length ≤ 1 then [] else ['.'] ++ ds.drop 1) ++
    (if 0 ≤ power then style.positiveMark else style.negativeMark) ++ Nat.toDigits 10 power.natAbs

/-- The text of a decimal. -/
def print (style : Style) (d : Decimal) : List Char :=
  let ds := Nat.toDigits 10 d.digits
  let power := d.exponent + ds.length - 1
  if style.leastPlain ≤ power ∧ power ≤ style.greatestPlain then plain ds (power + 1)
  else scientific style ds power

/-- The text of a finite number of double precision. -/
def printBits (style : Style) (bits : UInt64) : List Char :=
  let magnitude := bits.toNat % 2 ^ (63 : Nat)
  let text := if magnitude = 0 then ['0', '.', '0'] else (shortest magnitude).print style
  if bits.toNat < 2 ^ (63 : Nat) then text else '-' :: text

end Decimal

end SealedPoll
