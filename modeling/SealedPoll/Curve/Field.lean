import SealedPoll.Bytes.Endian

/-!
# The field of `2 ^ 255 - 19` elements

* `FieldElement` : the integers modulo `prime`;
* `power`, `inverse` : powers by repeated squaring; the inverse of zero is zero;
* `FieldElement.ofOctets` : 32 bytes as a number, least significant first, bit 255 dropped and the
  rest reduced; `FieldElement.toOctets` : the reduced form (`FieldElement.ofOctets_toOctets`).
-/

namespace SealedPoll.Curve
open scoped NatPower

/-- The prime `2 ^ 255 - 19`. -/
def prime : Nat := 2 ^ (255 : Nat) - 19

-- The zero is the numeral's, as `Fin.ofNat` reads it.
attribute [local instance (2000)] Zero.ofOfNat0 in
instance : NeZero prime := ⟨by decide⟩

/-- An integer modulo `2 ^ 255 - 19`. -/
abbrev FieldElement := Fin prime

/-- A power below the exponent `2 ^ 255`. -/
def power (x : FieldElement) (n : Nat) : FieldElement :=
  (highBits 255 n).foldl (fun y bit => if bit then y * y * x else y * y) 1

/-- The inverse, or zero for zero. -/
def inverse (x : FieldElement) : FieldElement := power x (prime - 2)

namespace FieldElement

/-- 32 bytes as a number, least significant first, bit 255 dropped and the rest reduced. -/
def ofOctets (bs : Octets 32) : FieldElement := Fin.ofNat prime (bs.toNatLE % 2 ^ (255 : Nat))

/-- The reduced number in 32 bytes, least significant first. -/
def toOctets (x : FieldElement) : Octets 32 := Octets.ofNatLE 32 x.val

theorem ofOctets_toOctets (x : FieldElement) : ofOctets x.toOctets = x := by
  have hprime : prime < 2 ^ 255 := by decide
  have hx := x.isLt
  apply Fin.ext
  rw [ofOctets, toOctets, Octets.toNatLE_ofNatLE, Fin.val_ofNat,
    Nat.mod_eq_of_lt (a := x.val) (by omega), Nat.mod_eq_of_lt (a := x.val) (by omega),
    Nat.mod_eq_of_lt hx]

theorem toOctets_injective {x y : FieldElement} (h : x.toOctets = y.toOctets) : x = y := by
  rw [← ofOctets_toOctets x, h, ofOctets_toOctets]

/-- Odd as a reduced number. -/
def isOdd (x : FieldElement) : Bool := x.val % 2 = 1

end FieldElement

end SealedPoll.Curve
