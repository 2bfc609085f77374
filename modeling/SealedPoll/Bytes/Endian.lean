import SealedPoll.Bytes.Basic

/-!
# Numbers as bytes

* `Bytes.ofNatLE len n`, `Bytes.ofNatBE len n` : the last `len` base-256 digits of `n`, least or
  most significant first;
* `Bytes.toNatLE`, `Bytes.toNatBE` : the number a byte string denotes
  (`Bytes.toNatLE_ofNatLE`, `Bytes.ofNatLE_toNatLE`);
* `highBits` : the bits of a number, most significant first.
-/

namespace SealedPoll
open scoped NatPower

namespace Bytes

/-- The last `len` base-256 digits of a number, least significant first. -/
def ofNatLE : Nat → Nat → Bytes
  | 0, _ => []
  | len + 1, n => UInt8.ofNat n :: ofNatLE len (n / 256)

/-- The last `len` base-256 digits of a number, most significant first. -/
def ofNatBE (len n : Nat) : Bytes := (ofNatLE len n).reverse

/-- The number whose base-256 digits these are, least significant first. -/
def toNatLE : Bytes → Nat
  | [] => 0
  | b :: bs => b.toNat + 256 * toNatLE bs

/-- The number whose base-256 digits these are, most significant first. -/
def toNatBE (bs : Bytes) : Nat := toNatLE bs.reverse

@[simp] theorem length_ofNatLE (len n : Nat) : (ofNatLE len n).length = len := by
  induction len generalizing n with
  | zero => rfl
  | succ len ih => simp [ofNatLE, ih]

@[simp] theorem length_ofNatBE (len n : Nat) : (ofNatBE len n).length = len := by
  simp [ofNatBE]

theorem toNatLE_ofNatLE (len n : Nat) : toNatLE (ofNatLE len n) = n % 256 ^ len := by
  induction len generalizing n with
  | zero => simp [ofNatLE, toNatLE, Nat.mod_one]
  | succ len ih =>
    rw [ofNatLE, toNatLE, ih, Nat.pow_succ, Nat.mul_comm (256 ^ len), Nat.mod_mul]
    simp

theorem toNatBE_ofNatBE (len n : Nat) : toNatBE (ofNatBE len n) = n % 256 ^ len := by
  simp [toNatBE, ofNatBE, toNatLE_ofNatLE]

theorem toNatLE_lt (bs : Bytes) : toNatLE bs < 256 ^ bs.length := by
  induction bs with
  | nil => simp [toNatLE]
  | cons b bs ih =>
    have hb := b.toNat_lt
    rw [toNatLE, List.length_cons, Nat.pow_succ]
    omega

theorem toNatLE_append (a b : Bytes) : toNatLE (a ++ b) = toNatLE a + 256 ^ a.length * toNatLE b := by
  induction a with
  | nil => simp [toNatLE]
  | cons x xs ih =>
    rw [List.cons_append, toNatLE, toNatLE, ih, List.length_cons, Nat.pow_succ, Nat.mul_add,
      Nat.mul_comm (256 ^ xs.length) 256, Nat.mul_assoc, Nat.add_assoc]

theorem toNatBE_lt (bs : Bytes) : toNatBE bs < 256 ^ bs.length := by
  simpa [toNatBE] using toNatLE_lt bs.reverse

theorem ofNatLE_toNatLE (bs : Bytes) : ofNatLE bs.length (toNatLE bs) = bs := by
  induction bs with
  | nil => rfl
  | cons b bs ih =>
    have hb := b.toNat_lt
    have hdiv : (b.toNat + 256 * toNatLE bs) / 256 = toNatLE bs := by omega
    have hmod : UInt8.ofNat (b.toNat + 256 * toNatLE bs) = b := by
      apply UInt8.toNat_inj.1
      rw [UInt8.toNat_ofNat']
      omega
    rw [List.length_cons, toNatLE, ofNatLE, hdiv, hmod, ih]

theorem ofNatBE_toNatBE (bs : Bytes) : ofNatBE bs.length (toNatBE bs) = bs := by
  have h := ofNatLE_toNatLE bs.reverse
  rw [List.length_reverse] at h
  rw [ofNatBE, toNatBE, h, List.reverse_reverse]

end Bytes

namespace Octets

/-- The number below `256 ^ n` with these base-256 digits, least significant first. -/
def toNatLE {n : Nat} (a : Octets n) : Nat := Bytes.toNatLE a.toList

/-- A number as `n` bytes, least significant first. -/
def ofNatLE (n value : Nat) : Octets n := ⟨Bytes.ofNatLE n value, by simp⟩

theorem toNatLE_lt {n : Nat} (a : Octets n) : a.toNatLE < 256 ^ n := by
  simpa [toNatLE] using Bytes.toNatLE_lt a.toList

theorem toNatLE_ofNatLE (n value : Nat) : (ofNatLE n value).toNatLE = value % 256 ^ n :=
  Bytes.toNatLE_ofNatLE n value

@[simp] theorem ofNatLE_toNatLE {n : Nat} (a : Octets n) : ofNatLE n a.toNatLE = a := by
  ext1
  simpa [ofNatLE, toNatLE] using Bytes.ofNatLE_toNatLE a.toList

end Octets

/-- The lowest `width` bits of a number, most significant first. -/
def highBits : Nat → Nat → List Bool
  | 0, _ => []
  | width + 1, n => n.testBit width :: highBits width n

end SealedPoll
