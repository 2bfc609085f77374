/-!
# Byte strings

* `Bytes` : byte strings of any length;
* `Octets n` : byte strings of exactly `n` bytes, built from a byte string by `Octets.ofList?`
  (`Octets.ofList?_eq_some_iff`), joined by `Octets.append` and cut by `Octets.take`, `Octets.drop`;
* `Bytes.xor` : bytewise exclusive or, its own inverse (`Bytes.xor_xor_cancel`).

`NatPower` is opened where the bounds of byte strings and numbers are written as powers.
-/

namespace SealedPoll

namespace NatPower

-- Where this is open, `2 ^ n` is the power of core Lean, also if the power of a monoid is in scope.
-- A numeral in the exponent needs its type for it.
attribute [scoped instance (2000)] instPowNat

end NatPower

/-- A byte string of any length. -/
abbrev Bytes := List UInt8

/-- A byte string of exactly `n` bytes. -/
structure Octets (n : Nat) where
  toList : Bytes
  length_toList : toList.length = n
deriving DecidableEq

namespace Octets

attribute [simp] length_toList

@[ext] theorem ext {n : Nat} {a b : Octets n} (h : a.toList = b.toList) : a = b := by
  cases a; cases b; simp_all

/-- The byte string as one of `n` bytes, if it has that length. -/
def ofList? (n : Nat) (bs : Bytes) : Option (Octets n) :=
  if h : bs.length = n then some ⟨bs, h⟩ else none

theorem ofList?_eq_some_iff {n : Nat} {bs : Bytes} {x : Octets n} :
    ofList? n bs = some x ↔ x.toList = bs := by
  unfold ofList?
  split
  · constructor
    · rintro ⟨⟩; rfl
    · rintro rfl; rfl
  · constructor
    · intro h; simp at h
    · rintro rfl; simp_all

theorem ofList?_eq_none_iff {n : Nat} {bs : Bytes} : ofList? n bs = none ↔ bs.length ≠ n := by
  unfold ofList?
  split <;> simp_all

@[simp] theorem ofList?_toList {n : Nat} (x : Octets n) : ofList? n x.toList = some x :=
  ofList?_eq_some_iff.2 rfl

/-- The first `m` bytes followed by the other `n`. -/
def append {m n : Nat} (a : Octets m) (b : Octets n) : Octets (m + n) :=
  ⟨a.toList ++ b.toList, by simp⟩

/-- The first `m` bytes. -/
def take {m n : Nat} (a : Octets (m + n)) : Octets m :=
  ⟨a.toList.take m, by simp⟩

/-- What follows the first `m` bytes. -/
def drop {m n : Nat} (a : Octets (m + n)) : Octets n :=
  ⟨a.toList.drop m, by simp⟩

@[simp] theorem take_append {m n : Nat} (a : Octets m) (b : Octets n) : (a.append b).take = a := by
  ext1; simp [append, take]

@[simp] theorem drop_append {m n : Nat} (a : Octets m) (b : Octets n) : (a.append b).drop = b := by
  ext1; simp [append, drop]

@[simp] theorem append_take_drop {m n : Nat} (a : Octets (m + n)) : a.take.append a.drop = a := by
  ext1; simp [append, take, drop]

/-- `n` zero bytes. -/
def zero (n : Nat) : Octets n := ⟨List.replicate n 0, by simp⟩

end Octets

namespace Bytes

/-- Bytewise exclusive or, as long as the shorter of the two. -/
def xor (a b : Bytes) : Bytes := List.zipWith (· ^^^ ·) a b

@[simp] theorem length_xor (a b : Bytes) : (xor a b).length = min a.length b.length := by
  simp [xor]

theorem xor_xor_cancel {a b : Bytes} (h : a.length ≤ b.length) : xor (xor a b) b = a := by
  induction a generalizing b with
  | nil => simp [xor]
  | cons x xs ih =>
    cases b with
    | nil => simp at h
    | cons y ys =>
      have hrest := ih (b := ys) (by simpa using h)
      simp only [xor] at hrest
      simp only [xor, List.zipWith_cons_cons, hrest]
      rw [UInt8.xor_assoc, UInt8.xor_self, UInt8.xor_zero]

end Bytes

end SealedPoll
