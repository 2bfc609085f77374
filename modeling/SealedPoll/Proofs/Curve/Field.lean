import Mathlib
import SealedPoll.Curve.Field

/-!
# The integers modulo `2 ^ 255 - 19` are a field

* `foldl_highBits` : what a fold along the bits of a number arrives at;
* `squareMultiply` : what `power` computes, modulo any number (`squareMultiply_eq_pow`,
  `power_eq_pow`);
* `Lucas.prime_of_checked` : Lucas's test for a number whose predecessor is a product of known
  primes; `prime_prime` : by a chain of such tests;
* `FieldElement` is a field with `inverse` as its inverse (`inverse_eq_inv`);
* `pow_half_eq_one_or` : half way to Fermat's power stand one and minus one, and minus one only if
  the number is no square (`mul_self_ne_of_power`).
-/

open scoped Fin.CommRing

namespace SealedPoll.Curve

/-! ## Powers -/

/-- Horner's scheme along the bits of `n`: a step that takes what holds at `k` to what holds at `2 k`,
or one more, arrives at `n`. -/
theorem foldl_highBits {α : Type} {P : Nat → α → Prop} {step : α → Bool → α}
    (hstep : ∀ k s bit, P k s → P (2 * k + bit.toNat) (step s bit)) {k : Nat} {s : α} (h : P k s)
    (width n : Nat) : P (k * 2 ^ width + n % 2 ^ width) ((highBits width n).foldl step s) := by
  induction width generalizing k s with
  | zero => simpa [highBits, Nat.mod_one] using h
  | succ width ih =>
    have hrest := ih (hstep k s (n.testBit width) h)
    have hscalar : (2 * k + (n.testBit width).toNat) * 2 ^ width + n % 2 ^ width =
        k * 2 ^ (width + 1) + n % 2 ^ (width + 1) := by
      rw [Nat.mod_pow_succ, Nat.toNat_testBit, Nat.pow_succ]
      ring
    rwa [hscalar] at hrest

/-- The power by a number below `2 ^ 255`, modulo `p`. -/
def squareMultiply {p : Nat} [NeZero p] (a : Fin p) (n : Nat) : Fin p :=
  (highBits 255 n).foldl (fun y bit => if bit then y * y * a else y * y) 1

theorem squareMultiply_eq_pow {p : Nat} [NeZero p] (a : Fin p) {n : Nat} (h : n < 2 ^ 255) :
    squareMultiply a n = a ^ n := by
  have hstep : ∀ k (y : Fin p) (bit : Bool), y = a ^ k →
      (if bit then y * y * a else y * y) = a ^ (2 * k + bit.toNat) := by
    rintro k _ bit rfl
    have hsquare : a ^ k * a ^ k = a ^ (2 * k) := by rw [Nat.two_mul, pow_add]
    cases bit with
    | false => exact hsquare
    | true => rw [if_pos rfl, hsquare, Bool.toNat_true, pow_succ]
  have hfold := foldl_highBits (P := fun k y => y = a ^ k) hstep (pow_zero a).symm 255 n
  rwa [Nat.zero_mul, Nat.zero_add, Nat.mod_eq_of_lt h] at hfold

theorem power_eq_pow (x : FieldElement) {n : Nat} (h : n < 2 ^ 255) : power x n = x ^ n :=
  squareMultiply_eq_pow x h

/-! ## Lucas's test -/

namespace Lucas

/-- The powers of `a` that Lucas's test looks at, for `p - 1` being the product of `factors`. -/
def Checked (p : Nat) [NeZero p] (a : Fin p) (factors : List Nat) : Prop :=
  p - 1 < 2 ^ 255 ∧ factors.prod = p - 1 ∧ squareMultiply a (p - 1) = 1 ∧
    ∀ q ∈ factors, squareMultiply a ((p - 1) / q) ≠ 1

instance (p : Nat) [NeZero p] (a : Fin p) (factors : List Nat) : Decidable (Checked p a factors) :=
  inferInstanceAs (Decidable (_ ∧ _ ∧ _ ∧ _))

/-- A number that passes the test with prime factors is prime. -/
theorem prime_of_checked {p : Nat} [NeZero p] {a : Fin p} {factors : List Nat}
    (hprime : ∀ q ∈ factors, q.Prime) (h : Checked p a factors) : p.Prime := by
  obtain ⟨hlt, hproduct, hone, hproper⟩ := h
  -- Lucas's test is about residues; the powers were taken of the numbers below `p`
  have hpow : ∀ n ≤ p - 1, ZMod.finEquiv p a ^ n = 1 → squareMultiply a n = 1 := by
    intro n hn hone
    rw [← map_pow, ← squareMultiply_eq_pow a (hn.trans_lt hlt)] at hone
    exact (map_eq_one_iff _ (ZMod.finEquiv p).injective).1 hone
  refine lucas_primality p (ZMod.finEquiv p a) ?_ ?_
  · rw [← map_pow, ← squareMultiply_eq_pow a hlt, hone, map_one]
  · intro q hq hdvd hpower
    rw [← hproduct] at hdvd
    obtain ⟨r, hr, hqr⟩ := (hq.prime.dvd_prod_iff).1 hdvd
    obtain rfl : q = r := (Nat.prime_dvd_prime_iff_eq hq (hprime r hr)).1 hqr
    exact hproper q hr (hpow _ (Nat.div_le_self _ _) hpower)

/-- The last prime of this chain is the largest factor of `2 ^ 255 - 20`. -/
theorem prime_of_chain :
    Nat.Prime 74058212732561358302231226437062788676166966415465897661863160754340907 := by
  have hfirst : Nat.Prime 2773320623 :=
    prime_of_checked (by norm_num)
      (by decide +kernel : Checked 2773320623 5 [2, 2437, 569003])
  have hsecond : Nat.Prime 72106336199 :=
    prime_of_checked (by simp [hfirst]; norm_num)
      (by decide +kernel : Checked 72106336199 7 [2, 13, 2773320623])
  have hthird : Nat.Prime 1919519569386763 :=
    prime_of_checked (by norm_num)
      (by decide +kernel : Checked 1919519569386763 2 [2, 3, 7, 19, 47, 47, 127, 8574133])
  have hfourth : Nat.Prime 31757755568855353 :=
    prime_of_checked (by norm_num)
      (by decide +kernel :
        Checked 31757755568855353 10 [2, 2, 2, 3, 31, 107, 223, 4153, 430751])
  have hfifth : Nat.Prime 75445702479781427272750846543864801 :=
    prime_of_checked (by simp [hsecond, hthird]; norm_num)
      (by decide +kernel :
        Checked 75445702479781427272750846543864801 7
          [2, 2, 2, 2, 2, 3, 3, 5, 5, 75707, 72106336199, 1919519569386763])
  exact prime_of_checked (by simp [hfourth, hfifth]; norm_num)
    (by decide +kernel :
      Checked 74058212732561358302231226437062788676166966415465897661863160754340907 2
        [2, 3, 353, 57467, 132049, 1923133, 31757755568855353, 75445702479781427272750846543864801])

end Lucas

theorem prime_prime : prime.Prime :=
  Lucas.prime_of_checked (by simp [Lucas.prime_of_chain]; norm_num)
    (by decide +kernel : Lucas.Checked prime 2 [2, 2, 3, 65147,
      74058212732561358302231226437062788676166966415465897661863160754340907])

instance : Fact prime.Prime := ⟨prime_prime⟩

/-! ## The field -/

instance : CommRing FieldElement := inferInstance

/-- Fermat's theorem. -/
theorem pow_prime_sub_one {x : FieldElement} (hx : x ≠ 0) : x ^ (prime - 1) = 1 := by
  have hresidue : ZMod.finEquiv prime x ≠ 0 := by simpa using hx
  have hfermat := ZMod.pow_card_sub_one_eq_one hresidue
  rw [← map_pow] at hfermat
  exact (map_eq_one_iff _ (ZMod.finEquiv prime).injective).1 hfermat

theorem inverse_eq_pow (x : FieldElement) : inverse x = x ^ (prime - 2) :=
  power_eq_pow x (by decide)

theorem mul_inverse {x : FieldElement} (hx : x ≠ 0) : x * inverse x = 1 := by
  rw [inverse_eq_pow, ← pow_succ']
  exact pow_prime_sub_one hx

theorem isField : IsField FieldElement :=
  ⟨⟨0, 1, by decide⟩, mul_comm, fun {x} hx => ⟨inverse x, mul_inverse hx⟩⟩

noncomputable instance : Field FieldElement := isField.toField

theorem inverse_eq_inv (x : FieldElement) : inverse x = x⁻¹ := by
  by_cases hx : x = 0
  · rw [hx, inverse_eq_pow, zero_pow (by decide), inv_zero]
  · exact eq_inv_of_mul_eq_one_right (mul_inverse hx)

theorem two_ne_zero : (2 : FieldElement) ≠ 0 := by decide

theorem pow_half_eq_one_or {x : FieldElement} (hx : x ≠ 0) :
    x ^ ((prime - 1) / 2) = 1 ∨ x ^ ((prime - 1) / 2) = -1 := by
  rw [← mul_self_eq_one_iff, ← pow_add]
  exact pow_prime_sub_one hx

/-- Euler's criterion. -/
theorem mul_self_ne_of_power {a : FieldElement} (ha : power a ((prime - 1) / 2) = -1)
    (r : FieldElement) : r * r ≠ a := by
  intro h
  rw [power_eq_pow _ (by decide), ← h, ← pow_two, ← pow_mul] at ha
  have hr : r ≠ 0 := by
    rintro rfl
    rw [zero_pow (by decide)] at ha
    exact absurd ha (by decide)
  have hfermat : r ^ (2 * ((prime - 1) / 2)) = 1 := pow_prime_sub_one hr
  rw [hfermat] at ha
  exact absurd ha (by decide)

end SealedPoll.Curve
