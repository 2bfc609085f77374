import Mathlib
import SealedPoll.Cipher.Gcm

/-!
# The field of `2 ^ 128` elements

A block stands for a residue of polynomials over the two-element field modulo
`x ^ 128 + x ^ 7 + x ^ 2 + x + 1`, its first bit being the constant term (`Gcm.residue`).

* `Gcm.residue_mul`, `Gcm.residue_injective` : the product of blocks is the product of residues, and
  different blocks are different residues;
* `Gcm.modulus_irreducible` : by Rabin's test, whose 128 squarings and one product are products of
  blocks;
* `Gcm.mul_injective_left` : there are no zero divisors, so that a factor other than zero can be
  cancelled.
-/

open Polynomial

namespace SealedPoll.Cipher.Gcm

/-! ## Blocks as polynomials -/

/-- What `x ^ 128` is reduced to. -/
noncomputable def lowTerms : (ZMod 2)[X] := X ^ 7 + X ^ 2 + X + 1

/-- The polynomial that products are reduced by. -/
noncomputable def modulus : (ZMod 2)[X] := X ^ 128 + lowTerms

/-- The coefficient that a bit stands for. -/
def bitCoeff (b : Bool) : ZMod 2 := if b then 1 else 0

/-- The polynomial of degree below 128 whose coefficients are the bits of a block. -/
noncomputable def polynomial (b : Block) : (ZMod 2)[X] :=
  ∑ i ∈ Finset.range 128, C (bitCoeff (b.getMsbD i)) * X ^ i

/-- The block of the polynomial `x ^ k`. -/
def monomial (k : Nat) : Block := BitVec.twoPow 128 (127 - k)

theorem modulus_monic : modulus.Monic := by
  unfold modulus lowTerms
  apply monic_X_pow_add
  compute_degree!

theorem natDegree_modulus : modulus.natDegree = 128 := by
  unfold modulus lowTerms
  compute_degree!

theorem degree_modulus : modulus.degree = 128 := by
  rw [degree_eq_natDegree modulus_monic.ne_zero, natDegree_modulus]
  rfl

theorem bitCoeff_xor (a b : Bool) : bitCoeff (a ^^ b) = bitCoeff a + bitCoeff b := by
  cases a <;> cases b <;> decide

theorem coeff_polynomial (b : Block) (i : Nat) :
    (polynomial b).coeff i = bitCoeff (b.getMsbD i) := by
  by_cases hi : i < 128
  · simp [polynomial, coeff_X_pow, hi]
  · have hbit : bitCoeff (b.getMsbD i) = 0 := by
      rw [BitVec.getMsbD_of_ge _ _ (Nat.not_lt.1 hi)]
      rfl
    simp [polynomial, coeff_X_pow, hi, hbit]

theorem polynomial_injective : Function.Injective polynomial := by
  intro a b h
  apply BitVec.eq_of_getMsbD_eq
  intro i _
  have hbit := congrArg (fun p => p.coeff i) h
  simp only [coeff_polynomial] at hbit
  revert hbit
  cases a.getMsbD i <;> cases b.getMsbD i <;> simp [bitCoeff]

theorem degree_polynomial_lt (b : Block) : (polynomial b).degree < 128 := by
  refine (degree_lt_iff_coeff_zero _ 128).2 fun i hi => ?_
  rw [coeff_polynomial, BitVec.getMsbD_of_ge _ _ hi]
  rfl

theorem polynomial_xor (a b : Block) : polynomial (a ^^^ b) = polynomial a + polynomial b := by
  ext i
  rw [coeff_add, coeff_polynomial, coeff_polynomial, coeff_polynomial, BitVec.getMsbD_xor,
    bitCoeff_xor]

theorem polynomial_zero : polynomial 0 = 0 := by
  ext i
  simp [coeff_polynomial, bitCoeff]

theorem polynomial_monomial {k : Nat} (hk : k < 128) : polynomial (monomial k) = X ^ k := by
  ext i
  rw [coeff_polynomial, coeff_X_pow, monomial, BitVec.getMsbD_eq_getLsbD, BitVec.getLsbD_twoPow]
  by_cases hi : i < 128
  · have hindex : 127 - k = 127 - i ↔ i = k := by omega
    simp [hi, hindex, show 127 - k < 128 by omega, bitCoeff]
  · simp [hi, show ¬ i = k by omega, bitCoeff]

theorem polynomial_reduction : polynomial reduction = lowTerms := by
  have hsum : reduction = monomial 7 ^^^ monomial 2 ^^^ monomial 1 ^^^ monomial 0 := by decide
  rw [hsum, polynomial_xor, polynomial_xor, polynomial_xor, polynomial_monomial (by decide),
    polynomial_monomial (by decide), polynomial_monomial (by decide),
    polynomial_monomial (by decide), pow_one, pow_zero, lowTerms]

/-- A shift drops the coefficient of `x ^ 128`. -/
theorem polynomial_shift (v : Block) :
    polynomial (v >>> 1) + C (bitCoeff (v.getMsbD 127)) * X ^ 128 = X * polynomial v := by
  ext i
  rw [coeff_add, coeff_polynomial, coeff_C_mul, coeff_X_pow, BitVec.getMsbD_ushiftRight]
  cases i with
  | zero => simp [bitCoeff]
  | succ i =>
    rw [coeff_X_mul, coeff_polynomial]
    rcases Nat.lt_trichotomy i 127 with hi | rfl | hi
    · simp [show i + 1 < 128 by omega, show ¬ i = 127 by omega]
    · simp [bitCoeff]
    · simp [show ¬ i + 1 < 128 by omega, show ¬ i = 127 by omega, bitCoeff,
        BitVec.getMsbD_of_ge v i (by omega)]

/-! ## Blocks as residues -/

/-- The residue that a block stands for. -/
noncomputable def residue (b : Block) : AdjoinRoot modulus := AdjoinRoot.mk modulus (polynomial b)

/-- Polynomials of smaller degree than the modulus are their own residues. -/
theorem eq_of_mk_eq {m p q : (ZMod 2)[X]} (hm : m.Monic) (hp : p.degree < m.degree)
    (hq : q.degree < m.degree) (h : AdjoinRoot.mk m p = AdjoinRoot.mk m q) : p = q := by
  by_contra hne
  have hdegree : (p - q).degree < m.degree := (degree_sub_le p q).trans_lt (max_lt hp hq)
  exact hm.not_dvd_of_degree_lt (sub_ne_zero.2 hne) hdegree (AdjoinRoot.mk_eq_mk.1 h)

theorem residue_injective : Function.Injective residue := by
  intro a b h
  have hlt : ∀ c, (polynomial c).degree < modulus.degree := by
    intro c
    rw [degree_modulus]
    exact degree_polynomial_lt c
  exact polynomial_injective (eq_of_mk_eq modulus_monic (hlt a) (hlt b) h)

theorem residue_xor (a b : Block) : residue (a ^^^ b) = residue a + residue b := by
  rw [residue, polynomial_xor, map_add, residue, residue]

theorem residue_zero : residue 0 = 0 := by
  rw [residue, polynomial_zero, map_zero]

theorem residue_monomial {k : Nat} (hk : k < 128) :
    residue (monomial k) = AdjoinRoot.root modulus ^ k := by
  rw [residue, polynomial_monomial hk, map_pow, AdjoinRoot.mk_X]

theorem root_pow : AdjoinRoot.root modulus ^ 128 = AdjoinRoot.mk modulus lowTerms := by
  have hmodulus : modulus = X ^ 128 + lowTerms := by
    unfold modulus
    rfl
  have hzero := congrArg (AdjoinRoot.mk modulus) hmodulus
  rw [AdjoinRoot.mk_self, map_add, map_pow, AdjoinRoot.mk_X] at hzero
  rw [eq_neg_of_add_eq_zero_left hzero.symm, ZModModule.neg_eq_self]

theorem residue_mulX (v : Block) : residue (mulX v) = AdjoinRoot.root modulus * residue v := by
  have hshift := congrArg (AdjoinRoot.mk modulus) (polynomial_shift v)
  simp only [map_add, map_mul, map_pow, AdjoinRoot.mk_X, root_pow] at hshift
  rw [residue, residue, ← hshift, mulX, BitVec.getLsbD_eq_getMsbD]
  cases v.getMsbD 127 with
  | false => simp [bitCoeff]
  | true => simp [bitCoeff, polynomial_xor, polynomial_reduction]

/-- Bit `i` of the first factor adds the second one times `x ^ i`. -/
theorem residue_mulSteps (a b : Block) (k : Nat) :
    let s := (List.range k).foldl (mulStep a) (0, b)
    residue s.2 = AdjoinRoot.root modulus ^ k * residue b ∧
      residue s.1 = (∑ i ∈ Finset.range k,
        AdjoinRoot.of modulus (bitCoeff (a.getMsbD i)) * AdjoinRoot.root modulus ^ i) * residue b := by
  induction k with
  | zero => exact ⟨by simp, by rw [List.range_zero, List.foldl_nil, residue_zero]; simp⟩
  | succ k ih =>
    obtain ⟨hmultiple, hsum⟩ := ih
    simp only [List.range_succ, List.foldl_append, List.foldl_cons, List.foldl_nil, mulStep]
    refine ⟨by rw [residue_mulX, hmultiple, pow_succ']; ring, ?_⟩
    rw [Finset.sum_range_succ, add_mul, ← hsum]
    cases a.getMsbD k with
    | false => simp [bitCoeff]
    | true => rw [if_pos rfl, residue_xor, hmultiple, bitCoeff, if_pos rfl, map_one, one_mul]

theorem residue_mul (a b : Block) : residue (mul a b) = residue a * residue b := by
  rw [mul, (residue_mulSteps a b 128).2]
  simp [residue, polynomial]

/-! ## Irreducibility -/

/-- Rabin's test for a degree that is a power of two: an irreducible factor of smaller degree would
divide `x ^ (2 ^ (2 ^ k)) - x`, which has an inverse. -/
theorem irreducible_of_dvd {m inverse : (ZMod 2)[X]} {k : Nat} (hmonic : m.Monic)
    (hdegree : m.natDegree = 2 ^ (k + 1)) (hfull : m ∣ X ^ 2 ^ 2 ^ (k + 1) - X)
    (hhalf : m ∣ (X ^ 2 ^ 2 ^ k - X) * inverse - 1) : Irreducible m := by
  have hpos : m.natDegree ≠ 0 := by
    rw [hdegree]
    exact (Nat.two_pow_pos _).ne'
  obtain ⟨factor, hfactor, hdvd⟩ := exists_irreducible_of_natDegree_ne_zero hpos
  have hroots : ∀ n, factor.natDegree ∣ n ↔ factor ∣ X ^ 2 ^ n - X := by
    intro n
    rw [hfactor.natDegree_dvd_iff_dvd_X_pow_card_pow_sub_X, Nat.card_zmod]
  obtain ⟨j, hj, hfactorDegree⟩ :=
    (Nat.dvd_prime_pow Nat.prime_two).1 ((hroots _).2 (hdvd.trans hfull))
  have hlarge : ¬ j ≤ k := by
    intro hle
    have hroot := (hroots (2 ^ k)).1 (hfactorDegree ▸ pow_dvd_pow 2 hle)
    have hone : factor ∣ 1 := by
      have hsub := (hroot.mul_right inverse).sub (hdvd.trans hhalf)
      rwa [sub_sub_cancel] at hsub
    exact hfactor.not_isUnit (isUnit_of_dvd_one hone)
  obtain rfl : j = k + 1 := by omega
  have hle : m.natDegree ≤ factor.natDegree := by rw [hdegree, hfactorDegree]
  exact (associated_of_dvd_of_natDegree_le hdvd hmonic.ne_zero hle).irreducible hfactor

/-- The block of `x ^ (2 ^ 64)`. -/
def halfway : Block := 0x6f9945a9e519a7229d4c1ad657f8a686

/-- The inverse of `x ^ (2 ^ 64) - x`. -/
def differenceInverse : Block := 0x180da934bf53158251c13dbb149f5279

theorem squared_monomial_one : (fun c => mul c c)^[64] (monomial 1) = halfway := by
  decide +kernel

theorem squared_halfway : (fun c => mul c c)^[64] halfway = monomial 1 := by
  decide +kernel

theorem mul_differenceInverse : mul (halfway ^^^ monomial 1) differenceInverse = monomial 0 := by
  decide +kernel

theorem residue_squared (b : Block) (n : Nat) :
    residue ((fun c => mul c c)^[n] b) = residue b ^ 2 ^ n := by
  induction n with
  | zero => simp
  | succ n ih => rw [Function.iterate_succ_apply', residue_mul, ih, pow_succ, pow_mul, sq]

theorem mk_X_pow_sub_X (n : Nat) :
    AdjoinRoot.mk modulus (X ^ 2 ^ n - X) =
      residue ((fun c => mul c c)^[n] (monomial 1)) - residue (monomial 1) := by
  rw [residue_squared, residue_monomial (by decide), pow_one, map_sub, map_pow, AdjoinRoot.mk_X]

theorem modulus_dvd_full : modulus ∣ X ^ 2 ^ 2 ^ (6 + 1) - X := by
  have hfull : (fun c => mul c c)^[2 ^ (6 + 1)] (monomial 1) = monomial 1 := by
    rw [show 2 ^ (6 + 1) = 64 + 64 from rfl, Function.iterate_add_apply, squared_monomial_one,
      squared_halfway]
  rw [← AdjoinRoot.mk_eq_zero, mk_X_pow_sub_X, hfull, sub_self]

theorem modulus_dvd_half :
    modulus ∣ (X ^ 2 ^ 2 ^ 6 - X) * polynomial differenceInverse - 1 := by
  have hone : residue (monomial 0) = 1 := by rw [residue_monomial (by decide), pow_zero]
  rw [← AdjoinRoot.mk_eq_zero, map_sub, map_mul, mk_X_pow_sub_X, show 2 ^ 6 = 64 from rfl,
    squared_monomial_one, map_one, sub_eq_zero, sub_eq_add_neg, ZModModule.neg_eq_self,
    ← residue_xor]
  change _ * residue differenceInverse = 1
  rw [← residue_mul, mul_differenceInverse, hone]

/-- **Products of blocks are products in a field.** -/
theorem modulus_irreducible : Irreducible modulus := by
  have hdegree : modulus.natDegree = 2 ^ (6 + 1) := natDegree_modulus
  exact irreducible_of_dvd modulus_monic hdegree modulus_dvd_full modulus_dvd_half

/-- A factor other than zero can be cancelled. -/
theorem mul_injective_left {h : Block} (hh : h ≠ 0) : Function.Injective fun a => mul a h := by
  intro a b hab
  have hresidue : residue h ≠ 0 := by
    rw [← residue_zero]
    exact fun hzero => hh (residue_injective hzero)
  have hfield := fact_iff.2 modulus_irreducible
  have hproduct := congrArg residue hab
  simp only [residue_mul] at hproduct
  exact residue_injective (mul_right_cancel₀ hresidue hproduct)

end SealedPoll.Cipher.Gcm
