import SealedPoll.Curve.Edwards
import SealedPoll.Proofs.Curve.Field

/-!
# Points of the twisted Edwards curve

* `OnEdwards` : the equation of the curve for affine coordinates; `OnEdwards.product_ne`,
  `OnEdwards.sum` : the addition law has no exceptions, and sums are on the curve again;
* `Point.Same` : two points on the curve with the same affine coordinates (`Point.affine`); all
  operations keep this (`Point.Same.add`, `Point.Same.mul`) and no encoding tells the two apart
  (`Point.Same.encode_eq`).
-/

namespace SealedPoll.Curve

/-! ## The curve -/

/-- Affine coordinates of a point of the curve. -/
def OnEdwards (x y : FieldElement) : Prop := y * y - x * x = 1 + coefficient * (x * x) * (y * y)

theorem rootOfMinusOne_mul_self : rootOfMinusOne * rootOfMinusOne = -1 := by decide +kernel

theorem power_coefficient : power coefficient ((prime - 1) / 2) = -1 := by decide +kernel

/-- The coefficient is no square. -/
theorem mul_self_ne_coefficient (r : FieldElement) : r * r ≠ coefficient :=
  mul_self_ne_of_power power_coefficient r

namespace OnEdwards

variable {x₁ y₁ x₂ y₂ x₃ y₃ e : FieldElement}

/-- An exception of the addition law would make the coefficient a square. -/
theorem cross_eq_zero (h₁ : OnEdwards x₁ y₁) (h₂ : OnEdwards x₂ y₂)
    (he : e = coefficient * x₁ * x₂ * y₁ * y₂) (hone : e * e = 1) {i : FieldElement}
    (hi : i * i = -1) : x₁ * y₁ * (i * x₂ + y₂) = 0 := by
  unfold OnEdwards at h₁ h₂
  by_contra hw
  -- the coefficient is the square of the quotient of `i x₁ + e y₁` and the product
  have hsquares : (i * x₁ + e * y₁) * (i * x₁ + e * y₁) =
      coefficient * (x₁ * y₁ * (i * x₂ + y₂)) * (x₁ * y₁ * (i * x₂ + y₂)) := by
    subst he
    linear_combination h₁ - coefficient * x₁ * x₁ * y₁ * y₁ * h₂ +
      (y₁ * y₁ - 1) * hone + (x₁ * x₁ - coefficient * x₁ * x₁ * y₁ * y₁ * x₂ * x₂) * hi
  apply mul_self_ne_coefficient ((i * x₁ + e * y₁) * (x₁ * y₁ * (i * x₂ + y₂))⁻¹)
  generalize x₁ * y₁ * (i * x₂ + y₂) = w at hw hsquares
  field_simp
  linear_combination hsquares

theorem product_ne (h₁ : OnEdwards x₁ y₁) (h₂ : OnEdwards x₂ y₂)
    (he : e = coefficient * x₁ * x₂ * y₁ * y₂) : e * e ≠ 1 := by
  intro hone
  have hroot : -rootOfMinusOne * -rootOfMinusOne = -1 := by
    rw [neg_mul_neg, rootOfMinusOne_mul_self]
  -- both roots of minus one give a product that is zero, and `e` divides their sum
  have hplus := cross_eq_zero h₁ h₂ he hone rootOfMinusOne_mul_self
  have hminus := cross_eq_zero h₁ h₂ he hone hroot
  have hdouble : 2 * e = 0 := by
    subst he
    linear_combination coefficient * x₂ * (hplus + hminus)
  have hzero : e = 0 := (mul_eq_zero.1 hdouble).resolve_left two_ne_zero
  rw [hzero, mul_zero] at hone
  exact zero_ne_one hone

/-- No denominator of a sum is zero. -/
theorem denominators_ne (h₁ : OnEdwards x₁ y₁) (h₂ : OnEdwards x₂ y₂)
    (he : e = coefficient * x₁ * x₂ * y₁ * y₂) : 1 + e ≠ 0 ∧ 1 - e ≠ 0 := by
  have hne := product_ne h₁ h₂ he
  constructor
  · intro h
    exact hne (by linear_combination (e - 1) * h)
  · intro h
    exact hne (by linear_combination -(1 + e) * h)

theorem sum_mul (h₁ : OnEdwards x₁ y₁) (h₂ : OnEdwards x₂ y₂)
    (he : e = coefficient * x₁ * x₂ * y₁ * y₂) :
    (1 + e) * (1 + e) * ((y₁ * y₂ + x₁ * x₂) * (y₁ * y₂ + x₁ * x₂)) -
        (1 - e) * (1 - e) * ((x₁ * y₂ + y₁ * x₂) * (x₁ * y₂ + y₁ * x₂)) =
      (1 + e) * (1 - e) * ((1 + e) * (1 - e)) +
        coefficient * ((x₁ * y₂ + y₁ * x₂) * (x₁ * y₂ + y₁ * x₂)) *
          ((y₁ * y₂ + x₁ * x₂) * (y₁ * y₂ + x₁ * x₂)) := by
  unfold OnEdwards at h₁ h₂
  subst he
  linear_combination
    (1 + coefficient * (x₁ * x₁) * (y₁ * y₁) * (coefficient * (x₂ * x₂) * (y₂ * y₂))) *
      ((y₂ * y₂ - x₂ * x₂) * h₁ + (1 + coefficient * (x₁ * x₁) * (y₁ * y₁)) * h₂) -
    coefficient * (x₁ * x₁) * (y₁ * y₁) *
      (y₂ * y₂ - x₂ * x₂ + 1 + coefficient * (x₂ * x₂) * (y₂ * y₂)) * h₂ -
    coefficient * (x₂ * x₂) * (y₂ * y₂) *
      (y₁ * y₁ - x₁ * x₁ + 1 + coefficient * (x₁ * x₁) * (y₁ * y₁)) * h₁

theorem sum (h₁ : OnEdwards x₁ y₁) (h₂ : OnEdwards x₂ y₂)
    (he : e = coefficient * x₁ * x₂ * y₁ * y₂) (hx : x₃ * (1 + e) = x₁ * y₂ + y₁ * x₂)
    (hy : y₃ * (1 - e) = y₁ * y₂ + x₁ * x₂) : OnEdwards x₃ y₃ := by
  have hdenominator : (1 + e) * (1 - e) ≠ 0 := by
    intro hzero
    exact product_ne h₁ h₂ he (by linear_combination -hzero)
  have hsum := sum_mul h₁ h₂ he
  -- the numerators are the coordinates times their denominators, which can be cancelled
  rw [← hx, ← hy] at hsum
  apply mul_left_cancel₀ (mul_ne_zero hdenominator hdenominator)
  linear_combination hsum

end OnEdwards

/-! ## Points -/

namespace Point

/-- The affine coordinates. -/
def affine (p : Point) : FieldElement × FieldElement := (p.x * inverse p.z, p.y * inverse p.z)

/-- A point of the curve. -/
structure OnCurve (p : Point) : Prop where
  z_ne : p.z ≠ 0
  equation : OnEdwards p.affine.1 p.affine.2

/-- Points of the curve with the same affine coordinates. -/
structure Same (p q : Point) : Prop where
  left : OnCurve p
  right : OnCurve q
  affine : p.affine = q.affine

variable {p q p' q' : Point}

theorem OnCurve.same (h : OnCurve p) : Same p p := ⟨h, h, rfl⟩

theorem affine_fst_mul (h : p.z ≠ 0) : p.affine.1 * p.z = p.x := by
  rw [affine, inverse_eq_inv, mul_assoc, inv_mul_cancel₀ h, mul_one]

theorem affine_snd_mul (h : p.z ≠ 0) : p.affine.2 * p.z = p.y := by
  rw [affine, inverse_eq_inv, mul_assoc, inv_mul_cancel₀ h, mul_one]

/-- The product that the denominators of the addition law are made of. -/
def crossProduct (p q : Point) : FieldElement :=
  coefficient * p.affine.1 * q.affine.1 * p.affine.2 * q.affine.2

theorem crossProduct_ne (hp : OnCurve p) (hq : OnCurve q) :
    1 + crossProduct p q ≠ 0 ∧ 1 - crossProduct p q ≠ 0 :=
  OnEdwards.denominators_ne hp.equation hq.equation rfl

/-- A sum in terms of affine coordinates, up to the common factor of all three coordinates. -/
theorem add_eq (hp : p.z ≠ 0) (hq : q.z ≠ 0) :
    p.add q =
      ⟨(p.affine.1 * q.affine.2 + p.affine.2 * q.affine.1) * (1 - crossProduct p q) *
          (p.z * q.z) ^ 4,
        (p.affine.2 * q.affine.2 + p.affine.1 * q.affine.1) * (1 + crossProduct p q) *
          (p.z * q.z) ^ 4,
        (1 + crossProduct p q) * (1 - crossProduct p q) * (p.z * q.z) ^ 4⟩ := by
  simp only [add, crossProduct, mk.injEq]
  rw [← affine_fst_mul hp, ← affine_fst_mul hq, ← affine_snd_mul hp, ← affine_snd_mul hq]
  refine ⟨?_, ?_, ?_⟩ <;> ring

theorem add_z_ne (hp : OnCurve p) (hq : OnCurve q) : (p.add q).z ≠ 0 := by
  obtain ⟨hplus, hminus⟩ := crossProduct_ne hp hq
  rw [add_eq hp.z_ne hq.z_ne]
  exact mul_ne_zero (mul_ne_zero hplus hminus) (pow_ne_zero 4 (mul_ne_zero hp.z_ne hq.z_ne))

theorem affine_add_mul (hp : OnCurve p) (hq : OnCurve q) :
    (p.add q).affine.1 * (1 + crossProduct p q) =
        p.affine.1 * q.affine.2 + p.affine.2 * q.affine.1 ∧
      (p.add q).affine.2 * (1 - crossProduct p q) =
        p.affine.2 * q.affine.2 + p.affine.1 * q.affine.1 := by
  obtain ⟨hplus, hminus⟩ := crossProduct_ne hp hq
  have hz := add_z_ne hp hq
  have hfst := affine_fst_mul hz
  have hsnd := affine_snd_mul hz
  have hfactor := pow_ne_zero 4 (mul_ne_zero hp.z_ne hq.z_ne)
  generalize (p.add q).affine = sum at hfst hsnd ⊢
  rw [add_eq hp.z_ne hq.z_ne] at hfst hsnd
  constructor
  · apply mul_right_cancel₀ (mul_ne_zero hminus hfactor)
    linear_combination hfst
  · apply mul_right_cancel₀ (mul_ne_zero hplus hfactor)
    linear_combination hsnd

theorem OnCurve.add (hp : OnCurve p) (hq : OnCurve q) : OnCurve (p.add q) := by
  obtain ⟨hfst, hsnd⟩ := affine_add_mul hp hq
  exact ⟨add_z_ne hp hq, OnEdwards.sum hp.equation hq.equation rfl hfst hsnd⟩

theorem OnCurve.neg (hp : OnCurve p) : OnCurve p.neg := by
  refine ⟨hp.z_ne, ?_⟩
  have hequation := hp.equation
  simp only [OnEdwards, affine, Point.neg, neg_mul, mul_neg, neg_neg] at hequation ⊢
  exact hequation

namespace Same

protected theorem add (hp : Same p p') (hq : Same q q') : Same (p.add q) (p'.add q') := by
  refine ⟨hp.left.add hq.left, hp.right.add hq.right, ?_⟩
  obtain ⟨hfst, hsnd⟩ := affine_add_mul hp.left hq.left
  obtain ⟨hfst', hsnd'⟩ := affine_add_mul hp.right hq.right
  obtain ⟨hplus, hminus⟩ := crossProduct_ne hp.left hq.left
  -- the coordinates of both sums solve the same linear equations
  have hcross : crossProduct p' q' = crossProduct p q := by
    rw [crossProduct, crossProduct, hp.affine, hq.affine]
  rw [hcross, ← hp.affine, ← hq.affine] at hfst' hsnd'
  apply Prod.ext
  · exact mul_right_cancel₀ hplus (hfst.trans hfst'.symm)
  · exact mul_right_cancel₀ hminus (hsnd.trans hsnd'.symm)

protected theorem neg (h : Same p q) : Same p.neg q.neg := by
  refine ⟨h.left.neg, h.right.neg, ?_⟩
  obtain ⟨hfst, hsnd⟩ := Prod.mk.inj h.affine
  simp only [Point.affine, Point.neg, neg_mul, hfst, hsnd]

theorem foldl {bits : List Bool} {sum sum' : Point} (h : Same p q) (hsum : Same sum sum') :
    Same (bits.foldl (fun s bit => if bit then (s.add s).add p else s.add s) sum)
      (bits.foldl (fun s bit => if bit then (s.add s).add q else s.add s) sum') := by
  induction bits generalizing sum sum' with
  | nil => exact hsum
  | cons bit bits ih =>
    cases bit with
    | false => exact ih (hsum.add hsum)
    | true => exact ih ((hsum.add hsum).add h)

end Same

theorem onCurve_identity : OnCurve identity := by
  refine ⟨by decide, ?_⟩
  unfold OnEdwards
  decide +kernel

theorem onCurve_base : OnCurve base := by
  refine ⟨by decide, ?_⟩
  unfold OnEdwards
  decide +kernel

namespace Same

protected theorem mul (h : Same p q) (n : Nat) : Same (mul n p) (mul n q) :=
  foldl h onCurve_identity.same

theorem encode_eq (h : Same p q) : p.encode = q.encode := by
  obtain ⟨hfst, hsnd⟩ := Prod.mk.inj h.affine
  simp only [encode, hfst, hsnd]

end Same

theorem isIdentity_iff (h : p.z ≠ 0) : p.isIdentity = true ↔ p.affine = (0, 1) := by
  rw [isIdentity, Bool.and_eq_true, decide_eq_true_iff, decide_eq_true_iff, Prod.ext_iff]
  have hfst := affine_fst_mul h
  have hsnd := affine_snd_mul h
  constructor
  · rintro ⟨hx, hy⟩
    constructor
    · exact (mul_eq_zero.1 (hfst.trans hx)).resolve_right h
    · exact mul_right_cancel₀ h (by rw [hsnd, hy, one_mul])
  · rintro ⟨hx, hy⟩
    rw [hx, zero_mul] at hfst
    rw [hy, one_mul] at hsnd
    exact ⟨hfst.symm, hsnd.symm⟩

namespace Same

theorem isIdentity_eq (h : Same p q) : p.isIdentity = q.isIdentity := by
  rw [Bool.eq_iff_iff, isIdentity_iff h.left.z_ne, isIdentity_iff h.right.z_ne, h.affine]

theorem isSmallOrder_eq (h : Same p q) : p.isSmallOrder = q.isSmallOrder := by
  have htwo := h.add h
  have hfour := htwo.add htwo
  exact (hfour.add hfour).isIdentity_eq

end Same

end Point

end SealedPoll.Curve
