import SealedPoll.Proofs.Curve.Signature

/-!
# Key agreement between multiples of the base point

Points of the Edwards curve are taken to the Montgomery curve, where the first coordinate is
`(1 + y) / (1 - y)`.

* `AffinePoint.ratio_double`, `AffinePoint.ratio_add` : the steps of the ladder are the operations of
  the group, up to factors other than zero;
* `scalarMul_coordinate` : the ladder computes the coordinate of a multiple;
* `agree_publicKey_comm`, `agree_publicKey_ne_zero` : two parties share the same secret from either
  side, and it is not zero.
-/

open scoped Fin.CommRing

namespace SealedPoll.Curve

theorem montgomery_coefficient : 486664 * (1 + coefficient) = 4 := by decide +kernel

namespace OnEdwards

variable {x y x' y' e s t u : FieldElement}

theorem neg_snd (h : OnEdwards x y) : OnEdwards x (-y) := by
  unfold OnEdwards at h ⊢
  linear_combination h

/-- The square of the first coordinate, with its denominator multiplied out. -/
theorem mul_self_mul (h : OnEdwards x y) : x * x * (coefficient * (y * y) + 1) = y * y - 1 := by
  unfold OnEdwards at h
  linear_combination -h

/-- What the second coordinates of the sum and of the difference of two points have in common with
the second coordinates of these. -/
theorem sum_difference_mul (h : OnEdwards x y) (h' : OnEdwards x' y')
    (he : e = coefficient * x * x' * y * y') :
    (1 + e + (y * y' - x * x')) * (1 - e + (y * y' + x * x')) *
        ((coefficient * (y * y) + 1) * (coefficient * (y' * y') + 1)) =
      (y + y') * (y + y') * ((1 + coefficient) * (coefficient * (y * y' * (y * y')) + 1)) := by
  subst he
  linear_combination -(1 - coefficient * y * y') ^ 2 *
    (x' * x' * (coefficient * (y' * y') + 1) * h.mul_self_mul + (y * y - 1) * h'.mul_self_mul)

/-- The denominators of the sum and of the difference. -/
theorem denominators_mul (h : OnEdwards x y) (h' : OnEdwards x' y')
    (he : e = coefficient * x * x' * y * y') :
    (1 + coefficient * (y * y + y' * y' - y * y' * (y * y'))) *
        (coefficient * (y * y' * (y * y')) + 1) =
      (coefficient * (y * y) + 1) * (coefficient * (y' * y') + 1) * ((1 - e) * (1 + e)) := by
  subst he
  linear_combination coefficient ^ 2 * (y * y') ^ 2 *
    (x' * x' * (coefficient * (y' * y') + 1) * h.mul_self_mul + (y * y - 1) * h'.mul_self_mul)

/-- The factor between the sum of two points on the ladder and their sum in the group, `t` being the
second coordinate of the difference. -/
def sumFactor (y y' t : FieldElement) : FieldElement :=
  4 * 486664 * (1 + t) * (1 + coefficient * (y * y + y' * y' - y * y' * (y * y')))

/-- The sum has second coordinate `s` and the difference has second coordinate `t`. -/
theorem ladder_sum (h : OnEdwards x y) (h' : OnEdwards x' y')
    (he : e = coefficient * x * x' * y * y') (hs : s * (1 - e) = y * y' + x * x')
    (ht : t * (1 + e) = y * y' - x * x') (hu : u * (1 - t) = 1 + t) (hne : 1 - t ≠ 0) :
    16 * (y + y') ^ 2 = sumFactor y y' t * (1 + s) ∧
      16 * u * (y - y') ^ 2 = sumFactor y y' t * (1 - s) := by
  have hfactor : coefficient * (y * y' * (y * y')) + 1 ≠ 0 := Point.denominator_ne _
  have hdenominators := denominators_mul h h' he
  have hplus := sum_difference_mul h h' he
  have hminus := sum_difference_mul h h'.neg_snd (e := -e) (by rw [he]; ring)
  unfold sumFactor
  constructor
  · apply mul_right_cancel₀ hfactor
    linear_combination -4 * 486664 * (1 + t) * (1 + s) * hdenominators -
      4 * 486664 * ((coefficient * (y * y) + 1) * (coefficient * (y' * y') + 1)) *
        ((1 + s) * (1 - e) * ht + (1 + e + (y * y' - x * x')) * hs) -
      4 * 486664 * hplus -
      4 * (y + y') ^ 2 * (coefficient * (y * y' * (y * y')) + 1) * montgomery_coefficient
  · apply mul_right_cancel₀ (mul_ne_zero hfactor hne)
    linear_combination 16 * (y - y') ^ 2 * (coefficient * (y * y' * (y * y')) + 1) * hu -
      4 * 486664 * (1 + t) * (1 - s) * (1 - t) * hdenominators +
      4 * 486664 * (1 + t) * ((coefficient * (y * y) + 1) * (coefficient * (y' * y') + 1)) *
        ((1 - s) * (1 - e) * ht + (1 + e - y * y' + x * x') * hs) -
      4 * (1 + t) * (y - y') ^ 2 * (coefficient * (y * y' * (y * y')) + 1) *
        montgomery_coefficient -
      4 * 486664 * (1 + t) * hminus

theorem sumFactor_ne (h : OnEdwards x y) (h' : OnEdwards x' y')
    (he : e = coefficient * x * x' * y * y') (ht : 1 + t ≠ 0) : sumFactor y y' t ≠ 0 := by
  obtain ⟨hplus, hminus⟩ := denominators_ne h h' he
  have hproduct := mul_ne_zero
    (mul_ne_zero (Point.denominator_ne y) (Point.denominator_ne y')) (mul_ne_zero hminus hplus)
  rw [← denominators_mul h h' he] at hproduct
  exact mul_ne_zero (mul_ne_zero (by decide) ht) (left_ne_zero_of_mul hproduct)

end OnEdwards

namespace AffinePoint

/-! ## Coordinates on the Montgomery curve -/

/-- The coordinate of a point, the neutral element being the point at infinity. -/
def ratio (P : AffinePoint) : Ratio := ⟨1 + P.y, 1 - P.y⟩

/-- The coordinate of a point, zero for the neutral element. -/
noncomputable def coordinate (P : AffinePoint) : FieldElement := (1 + P.y) * (1 - P.y)⁻¹

variable {P Q : AffinePoint}

/-- The neutral element and the point of order 2 are the only points with a first coordinate of
zero. -/
theorem y_mul_self_ne (h : ¬ addOrderOf P ∣ 8) : (1 - P.y) * (1 + P.y) ≠ 0 := by
  intro hy
  have hx : P.x = 0 := by
    have hproduct : P.x * P.x * (coefficient * (P.y * P.y) + 1) = 0 := by
      linear_combination P.onEdwards.mul_self_mul - hy
    have hsquare := (mul_eq_zero.1 hproduct).resolve_right (Point.denominator_ne P.y)
    exact mul_self_eq_zero.1 hsquare
  have hneg : -P = P := by
    ext1
    · rw [x_neg, hx, neg_zero]
    · rw [y_neg]
  apply h
  have htwo : addOrderOf P ∣ 2 := by
    rw [addOrderOf_dvd_iff_nsmul_eq_zero, two_nsmul]
    nth_rewrite 1 [← hneg]
    exact neg_add_cancel P
  exact htwo.trans (by decide)

theorem coordinate_ne_zero (h : ¬ addOrderOf P ∣ 8) : P.coordinate ≠ 0 := by
  obtain ⟨hminus, hplus⟩ := mul_ne_zero_iff.1 (y_mul_self_ne h)
  exact mul_ne_zero hplus (inv_ne_zero hminus)

/-- Doubling on the ladder is doubling in the group. -/
theorem ratio_double (Q : AffinePoint) :
    Q.ratio.double.Along (nonZeroDivisors FieldElement) (Q + Q).ratio := by
  have hsum := y_add_mul Q Q
  have hcurve := Q.onEdwards
  unfold OnEdwards at hcurve
  refine ⟨2 * 486664 * (1 - cross Q Q) * (coefficient * (Q.y * Q.y) + 1), ?_, ?_, ?_⟩
  · rw [mem_nonZeroDivisors_iff_ne_zero]
    exact mul_ne_zero (mul_ne_zero (by decide) (one_sub_cross_ne Q Q)) (Point.denominator_ne Q.y)
  · simp only [ratio, Ratio.double_eq]
    simp only [cross] at hsum ⊢
    linear_combination -2 * 486664 * (coefficient * (Q.y * Q.y) + 1) * (hsum + hcurve) +
      4 * 486664 * hcurve - 4 * (Q.y * Q.y) * montgomery_coefficient
  · simp only [ratio, Ratio.double_eq]
    simp only [cross] at hsum ⊢
    linear_combination 2 * 486664 * (coefficient * (Q.y * Q.y) + 1) * (hsum - hcurve) -
      4 * (1 - Q.y * Q.y) * (Q.y * Q.y) * montgomery_coefficient

/-- Adding on the ladder is adding in the group, where the coordinate of the difference is neither
zero nor infinite. -/
theorem ratio_add (hP : (1 - P.y) * (1 + P.y) ≠ 0) (Q : AffinePoint) :
    (Ratio.add P.coordinate Q.ratio (Q + P).ratio).Along (nonZeroDivisors FieldElement)
      (Q + (Q + P)).ratio := by
  obtain ⟨hminus, hplus⟩ := mul_ne_zero_iff.1 hP
  have hu : P.coordinate * (1 - P.y) = 1 + P.y := inv_mul_cancel_right₀ hminus _
  have hsum := y_add_mul Q (Q + P)
  have hdifference := y_add_mul (-Q) (Q + P)
  rw [neg_add_cancel_left] at hdifference
  have hcross : cross (-Q) (Q + P) = -cross Q (Q + P) := by
    simp only [cross, x_neg, y_neg]
    ring
  have ht : P.y * (1 + cross Q (Q + P)) = Q.y * (Q + P).y - Q.x * (Q + P).x := by
    rw [hcross, x_neg, y_neg] at hdifference
    linear_combination hdifference
  obtain ⟨hfst, hsnd⟩ := OnEdwards.ladder_sum Q.onEdwards (Q + P).onEdwards rfl hsum ht hu hminus
  refine ⟨OnEdwards.sumFactor Q.y (Q + P).y P.y, ?_, ?_, ?_⟩
  · rw [mem_nonZeroDivisors_iff_ne_zero]
    exact OnEdwards.sumFactor_ne Q.onEdwards (Q + P).onEdwards rfl hplus
  · simp only [ratio, Ratio.add_eq]
    linear_combination hfst
  · simp only [ratio, Ratio.add_eq]
    linear_combination hsnd

/-- The coordinates of the multiples of a point. -/
protected theorem orbit (hP : (1 - P.y) * (1 + P.y) ≠ 0) :
    Orbit (nonZeroDivisors FieldElement) P.coordinate fun k => (k • P).ratio := by
  have hminus := left_ne_zero_of_mul hP
  constructor
  · refine ⟨2⁻¹, mem_nonZeroDivisors_of_ne_zero (inv_ne_zero two_ne_zero), ?_, ?_⟩
    · rw [zero_nsmul, ratio, y_zero, one_add_one_eq_two, inv_mul_cancel₀ two_ne_zero, Ratio.infinity]
    · rw [zero_nsmul, ratio, y_zero, sub_self, mul_zero, Ratio.infinity]
  · refine ⟨(1 - P.y)⁻¹, mem_nonZeroDivisors_of_ne_zero (inv_ne_zero hminus), ?_, ?_⟩
    · rw [one_nsmul, ratio, coordinate, mul_comm]
    · rw [one_nsmul, ratio, inv_mul_cancel₀ hminus]
  · intro k
    rw [two_mul, add_nsmul]
    exact ratio_double (k • P)
  · intro k
    have hsum : (2 * k + 1) • P = k • P + (k • P + P) := by
      rw [two_mul, add_assoc, add_nsmul, succ_nsmul]
    simp only [hsum, succ_nsmul]
    exact ratio_add hP (k • P)

end AffinePoint

/-- **The ladder computes multiples**, of all points whose order does not divide 8. -/
theorem scalarMul_coordinate {P : AffinePoint} (h : ¬ addOrderOf P ∣ 8) {n : Nat}
    (hn : n < 2 ^ 255) : scalarMul n P.coordinate = (n • P).coordinate := by
  have horbit := AffinePoint.orbit (AffinePoint.y_mul_self_ne h)
  obtain ⟨c, hc, hx, hz⟩ := (Ladder.At.run horbit hn).first
  have hc : c ≠ 0 := nonZeroDivisors.ne_zero hc
  simp only [Ladder.first, AffinePoint.ratio] at hx hz
  rw [scalarMul, hx, hz, inverse_eq_inv, AffinePoint.coordinate, mul_inv_rev]
  calc c * (1 + (n • P).y) * ((1 - (n • P).y)⁻¹ * c⁻¹)
      = c * c⁻¹ * ((1 + (n • P).y) * (1 - (n • P).y)⁻¹) := by ring
    _ = (1 + (n • P).y) * (1 - (n • P).y)⁻¹ := by rw [mul_inv_cancel₀ hc, one_mul]

/-! ## Agreement -/

theorem coordinate_basePoint : basePoint.coordinate = 9 := by
  have hbase : 1 + basePoint.y = 9 * (1 - basePoint.y) := by decide +kernel
  have hne : 1 - basePoint.y ≠ 0 := by decide +kernel
  rw [AffinePoint.coordinate, hbase, mul_inv_cancel_right₀ hne]

theorem not_addOrderOf_clamp_dvd (secret : Octets 32) :
    ¬ addOrderOf (clamp secret • basePoint) ∣ 8 := by
  rw [addOrderOf_nsmul_basePoint_dvd_eight_iff]
  exact not_groupOrder_dvd_clamp secret

/-- A public key is the coordinate of a multiple of the base point. -/
theorem ofOctets_publicKey (secret : Octets 32) :
    FieldElement.ofOctets (publicKey secret) = (clamp secret • basePoint).coordinate := by
  have hbase : ¬ addOrderOf basePoint ∣ 8 := by
    rw [addOrderOf_basePoint]
    decide +kernel
  rw [publicKey, FieldElement.ofOctets_toOctets, ← coordinate_basePoint,
    scalarMul_coordinate hbase (clamp_lt secret)]

/-- The shared secret is the coordinate of the multiple by both scalars. -/
theorem agree_publicKey (a b : Octets 32) :
    agree a (publicKey b) = ((clamp a * clamp b) • basePoint).coordinate.toOctets := by
  rw [agree, ofOctets_publicKey, scalarMul_coordinate (not_addOrderOf_clamp_dvd b) (clamp_lt a),
    mul_nsmul']

/-- **Both parties arrive at the same shared secret.** -/
theorem agree_publicKey_comm (a b : Octets 32) : agree a (publicKey b) = agree b (publicKey a) := by
  rw [agree_publicKey, agree_publicKey, Nat.mul_comm]

/-- **The secret shared with the holder of a public key that was made from a private one is not
zero.** -/
theorem agree_publicKey_ne_zero (a b : Octets 32) : agree a (publicKey b) ≠ Octets.zero 32 := by
  intro h
  have hzero : FieldElement.toOctets 0 = Octets.zero 32 := rfl
  rw [agree_publicKey, ← hzero] at h
  refine AffinePoint.coordinate_ne_zero ?_ (FieldElement.toOctets_injective h)
  rw [addOrderOf_nsmul_basePoint_dvd_eight_iff, prime_groupOrder.dvd_mul]
  exact not_or.2 ⟨not_groupOrder_dvd_clamp a, not_groupOrder_dvd_clamp b⟩

end SealedPoll.Curve
