import SealedPoll.Proofs.Curve.Encoding

/-!
# The group of the twisted Edwards curve

* `OnEdwards.fst_assoc_mul`, `OnEdwards.snd_assoc_mul` : the addition law is associative, by one
  polynomial identity for each coordinate;
* `AffinePoint` : the points of the curve, which form a commutative group;
* `Point.Represents` : projective coordinates of an affine point. The operations on coordinates
  compute those of the group (`Represents.add`, `Represents.neg`, `Represents.mul`), and
  `Represents.isSmallOrder_iff` says which order is small;
* `Represents.eq_of_encode_eq` : an encoding belongs to one point.
-/

namespace SealedPoll.Curve

/-! ## Associativity -/

namespace OnEdwards

variable {x₁ y₁ x₂ y₂ x₃ y₃ e f : FieldElement}

theorem neg (h : OnEdwards x₁ y₁) : OnEdwards (-x₁) y₁ := by
  unfold OnEdwards at h ⊢
  linear_combination h

/-- The first coordinates of both sums of three points, with all denominators multiplied out. -/
theorem fst_assoc_mul (h₁ : OnEdwards x₁ y₁) (h₂ : OnEdwards x₂ y₂) (h₃ : OnEdwards x₃ y₃)
    (he : e = coefficient * x₁ * x₂ * y₁ * y₂) (hf : f = coefficient * x₂ * x₃ * y₂ * y₃) :
    ((x₁ * y₂ + y₁ * x₂) * (1 - e) * y₃ + (y₁ * y₂ + x₁ * x₂) * (1 + e) * x₃) *
        ((1 + f) * (1 - f) +
          coefficient * x₁ * y₁ * ((x₂ * y₃ + y₂ * x₃) * (y₂ * y₃ + x₂ * x₃))) =
      (x₁ * ((y₂ * y₃ + x₂ * x₃) * (1 + f)) + y₁ * ((x₂ * y₃ + y₂ * x₃) * (1 - f))) *
        ((1 + e) * (1 - e) +
          coefficient * ((x₁ * y₂ + y₁ * x₂) * (y₁ * y₂ + x₁ * x₂)) * x₃ * y₃) := by
  unfold OnEdwards at h₁ h₂ h₃
  subst he hf
  linear_combination coefficient * x₂ * y₂ *
    ((x₂ * y₂ * (x₂ * (x₁ * x₃ + y₁ * y₃) + y₂ * (x₁ * y₃ + y₁ * x₃)) * (y₃ * y₃ - x₃ * x₃ - 1) +
        x₃ * y₃ * (x₂ * (x₁ * x₃ - y₁ * y₃) + y₂ * (x₁ * y₃ - y₁ * x₃))) * h₁ +
      coefficient * x₁ * x₃ * y₁ * y₃ *
        (x₃ * y₃ * (x₂ * (x₁ * x₃ - y₁ * y₃) - y₂ * (x₁ * y₃ - y₁ * x₃)) -
          x₁ * y₁ * (x₂ * (x₁ * x₃ - y₁ * y₃) + y₂ * (x₁ * y₃ - y₁ * x₃))) * h₂ -
      (x₂ * y₂ * (x₂ * (x₁ * x₃ + y₁ * y₃) + y₂ * (x₁ * y₃ + y₁ * x₃)) * (y₁ * y₁ - x₁ * x₁ - 1) +
        x₁ * y₁ * (x₂ * (x₁ * x₃ - y₁ * y₃) - y₂ * (x₁ * y₃ - y₁ * x₃))) * h₃)

/-- The second coordinates of both sums of three points, likewise. -/
theorem snd_assoc_mul (h₁ : OnEdwards x₁ y₁) (h₂ : OnEdwards x₂ y₂) (h₃ : OnEdwards x₃ y₃)
    (he : e = coefficient * x₁ * x₂ * y₁ * y₂) (hf : f = coefficient * x₂ * x₃ * y₂ * y₃) :
    ((y₁ * y₂ + x₁ * x₂) * (1 + e) * y₃ + (x₁ * y₂ + y₁ * x₂) * (1 - e) * x₃) *
        ((1 + f) * (1 - f) -
          coefficient * x₁ * y₁ * ((x₂ * y₃ + y₂ * x₃) * (y₂ * y₃ + x₂ * x₃))) =
      (y₁ * ((y₂ * y₃ + x₂ * x₃) * (1 + f)) + x₁ * ((x₂ * y₃ + y₂ * x₃) * (1 - f))) *
        ((1 + e) * (1 - e) -
          coefficient * ((x₁ * y₂ + y₁ * x₂) * (y₁ * y₂ + x₁ * x₂)) * x₃ * y₃) := by
  unfold OnEdwards at h₁ h₂ h₃
  subst he hf
  linear_combination coefficient * x₂ * y₂ *
    ((x₂ * y₂ * (x₂ * (x₁ * y₃ + y₁ * x₃) + y₂ * (x₁ * x₃ + y₁ * y₃)) * (y₃ * y₃ - x₃ * x₃ - 1) -
        x₃ * y₃ * (x₂ * (x₁ * y₃ - y₁ * x₃) + y₂ * (x₁ * x₃ - y₁ * y₃))) * h₁ +
      coefficient * x₁ * x₃ * y₁ * y₃ *
        (x₁ * y₁ * (x₂ * (x₁ * y₃ - y₁ * x₃) + y₂ * (x₁ * x₃ - y₁ * y₃)) +
          x₃ * y₃ * (x₂ * (x₁ * y₃ - y₁ * x₃) - y₂ * (x₁ * x₃ - y₁ * y₃))) * h₂ -
      (x₂ * y₂ * (x₂ * (x₁ * y₃ + y₁ * x₃) + y₂ * (x₁ * x₃ + y₁ * y₃)) * (y₁ * y₁ - x₁ * x₁ - 1) +
        x₁ * y₁ * (x₂ * (x₁ * y₃ - y₁ * x₃) - y₂ * (x₁ * x₃ - y₁ * y₃))) * h₃)

end OnEdwards

/-! ## The group -/

/-- A point of the curve. -/
@[ext] structure AffinePoint where
  x : FieldElement
  y : FieldElement
  onEdwards : OnEdwards x y

namespace AffinePoint

variable {P Q R : AffinePoint}

/-- The product that the denominators of a sum are made of. -/
def cross (P Q : AffinePoint) : FieldElement := coefficient * P.x * Q.x * P.y * Q.y

theorem one_add_cross_ne (P Q : AffinePoint) : 1 + cross P Q ≠ 0 :=
  (OnEdwards.denominators_ne P.onEdwards Q.onEdwards rfl).1

theorem one_sub_cross_ne (P Q : AffinePoint) : 1 - cross P Q ≠ 0 :=
  (OnEdwards.denominators_ne P.onEdwards Q.onEdwards rfl).2

instance : Zero AffinePoint := ⟨⟨0, 1, by unfold OnEdwards; ring⟩⟩

instance : Neg AffinePoint := ⟨fun P => ⟨-P.x, P.y, P.onEdwards.neg⟩⟩

noncomputable instance : Add AffinePoint where
  add P Q :=
    ⟨(P.x * Q.y + P.y * Q.x) * (1 + cross P Q)⁻¹, (P.y * Q.y + P.x * Q.x) * (1 - cross P Q)⁻¹,
      OnEdwards.sum P.onEdwards Q.onEdwards rfl
        (inv_mul_cancel_right₀ (one_add_cross_ne P Q) _)
        (inv_mul_cancel_right₀ (one_sub_cross_ne P Q) _)⟩

@[simp] theorem x_zero : (0 : AffinePoint).x = 0 := rfl

@[simp] theorem y_zero : (0 : AffinePoint).y = 1 := rfl

@[simp] theorem x_neg (P : AffinePoint) : (-P).x = -P.x := rfl

@[simp] theorem y_neg (P : AffinePoint) : (-P).y = P.y := rfl

theorem x_add_mul (P Q : AffinePoint) :
    (P + Q).x * (1 + cross P Q) = P.x * Q.y + P.y * Q.x :=
  inv_mul_cancel_right₀ (one_add_cross_ne P Q) _

theorem y_add_mul (P Q : AffinePoint) :
    (P + Q).y * (1 - cross P Q) = P.y * Q.y + P.x * Q.x :=
  inv_mul_cancel_right₀ (one_sub_cross_ne P Q) _

/-- A sum is determined by its coordinates times their denominators. -/
theorem eq_add_of_mul (hx : R.x * (1 + cross P Q) = P.x * Q.y + P.y * Q.x)
    (hy : R.y * (1 - cross P Q) = P.y * Q.y + P.x * Q.x) : R = P + Q :=
  AffinePoint.ext
    (mul_right_cancel₀ (one_add_cross_ne P Q) (hx.trans (x_add_mul P Q).symm))
    (mul_right_cancel₀ (one_sub_cross_ne P Q) (hy.trans (y_add_mul P Q).symm))

/-- The coordinates of both sums of three points are the same quotients. -/
theorem assoc_mul (P Q R : AffinePoint) :
    ((P + Q).x * R.y + (P + Q).y * R.x) * (1 + cross P (Q + R)) =
        (P.x * (Q + R).y + P.y * (Q + R).x) * (1 + cross (P + Q) R) ∧
      ((P + Q).y * R.y + (P + Q).x * R.x) * (1 - cross P (Q + R)) =
        (P.y * (Q + R).y + P.x * (Q + R).x) * (1 - cross (P + Q) R) := by
  have hfst := OnEdwards.fst_assoc_mul P.onEdwards Q.onEdwards R.onEdwards (e := cross P Q)
    (f := cross Q R) rfl rfl
  have hsnd := OnEdwards.snd_assoc_mul P.onEdwards Q.onEdwards R.onEdwards (e := cross P Q)
    (f := cross Q R) rfl rfl
  -- the coordinates of sums are put into the identities, and their denominators are cancelled
  have hne : (1 + cross P Q) * (1 - cross P Q) * ((1 + cross Q R) * (1 - cross Q R)) ≠ 0 :=
    mul_ne_zero (mul_ne_zero (one_add_cross_ne P Q) (one_sub_cross_ne P Q))
      (mul_ne_zero (one_add_cross_ne Q R) (one_sub_cross_ne Q R))
  rw [← x_add_mul P Q, ← y_add_mul P Q, ← x_add_mul Q R, ← y_add_mul Q R] at hfst hsnd
  have hright : cross P (Q + R) = coefficient * P.x * (Q + R).x * P.y * (Q + R).y := rfl
  have hleft : cross (P + Q) R = coefficient * (P + Q).x * R.x * (P + Q).y * R.y := rfl
  rw [hright, hleft]
  constructor
  · apply mul_left_cancel₀ hne
    linear_combination hfst
  · apply mul_left_cancel₀ hne
    linear_combination hsnd

protected theorem add_assoc (P Q R : AffinePoint) : P + Q + R = P + (Q + R) := by
  obtain ⟨hfst, hsnd⟩ := assoc_mul P Q R
  apply eq_add_of_mul
  · apply mul_right_cancel₀ (one_add_cross_ne (P + Q) R)
    linear_combination (1 + cross P (Q + R)) * x_add_mul (P + Q) R + hfst
  · apply mul_right_cancel₀ (one_sub_cross_ne (P + Q) R)
    linear_combination (1 - cross P (Q + R)) * y_add_mul (P + Q) R + hsnd

protected theorem add_comm (P Q : AffinePoint) : P + Q = Q + P := by
  have hcross : cross Q P = cross P Q := by
    simp only [cross]
    ring
  apply eq_add_of_mul
  · rw [hcross, x_add_mul]
    ring
  · rw [hcross, y_add_mul]
    ring

protected theorem zero_add (P : AffinePoint) : 0 + P = P := by
  symm
  apply eq_add_of_mul
  · simp [cross]
  · simp [cross]

protected theorem neg_add_cancel (P : AffinePoint) : -P + P = 0 := by
  have hequation := P.onEdwards
  unfold OnEdwards at hequation
  symm
  apply eq_add_of_mul
  · simp only [x_zero, x_neg, y_neg]
    ring
  · simp only [y_zero, x_neg, y_neg, cross]
    linear_combination -hequation

noncomputable instance : AddCommGroup AffinePoint where
  add_assoc := AffinePoint.add_assoc
  zero_add := AffinePoint.zero_add
  add_zero P := by rw [AffinePoint.add_comm, AffinePoint.zero_add]
  neg_add_cancel := AffinePoint.neg_add_cancel
  add_comm := AffinePoint.add_comm
  nsmul := nsmulRec
  zsmul := zsmulRec

end AffinePoint

/-! ## Points in projective coordinates -/

namespace Point

/-- The coordinates are those of an affine point. -/
structure Represents (p : Point) (P : AffinePoint) : Prop where
  z_ne : p.z ≠ 0
  x_eq : p.affine.1 = P.x
  y_eq : p.affine.2 = P.y

variable {p q : Point} {P Q : AffinePoint}

theorem OnCurve.exists_represents (h : p.OnCurve) : ∃ P, p.Represents P :=
  ⟨⟨p.affine.1, p.affine.2, h.equation⟩, h.z_ne, rfl, rfl⟩

namespace Represents

theorem onCurve (h : p.Represents P) : p.OnCurve := by
  refine ⟨h.z_ne, ?_⟩
  rw [h.x_eq, h.y_eq]
  exact P.onEdwards

theorem affine_eq (h : p.Represents P) : p.affine = (P.x, P.y) := Prod.ext h.x_eq h.y_eq

theorem same (hp : p.Represents P) (hq : q.Represents P) : p.Same q :=
  ⟨hp.onCurve, hq.onCurve, hp.affine_eq.trans hq.affine_eq.symm⟩

protected theorem add (hp : p.Represents P) (hq : q.Represents Q) :
    (p.add q).Represents (P + Q) := by
  obtain ⟨hfst, hsnd⟩ := affine_add_mul hp.onCurve hq.onCurve
  have hcross : crossProduct p q = AffinePoint.cross P Q := by
    rw [crossProduct, hp.x_eq, hp.y_eq, hq.x_eq, hq.y_eq, AffinePoint.cross]
  rw [hcross, hp.x_eq, hp.y_eq, hq.x_eq, hq.y_eq] at hfst hsnd
  refine ⟨add_z_ne hp.onCurve hq.onCurve, ?_, ?_⟩
  · exact mul_right_cancel₀ (AffinePoint.one_add_cross_ne P Q)
      (hfst.trans (AffinePoint.x_add_mul P Q).symm)
  · exact mul_right_cancel₀ (AffinePoint.one_sub_cross_ne P Q)
      (hsnd.trans (AffinePoint.y_add_mul P Q).symm)

protected theorem neg (h : p.Represents P) : p.neg.Represents (-P) := by
  refine ⟨h.z_ne, ?_, h.y_eq⟩
  rw [AffinePoint.x_neg, ← h.x_eq]
  exact neg_mul p.x _

theorem identity : identity.Represents 0 := by
  refine ⟨by decide, ?_, ?_⟩ <;> decide +kernel

/-- Doubling and adding along the bits of a number comes to the multiple by it. -/
protected theorem mul (h : p.Represents P) {n : Nat} (hn : n < 2 ^ 256) :
    (mul n p).Represents (n • P) := by
  have hstep : ∀ k (s : Point) (bit : Bool), s.Represents (k • P) →
      (if bit then (s.add s).add p else s.add s).Represents ((2 * k + bit.toNat) • P) := by
    intro k s bit hs
    have hdouble := hs.add hs
    rw [← two_nsmul, ← mul_nsmul'] at hdouble
    cases bit with
    | false => exact hdouble
    | true =>
      rw [Bool.toNat_true, succ_nsmul]
      exact hdouble.add h
  have hidentity : Point.identity.Represents (0 • P) := by
    rw [zero_nsmul]
    exact identity
  have hfold := foldl_highBits (P := fun k (s : Point) => s.Represents (k • P)) hstep hidentity 256 n
  rwa [Nat.zero_mul, Nat.zero_add, Nat.mod_eq_of_lt hn] at hfold

theorem isIdentity_iff (h : p.Represents P) : p.isIdentity = true ↔ P = 0 := by
  rw [Point.isIdentity_iff h.z_ne, h.affine_eq, Prod.mk.injEq]
  constructor
  · rintro ⟨hx, hy⟩
    exact AffinePoint.ext hx hy
  · rintro rfl
    exact ⟨rfl, rfl⟩

/-- Small are the orders that divide 8. -/
theorem isSmallOrder_iff (h : p.Represents P) : p.isSmallOrder = true ↔ addOrderOf P ∣ 8 := by
  have htwo := h.add h
  have hfour := htwo.add htwo
  have height := (hfour.add hfour).isIdentity_iff
  rw [addOrderOf_dvd_iff_nsmul_eq_zero]
  simp only [← two_nsmul, ← mul_nsmul'] at height
  exact height

/-! ## Encodings -/

theorem eq_of_encode_eq (hp : p.Represents P) (hq : q.Represents Q) (h : p.encode = q.encode) :
    P = Q := by
  have hread := decode?_encode hp.onCurve
  rw [h, decode?_encode hq.onCurve, hp.affine_eq, hq.affine_eq] at hread
  obtain ⟨hx, hy⟩ : Q.x = P.x ∧ Q.y = P.y := by simpa using hread
  exact AffinePoint.ext hx.symm hy.symm

end Represents

end Point

end SealedPoll.Curve
