import SealedPoll.Proofs.Curve.Edwards

/-!
# Points are read back from their encodings

* `Point.rootOfQuotient?_of_square`, `Point.mul_of_rootOfQuotient?` : the square root of a quotient
  that is a square is found, up to its sign, and nothing else is;
* `Point.withParity_of_mul_self` : the parity tells the sign;
* `Point.Encodes`, `Point.decode?_eq_some_iff` : which coordinates bytes encode, and that they are read
  as these;
* `Point.decode?_encode` : the encoding of a point of the curve is read as its affine coordinates.
-/

namespace SealedPoll.Curve

theorem FieldElement.isOdd_neg {x : FieldElement} (hx : x ≠ 0) : isOdd (-x) = !isOdd x := by
  have hneg : (-x).val = prime - x.val := by
    rw [Fin.val_neg, if_neg hx]
  have hlt := x.isLt
  have hodd : prime % 2 = 1 := by decide
  have hpositive : 0 < x.val := Nat.pos_of_ne_zero fun h => hx (Fin.ext h)
  rw [isOdd, isOdd, hneg, ← decide_not, decide_eq_decide]
  omega

namespace Point

/-! ## Square roots -/

/-- The candidate for a root of `x * x`. -/
theorem candidate_eq {v : FieldElement} (hv : v ≠ 0) (x : FieldElement) :
    x * x * v * (v * v * v) * power (x * x * v * (v * v * v) * (v * v * v) * v) ((prime - 5) / 8) =
      x ^ ((prime + 3) / 4) := by
  have hexponent : v ^ (8 * ((prime - 5) / 8) + 4) = 1 := pow_prime_sub_one hv
  have hroot : (prime + 3) / 4 = 2 * ((prime - 5) / 8) + 2 := by decide
  rw [power_eq_pow _ (by decide), hroot]
  generalize (prime - 5) / 8 = n at hexponent
  calc x * x * v * (v * v * v) * (x * x * v * (v * v * v) * (v * v * v) * v) ^ n
      = x ^ (2 * n + 2) * v ^ (8 * n + 4) := by ring
    _ = x ^ (2 * n + 2) := by rw [hexponent, mul_one]

theorem rootOfQuotient?_of_square {u v x : FieldElement} (hv : v ≠ 0) (hu : x * x * v = u) :
    ∃ r, rootOfQuotient? u v = some r ∧ r * r = x * x := by
  subst hu
  simp only [rootOfQuotient?, candidate_eq hv]
  by_cases hx : x = 0
  · subst hx
    refine ⟨0, ?_, rfl⟩
    rw [zero_pow (by decide)]
    simp
  · have hsquare : x ^ ((prime + 3) / 4) * x ^ ((prime + 3) / 4) =
        x * x * x ^ ((prime - 1) / 2) := by
      rw [← pow_add, ← pow_two, ← pow_add]
      rfl
    -- the candidate is a root, or its product with the root of minus one is
    generalize x ^ ((prime + 3) / 4) = r at hsquare
    rcases pow_half_eq_one_or hx with hone | hminus
    · rw [hone, mul_one] at hsquare
      refine ⟨r, if_pos ?_, hsquare⟩
      linear_combination v * hsquare
    · rw [hminus] at hsquare
      have hne : v * r * r ≠ x * x * v := by
        intro h
        have hdouble : 2 * (x * x * v) = 0 := by linear_combination v * hsquare - h
        exact mul_ne_zero two_ne_zero (mul_ne_zero (mul_ne_zero hx hx) hv) hdouble
      refine ⟨r * rootOfMinusOne, ?_, ?_⟩
      · rw [if_neg hne, if_pos (by linear_combination v * hsquare)]
      · linear_combination r * r * rootOfMinusOne_mul_self - hsquare

/-- What is found is a root. -/
theorem mul_of_rootOfQuotient? {u v r : FieldElement} (h : rootOfQuotient? u v = some r) :
    r * r * v = u := by
  simp only [rootOfQuotient?] at h
  split at h
  · next hroot =>
    obtain rfl := Option.some.inj h
    linear_combination hroot
  split at h
  · next hopposite =>
    obtain rfl := Option.some.inj h
    generalize u * (v * v * v) * _ = c at hopposite
    linear_combination v * c * c * rootOfMinusOne_mul_self - hopposite
  · cases h

theorem withParity_zero (odd : Bool) : withParity odd 0 = 0 := by
  cases odd <;> decide

theorem mul_self_withParity (odd : Bool) (x : FieldElement) :
    withParity odd x * withParity odd x = x * x := by
  simp only [withParity]
  split <;> split <;> ring

theorem isOdd_withParity {odd : Bool} {x : FieldElement} (h : withParity odd x ≠ 0) :
    odd = (withParity odd x).isOdd := by
  have hx : x ≠ 0 := by
    rintro rfl
    exact h (withParity_zero odd)
  have hneg := FieldElement.isOdd_neg hx
  cases odd <;> cases hodd : x.isOdd <;> simp [withParity, hodd, hneg]

theorem withParity_of_mul_self {r x : FieldElement} (h : r * r = x * x) :
    withParity x.isOdd r = x := by
  rcases mul_self_eq_mul_self_iff.1 h with rfl | rfl
  · simp only [withParity]
    split <;> simp_all
  · by_cases hx : x = 0
    · subst hx
      decide
    · simp only [withParity, FieldElement.isOdd_neg hx]
      cases x.isOdd <;> simp

/-! ## Encodings -/

theorem toNatLE_encode (p : Point) :
    p.encode.toNatLE = p.affine.2.val + if p.affine.1.isOdd then 2 ^ 255 else 0 := by
  have hlt := p.affine.2.isLt
  have hprime : prime < 2 ^ 255 := by decide
  rw [encode, Octets.toNatLE_ofNatLE]
  apply Nat.mod_eq_of_lt
  show p.affine.2.val + (if p.affine.1.isOdd then 2 ^ 255 else 0) < 256 ^ 32
  split <;> omega

theorem ofOctets_encode (p : Point) : FieldElement.ofOctets p.encode = p.affine.2 := by
  have hlt := p.affine.2.isLt
  have hprime : prime < 2 ^ 255 := by decide
  apply Fin.ext
  rw [FieldElement.ofOctets, toNatLE_encode, Fin.val_ofNat]
  generalize p.affine.2.val = y at hlt
  have hlow : (y + if p.affine.1.isOdd then 2 ^ 255 else 0) % 2 ^ 255 = y := by
    split <;> omega
  rw [hlow, Nat.mod_eq_of_lt hlt]

theorem testBit_encode (p : Point) : p.encode.toNatLE.testBit 255 = p.affine.1.isOdd := by
  have hprime : prime < 2 ^ 255 := by decide
  have hlow : p.affine.2.val.testBit 255 = false :=
    Nat.testBit_lt_two_pow (p.affine.2.isLt.trans hprime)
  rw [toNatLE_encode]
  cases p.affine.1.isOdd with
  | false => simpa using hlow
  | true =>
    rw [if_pos rfl, Nat.add_comm, Nat.testBit_two_pow_add_eq, hlow]
    rfl

theorem affine_mk_one (x y : FieldElement) : affine ⟨x, y, 1⟩ = (x, y) := by
  simp only [affine, inverse_eq_inv, inv_one, mul_one]

/-- The first coordinate is always the root of a quotient: the square of no second coordinate is
minus the inverse of the coefficient. -/
theorem denominator_ne (y : FieldElement) : coefficient * (y * y) + 1 ≠ 0 := by
  intro hzero
  have hy : y ≠ 0 := by
    rintro rfl
    rw [mul_zero, mul_zero, zero_add] at hzero
    exact one_ne_zero hzero
  apply mul_self_ne_coefficient (rootOfMinusOne * y⁻¹)
  field_simp
  linear_combination rootOfMinusOne_mul_self - hzero

/-- The bytes give the second coordinate, reduced or not, and the parity of the first unless that is
zero. -/
structure Encodes (bs : Octets 32) (x y : FieldElement) : Prop where
  onEdwards : OnEdwards x y
  y_eq : FieldElement.ofOctets bs = y
  parity : x ≠ 0 → bs.toNatLE.testBit 255 = x.isOdd

theorem encodes_encode {p : Point} (h : OnCurve p) : Encodes p.encode p.affine.1 p.affine.2 :=
  ⟨h.equation, ofOctets_encode p, fun _ => testBit_encode p⟩

theorem encodes_of_decode? {bs : Octets 32} {p : Point} (h : decode? bs = some p) :
    p.z = 1 ∧ Encodes bs p.x p.y := by
  simp only [decode?, Option.map_eq_some_iff] at h
  obtain ⟨r, hr, rfl⟩ := h
  refine ⟨rfl, ?_, rfl, isOdd_withParity⟩
  have hroot := mul_of_rootOfQuotient? hr
  have hsquare := mul_self_withParity (bs.toNatLE.testBit 255) r
  unfold OnEdwards
  linear_combination -hroot - (coefficient * (.ofOctets bs * .ofOctets bs) + 1) * hsquare

theorem decode?_of_encodes {bs : Octets 32} {x y : FieldElement} (h : Encodes bs x y) :
    decode? bs = some ⟨x, y, 1⟩ := by
  have hequation := h.onEdwards
  unfold OnEdwards at hequation
  have hquotient : x * x * (coefficient * (y * y) + 1) = y * y - 1 := by
    linear_combination -hequation
  obtain ⟨r, hr, hsquare⟩ := rootOfQuotient?_of_square (denominator_ne y) hquotient
  have hparity : withParity (bs.toNatLE.testBit 255) r = x := by
    by_cases hx : x = 0
    · subst hx
      obtain rfl : r = 0 := mul_self_eq_zero.1 (hsquare.trans (mul_zero 0))
      exact withParity_zero _
    · rw [h.parity hx]
      exact withParity_of_mul_self hsquare
  simp only [decode?, h.y_eq, hr, Option.map_some, hparity]

/-- Bytes are read as the coordinates that they encode. -/
theorem decode?_eq_some_iff {bs : Octets 32} {p : Point} :
    decode? bs = some p ↔ p.z = 1 ∧ Encodes bs p.x p.y := by
  refine ⟨encodes_of_decode?, fun ⟨hz, h⟩ => ?_⟩
  rw [decode?_of_encodes h, ← hz]

/-- **The encoding of a point of the curve is read back**, in affine coordinates. -/
theorem decode?_encode {p : Point} (h : OnCurve p) :
    decode? p.encode = some ⟨p.affine.1, p.affine.2, 1⟩ :=
  decode?_of_encodes (encodes_encode h)

end Point

end SealedPoll.Curve
