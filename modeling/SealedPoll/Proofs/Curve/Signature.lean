import SealedPoll.Proofs.Curve.Montgomery
import SealedPoll.Proofs.Curve.Order

/-!
# Strict verification in terms of the group

* `StrictlyValid` : what is asked of a key, of the point that a signature starts with and of its
  scalar. It has one scalar at most (`StrictlyValid.scalar_unique`);
* `VerifyingKey.verify_append_iff` : this is what verification decides;
* `VerifyingKey.verify_congr` : verification looks at a key's encoding and at the affine coordinates
  of its point only; `VerifyingKey.decode?_of_encode` : that encoding is read back as the same point;
* `SigningKey.verify_sign_iff` : a key's own signature verifies, unless its nonce is zero.
-/

namespace SealedPoll.Curve

/-- The encoding of a point of the curve. -/
def AffinePoint.encode (P : AffinePoint) : Octets 32 := Point.encode ⟨P.x, P.y, 1⟩

namespace Point

theorem represents_mk_one (P : AffinePoint) : Represents ⟨P.x, P.y, 1⟩ P where
  z_ne := one_ne_zero
  x_eq := congrArg Prod.fst (affine_mk_one P.x P.y)
  y_eq := congrArg Prod.snd (affine_mk_one P.x P.y)

variable {p : Point} {P : AffinePoint}

theorem Represents.encode_eq (h : p.Represents P) : p.encode = P.encode :=
  (h.same (represents_mk_one P)).encode_eq

theorem decode?_encode_affine (P : AffinePoint) : decode? P.encode = some ⟨P.x, P.y, 1⟩ := by
  rw [AffinePoint.encode, decode?_encode (represents_mk_one P).onCurve,
    (represents_mk_one P).affine_eq]

end Point

theorem AffinePoint.encode_injective : Function.Injective AffinePoint.encode := fun P Q h =>
  (Point.represents_mk_one P).eq_of_encode_eq (Point.represents_mk_one Q) h

/-- The encoding of a point encodes its coordinates. -/
theorem AffinePoint.encodes (P : AffinePoint) : Point.Encodes P.encode P.x P.y := by
  have hP := Point.represents_mk_one P
  have hencodes := Point.encodes_encode hP.onCurve
  rwa [hP.x_eq, hP.y_eq] at hencodes

/-! ## What strict verification asks for -/

/-- A signature that starts with the point `R` and ends with the scalar `s`, of a message that its
start and the key `A` bind to the number `k`. -/
structure StrictlyValid (A R : AffinePoint) (k s : Nat) : Prop where
  scalar_lt : s < groupOrder
  key_order : ¬ addOrderOf A ∣ 8
  start_order : ¬ addOrderOf R ∣ 8
  equation : s • basePoint = R + k • A

theorem StrictlyValid.scalar_unique {A R : AffinePoint} {k s t : Nat} (hs : StrictlyValid A R k s)
    (ht : StrictlyValid A R k t) : s = t :=
  basePoint_nsmul_inj hs.scalar_lt ht.scalar_lt (hs.equation.trans ht.equation.symm)

theorem digestScalar_lt (message : Bytes) : digestScalar message < groupOrder :=
  Nat.mod_lt _ (NeZero.pos groupOrder)

theorem lt_two_pow_of_lt_groupOrder {n : Nat} (h : n < groupOrder) : n < 2 ^ 256 :=
  h.trans (by decide)

namespace VerifyingKey

variable {key : VerifyingKey} {A : AffinePoint}

/-- The point that the equation asks a signature to start with. -/
theorem represents_expectedPoint (hkey : key.point.Represents A) (message : Bytes)
    (start s : Octets 32) :
    (key.expectedPoint message start s.toNatLE).Represents
      (s.toNatLE • basePoint + challenge start key.encoded message • -A) :=
  (represents_base.mul s.toNatLE_lt).add
    (hkey.neg.mul (lt_two_pow_of_lt_groupOrder (digestScalar_lt _)))

/-- Verification of a start and a scalar: the start is the encoding that the key expects. -/
theorem verify_append (key : VerifyingKey) (message : Bytes) (start s : Octets 32) :
    key.verify message (start.append s) = true ↔
      s.toNatLE < groupOrder ∧ key.point.isSmallOrder = false ∧
        (key.expectedPoint message start s.toNatLE).encode = start ∧
          ∃ r, Point.decode? start = some r ∧ r.isSmallOrder = false := by
  simp only [verify]
  rw [Octets.take_append, Octets.drop_append]
  generalize key.expectedPoint message start s.toNatLE = expected
  by_cases hle : groupOrder ≤ s.toNatLE
  · rw [if_pos hle]
    exact iff_of_false Bool.false_ne_true fun h => Nat.not_lt.2 hle h.1
  · rw [if_neg hle]
    have hlt := Nat.not_le.1 hle
    cases Point.decode? start with
    | none => simp
    | some r =>
      simp only [Bool.and_eq_true, Bool.not_eq_true', decide_eq_true_eq, Option.some.injEq,
        exists_eq_left', hlt, true_and]
      exact ⟨fun ⟨⟨hr, hkey⟩, hstart⟩ => ⟨hkey, hstart, hr⟩,
        fun ⟨hkey, hstart, hr⟩ => ⟨⟨hr, hkey⟩, hstart⟩⟩

/-- Verification decides strict validity, for the one point that the signature can start with. -/
theorem verify_append_iff (hkey : key.point.Represents A) (message : Bytes) (start s : Octets 32) :
    key.verify message (start.append s) = true ↔
      ∃ R : AffinePoint, R.encode = start ∧
        StrictlyValid A R (challenge start key.encoded message) s.toNatLE := by
  have hexpected := represents_expectedPoint hkey message start s
  have hA := hkey.isSmallOrder_iff
  rw [verify_append, hexpected.encode_eq, ← Bool.not_eq_true, hA]
  generalize challenge start key.encoded message = k
  constructor
  · rintro ⟨hlt, hAorder, hstart, r, hr, hrorder⟩
    refine ⟨_, hstart, hlt, hAorder, ?_, by rw [smul_neg, neg_add_cancel_right]⟩
    rw [← hstart, Point.decode?_encode_affine, Option.some.injEq] at hr
    rw [← (Point.represents_mk_one _).isSmallOrder_iff, hr, hrorder]
    exact Bool.false_ne_true
  · rintro ⟨R, rfl, hvalid⟩
    refine ⟨hvalid.scalar_lt, hvalid.key_order, ?_, _, Point.decode?_encode_affine R, ?_⟩
    · rw [hvalid.equation, smul_neg, add_neg_cancel_right]
    · rw [← Bool.not_eq_true, (Point.represents_mk_one R).isSmallOrder_iff]
      exact hvalid.start_order

/-- The first half of a signature leaves room for one second half. -/
theorem scalar_unique (hkey : key.point.OnCurve) {message : Bytes} {start s t : Octets 32}
    (hs : key.verify message (start.append s) = true)
    (ht : key.verify message (start.append t) = true) : s = t := by
  obtain ⟨A, hA⟩ := hkey.exists_represents
  obtain ⟨R, hR, hvalid⟩ := (verify_append_iff hA message start s).1 hs
  obtain ⟨Q, hQ, hother⟩ := (verify_append_iff hA message start t).1 ht
  obtain rfl := AffinePoint.encode_injective (hR.trans hQ.symm)
  rw [← Octets.ofNatLE_toNatLE s, hvalid.scalar_unique hother, Octets.ofNatLE_toNatLE]

end VerifyingKey

/-! ## Keys with the same point -/

theorem Point.OnCurve.same_affine {p : Point} (h : p.OnCurve) :
    p.Same ⟨p.affine.1, p.affine.2, 1⟩ := by
  obtain ⟨P, hP⟩ := h.exists_represents
  rw [hP.x_eq, hP.y_eq]
  exact hP.same (represents_mk_one P)

namespace VerifyingKey

theorem verify_congr {encoded : Octets 32} {p q : Point} (h : p.Same q) (message : Bytes)
    (signature : Signature) :
    verify ⟨encoded, p⟩ message signature = verify ⟨encoded, q⟩ message signature := by
  have hexpected : ∀ (start : Octets 32) (s : Nat),
      (expectedPoint ⟨encoded, p⟩ message start s).encode =
        (expectedPoint ⟨encoded, q⟩ message start s).encode := fun start s =>
    ((Point.onCurve_base.same.mul s).add (h.neg.mul _)).encode_eq
  simp only [verify, hexpected, h.isSmallOrder_eq]

/-- A key that is the encoding of a point of the curve is read back, as the same point. -/
theorem decode?_of_encode {key : VerifyingKey} (hcurve : key.point.OnCurve)
    (hencoded : key.encoded = key.point.encode) :
    ∃ p, decode? key.encoded = some ⟨key.encoded, p⟩ ∧ key.point.Same p := by
  refine ⟨_, ?_, hcurve.same_affine⟩
  rw [hencoded, decode?, Point.decode?_encode hcurve, Option.map_some]

end VerifyingKey

/-! ## A key's own signatures -/

theorem nsmul_mod_basePoint (n : Nat) : (n % groupOrder) • basePoint = n • basePoint := by
  rw [nsmul_eq_nsmul_iff_modEq, addOrderOf_basePoint]
  exact Nat.mod_modEq n groupOrder

/-- Only zero has a small order among the multiples of the base point. -/
theorem addOrderOf_nsmul_basePoint_dvd_eight_iff (n : Nat) :
    addOrderOf (n • basePoint) ∣ 8 ↔ groupOrder ∣ n := by
  have hcoprime : Nat.Coprime groupOrder 8 := by decide +kernel
  rw [addOrderOf_dvd_iff_nsmul_eq_zero, ← mul_nsmul, ← addOrderOf_dvd_iff_nsmul_eq_zero,
    addOrderOf_basePoint]
  exact hcoprime.dvd_mul_right

/-- Clamped scalars are no multiples of the group order: they would be multiples of 8 times it. -/
theorem not_groupOrder_dvd_clamp (secret : Octets 32) : ¬ groupOrder ∣ clamp secret := by
  intro hdvd
  have hcoprime : Nat.Coprime groupOrder 8 := by decide +kernel
  have hproduct := Nat.le_of_dvd (by rw [clamp]; omega)
    (hcoprime.mul_dvd_of_dvd_of_dvd hdvd (Nat.dvd_of_mod_eq_zero (clamp_mod secret)))
  have hlarge : 2 ^ 255 ≤ groupOrder * 8 := by decide
  have hlt := clamp_lt secret
  omega

namespace SigningKey

/-- The scalar of the point that a signature over a message starts with. -/
def nonce (key : SigningKey) (message : Bytes) : Nat :=
  digestScalar (key.nonceSecret.toList ++ message)

theorem encoded_verifyingKey (key : SigningKey) :
    key.verifyingKey.encoded = key.verifyingKey.point.encode := by
  simp only [verifyingKey]

theorem represents_verifyingKey (key : SigningKey) :
    key.verifyingKey.point.Represents (key.scalar • basePoint) := by
  have hmul := represents_base.mul (n := key.scalar) ((clamp_lt _).trans (by decide))
  simpa only [verifyingKey] using hmul

theorem onCurve_verifyingKey (key : SigningKey) : key.verifyingKey.point.OnCurve :=
  key.represents_verifyingKey.onCurve

/-- A signature starts with the encoding of a multiple of the base point, by the nonce. -/
theorem sign_eq (key : SigningKey) (message : Bytes) :
    key.sign message =
      (key.nonce message • basePoint).encode.append
        (Octets.ofNatLE 32 ((key.nonce message +
          challenge (key.nonce message • basePoint).encode key.verifyingKey.encoded message *
            key.scalar) % groupOrder)) := by
  have hstart := represents_base.mul (lt_two_pow_of_lt_groupOrder (digestScalar_lt
    (key.nonceSecret.toList ++ message)))
  simp only [nonce, ← hstart.encode_eq]
  rfl

/-- **A key's own signature is accepted**, unless its nonce is zero: then it starts with the
neutral element, whose order is small. -/
theorem verify_sign_iff (key : SigningKey) (message : Bytes) :
    key.verifyingKey.verify message (key.sign message) = true ↔ key.nonce message ≠ 0 := by
  rw [sign_eq, VerifyingKey.verify_append_iff key.represents_verifyingKey]
  generalize challenge _ _ _ = k
  have hnonce : key.nonce message < groupOrder := digestScalar_lt _
  have hsmall : addOrderOf (key.nonce message • basePoint) ∣ 8 ↔ key.nonce message = 0 := by
    rw [addOrderOf_nsmul_basePoint_dvd_eight_iff]
    exact ⟨fun h => Nat.eq_zero_of_dvd_of_lt h hnonce, fun h => h ▸ dvd_zero groupOrder⟩
  generalize key.nonce message = n at hnonce hsmall
  have hscalar : (n + k * key.scalar) % groupOrder < groupOrder := Nat.mod_lt _ (NeZero.pos _)
  have hfits : (n + k * key.scalar) % groupOrder < 256 ^ 32 := Nat.lt_trans hscalar (by decide)
  rw [Octets.toNatLE_ofNatLE, Nat.mod_eq_of_lt hfits]
  constructor
  · rintro ⟨R, hR, hvalid⟩
    obtain rfl := AffinePoint.encode_injective hR
    exact fun h => hvalid.start_order (hsmall.2 h)
  · intro hne
    refine ⟨_, rfl, hscalar, ?_, fun h => hne (hsmall.1 h), ?_⟩
    · rw [addOrderOf_nsmul_basePoint_dvd_eight_iff]
      exact not_groupOrder_dvd_clamp _
    · rw [nsmul_mod_basePoint, add_nsmul, mul_nsmul']

end SigningKey

end SealedPoll.Curve
