import SealedPoll.Artifact
import SealedPoll.Proofs.MainKey

/-!
# Strict verification of raw bytes

* `parsePublicKey_eq_ok_iff`, `exists_parsePublicKey_iff` : which bytes are public keys;
* `verify_eq_true_iff` : raw bytes are judged as the parsed key judges the artifact;
* `verify_iff_strictlyValid` : what is accepted, in terms of the group of the curve;
* `strict_verification` : the two paths agree, nothing of small order is accepted, and the start of a
  signature leaves room for one scalar;
* `MainKey.strictAccepts_iff` : a main key's own signatures are accepted, unless their nonce is zero.
-/

namespace SealedPoll

open Curve (AffinePoint Point Signature StrictlyValid VerifyingKey challenge groupOrder)

/-! ## Public keys -/

theorem parsePublicKey_eq_ok_iff {bs : Bytes} {key : VerifyingKey} :
    parsePublicKey bs = .ok key ↔
      key.encoded.toList = bs ∧ Point.decode? key.encoded = some key.point := by
  have hdecode : (Octets.ofList? 32 bs).bind VerifyingKey.decode? = some key ↔
      key.encoded.toList = bs ∧ Point.decode? key.encoded = some key.point := by
    obtain ⟨encoded, point⟩ := key
    simp only [Option.bind_eq_some_iff, VerifyingKey.decode?, Option.map_eq_some_iff,
      Octets.ofList?_eq_some_iff, VerifyingKey.mk.injEq]
    constructor
    · rintro ⟨_, hbytes, _, hpoint, rfl, rfl⟩
      exact ⟨hbytes, hpoint⟩
    · rintro ⟨hbytes, hpoint⟩
      exact ⟨encoded, hbytes, point, hpoint, rfl, rfl⟩
  rw [← hdecode, parsePublicKey]
  cases (Octets.ofList? 32 bs).bind VerifyingKey.decode? <;> simp

/-- A public key is read as the point that its bytes encode. -/
theorem exists_represents_of_parsePublicKey {bs : Bytes} {key : VerifyingKey}
    (h : parsePublicKey bs = .ok key) :
    ∃ A : AffinePoint, key.encoded.toList = bs ∧ Point.Encodes key.encoded A.x A.y ∧
      key.point.Represents A := by
  obtain ⟨hbytes, hpoint⟩ := parsePublicKey_eq_ok_iff.1 h
  obtain ⟨hz, hencodes⟩ := Point.encodes_of_decode? hpoint
  obtain ⟨encoded, x, y, z⟩ := key
  obtain rfl : z = 1 := hz
  exact ⟨⟨x, y, hencodes.onEdwards⟩, hbytes, hencodes,
    Point.represents_mk_one ⟨x, y, hencodes.onEdwards⟩⟩

theorem parsePublicKey_of_encodes {encoded : Octets 32} {A : AffinePoint}
    (h : Point.Encodes encoded A.x A.y) :
    parsePublicKey encoded.toList = .ok ⟨encoded, ⟨A.x, A.y, 1⟩⟩ :=
  parsePublicKey_eq_ok_iff.2 ⟨rfl, Point.decode?_of_encodes h⟩

/-- Public keys are the 32-byte encodings of the points of the curve, reduced or not. -/
theorem exists_parsePublicKey_iff {bs : Bytes} :
    (∃ key, parsePublicKey bs = .ok key) ↔
      ∃ (encoded : Octets 32) (A : AffinePoint), encoded.toList = bs ∧ Point.Encodes encoded A.x A.y := by
  constructor
  · rintro ⟨key, hparse⟩
    obtain ⟨A, hbytes, hencodes, -⟩ := exists_represents_of_parsePublicKey hparse
    exact ⟨key.encoded, A, hbytes, hencodes⟩
  · rintro ⟨encoded, A, rfl, hencodes⟩
    exact ⟨_, parsePublicKey_of_encodes hencodes⟩

/-- All other bytes are refused alike. -/
theorem parsePublicKey_error {bs : Bytes} {e : Error} (h : parsePublicKey bs = .error e) :
    e = .invalidPublicKey := by
  simp only [parsePublicKey] at h
  split at h
  · cases h
  · exact (Except.error.inj h).symm

/-! ## Signatures -/

/-- Raw bytes are judged as the key that is parsed from them judges the artifact. -/
theorem verify_eq_true_iff {publicKey message signature : Bytes} :
    verify publicKey message signature = true ↔
      ∃ (key : VerifyingKey) (parsed : Signature), parsePublicKey publicKey = .ok key ∧
        parsed.toList = signature ∧ Artifact.verify ⟨message, parsed⟩ key = true := by
  simp only [verify, ← Octets.ofList?_eq_some_iff]
  cases parsePublicKey publicKey with
  | error e => simp
  | ok key =>
    cases Octets.ofList? 64 signature with
    | none => simp
    | some parsed => simp [Artifact.verify]

/-- What is accepted: the key is an encoding of a point of the curve, the signature is the one
encoding of another point, then a scalar, and these are strictly valid. -/
theorem verify_iff_strictlyValid {publicKey message signature : Bytes} :
    verify publicKey message signature = true ↔
      ∃ (encoded s : Octets 32) (A R : AffinePoint), publicKey = encoded.toList ∧
        Point.Encodes encoded A.x A.y ∧ signature = R.encode.toList ++ s.toList ∧
        StrictlyValid A R (challenge R.encode encoded message) s.toNatLE := by
  rw [verify_eq_true_iff]
  constructor
  · rintro ⟨key, parsed, hparse, rfl, haccepts⟩
    obtain ⟨A, rfl, hencodes, hpoint⟩ := exists_represents_of_parsePublicKey hparse
    rw [← Octets.append_take_drop (m := 32) (n := 32) parsed] at haccepts ⊢
    obtain ⟨R, hR, hvalid⟩ := (VerifyingKey.verify_append_iff hpoint message _ _).1 haccepts
    rw [← hR] at hvalid ⊢
    exact ⟨_, _, A, R, rfl, hencodes, rfl, hvalid⟩
  · rintro ⟨encoded, s, A, R, rfl, hencodes, rfl, hvalid⟩
    exact ⟨_, R.encode.append s, parsePublicKey_of_encodes hencodes, rfl,
      (VerifyingKey.verify_append_iff (Point.represents_mk_one A) message _ s).2 ⟨R, rfl, hvalid⟩⟩

/-- The start of a signature leaves room for one scalar, under a parsed key. -/
theorem Artifact.scalar_unique {bs message : Bytes} {key : VerifyingKey} {start s t : Octets 32}
    (hparse : parsePublicKey bs = .ok key)
    (hs : Artifact.verify ⟨message, start.append s⟩ key = true)
    (ht : Artifact.verify ⟨message, start.append t⟩ key = true) : s = t := by
  obtain ⟨A, -, -, hpoint⟩ := exists_represents_of_parsePublicKey hparse
  exact VerifyingKey.scalar_unique hpoint.onCurve hs ht

/-- The start of a signature leaves room for one scalar. -/
theorem verify_scalar_unique {publicKey message : Bytes} {start s t : Octets 32}
    (hs : verify publicKey message (start.toList ++ s.toList) = true)
    (ht : verify publicKey message (start.toList ++ t.toList) = true) : s = t := by
  obtain ⟨key, parsed, hparse, hbytes, haccepts⟩ := verify_eq_true_iff.1 hs
  obtain ⟨key', parsed', hparse', hbytes', haccepts'⟩ := verify_eq_true_iff.1 ht
  obtain rfl : key = key' := Except.ok.inj (hparse.symm.trans hparse')
  obtain rfl : parsed = start.append s := Octets.ext hbytes
  obtain rfl : parsed' = start.append t := Octets.ext hbytes'
  exact Artifact.scalar_unique hparse haccepts haccepts'

/-- Malformed keys and signatures verify nothing. -/
theorem verify_of_malformed {publicKey message signature : Bytes}
    (h : publicKey.length ≠ 32 ∨ signature.length ≠ 64 ∨
      ∀ key, parsePublicKey publicKey ≠ .ok key) :
    verify publicKey message signature = false := by
  rw [← Bool.not_eq_true, verify_eq_true_iff]
  rintro ⟨key, parsed, hparse, rfl, -⟩
  rcases h with hkey | hsignature | hundecodable
  · obtain ⟨A, rfl, -, -⟩ := exists_represents_of_parsePublicKey hparse
    exact hkey key.encoded.length_toList
  · exact hsignature parsed.length_toList
  · exact hundecodable key hparse

/-- **Strict verification admits no second signature and no weak key.**

* Raw bytes are judged as the artifact is judged by the key that is parsed from them; malformed keys
  and signatures verify nothing.
* What verifies is made of a key and a start that encode points of orders that do not divide 8, and
  of a scalar below the group order.
* Given the key, the message and the start, one scalar at most verifies, on both paths. -/
theorem strict_verification :
    (∀ publicKey message signature : Bytes,
      (verify publicKey message signature = true ↔
        ∃ (key : VerifyingKey) (parsed : Signature), parsePublicKey publicKey = .ok key ∧
          parsed.toList = signature ∧ Artifact.verify ⟨message, parsed⟩ key = true) ∧
      (publicKey.length ≠ 32 ∨ signature.length ≠ 64 ∨
          (∀ key, parsePublicKey publicKey ≠ .ok key) →
        verify publicKey message signature = false)) ∧
    (∀ publicKey message signature : Bytes, verify publicKey message signature = true →
      ∃ (encoded start s : Octets 32) (A R : AffinePoint),
        publicKey = encoded.toList ∧ signature = start.toList ++ s.toList ∧
          Point.Encodes encoded A.x A.y ∧ ¬ addOrderOf A ∣ 8 ∧
          Point.Encodes start R.x R.y ∧ ¬ addOrderOf R ∣ 8 ∧ s.toNatLE < groupOrder) ∧
    (∀ (publicKey message : Bytes) (start s t : Octets 32),
      verify publicKey message (start.toList ++ s.toList) = true →
        verify publicKey message (start.toList ++ t.toList) = true → s = t) ∧
    ∀ (publicKey message : Bytes) (key : VerifyingKey) (start s t : Octets 32),
      parsePublicKey publicKey = .ok key →
        Artifact.verify ⟨message, start.append s⟩ key = true →
          Artifact.verify ⟨message, start.append t⟩ key = true → s = t := by
  refine ⟨fun _ _ _ => ⟨verify_eq_true_iff, verify_of_malformed⟩, ?_,
    fun _ _ _ _ _ => verify_scalar_unique, fun _ _ _ _ _ _ => Artifact.scalar_unique⟩
  intro publicKey message signature haccepts
  obtain ⟨encoded, s, A, R, hkey, hencodes, hsignature, hvalid⟩ :=
    verify_iff_strictlyValid.1 haccepts
  exact ⟨encoded, R.encode, s, A, R, hkey, hsignature, hencodes, hvalid.key_order, R.encodes,
    hvalid.start_order, hvalid.scalar_lt⟩

/-- A main key's own signatures are accepted, unless their nonce is zero. -/
theorem MainKey.strictAccepts_iff (key : MainKey) (message : Bytes) :
    key.StrictAccepts message ↔ key.signing.nonce message ≠ 0 :=
  key.signing.verify_sign_iff message

end SealedPoll
