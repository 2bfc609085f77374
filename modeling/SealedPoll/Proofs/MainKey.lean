import SealedPoll.MainKey
import SealedPoll.Proofs.Curve.Signature

/-!
# The main key's public half

* `MainKey.verify_encoded`, `MainKey.parsePublicKey_encoded` : signatures are judged alike by a main
  key's public half, by its encoding and by the key that is read from it;
* `MainKey.StrictAccepts` : strict verification accepts what the key signs.
-/

namespace SealedPoll

/-- A public key that encodes a point of the curve is read back, and judges signatures as before. -/
theorem parsePublicKey_of_encode {key : Curve.VerifyingKey} (hcurve : key.point.OnCurve)
    (hencoded : key.encoded = key.point.encode) :
    ∃ parsed, parsePublicKey key.encoded.toList = .ok parsed ∧ parsed.encoded = key.encoded ∧
      ∀ message signature, parsed.verify message signature = key.verify message signature := by
  obtain ⟨p, hdecode, hsame⟩ := Curve.VerifyingKey.decode?_of_encode hcurve hencoded
  refine ⟨⟨key.encoded, p⟩, ?_, rfl, fun message signature => ?_⟩
  · simp only [parsePublicKey, Octets.ofList?_toList, Option.bind_some, hdecode]
  · exact (Curve.VerifyingKey.verify_congr hsame message signature).symm

/-- A public key that is read from its encoding is the one that signatures are judged by. -/
theorem verify_of_encode {key : Curve.VerifyingKey} (hcurve : key.point.OnCurve)
    (hencoded : key.encoded = key.point.encode) (message : Bytes) (signature : Curve.Signature) :
    verify key.encoded.toList message signature.toList = key.verify message signature := by
  obtain ⟨parsed, hparse, -, hverify⟩ := parsePublicKey_of_encode hcurve hencoded
  rw [verify, hparse, Octets.ofList?_toList]
  exact hverify message signature

namespace MainKey

/-- Signatures are judged alike by a main key's public half and by its encoding. -/
theorem verify_encoded (key : MainKey) (message : Bytes) (signature : Curve.Signature) :
    verify key.publicKey.encoded.toList message signature.toList =
      key.publicKey.verify message signature := by
  have hpublic : key.publicKey = key.signing.verifyingKey := rfl
  rw [hpublic]
  exact verify_of_encode key.signing.onCurve_verifyingKey key.signing.encoded_verifyingKey message
    signature

/-- The public half is read from its encoding, and judges signatures as before. -/
theorem parsePublicKey_encoded (key : MainKey) :
    ∃ parsed, parsePublicKey key.publicKey.encoded.toList = .ok parsed ∧
      parsed.encoded = key.publicKey.encoded ∧
      ∀ message signature, parsed.verify message signature = key.publicKey.verify message signature := by
  have hpublic : key.publicKey = key.signing.verifyingKey := rfl
  rw [hpublic]
  exact parsePublicKey_of_encode key.signing.onCurve_verifyingKey key.signing.encoded_verifyingKey

/-- Strict verification accepts what the key signs. -/
def StrictAccepts (key : MainKey) (message : Bytes) : Prop :=
  key.publicKey.verify message (key.sign message) = true

instance (key : MainKey) (message : Bytes) : Decidable (StrictAccepts key message) :=
  inferInstanceAs (Decidable (_ = _))

end MainKey

end SealedPoll
