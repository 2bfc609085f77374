import SealedPoll.Proofs.Curve.Agreement
import SealedPoll.Proofs.Vote.Sealing

/-!
# The public keys of votes

* `PollKey.agrees`, `PollKey.contributes` : any two private keys agree, and not on zeros;
* `opens_of_sealed` : so a vote is sealed for the public key of any private key, which opens it;
* `small_order_refused` : neither end of a vote uses a public key of small order, in whatever way its
  coordinate is written.
-/

namespace SealedPoll

theorem PollKey.agrees (a b : PollKey) : Agrees a b := Curve.agree_publicKey_comm a.bytes b.bytes

theorem PollKey.contributes (a b : PollKey) :
    Curve.agree a.bytes b.publicKey ≠ Octets.zero 32 := Curve.agree_publicKey_ne_zero a.bytes b.bytes

namespace Vote

/-- **A vote can be sealed for every poll, and opened by it**, with 44 random bytes. -/
theorem opens_of_sealed (secret : PollKey) {source : RandomSource} (h : 44 ≤ source.size)
    (text : Bytes) :
    ∃ vote, encrypt source secret.publicKey.toList text = (.ok vote, source.skip 44) ∧
      decrypt secret.bytes.toList vote = .ok text := by
  obtain ⟨ephemeral, nonce, hhands⟩ := exists_hands h
  have hsealed : encrypt source secret.publicKey.toList text = (.ok _, source.skip 44) :=
    encrypt_of_rule (.done hhands (ephemeral.contributes secret))
  exact ⟨_, hsealed, decrypt_of_encrypt (fun drawn _ => secret.agrees drawn)
    (congrArg Prod.fst hsealed)⟩

/-- **No key of small order is used.** A vote with such an ephemeral key does not open, whatever
follows the key, and nothing is sealed for such a key, though the random bytes are drawn. -/
theorem small_order_refused {key : PollPublicKey} (hkey : Curve.IsSmallOrder (.ofOctets key)) :
    (∀ (secret : PollKey) (vote : Bytes), 60 ≤ vote.length → vote.take 32 = key.toList →
      decrypt secret.bytes.toList vote = .error .keyAgreementFailure) ∧
    (∀ (source : RandomSource) (text : Bytes), 44 ≤ source.size →
      encrypt source key.toList text = (.error .keyAgreementFailure, source.skip 44)) := by
  constructor
  · intro secret vote hlong hfirst
    obtain ⟨ephemeral, nonce, body, mark, hlayout⟩ := exists_layout hlong
    have hephemeral : ephemeral = key := Octets.ext (hlayout.ephemeral_eq.trans hfirst)
    apply decrypt_of_rule
    apply OpeningRule.noAgreement hlayout
    rw [hephemeral]
    exact Curve.agree_eq_zero hkey secret.bytes
  · intro source text henough
    obtain ⟨ephemeral, nonce, hhands⟩ := exists_hands henough
    exact encrypt_of_rule (.noAgreement hhands (Curve.agree_eq_zero hkey ephemeral.bytes))

/-- A key of order 8 with bit 255 set, which does not count. -/
theorem order_eight_refused :
    let key : PollPublicKey :=
      ⟨[0x5f, 0x9c, 0x95, 0xbc, 0xa3, 0x50, 0x8c, 0x24, 0xb1, 0xd0, 0xb1, 0x55, 0x9c, 0x83, 0xef,
        0x5b, 0x04, 0x44, 0x5c, 0xc4, 0x58, 0x1c, 0x8e, 0x86, 0xd8, 0x22, 0x4e, 0xdd, 0xd0, 0x9f,
        0x11, 0xd7], rfl⟩
    let secret : PollKey := ⟨⟨List.replicate 32 255, rfl⟩⟩
    let source : RandomSource := ⟨(List.range 50).map UInt8.ofNat⟩
    Curve.IsSmallOrder (.ofOctets key) ∧
      decrypt secret.bytes.toList (key.toList ++ List.replicate 28 0) =
        .error .keyAgreementFailure ∧
      encrypt source key.toList [1, 2, 3] =
        (.error .keyAgreementFailure, ⟨[44, 45, 46, 47, 48, 49]⟩) := by
  intro key secret source
  have hkey : Curve.IsSmallOrder (.ofOctets key) := by
    unfold Curve.IsSmallOrder
    decide +kernel
  obtain ⟨hopens, hseals⟩ := small_order_refused hkey
  exact ⟨hkey, hopens secret _ (by decide) (by decide), hseals source [1, 2, 3] (by decide)⟩

end Vote

end SealedPoll
