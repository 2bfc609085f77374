import SealedPoll.Proofs.Vote.Tampering

/-!
# What opening a vote comes to

* `agreedCipher` : the block cipher under the key that is derived from an agreement;
* `OpeningRule` : the rules for opening a vote, on the slices of its bytes; exactly one of them
  applies (`exists_openingRule`, `decrypt_eq_iff`);
* `decrypt_outcomes` : the table of outcomes, with the length of a text and the refusals there are;
* `decrypt_eq_ok_iff` : what opens to a text is this text sealed; `accepted_vote_canonical` : a key, a
  nonce and a text leave one vote that opens, and one tag for each encrypted text.
-/

namespace SealedPoll

namespace PollKey

variable {secret : PollKey} {peer : PollPublicKey}

theorem sharedKey_of_zero (h : Curve.agree secret.bytes peer = Octets.zero 32) :
    secret.sharedKey peer = .error .keyAgreementFailure := by
  rw [sharedKey, if_pos h]

theorem sharedKey_of_ne (h : Curve.agree secret.bytes peer ≠ Octets.zero 32) :
    secret.sharedKey peer = .ok (Hash.Hkdf.derive (Curve.agree secret.bytes peer)) := by
  rw [sharedKey, if_neg h]

end PollKey

namespace Vote

/-- The cipher under the key derived from what `secret` shares with the holder of the key to
`peer`. -/
def agreedCipher (secret : PollKey) (peer : PollPublicKey) : Cipher.Block → Cipher.Block :=
  cipher (Hash.Hkdf.derive (Curve.agree secret.bytes peer))

/-! ## The table of outcomes -/

/-- The rules for opening a vote. The length of the vote comes first, then that of the private key,
the agreement and the tag. -/
inductive OpeningRule : Bytes → Bytes → Except Error Bytes → Prop
  | short {privateKey vote : Bytes} (hshort : vote.length < 60) :
      OpeningRule privateKey vote (.error (.ciphertextTooShort vote.length))
  | malformed {privateKey vote : Bytes} (hlong : 60 ≤ vote.length) (hkey : privateKey.length ≠ 32) :
      OpeningRule privateKey vote (.error (.malformedPrivateKey privateKey.length))
  | noAgreement {secret : PollKey} {vote : Bytes} {ephemeral : PollPublicKey} {nonce : Octets 12}
      {body mark : Bytes} (hlayout : Layout vote ephemeral nonce body mark)
      (hzero : Curve.agree secret.bytes ephemeral = Octets.zero 32) :
      OpeningRule secret.bytes.toList vote (.error .keyAgreementFailure)
  | forged {secret : PollKey} {vote : Bytes} {ephemeral : PollPublicKey} {nonce : Octets 12}
      {body mark : Bytes} (hlayout : Layout vote ephemeral nonce body mark)
      (hshared : Curve.agree secret.bytes ephemeral ≠ Octets.zero 32)
      (hmark : mark ≠ (Cipher.Gcm.tag (agreedCipher secret ephemeral) nonce body).toBytes) :
      OpeningRule secret.bytes.toList vote (.error .authenticationFailed)
  | opened {secret : PollKey} {vote : Bytes} {ephemeral : PollPublicKey} {nonce : Octets 12}
      {body mark : Bytes} (hlayout : Layout vote ephemeral nonce body mark)
      (hshared : Curve.agree secret.bytes ephemeral ≠ Octets.zero 32)
      (hmark : mark = (Cipher.Gcm.tag (agreedCipher secret ephemeral) nonce body).toBytes) :
      OpeningRule secret.bytes.toList vote
        (.ok (Cipher.Gcm.crypt (agreedCipher secret ephemeral) nonce body))

variable {privateKey vote text : Bytes} {outcome : Except Error Bytes}

theorem Layout.length_eq {ephemeral : PollPublicKey} {nonce : Octets 12} {body mark : Bytes}
    (h : Layout vote ephemeral nonce body mark) : vote.length = 60 + body.length := by
  rw [h.eq, Parts.length_toBytes, List.length_append, h.length_mark]
  omega

theorem decrypt_of_malformed (hlong : overhead ≤ vote.length) (hkey : privateKey.length ≠ 32) :
    decrypt privateKey vote = .error (.malformedPrivateKey privateKey.length) := by
  obtain ⟨p, rfl, hbody⟩ := exists_parts hlong
  have hrefused : PollKey.ofBytes privateKey = .error (.malformedPrivateKey privateKey.length) := by
    rw [PollKey.ofBytes, Octets.ofList?_eq_none_iff.2 hkey]
  rw [decrypt_toBytes_bind privateKey hbody, hrefused]
  rfl

/-- Once the keys agree, the tag decides. -/
theorem decrypt_of_agreed {secret : PollKey} {ephemeral : PollPublicKey} {nonce : Octets 12}
    {body mark : Bytes} (hlayout : Layout vote ephemeral nonce body mark)
    (hshared : Curve.agree secret.bytes ephemeral ≠ Octets.zero 32) :
    decrypt secret.bytes.toList vote =
      if mark = (Cipher.Gcm.tag (agreedCipher secret ephemeral) nonce body).toBytes then
        .ok (Cipher.Gcm.crypt (agreedCipher secret ephemeral) nonce body)
      else .error .authenticationFailed :=
  decrypt_eq_ite hlayout (PollKey.sharedKey_of_ne hshared)

theorem decrypt_of_rule (h : OpeningRule privateKey vote outcome) :
    decrypt privateKey vote = outcome := by
  cases h with
  | short hshort => exact decrypt_of_short privateKey hshort
  | malformed hlong hkey => exact decrypt_of_malformed hlong hkey
  | noAgreement hlayout hzero =>
    rw [decrypt_of_layout hlayout]
    exact openParts_of_error _ (PollKey.sharedKey_of_zero hzero)
  | forged hlayout hshared hmark => rw [decrypt_of_agreed hlayout hshared, if_neg hmark]
  | opened hlayout hshared hmark => rw [decrypt_of_agreed hlayout hshared, if_pos hmark]

/-- To any two byte strings a rule applies. -/
theorem exists_openingRule (privateKey vote : Bytes) :
    ∃ outcome, OpeningRule privateKey vote outcome := by
  by_cases hlong : 60 ≤ vote.length
  · by_cases hkey : privateKey.length = 32
    · obtain ⟨secret, rfl⟩ : ∃ secret : PollKey, privateKey = secret.bytes.toList :=
        ⟨⟨⟨privateKey, hkey⟩⟩, rfl⟩
      obtain ⟨ephemeral, nonce, body, mark, hlayout⟩ := exists_layout hlong
      by_cases hzero : Curve.agree secret.bytes ephemeral = Octets.zero 32
      · exact ⟨_, .noAgreement hlayout hzero⟩
      by_cases hmark : mark = (Cipher.Gcm.tag (agreedCipher secret ephemeral) nonce body).toBytes
      · exact ⟨_, .opened hlayout hzero hmark⟩
      · exact ⟨_, .forged hlayout hzero hmark⟩
    · exact ⟨_, .malformed hlong hkey⟩
  · exact ⟨_, .short (Nat.not_le.1 hlong)⟩

theorem decrypt_eq_iff : decrypt privateKey vote = outcome ↔ OpeningRule privateKey vote outcome := by
  refine ⟨?_, decrypt_of_rule⟩
  rintro rfl
  obtain ⟨outcome, hrule⟩ := exists_openingRule privateKey vote
  rwa [decrypt_of_rule hrule]

theorem OpeningRule.length_text (h : OpeningRule privateKey vote (.ok text)) :
    vote.length = 60 + text.length := by
  cases h with
  | opened hlayout hshared hmark => rw [Cipher.Gcm.length_crypt, hlayout.length_eq]

theorem OpeningRule.refusal {e : Error} (h : OpeningRule privateKey vote (.error e)) :
    e = .ciphertextTooShort vote.length ∨ e = .malformedPrivateKey privateKey.length ∨
      e = .keyAgreementFailure ∨ e = .authenticationFailed := by
  cases h with
  | short => exact Or.inl rfl
  | malformed => exact Or.inr (Or.inl rfl)
  | noAgreement => exact Or.inr (Or.inr (Or.inl rfl))
  | forged => exact Or.inr (Or.inr (Or.inr rfl))

/-- **The outcomes of opening**, for any two byte strings. The first rule that applies decides; no
main key takes part. A text is 60 bytes shorter than the vote, the four refusals of the rules are the
only ones, and bytes that are not too short can be cut into all parts. -/
theorem decrypt_outcomes (privateKey vote : Bytes) :
    (∀ outcome, decrypt privateKey vote = outcome ↔ OpeningRule privateKey vote outcome) ∧
    (∀ text, decrypt privateKey vote = .ok text →
      60 ≤ vote.length ∧ text.length = vote.length - 60) ∧
    (∀ e, decrypt privateKey vote = .error e →
      e = .ciphertextTooShort vote.length ∨ e = .malformedPrivateKey privateKey.length ∨
        e = .keyAgreementFailure ∨ e = .authenticationFailed) ∧
    (60 ≤ vote.length → ∃ p, Parts.ofBytes? vote = some p ∧ p.ephemeral.toList = vote.take 32 ∧
      p.nonce.toList = (vote.drop 32).take 12 ∧ p.body = vote.drop 44 ∧ 16 ≤ p.body.length) := by
  refine ⟨fun outcome => decrypt_eq_iff, fun text h => ?_, fun e h => ?_, fun hlong => ?_⟩
  · have hlength := (decrypt_eq_iff.1 h).length_text
    omega
  · exact (decrypt_eq_iff.1 h).refusal
  · obtain ⟨p, rfl, hbody⟩ := exists_parts hlong
    refine ⟨p, Parts.ofBytes?_toBytes p, ?_, ?_, ?_, hbody⟩
    · simp [Parts.toBytes]
    · simp [Parts.toBytes]
    · simp [Parts.toBytes, List.drop_append]

/-! ## What opens to a text -/

theorem openParts_eq_ok_iff {secret : PollKey} {p : Parts} :
    openParts secret p = .ok text ↔ Curve.agree secret.bytes p.ephemeral ≠ Octets.zero 32 ∧
      p.body = Cipher.Gcm.encrypt (agreedCipher secret p.ephemeral) p.nonce text := by
  by_cases hzero : Curve.agree secret.bytes p.ephemeral = Octets.zero 32
  · rw [openParts_of_error p (PollKey.sharedKey_of_zero hzero)]
    simp [hzero]
  · rw [openParts_eq p (PollKey.sharedKey_of_ne hzero), agreedCipher,
      ← Cipher.Gcm.decrypt_eq_some_iff]
    split
    · next opened hopened => simp [hzero, hopened]
    · next hopened => simp [hopened]

/-- What opens to a text is this text sealed, under the cipher agreed on with the ephemeral key. -/
theorem decrypt_eq_ok_iff :
    decrypt privateKey vote = .ok text ↔
      ∃ (secret : PollKey) (ephemeral : PollPublicKey) (nonce : Octets 12),
        privateKey = secret.bytes.toList ∧ Curve.agree secret.bytes ephemeral ≠ Octets.zero 32 ∧
        vote = Parts.toBytes ⟨ephemeral, nonce,
          Cipher.Gcm.encrypt (agreedCipher secret ephemeral) nonce text⟩ := by
  constructor
  · intro h
    obtain ⟨secret, rfl, hlong⟩ := exists_secret_of_decrypt h
    obtain ⟨⟨ephemeral, nonce, body⟩, rfl, hbody⟩ := exists_parts hlong
    rw [decrypt_toBytes secret hbody, openParts_eq_ok_iff] at h
    dsimp only at h
    obtain ⟨hshared, rfl⟩ := h
    exact ⟨secret, ephemeral, nonce, rfl, hshared, rfl⟩
  · rintro ⟨secret, ephemeral, nonce, rfl, hshared, rfl⟩
    rw [decrypt_toBytes secret (by simp), openParts_eq_ok_iff]
    exact ⟨hshared, rfl⟩

/-- The bytes in front of the encrypted text. -/
theorem take_toBytes (p : Parts) : p.toBytes.take 44 = p.ephemeral.toList ++ p.nonce.toList := by
  rw [Parts.toBytes, List.take_append_of_le_length (by simp), List.take_of_length_le (by simp)]

/-- **Accepted votes are canonical.** The text of a vote that opens, sealed under the ephemeral key
and the nonce of the vote, gives the rest of its bytes. No other vote with this ephemeral key and this
nonce opens to the same text, and behind them each encrypted text has exactly one tag with which it
opens. -/
theorem accepted_vote_canonical (h : decrypt privateKey vote = .ok text) :
    (∃ (secret : PollKey) (ephemeral : PollPublicKey) (nonce : Octets 12),
      privateKey = secret.bytes.toList ∧ ephemeral.toList = vote.take 32 ∧
      nonce.toList = (vote.drop 32).take 12 ∧
      Cipher.Gcm.encrypt (agreedCipher secret ephemeral) nonce text = vote.drop 44) ∧
    (∀ other, other.take 44 = vote.take 44 → decrypt privateKey other = .ok text →
      other = vote) ∧
    (∀ body : Bytes, ∃! mark : Octets 16,
      ∃ text', decrypt privateKey (vote.take 44 ++ body ++ mark.toList) = .ok text') := by
  obtain ⟨secret, ephemeral, nonce, rfl, hshared, rfl⟩ := decrypt_eq_ok_iff.1 h
  refine ⟨⟨secret, ephemeral, nonce, rfl, ?_, ?_, ?_⟩, fun other hother hopens => ?_, fun body => ?_⟩
  · simp [Parts.toBytes]
  · simp [Parts.toBytes]
  · simp [Parts.toBytes, List.drop_append]
  · obtain ⟨secret', ephemeral', nonce', hsecret, -, rfl⟩ := decrypt_eq_ok_iff.1 hopens
    rw [take_toBytes, take_toBytes] at hother
    obtain ⟨hephemeral, hnonce⟩ := List.append_inj hother (by simp)
    obtain rfl := Octets.ext hephemeral
    obtain rfl := Octets.ext hnonce
    have hagreed : agreedCipher secret' ephemeral' = agreedCipher secret ephemeral' := by
      rw [agreedCipher, agreedCipher, Octets.ext hsecret]
    rw [hagreed]
  · -- with the parts in front kept, opening is the check of the tag
    have hopens : ∀ mark : Octets 16,
        (∃ text', decrypt secret.bytes.toList
          (ephemeral.toList ++ nonce.toList ++ body ++ mark.toList) = .ok text') ↔
        mark.toList = (Cipher.Gcm.tag (agreedCipher secret ephemeral) nonce body).toBytes := by
      intro mark
      have hparts : ephemeral.toList ++ nonce.toList ++ body ++ mark.toList =
          Parts.toBytes ⟨ephemeral, nonce, body ++ mark.toList⟩ := by simp [Parts.toBytes]
      rw [hparts, decrypt_toBytes secret (by simp),
        ← Cipher.Gcm.exists_encrypt_iff body mark.length_toList]
      simp only [openParts_eq_ok_iff, ne_eq, hshared, not_false_eq_true, true_and]
    simp only [take_toBytes, hopens]
    exact ⟨⟨_, Cipher.Block.length_toBytes _⟩, rfl, fun mark hmark => Octets.ext hmark⟩

/-- A vote of three bytes of text: another vote with its first 44 bytes and its text is this one, and
behind these bytes there is one vote of the empty text. -/
theorem three_byte_vote_canonical :
    let privateKey : Bytes :=
      [0x0b, 0x30, 0x55, 0x7a, 0x9f, 0xc4, 0xe9, 0x0e, 0x33, 0x58, 0x7d, 0xa2, 0xc7, 0xec,
      0x11, 0x36, 0x5b, 0x80, 0xa5, 0xca, 0xef, 0x14, 0x39, 0x5e, 0x83, 0xa8, 0xcd, 0xf2,
      0x17, 0x3c, 0x61, 0x86]
    let vote : Bytes :=
      [0x5a, 0x3d, 0xf7, 0xb7, 0xf4, 0x28, 0x0c, 0x43, 0xc3, 0x8e, 0x4d, 0xa8, 0xe2, 0xb6,
      0xdd, 0xc8, 0x87, 0x31, 0x86, 0x6e, 0xdf, 0x1f, 0xcb, 0xcf, 0xf0, 0xcf, 0x80, 0x05,
      0x87, 0xce, 0xe9, 0x4c, 0x29, 0x64, 0x9f, 0xda, 0x15, 0x50, 0x8b, 0xc6, 0x01, 0x3c,
      0x77, 0xb2, 0x23, 0x24, 0x4b, 0xfd, 0x06, 0x74, 0x57, 0xa0, 0xd6, 0xd6, 0x0f, 0x23,
      0xb4, 0xcc, 0x82, 0xfd, 0x2a, 0x62, 0x4e]
    decrypt privateKey vote = .ok [0x79, 0x65, 0x73] ∧
      (∀ other, other.take 44 = vote.take 44 → decrypt privateKey other = .ok [0x79, 0x65, 0x73] →
        other = vote) ∧
      ∃! mark : Octets 16,
        ∃ text, decrypt privateKey (vote.take 44 ++ [] ++ mark.toList) = .ok text := by
  intro privateKey vote
  have hopens : decrypt privateKey vote = .ok [0x79, 0x65, 0x73] := by decide +kernel
  obtain ⟨-, hunique, hmarks⟩ := accepted_vote_canonical hopens
  exact ⟨hopens, hunique, hmarks []⟩

end Vote

end SealedPoll
