import SealedPoll.Vote

/-!
# Sealing and opening votes

* `PollKey.Agrees` : two private keys arrive at the same shared secret from either side;
  `PollKey.sharedKey_publicKey` : and hence at the same symmetric key;
* `Vote.decrypt_toBytes`, `Vote.exists_parts` : a poll's key opens the parts of any vote that is
  long enough;
* `Vote.decrypt_eq_error`, `Vote.length_of_decrypt` : the three refusals of a vote, and the length
  of its text;
* `Vote.encrypt_eq_ok`, `Vote.decrypt_of_encrypt` : what a sealed vote consists of, and that it
  opens again; `Vote.sealed_vote_opens` adds its length.
-/

namespace SealedPoll

namespace PollKey

/-- The holders of `a` and of `b` arrive at the same shared secret, each with the other's public
key. -/
def Agrees (a b : PollKey) : Prop := Curve.agree a.bytes b.publicKey = Curve.agree b.bytes a.publicKey

instance (a b : PollKey) : Decidable (Agrees a b) := inferInstanceAs (Decidable (_ = _))

theorem sharedKey_publicKey {a b : PollKey} (h : Agrees a b) :
    a.sharedKey b.publicKey = b.sharedKey a.publicKey := by
  unfold Agrees at h
  simp only [sharedKey, h]

theorem ofBytes_bind {α : Type} (secret : PollKey) (next : PollKey → Except Error α) :
    (ofBytes secret.bytes.toList >>= next) = next secret := by
  rw [ofBytes_toList]
  rfl

theorem sharedKey_eq_error {secret : PollKey} {peer : PollPublicKey} {e : Error}
    (h : secret.sharedKey peer = .error e) : e = .keyAgreementFailure := by
  simp only [sharedKey] at h
  split at h
  · exact (Except.error.inj h).symm
  · cases h

end PollKey

namespace Vote

/-! ## The parts of a vote -/

@[simp] theorem Parts.length_toBytes (p : Parts) : p.toBytes.length = 44 + p.body.length := by
  simp [Parts.toBytes]
  omega

/-- Bytes that are long enough are those of some parts. -/
theorem exists_parts {bs : Bytes} (h : overhead ≤ bs.length) :
    ∃ p : Parts, bs = p.toBytes ∧ 16 ≤ p.body.length := by
  unfold overhead at h
  refine ⟨⟨⟨bs.take 32, by simp; omega⟩, ⟨(bs.drop 32).take 12, by simp; omega⟩, bs.drop 44⟩,
    ?_, ?_⟩
  · have hrest : bs.drop 44 = (bs.drop 32).drop 12 := by rw [List.drop_drop]
    simp only [Parts.toBytes]
    rw [hrest, List.append_assoc, List.take_append_drop, List.take_append_drop]
  · rw [List.length_drop]
    omega

/-- The private key is read, then it opens the parts of the vote. -/
theorem decrypt_toBytes_bind (privateKey : Bytes) {p : Parts} (h : 16 ≤ p.body.length) :
    decrypt privateKey p.toBytes = PollKey.ofBytes privateKey >>= fun secret => openParts secret p := by
  have hlong : ¬ p.toBytes.length < overhead := by
    rw [Parts.length_toBytes, overhead]
    omega
  rw [decrypt, if_neg hlong, Parts.ofBytes?_toBytes]

/-- A poll's key opens the parts of a vote. -/
theorem decrypt_toBytes (secret : PollKey) {p : Parts} (h : 16 ≤ p.body.length) :
    decrypt secret.bytes.toList p.toBytes = openParts secret p := by
  rw [decrypt_toBytes_bind _ h]
  exact PollKey.ofBytes_bind secret fun secret => openParts secret p

theorem decrypt_of_short (privateKey : Bytes) {vote : Bytes} (h : vote.length < overhead) :
    decrypt privateKey vote = .error (.ciphertextTooShort vote.length) := by
  rw [decrypt, if_pos h]

/-! ## What opening comes to -/

theorem openParts_eq {secret : PollKey} (p : Parts) {key : Octets 32}
    (h : secret.sharedKey p.ephemeral = .ok key) :
    openParts secret p = match Cipher.Gcm.decrypt (cipher key) p.nonce p.body with
      | some text => .ok text
      | none => .error .authenticationFailed := by
  rw [openParts, h]
  rfl

theorem openParts_of_error {secret : PollKey} (p : Parts) {e : Error}
    (h : secret.sharedKey p.ephemeral = .error e) : openParts secret p = .error e := by
  rw [openParts, h]
  rfl

theorem openParts_eq_error {secret : PollKey} {p : Parts} {e : Error}
    (h : openParts secret p = .error e) : e = .keyAgreementFailure ∨ e = .authenticationFailed := by
  cases hkey : secret.sharedKey p.ephemeral with
  | error e' =>
    rw [openParts_of_error p hkey] at h
    cases h
    exact Or.inl (PollKey.sharedKey_eq_error hkey)
  | ok key =>
    rw [openParts_eq p hkey] at h
    split at h
    · cases h
    · exact Or.inr (Except.error.inj h).symm

theorem length_of_gcm_decrypt {cipher : Cipher.Block → Cipher.Block} {nonce : Octets 12}
    {body text : Bytes} (h : Cipher.Gcm.decrypt cipher nonce body = some text) :
    text.length = body.length - 16 := by
  simp only [Cipher.Gcm.decrypt] at h
  split at h
  · rw [← Option.some.inj h]
    simp [Cipher.Gcm.tagLength]
  · cases h

theorem length_of_openParts {secret : PollKey} {p : Parts} {text : Bytes}
    (h : openParts secret p = .ok text) : text.length = p.body.length - 16 := by
  cases hkey : secret.sharedKey p.ephemeral with
  | error e =>
    rw [openParts_of_error p hkey] at h
    cases h
  | ok key =>
    rw [openParts_eq p hkey] at h
    split at h
    · next text' htext =>
      cases h
      exact length_of_gcm_decrypt htext
    · cases h

/-- A poll's key refuses a vote for one of three reasons. -/
theorem decrypt_eq_error {secret : PollKey} {vote : Bytes} {e : Error}
    (h : decrypt secret.bytes.toList vote = .error e) :
    e = .ciphertextTooShort vote.length ∨ e = .keyAgreementFailure ∨ e = .authenticationFailed := by
  by_cases hlong : overhead ≤ vote.length
  · obtain ⟨p, rfl, hbody⟩ := exists_parts hlong
    rw [decrypt_toBytes secret hbody] at h
    exact Or.inr (openParts_eq_error h)
  · rw [decrypt_of_short _ (Nat.not_le.1 hlong)] at h
    exact Or.inl (Except.error.inj h).symm

theorem length_of_decrypt {secret : PollKey} {vote text : Bytes}
    (h : decrypt secret.bytes.toList vote = .ok text) : vote.length = text.length + overhead := by
  by_cases hlong : overhead ≤ vote.length
  · obtain ⟨p, rfl, hbody⟩ := exists_parts hlong
    rw [decrypt_toBytes secret hbody] at h
    rw [length_of_openParts h, Parts.length_toBytes, overhead]
    omega
  · rw [decrypt_of_short _ (Nat.not_le.1 hlong)] at h
    cases h

/-! ## Sealed votes open again -/

/-- What is sealed for the public key of `secret` opens with it. -/
theorem openParts_of_sealParts {secret ephemeral : PollKey} (hagree : PollKey.Agrees secret ephemeral)
    {nonce : Octets 12} {text : Bytes} {p : Parts}
    (h : sealParts secret.publicKey ephemeral nonce text = .ok p) :
    openParts secret p = .ok text ∧ p.body.length = text.length + 16 := by
  cases hkey : ephemeral.sharedKey secret.publicKey with
  | error e =>
    rw [sealParts, hkey] at h
    cases h
  | ok key =>
    rw [sealParts, hkey] at h
    have hp : ⟨ephemeral.publicKey, nonce, Cipher.Gcm.encrypt (cipher key) nonce text⟩ = p :=
      Except.ok.inj h
    -- the receiver derives the sender's key from the public key in the vote
    have hopen : secret.sharedKey p.ephemeral = .ok key := by
      rw [← hp, PollKey.sharedKey_publicKey hagree, hkey]
    rw [openParts_eq p hopen, ← hp, Cipher.Gcm.decrypt_encrypt]
    exact ⟨rfl, Cipher.Gcm.length_encrypt _ _ _⟩

/-- A sealed vote is made of the parts sealed with the first key that the source hands out. -/
theorem encrypt_eq_ok {source : RandomSource} {publicKey text vote : Bytes}
    (h : (encrypt source publicKey text).1 = .ok vote) :
    ∃ (receiver : PollPublicKey) (ephemeral : PollKey) (nonce : Octets 12) (p : Parts),
      publicKey = receiver.toList ∧ (PollKey.draw source).1 = .ok ephemeral ∧
        sealParts receiver ephemeral nonce text = .ok p ∧ vote = p.toBytes := by
  unfold encrypt at h
  split at h
  · cases h
  · next receiver hreceiver =>
    split at h
    · cases h
    · next ephemeral rest hdraw =>
      split at h
      · cases h
      · next nonce rest' hnonce =>
        cases hparts : sealParts receiver ephemeral nonce text with
        | error e =>
          rw [hparts] at h
          cases h
        | ok p =>
          rw [hparts] at h
          refine ⟨receiver, ephemeral, nonce, p, (Octets.ofList?_eq_some_iff.1 hreceiver).symm, ?_,
            hparts, (Except.ok.inj h).symm⟩
          rw [hdraw]

/-- A vote sealed for the public key of `secret` opens with it. -/
theorem decrypt_of_encrypt {secret : PollKey} {source : RandomSource} {text vote : Bytes}
    (hagree : ∀ ephemeral, (PollKey.draw source).1 = .ok ephemeral → PollKey.Agrees secret ephemeral)
    (h : (encrypt source secret.publicKey.toList text).1 = .ok vote) :
    decrypt secret.bytes.toList vote = .ok text := by
  obtain ⟨receiver, ephemeral, nonce, p, hreceiver, hdraw, hseal, rfl⟩ := encrypt_eq_ok h
  obtain rfl : secret.publicKey = receiver := Octets.ext hreceiver
  obtain ⟨hopen, hbody⟩ := openParts_of_sealParts (hagree ephemeral hdraw) hseal
  rw [decrypt_toBytes secret (by omega), hopen]

/-- **Opening undoes sealing**: a vote sealed for the public key of `secret` is 60 bytes longer than
its text, and `secret` opens it to this text. -/
theorem sealed_vote_opens (secret : PollKey) (source : RandomSource) (text vote : Bytes)
    (hagree : ∀ ephemeral, (PollKey.draw source).1 = .ok ephemeral → PollKey.Agrees secret ephemeral)
    (h : (encrypt source secret.publicKey.toList text).1 = .ok vote) :
    vote.length = 60 + text.length ∧ decrypt secret.bytes.toList vote = .ok text := by
  have hopen := decrypt_of_encrypt hagree h
  refine ⟨?_, hopen⟩
  rw [length_of_decrypt hopen, overhead, Nat.add_comm]

/-- A text of two blocks, the second one short, under a private key that is not clamped. -/
theorem sealed_vote_opens_of_two_blocks :
    let secret : PollKey := ⟨⟨List.replicate 32 255, rfl⟩⟩
    let source : RandomSource := ⟨(List.range 44).map UInt8.ofNat⟩
    let text : Bytes := (List.range 21).map UInt8.ofNat
    ∃ vote, (encrypt source secret.publicKey.toList text).1 = .ok vote ∧ vote.length = 81 ∧
      decrypt secret.bytes.toList vote = .ok text := by
  intro secret source text
  have hsealed : (encrypt source secret.publicKey.toList text).1.toBool = true := by decide +kernel
  cases h : (encrypt source secret.publicKey.toList text).1 with
  | error e =>
    rw [h] at hsealed
    cases hsealed
  | ok vote =>
    let drawn : PollKey := ⟨⟨(List.range 32).map UInt8.ofNat, rfl⟩⟩
    have hdraw : (PollKey.draw source).1 = .ok drawn := rfl
    have hagree : ∀ ephemeral, (PollKey.draw source).1 = .ok ephemeral →
        PollKey.Agrees secret ephemeral := by
      intro ephemeral hephemeral
      obtain rfl : drawn = ephemeral := Except.ok.inj (hdraw.symm.trans hephemeral)
      decide +kernel
    obtain ⟨hlength, hopen⟩ := sealed_vote_opens secret source text vote hagree h
    exact ⟨vote, rfl, hlength, hopen⟩

end Vote

end SealedPoll
