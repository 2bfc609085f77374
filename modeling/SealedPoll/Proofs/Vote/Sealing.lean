import SealedPoll.Proofs.Vote.Opening

/-!
# What sealing a vote comes to, and what it draws

* `SealingRule` : the rules for sealing a vote, with the random source that each leaves; exactly one
  of them applies (`exists_sealingRule`, `encrypt_eq_iff`);
* `Request`, `sourceAfter` : votes sealed one after the other, each with what the one before has left;
* `Draws` : the positions of the script that one request of a sequence is handed, and no other one
  (`eq_of_draws`);
* `sealing_accounted` : the outcomes of sealing, and the script bytes that each vote is made of.
-/

namespace SealedPoll

namespace RandomSource

/-- The source without its next `n` bytes. -/
def skip (source : RandomSource) (n : Nat) : RandomSource := ⟨source.bytes.drop n⟩

theorem size_skip (source : RandomSource) (n : Nat) : (source.skip n).size = source.size - n :=
  List.length_drop

theorem skip_skip (source : RandomSource) (m n : Nat) :
    (source.skip m).skip n = source.skip (m + n) := by
  rw [skip, skip, skip, List.drop_drop]

end RandomSource

namespace Vote

/-! ## The table of outcomes -/

/-- The first 32 bytes that a source hands out, as a private key, and the 12 bytes after them. -/
structure Hands (source : RandomSource) (ephemeral : PollKey) (nonce : Octets 12) : Prop where
  enough : 44 ≤ source.size
  ephemeral_eq : ephemeral.bytes.toList = source.bytes.take 32
  nonce_eq : nonce.toList = (source.bytes.drop 32).take 12

/-- The rules for sealing a vote. The length of the public key comes first; then the private key and
the nonce are drawn, and the agreement comes last. -/
inductive SealingRule (source : RandomSource) :
    Bytes → Bytes → Except Error Bytes × RandomSource → Prop
  | malformed {publicKey text : Bytes} (hkey : publicKey.length ≠ 32) :
      SealingRule source publicKey text (.error .malformedPeerKey, source)
  | noSecret {receiver : PollPublicKey} {text : Bytes} (hsize : source.size < 32) :
      SealingRule source receiver.toList text (.error RandomSource.exhausted, source)
  | noNonce {receiver : PollPublicKey} {text : Bytes} (hsecret : 32 ≤ source.size)
      (hsize : source.size < 44) :
      SealingRule source receiver.toList text (.error RandomSource.exhausted, source.skip 32)
  | noAgreement {receiver : PollPublicKey} {text : Bytes} {ephemeral : PollKey} {nonce : Octets 12}
      (hhands : Hands source ephemeral nonce)
      (hzero : Curve.agree ephemeral.bytes receiver = Octets.zero 32) :
      SealingRule source receiver.toList text (.error .keyAgreementFailure, source.skip 44)
  | done {receiver : PollPublicKey} {text : Bytes} {ephemeral : PollKey} {nonce : Octets 12}
      (hhands : Hands source ephemeral nonce)
      (hshared : Curve.agree ephemeral.bytes receiver ≠ Octets.zero 32) :
      SealingRule source receiver.toList text
        (.ok (ephemeral.publicKey.toList ++ nonce.toList ++
          Cipher.Gcm.encrypt (agreedCipher ephemeral receiver) nonce text), source.skip 44)

variable {source rest : RandomSource} {publicKey text vote : Bytes}
  {outcome : Except Error Bytes × RandomSource}

/-- A source with 44 bytes hands out a private key and a nonce. -/
theorem exists_hands (h : 44 ≤ source.size) :
    ∃ (ephemeral : PollKey) (nonce : Octets 12), Hands source ephemeral nonce := by
  have hlength : 44 ≤ source.bytes.length := h
  exact ⟨⟨⟨source.bytes.take 32, by simp; omega⟩⟩, ⟨(source.bytes.drop 32).take 12, by simp; omega⟩,
    h, rfl, rfl⟩

theorem encrypt_of_hands {receiver : PollPublicKey} {ephemeral : PollKey} {nonce : Octets 12}
    (h : Hands source ephemeral nonce) (text : Bytes) :
    encrypt source receiver.toList text =
      ((sealParts receiver ephemeral nonce text).map Parts.toBytes, source.skip 44) := by
  have henough := h.enough
  have hfirst : 32 ≤ source.size := by omega
  obtain ⟨secret, hsecret, hdraw⟩ := PollKey.draw_of_le hfirst
  obtain rfl : secret = ephemeral := by
    cases secret
    cases ephemeral
    exact congrArg PollKey.mk (Octets.ext (hsecret.trans h.ephemeral_eq.symm))
  have hleft : 12 ≤ (source.skip 32).size := by
    rw [RandomSource.size_skip]
    omega
  obtain ⟨drawn, hdrawn, hrest⟩ := RandomSource.draw_of_le hleft
  obtain rfl : drawn = nonce := Octets.ext (hdrawn.trans h.nonce_eq.symm)
  have hsource : (⟨(source.skip 32).bytes.drop 12⟩ : RandomSource) = source.skip 44 :=
    source.skip_skip 32 12
  rw [hsource] at hrest
  rw [RandomSource.skip] at hrest
  simp only [encrypt, Octets.ofList?_toList, hdraw, hrest]

theorem encrypt_of_rule (h : SealingRule source publicKey text outcome) :
    encrypt source publicKey text = outcome := by
  cases h with
  | malformed hkey => rw [encrypt, Octets.ofList?_eq_none_iff.2 hkey]
  | noSecret hsize => rw [encrypt, Octets.ofList?_toList]; simp only [PollKey.draw_of_lt hsize]
  | noNonce hsecret hsize =>
    obtain ⟨secret, -, hdraw⟩ := PollKey.draw_of_le hsecret
    have hleft : (source.skip 32).size < 12 := by
      rw [RandomSource.size_skip]
      omega
    have hrest := RandomSource.draw_of_lt hleft
    rw [RandomSource.skip] at hrest
    simp only [encrypt, Octets.ofList?_toList, hdraw, hrest]
    rfl
  | noAgreement hhands hzero =>
    rw [encrypt_of_hands hhands, sealParts, PollKey.sharedKey_of_zero hzero]
    rfl
  | done hhands hshared =>
    rw [encrypt_of_hands hhands, sealParts, PollKey.sharedKey_of_ne hshared]
    rfl

/-- To any source and any public key a rule applies. -/
theorem exists_sealingRule (source : RandomSource) (publicKey text : Bytes) :
    ∃ outcome, SealingRule source publicKey text outcome := by
  by_cases hkey : publicKey.length = 32
  · obtain ⟨receiver, rfl⟩ : ∃ receiver : PollPublicKey, publicKey = receiver.toList :=
      ⟨⟨publicKey, hkey⟩, rfl⟩
    by_cases hsecret : 32 ≤ source.size
    · by_cases henough : 44 ≤ source.size
      · obtain ⟨ephemeral, nonce, hhands⟩ := exists_hands henough
        by_cases hzero : Curve.agree ephemeral.bytes receiver = Octets.zero 32
        · exact ⟨_, .noAgreement hhands hzero⟩
        · exact ⟨_, .done hhands hzero⟩
      · exact ⟨_, .noNonce hsecret (Nat.not_le.1 henough)⟩
    · exact ⟨_, .noSecret (Nat.not_le.1 hsecret)⟩
  · exact ⟨_, .malformed hkey⟩

theorem encrypt_eq_iff :
    encrypt source publicKey text = outcome ↔ SealingRule source publicKey text outcome := by
  refine ⟨?_, encrypt_of_rule⟩
  rintro rfl
  obtain ⟨outcome, hrule⟩ := exists_sealingRule source publicKey text
  rwa [encrypt_of_rule hrule]

/-- What is drawn comes from the front of the script. -/
theorem SealingRule.exists_skip (h : SealingRule source publicKey text outcome) :
    ∃ k ≤ source.size, outcome.2 = source.skip k := by
  cases h with
  | malformed => exact ⟨0, Nat.zero_le _, rfl⟩
  | noSecret => exact ⟨0, Nat.zero_le _, rfl⟩
  | noNonce hsecret => exact ⟨32, hsecret, rfl⟩
  | noAgreement hhands => exact ⟨44, hhands.enough, rfl⟩
  | done hhands => exact ⟨44, hhands.enough, rfl⟩

/-- A vote is made of the next 44 bytes. -/
theorem SealingRule.exists_hands (h : SealingRule source publicKey text outcome)
    (hvote : outcome.1 = .ok vote) :
    ∃ (receiver : PollPublicKey) (ephemeral : PollKey) (nonce : Octets 12),
      publicKey = receiver.toList ∧ Hands source ephemeral nonce ∧ outcome.2 = source.skip 44 ∧
      vote = ephemeral.publicKey.toList ++ nonce.toList ++
        Cipher.Gcm.encrypt (agreedCipher ephemeral receiver) nonce text := by
  cases h with
  | done hhands => exact ⟨_, _, _, rfl, hhands, rfl, (Except.ok.inj hvote).symm⟩
  | malformed => cases hvote
  | noSecret => cases hvote
  | noNonce => cases hvote
  | noAgreement => cases hvote

theorem encrypt_rule (source : RandomSource) (publicKey text : Bytes) :
    SealingRule source publicKey text (encrypt source publicKey text) := encrypt_eq_iff.1 rfl

/-! ## Votes sealed one after the other -/

/-- A text to be sealed for the holder of a public key. -/
structure Request where
  publicKey : Bytes
  text : Bytes

def Request.run (request : Request) (source : RandomSource) : Except Error Bytes × RandomSource :=
  encrypt source request.publicKey request.text

/-- The random source after requests, whether they succeed or not. -/
def sourceAfter (source : RandomSource) (requests : List Request) : RandomSource :=
  requests.foldl (fun source request => (request.run source).2) source

/-- Request number `n` is handed position `i` of the script. -/
def Draws (source : RandomSource) (requests : List Request) (n i : Nat) : Prop :=
  source.size - (sourceAfter source (requests.take n)).size ≤ i ∧
    i < source.size - (sourceAfter source (requests.take (n + 1))).size

variable {requests : List Request} {request : Request}

theorem sourceAfter_append (source : RandomSource) (earlier later : List Request) :
    sourceAfter source (earlier ++ later) = sourceAfter (sourceAfter source earlier) later :=
  List.foldl_append

theorem sourceAfter_take_succ {n : Nat} (h : requests[n]? = some request) :
    sourceAfter source (requests.take (n + 1)) =
      (request.run (sourceAfter source (requests.take n))).2 := by
  rw [List.take_add_one, h, sourceAfter_append]
  rfl

/-- Requests one after the other draw from the front of the script, too. -/
theorem exists_skip_sourceAfter (source : RandomSource) (requests : List Request) :
    ∃ k ≤ source.size, sourceAfter source requests = source.skip k := by
  induction requests generalizing source with
  | nil => exact ⟨0, Nat.zero_le _, rfl⟩
  | cons request requests ih =>
    obtain ⟨first, hfirst, hrun⟩ := (encrypt_rule source request.publicKey request.text).exists_skip
    obtain ⟨more, hmore, hafter⟩ := ih (source.skip first)
    rw [RandomSource.size_skip] at hmore
    refine ⟨first + more, by omega, ?_⟩
    rw [← RandomSource.skip_skip, ← hafter, ← hrun]
    rfl

theorem size_sourceAfter_le (source : RandomSource) (requests : List Request) :
    (sourceAfter source requests).size ≤ source.size := by
  obtain ⟨k, -, hafter⟩ := exists_skip_sourceAfter source requests
  rw [hafter, RandomSource.size_skip]
  exact Nat.sub_le _ _

/-- The more requests, the fewer bytes are left. -/
theorem size_sourceAfter_take_le (source : RandomSource) (requests : List Request) {m n : Nat}
    (h : m ≤ n) :
    (sourceAfter source (requests.take n)).size ≤ (sourceAfter source (requests.take m)).size := by
  have hshorter : (requests.take n).take m = requests.take m := by
    rw [List.take_take, Nat.min_eq_left h]
  rw [← List.take_append_drop m (requests.take n), hshorter, sourceAfter_append]
  exact size_sourceAfter_le _ _

/-- No position is handed to two requests. -/
theorem eq_of_draws {m n i : Nat} (hm : Draws source requests m i) (hn : Draws source requests n i) :
    m = n := by
  obtain ⟨hm, hm'⟩ := hm
  obtain ⟨hn, hn'⟩ := hn
  rcases Nat.lt_trichotomy m n with hlt | heq | hlt
  · have hsize := size_sourceAfter_take_le source requests (show m + 1 ≤ n from hlt)
    omega
  · exact heq
  · have hsize := size_sourceAfter_take_le source requests (show n + 1 ≤ m from hlt)
    omega

/-- A vote is made of the bytes at the positions that its request is handed, 44 in a row. -/
theorem exists_hands_of_run {n : Nat} (hrequest : requests[n]? = some request)
    (hvote : (request.run (sourceAfter source (requests.take n))).1 = .ok vote) :
    ∃ (k : Nat) (receiver : PollPublicKey) (ephemeral : PollKey) (nonce : Octets 12),
      (∀ i, Draws source requests n i ↔ k ≤ i ∧ i < k + 44) ∧ k + 44 ≤ source.size ∧
      request.publicKey = receiver.toList ∧
      ephemeral.bytes.toList = (source.bytes.drop k).take 32 ∧
      nonce.toList = (source.bytes.drop (k + 32)).take 12 ∧
      vote = ephemeral.publicKey.toList ++ nonce.toList ++
        Cipher.Gcm.encrypt (agreedCipher ephemeral receiver) nonce request.text := by
  have hafter : sourceAfter source (requests.take (n + 1)) = _ := sourceAfter_take_succ hrequest
  obtain ⟨k, hk, hbefore⟩ := exists_skip_sourceAfter source (requests.take n)
  rw [hbefore] at hvote hafter
  obtain ⟨receiver, ephemeral, nonce, hreceiver, hhands, hrest, hmade⟩ :=
    (encrypt_rule (source.skip k) request.publicKey request.text).exists_hands hvote
  have henough := hhands.enough
  rw [RandomSource.size_skip] at henough
  have hnext : sourceAfter source (requests.take (n + 1)) = source.skip (k + 44) := by
    rw [hafter, ← RandomSource.skip_skip, ← hrest]
    rfl
  refine ⟨k, receiver, ephemeral, nonce, fun i => ?_, by omega, hreceiver, hhands.ephemeral_eq, ?_,
    hmade⟩
  · rw [Draws, hbefore, hnext, RandomSource.size_skip, RandomSource.size_skip]
    omega
  · rw [hhands.nonce_eq, RandomSource.skip, List.drop_drop]

/-- **What sealing comes to, and which bytes it draws.** The first rule that applies decides the
outcome and how many bytes are drawn; a vote is 60 bytes longer than its text. In any sequence of
requests on one source, whether they succeed or not, no position of the script is handed to two of
them, and each vote is made of the 44 bytes that its request is handed. -/
theorem sealing_accounted (source : RandomSource) :
    (∀ publicKey text outcome, encrypt source publicKey text = outcome ↔
      SealingRule source publicKey text outcome) ∧
    (∀ publicKey text vote, (encrypt source publicKey text).1 = .ok vote →
      vote.length = 60 + text.length) ∧
    ∀ requests : List Request,
      (∀ m n i, Draws source requests m i → Draws source requests n i → m = n) ∧
      ∀ n request vote, requests[n]? = some request →
        (request.run (sourceAfter source (requests.take n))).1 = .ok vote →
        ∃ (k : Nat) (receiver : PollPublicKey) (ephemeral : PollKey) (nonce : Octets 12),
          (∀ i, Draws source requests n i ↔ k ≤ i ∧ i < k + 44) ∧ k + 44 ≤ source.size ∧
          request.publicKey = receiver.toList ∧
          ephemeral.bytes.toList = (source.bytes.drop k).take 32 ∧
          nonce.toList = (source.bytes.drop (k + 32)).take 12 ∧
          vote = ephemeral.publicKey.toList ++ nonce.toList ++
            Cipher.Gcm.encrypt (agreedCipher ephemeral receiver) nonce request.text := by
  refine ⟨fun _ _ _ => encrypt_eq_iff, fun publicKey text vote hvote => ?_, fun requests =>
    ⟨fun _ _ _ => eq_of_draws, fun _ _ _ => exists_hands_of_run⟩⟩
  obtain ⟨receiver, ephemeral, nonce, -, -, -, rfl⟩ :=
    (encrypt_rule source publicKey text).exists_hands hvote
  simp
  omega

end Vote

end SealedPoll
