import SealedPoll.Proofs.Cipher.Aes
import SealedPoll.Proofs.Cipher.Gcm
import SealedPoll.Proofs.Vote

/-!
# Tampered votes are refused

A vote is cut into ephemeral key, nonce, encrypted text and tag (`Vote.Layout`), and a poll's key
opens it exactly if the tag is that of the encrypted text under the nonce (`Vote.decrypt_eq_ite`).

* `Tampered` : bytes changed in one region only; `Tampered.slice_eq` : what lies outside is kept;
* `flipBit` : one bit changed;
* `Vote.tampering_refused` : changes of the tag, of the nonce or of one block are refused, as are
  changes of one bit.
-/

namespace SealedPoll

/-- Bytes as many as `bs` and not the same, which differ from position `first` to before `last`
only. -/
structure Tampered (first last : Nat) (bs other : Bytes) : Prop where
  length : other.length = bs.length
  ne : other ≠ bs
  same : ∀ i, i < first ∨ last ≤ i → other[i]? = bs[i]?

/-- The bytes with one bit of position `i` changed. -/
def flipBit (bs : Bytes) (i : Nat) (bit : Fin 8) : Bytes :=
  bs.modify i (· ^^^ (1 <<< UInt8.ofNat bit))

namespace Tampered

variable {first last : Nat} {bs other : Bytes}

theorem mono (h : Tampered first last bs other) {first' last' : Nat} (hfirst : first' ≤ first)
    (hlast : last ≤ last') : Tampered first' last' bs other :=
  ⟨h.length, h.ne, fun i hi => h.same i (by omega)⟩

/-- What lies before or after the region is kept. -/
theorem slice_eq (h : Tampered first last bs other) {start count : Nat}
    (houtside : start + count ≤ first ∨ last ≤ start) :
    (other.drop start).take count = (bs.drop start).take count := by
  apply List.ext_getElem?
  intro i
  by_cases hi : i < count
  · rw [List.getElem?_take_of_lt hi, List.getElem?_take_of_lt hi, List.getElem?_drop,
      List.getElem?_drop, h.same (start + i) (by omega)]
  · rw [List.getElem?_eq_none (by simp; omega), List.getElem?_eq_none (by simp; omega)]

/-- So are the pieces of a slice which the region does not touch. -/
theorem chunk_eq (h : Tampered first last bs other) {size start count i : Nat}
    (houtside : start + i * size + min size (count - i * size) ≤ first ∨ last ≤ start + i * size) :
    (chunks size ((other.drop start).take count))[i]? =
      (chunks size ((bs.drop start).take count))[i]? := by
  have hlength : ((other.drop start).take count).length = ((bs.drop start).take count).length := by
    simp [h.length]
  by_cases hi : i < (((bs.drop start).take count).length + size - 1) / size
  · rw [getElem?_chunks hi, getElem?_chunks (by rwa [hlength]), List.drop_take, List.drop_take,
      List.take_take, List.take_take, List.drop_drop, List.drop_drop, h.slice_eq houtside]
  · rw [List.getElem?_eq_none (by rw [length_chunks, hlength]; omega),
      List.getElem?_eq_none (by rw [length_chunks]; omega)]

theorem flipBit {i : Nat} (hi : i < bs.length) (bit : Fin 8) :
    Tampered i (i + 1) bs (flipBit bs i bit) := by
  have hmask : ∀ bit : Fin 8, (1 : UInt8) <<< UInt8.ofNat bit ≠ 0 := by decide
  refine ⟨by simp [SealedPoll.flipBit], fun heq => ?_, fun j hj => ?_⟩
  · have hbyte := congrArg (fun xs => xs[i]?) heq
    simp [SealedPoll.flipBit, hi, hmask] at hbyte
  · have hne : i ≠ j := by omega
    simp [SealedPoll.flipBit, hne]

end Tampered

namespace Vote

open Cipher (Block)

variable {privateKey vote other text : Bytes}

/-! ## The layout of a vote -/

/-- A vote as ephemeral key, nonce, encrypted text and tag, each being its slice of the bytes. -/
structure Layout (bs : Bytes) (ephemeral : PollPublicKey) (nonce : Octets 12) (body mark : Bytes) :
    Prop where
  eq : bs = Parts.toBytes ⟨ephemeral, nonce, body ++ mark⟩
  length_mark : mark.length = 16
  ephemeral_eq : ephemeral.toList = (bs.drop 0).take 32
  nonce_eq : nonce.toList = (bs.drop 32).take 12
  body_eq : body = (bs.drop 44).take (bs.length - 60)
  mark_eq : mark = (bs.drop (bs.length - 16)).take 16

namespace Layout

variable {first last : Nat} {ephemeral ephemeral' : PollPublicKey} {nonce nonce' : Octets 12}
  {body body' mark mark' : Bytes}

/-! What the region leaves alone is the same in both layouts. -/

theorem ephemeral_kept (h : Layout vote ephemeral nonce body mark)
    (h' : Layout other ephemeral' nonce' body' mark') (htampered : Tampered first last vote other)
    (hkept : 32 ≤ first) : ephemeral' = ephemeral := by
  apply Octets.ext
  rw [h'.ephemeral_eq, htampered.slice_eq (Or.inl hkept), h.ephemeral_eq]

theorem nonce_kept (h : Layout vote ephemeral nonce body mark)
    (h' : Layout other ephemeral' nonce' body' mark') (htampered : Tampered first last vote other)
    (hkept : 44 ≤ first) : nonce' = nonce := by
  apply Octets.ext
  rw [h'.nonce_eq, htampered.slice_eq (Or.inl hkept), h.nonce_eq]

theorem body_kept (h : Layout vote ephemeral nonce body mark)
    (h' : Layout other ephemeral' nonce' body' mark') (htampered : Tampered first last vote other)
    (hkept : 44 + (vote.length - 60) ≤ first ∨ last ≤ 44) : body' = body := by
  rw [h'.body_eq, htampered.length, htampered.slice_eq hkept, h.body_eq]

theorem mark_kept (h : Layout vote ephemeral nonce body mark)
    (h' : Layout other ephemeral' nonce' body' mark') (htampered : Tampered first last vote other)
    (hkept : last ≤ vote.length - 16) : mark' = mark := by
  rw [h'.mark_eq, htampered.length, htampered.slice_eq (Or.inr hkept), h.mark_eq]

end Layout

theorem exists_layout {bs : Bytes} (h : overhead ≤ bs.length) :
    ∃ ephemeral nonce body mark, Layout bs ephemeral nonce body mark := by
  obtain ⟨⟨ephemeral, nonce, sealed⟩, rfl, hsealed⟩ := exists_parts h
  dsimp only at hsealed
  have hlength : (Parts.toBytes ⟨ephemeral, nonce, sealed⟩).length = 44 + sealed.length := by simp
  have hrest : (Parts.toBytes ⟨ephemeral, nonce, sealed⟩).drop 44 = sealed := by
    simp [Parts.toBytes, List.drop_append]
  refine ⟨ephemeral, nonce, sealed.take (sealed.length - 16), sealed.drop (sealed.length - 16),
    ⟨?_, ?_, ?_, ?_, ?_, ?_⟩⟩
  · rw [List.take_append_drop]
  · rw [List.length_drop]
    omega
  · simp [Parts.toBytes]
  · simp [Parts.toBytes]
  · rw [hrest, hlength, show 44 + sealed.length - 60 = sealed.length - 16 by omega]
  · rw [hlength, show 44 + sealed.length - 16 = 44 + (sealed.length - 16) by omega,
      ← List.drop_drop, hrest, List.take_of_length_le (by rw [List.length_drop]; omega)]

theorem decrypt_of_layout {secret : PollKey} {ephemeral : PollPublicKey} {nonce : Octets 12}
    {body mark : Bytes} (hlayout : Layout vote ephemeral nonce body mark) :
    decrypt secret.bytes.toList vote = openParts secret ⟨ephemeral, nonce, body ++ mark⟩ := by
  rw [hlayout.eq]
  apply decrypt_toBytes
  rw [List.length_append, hlayout.length_mark]
  omega

/-- A poll's key opens a vote exactly if its tag is the right one. -/
theorem decrypt_eq_ite {secret : PollKey} {ephemeral : PollPublicKey} {nonce : Octets 12}
    {body mark : Bytes} {key : Octets 32} (hlayout : Layout vote ephemeral nonce body mark)
    (hkey : secret.sharedKey ephemeral = .ok key) :
    decrypt secret.bytes.toList vote =
      if mark = (Cipher.Gcm.tag (cipher key) nonce body).toBytes then
        .ok (Cipher.Gcm.crypt (cipher key) nonce body)
      else .error .authenticationFailed := by
  have hopen := openParts_eq ⟨ephemeral, nonce, body ++ mark⟩ hkey
  dsimp only at hopen
  rw [Cipher.Gcm.decrypt_append body hlayout.length_mark] at hopen
  rw [decrypt_of_layout hlayout, hopen]
  by_cases hmark : mark = (Cipher.Gcm.tag (cipher key) nonce body).toBytes
  · rw [if_pos hmark, if_pos hmark]
  · rw [if_neg hmark, if_neg hmark]

/-- Only 32 bytes are a private key, and no shorter vote than an empty one opens. -/
theorem exists_secret_of_decrypt (h : decrypt privateKey vote = .ok text) :
    ∃ secret : PollKey, privateKey = secret.bytes.toList ∧ overhead ≤ vote.length := by
  by_cases hlong : overhead ≤ vote.length
  · obtain ⟨p, rfl, -⟩ := exists_parts hlong
    rw [decrypt, if_neg (Nat.not_lt.2 hlong), Parts.ofBytes?_toBytes] at h
    cases hsecret : Octets.ofList? 32 privateKey with
    | none =>
      simp only [PollKey.ofBytes, hsecret] at h
      cases h
    | some key => exact ⟨⟨key⟩, (Octets.ofList?_eq_some_iff.1 hsecret).symm, hlong⟩
  · rw [decrypt_of_short _ (Nat.not_le.1 hlong)] at h
    cases h

/-- The hash key of the tag, where a private key and a vote agree on a key at all. -/
def hashKey? (privateKey vote : Bytes) : Option Block :=
  (Octets.ofList? 32 privateKey).bind fun secret => (Parts.ofBytes? vote).bind fun p =>
    (PollKey.sharedKey ⟨secret⟩ p.ephemeral).toOption.map fun key => cipher key 0

theorem hashKey?_of_layout {secret : PollKey} {ephemeral : PollPublicKey} {nonce : Octets 12}
    {body mark : Bytes} {key : Octets 32} (hlayout : Layout vote ephemeral nonce body mark)
    (hkey : secret.sharedKey ephemeral = .ok key) :
    hashKey? secret.bytes.toList vote = some (cipher key 0) := by
  have hparts : Parts.ofBytes? vote = some ⟨ephemeral, nonce, body ++ mark⟩ := by
    rw [hlayout.eq, Parts.ofBytes?_toBytes]
  have hsecret : Octets.ofList? 32 secret.bytes.toList = some secret.bytes := by simp
  rw [hashKey?, hsecret, Option.bind_some, hparts, Option.bind_some, hkey]
  rfl

/-! ## Tampering -/

/-- A vote that opens has the tag of its encrypted text, under the key agreed on with its ephemeral
key. -/
theorem tag_of_decrypt {ephemeral : PollPublicKey} {nonce : Octets 12} {body mark : Bytes}
    (hlayout : Layout vote ephemeral nonce body mark) (h : decrypt privateKey vote = .ok text) :
    ∃ (secret : PollKey) (key : Octets 32), privateKey = secret.bytes.toList ∧
      secret.sharedKey ephemeral = .ok key ∧
      mark = (Cipher.Gcm.tag (cipher key) nonce body).toBytes := by
  obtain ⟨secret, rfl, -⟩ := exists_secret_of_decrypt h
  cases hkey : secret.sharedKey ephemeral with
  | error e =>
    have hopen : openParts secret ⟨ephemeral, nonce, body ++ mark⟩ = .error e :=
      openParts_of_error ⟨ephemeral, nonce, body ++ mark⟩ hkey
    rw [decrypt_of_layout hlayout, hopen] at h
    cases h
  | ok key =>
    refine ⟨secret, key, rfl, hkey, ?_⟩
    rw [decrypt_eq_ite hlayout hkey] at h
    by_contra hmark
    rw [if_neg hmark] at h
    cases h

/-- A vote that kept the ephemeral key of one that opens is refused, if it could only have the tag of
its encrypted text by being the same vote. -/
theorem refused_of_tag (h : decrypt privateKey vote = .ok text)
    (htampered : Tampered 32 vote.length vote other)
    (hsame : ∀ {key : Octets 32} {ephemeral : PollPublicKey} {nonce nonce' : Octets 12}
      {body body' mark mark' : Bytes}, Layout vote ephemeral nonce body mark →
      Layout other ephemeral nonce' body' mark' →
      hashKey? privateKey vote = some (cipher key 0) →
      mark = (Cipher.Gcm.tag (cipher key) nonce body).toBytes →
      mark' = (Cipher.Gcm.tag (cipher key) nonce' body').toBytes → other = vote) :
    decrypt privateKey other = .error .authenticationFailed := by
  obtain ⟨-, -, hlong⟩ := exists_secret_of_decrypt h
  obtain ⟨ephemeral, nonce, body, mark, hlayout⟩ := exists_layout hlong
  obtain ⟨ephemeral', nonce', body', mark', hlayout'⟩ :=
    exists_layout (hlong.trans_eq htampered.length.symm)
  -- the ephemeral key is kept, so both votes are judged under one symmetric key
  obtain rfl := hlayout.ephemeral_kept hlayout' htampered le_rfl
  obtain ⟨secret, key, rfl, hkey, hmark⟩ := tag_of_decrypt hlayout h
  rw [decrypt_eq_ite hlayout' hkey, if_neg]
  intro hmark'
  exact htampered.ne (hsame hlayout hlayout' (hashKey?_of_layout hlayout hkey) hmark hmark')

theorem refused_of_tampered_tag (h : decrypt privateKey vote = .ok text)
    (htampered : Tampered (vote.length - 16) vote.length vote other) :
    decrypt privateKey other = .error .authenticationFailed := by
  obtain ⟨-, -, hlong⟩ := exists_secret_of_decrypt h
  unfold overhead at hlong
  refine refused_of_tag h (htampered.mono (by omega) le_rfl) ?_
  intro key ephemeral nonce nonce' body body' mark mark' hlayout hlayout' _ hmark hmark'
  obtain rfl := hlayout.nonce_kept hlayout' htampered (by omega)
  obtain rfl := hlayout.body_kept hlayout' htampered (by omega)
  rw [hlayout.eq, hlayout'.eq, hmark, hmark']

theorem refused_of_tampered_nonce (h : decrypt privateKey vote = .ok text)
    (htampered : Tampered 32 44 vote other) :
    decrypt privateKey other = .error .authenticationFailed := by
  obtain ⟨-, -, hlong⟩ := exists_secret_of_decrypt h
  unfold overhead at hlong
  refine refused_of_tag h (htampered.mono le_rfl (by omega)) ?_
  intro key ephemeral nonce nonce' body body' mark mark' hlayout hlayout' _ hmark hmark'
  obtain rfl := hlayout.body_kept hlayout' htampered (by omega)
  obtain rfl := hlayout.mark_kept hlayout' htampered (by omega)
  have htag := Cipher.Block.toBytes_injective (hmark'.symm.trans hmark)
  obtain rfl := Cipher.Gcm.nonce_eq_of_tag_eq (Cipher.Aes.encrypt_bijective key).injective htag
  rw [hlayout.eq, hlayout'.eq]

theorem refused_of_tampered_block (h : decrypt privateKey vote = .ok text)
    (hnonzero : hashKey? privateKey vote ≠ some 0) {j : Nat}
    (htampered : Tampered (44 + 16 * j) (min (44 + 16 * j + 16) (vote.length - 16)) vote other) :
    decrypt privateKey other = .error .authenticationFailed := by
  obtain ⟨-, -, hlong⟩ := exists_secret_of_decrypt h
  unfold overhead at hlong
  refine refused_of_tag h (htampered.mono (by omega) (by omega)) ?_
  intro key ephemeral nonce nonce' body body' mark mark' hlayout hlayout' hhashKey hmark hmark'
  obtain rfl := hlayout.nonce_kept hlayout' htampered (by omega)
  obtain rfl := hlayout.mark_kept hlayout' htampered (by omega)
  have htag := Cipher.Block.toBytes_injective (hmark'.symm.trans hmark)
  have hkey : cipher key 0 ≠ 0 := fun hzero => hnonzero (hhashKey.trans (congrArg some hzero))
  have hlength : body'.length = body.length := by
    rw [hlayout'.body_eq, hlayout.body_eq, List.length_take, List.length_take, List.length_drop,
      List.length_drop, htampered.length]
  -- block `j` is the only one that the region touches
  have hblocks : ∀ i, i ≠ j → (chunks 16 body')[i]? = (chunks 16 body)[i]? := by
    intro i hi
    rw [hlayout'.body_eq, hlayout.body_eq, htampered.length]
    exact htampered.chunk_eq (by omega)
  obtain rfl := Cipher.Gcm.eq_of_tag_eq hkey hlength hblocks htag
  rw [hlayout.eq, hlayout'.eq]

/-- **Tampered votes are refused.** No change of the tag alone, of the nonce alone or, if the hash
key is not zero, of one block of the encrypted text alone goes unnoticed; so no change of one bit
after the ephemeral key does. -/
theorem tampering_refused (h : decrypt privateKey vote = .ok text) :
    (∀ other, Tampered (vote.length - 16) vote.length vote other →
      decrypt privateKey other = .error .authenticationFailed) ∧
    (∀ other, Tampered 32 44 vote other →
      decrypt privateKey other = .error .authenticationFailed) ∧
    (hashKey? privateKey vote ≠ some 0 → ∀ j other,
      Tampered (44 + 16 * j) (min (44 + 16 * j + 16) (vote.length - 16)) vote other →
      decrypt privateKey other = .error .authenticationFailed) ∧
    (hashKey? privateKey vote ≠ some 0 → ∀ i (bit : Fin 8), 32 ≤ i → i < vote.length →
      decrypt privateKey (flipBit vote i bit) = .error .authenticationFailed) := by
  refine ⟨fun _ => refused_of_tampered_tag h, fun _ => refused_of_tampered_nonce h,
    fun hnonzero _ _ => refused_of_tampered_block h hnonzero, fun hnonzero i bit hfirst hi => ?_⟩
  have hflip := Tampered.flipBit hi bit
  -- the bit is one of the tag's, of the nonce's or of block `(i - 44) / 16`
  by_cases htag : vote.length - 16 ≤ i
  · exact refused_of_tampered_tag h (hflip.mono htag hi)
  by_cases hnonce : i < 44
  · exact refused_of_tampered_nonce h (hflip.mono hfirst hnonce)
  · have hfirst : 44 + 16 * ((i - 44) / 16) ≤ i := by omega
    exact refused_of_tampered_block h hnonzero (hflip.mono hfirst (by omega))

/-- A vote of two blocks of encrypted text, with a bit of its nonce, of either block and of its tag
changed. -/
theorem changed_bits_refused :
    let privateKey : Bytes :=
      [0x2b, 0x4d, 0x3e, 0x8a, 0x95, 0xbe, 0x4f, 0x60, 0x02, 0xb2, 0x88, 0x74, 0xc7, 0xcb,
      0xe5, 0x9d, 0xb6, 0x7e, 0x87, 0x10, 0xc3, 0xde, 0x77, 0x09, 0xa8, 0xcb, 0xfa, 0xd6,
      0x79, 0x50, 0xdc, 0x7f]
    let vote : Bytes :=
      [0x94, 0x63, 0x6d, 0xab, 0x5b, 0x45, 0x75, 0xa1, 0xf7, 0xdf, 0xad, 0xbe, 0xd1, 0xa1,
      0x03, 0x15, 0x97, 0x09, 0x3e, 0x70, 0xf1, 0x4c, 0x4d, 0xc3, 0x19, 0x43, 0x0c, 0x62,
      0x56, 0x49, 0x3a, 0x0e, 0x80, 0xf3, 0xa7, 0xbd, 0xb8, 0x01, 0x25, 0x56, 0xb6, 0xaa,
      0x02, 0x22, 0x13, 0x5b, 0x23, 0x41, 0xc5, 0x77, 0x93, 0x22, 0x14, 0x9a, 0x13, 0x7f,
      0x41, 0x32, 0x89, 0x95, 0xb9, 0x6c, 0x4c, 0xdf, 0x68, 0x97, 0xdd, 0xf1, 0x06, 0x1d,
      0x97, 0x46, 0xbc, 0x9b, 0x2d, 0xb6, 0x77]
    (∃ text, decrypt privateKey vote = .ok text) ∧ hashKey? privateKey vote ≠ some 0 ∧
      ∀ i ∈ [40, 59, 60, 76],
        decrypt privateKey (flipBit vote i 7) = .error .authenticationFailed := by
  intro privateKey vote
  have hopens : (decrypt privateKey vote).toBool = true := by decide +kernel
  have hnonzero : hashKey? privateKey vote ≠ some 0 := by decide +kernel
  have hrange : ∀ i ∈ [40, 59, 60, 76], 32 ≤ i ∧ i < vote.length := by decide +kernel
  cases h : decrypt privateKey vote with
  | error e =>
    rw [h] at hopens
    cases hopens
  | ok text =>
    obtain ⟨-, -, -, hflips⟩ := tampering_refused h
    refine ⟨⟨text, rfl⟩, hnonzero, fun i hi => ?_⟩
    obtain ⟨hfirst, hlast⟩ := hrange i hi
    exact hflips hnonzero i 7 hfirst hlast

end Vote

end SealedPoll
