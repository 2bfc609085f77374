import SealedPoll.Proofs.Cipher.Field

/-!
# What the tag of an encrypted text depends on

* `Gcm.decrypt_append` : an encrypted text opens if the 16 bytes after it are its tag;
  `Gcm.decrypt_eq_some_iff` : what opens to a text is the text encrypted, and nothing else;
* `Gcm.eq_of_ghash_eq` : a hash key other than zero tells apart lists of blocks that differ in one
  place;
* `Gcm.eq_of_tag_eq`, `Gcm.nonce_eq_of_tag_eq` : so does the tag for texts that differ in one block,
  and for nonces if the cipher permutes blocks.
-/

namespace SealedPoll.Cipher

/-- Bytes of one length, at most 16, are told apart by their blocks. -/
theorem Block.eq_of_ofBytes_eq {bs other : Bytes} (hlength : other.length = bs.length)
    (hfits : bs.length ≤ 16) (h : ofBytes other = ofBytes bs) : other = bs := by
  have hpadded : ∀ xs : Bytes, xs.length = bs.length →
      (ofBytes xs).toBytes = xs ++ List.replicate (16 - bs.length) 0 := by
    intro xs hxs
    have hfull : (xs ++ List.replicate (16 - xs.length) 0).length = 16 := by
      simp
      omega
    have hblock : ofBytes xs = ofBytes (xs ++ List.replicate (16 - xs.length) 0) := by
      rw [ofBytes, ofBytes, hfull, Nat.sub_self, List.replicate_zero, List.append_nil]
    rw [hblock, toBytes_ofBytes hfull, hxs]
  have hbytes := hpadded other hlength
  rw [h, hpadded bs rfl] at hbytes
  exact (List.append_cancel_right hbytes).symm

namespace Gcm

variable {cipher : Block → Block}

/-! ## The polynomial hash -/

/-- One block into the hash. -/
def absorb (h y x : Block) : Block := mul (y ^^^ x) h

theorem ghash_eq_foldl (h : Block) (blocks : List Block) :
    ghash h blocks = blocks.foldl (absorb h) 0 := rfl

theorem absorb_injective_left {h : Block} (hh : h ≠ 0) (x : Block) :
    Function.Injective fun y => absorb h y x := by
  intro y z hyz
  exact (BitVec.xor_left_inj x).1 (mul_injective_left hh hyz)

theorem absorb_injective_right {h : Block} (hh : h ≠ 0) (y : Block) :
    Function.Injective (absorb h y) := by
  intro x z hxz
  exact (BitVec.xor_right_inj y).1 (mul_injective_left hh hxz)

theorem foldl_absorb_injective {h : Block} (hh : h ≠ 0) (blocks : List Block) :
    Function.Injective fun y => blocks.foldl (absorb h) y := by
  induction blocks with
  | nil => exact fun _ _ hyz => hyz
  | cons x blocks ih => exact fun y z hyz => absorb_injective_left hh x (ih hyz)

/-- Lists of blocks that differ in one place at most are told apart, whatever was hashed before. -/
theorem eq_of_foldl_eq {h : Block} (hh : h ≠ 0) {blocks other : List Block} {place : Nat} {y : Block}
    (hlength : other.length = blocks.length)
    (hsame : ∀ i, i ≠ place → other[i]? = blocks[i]?)
    (hfold : other.foldl (absorb h) y = blocks.foldl (absorb h) y) : other = blocks := by
  induction blocks generalizing other place y with
  | nil => exact List.length_eq_zero_iff.1 hlength
  | cons x blocks ih =>
    cases other with
    | nil => simp at hlength
    | cons x' other =>
      cases place with
      | zero =>
        obtain rfl : other = blocks := List.ext_getElem? fun i => hsame (i + 1) (by omega)
        rw [absorb_injective_right hh y (foldl_absorb_injective hh other hfold)]
      | succ place =>
        obtain rfl : x' = x := by simpa using hsame 0 (by omega)
        have hrest : ∀ i, i ≠ place → other[i]? = blocks[i]? := fun i hi =>
          hsame (i + 1) fun heq => hi (Nat.succ.inj heq)
        rw [ih (by simpa using hlength) hrest hfold]

/-- A hash key other than zero tells apart lists of blocks that differ in one place. -/
theorem eq_of_ghash_eq {h : Block} (hh : h ≠ 0) {blocks other : List Block} {place : Nat}
    (hlength : other.length = blocks.length)
    (hsame : ∀ i, i ≠ place → other[i]? = blocks[i]?) (hhash : ghash h other = ghash h blocks) :
    other = blocks := by
  rw [ghash_eq_foldl, ghash_eq_foldl] at hhash
  exact eq_of_foldl_eq hh hlength hsame hhash

/-! ## The tag -/

/-- A text is what its blocks are. -/
theorem eq_of_blocks_eq {body other : Bytes} (hlength : other.length = body.length)
    (h : (chunks 16 other).map Block.ofBytes = (chunks 16 body).map Block.ofBytes) :
    other = body := by
  have hchunks : chunks 16 other = chunks 16 body := by
    apply List.ext_getElem?
    intro j
    by_cases hj : j < (body.length + 16 - 1) / 16
    · have hblock := congrArg (fun blocks => blocks[j]?) h
      have hj' : j < (other.length + 16 - 1) / 16 := by rwa [hlength]
      simp only [List.getElem?_map, getElem?_chunks hj, getElem?_chunks hj', Option.map_some,
        Option.some.injEq] at hblock
      rw [getElem?_chunks hj, getElem?_chunks hj']
      rw [Block.eq_of_ofBytes_eq (by simp [hlength]) (by simp) hblock]
    · rw [List.getElem?_eq_none (by simp; omega), List.getElem?_eq_none (by simp; omega)]
  rw [← flatten_chunks (show 0 < 16 by decide) other, hchunks, flatten_chunks (by decide)]

theorem getElem?_authenticated {body other : Bytes} {i : Nat}
    (hlength : other.length = body.length)
    (hsame : (chunks 16 other)[i]? = (chunks 16 body)[i]?) :
    (authenticated other)[i]? = (authenticated body)[i]? := by
  have hcount : ((chunks 16 other).map Block.ofBytes).length =
      ((chunks 16 body).map Block.ofBytes).length := by
    simp [hlength]
  rw [authenticated, authenticated, hlength, List.getElem?_append, List.getElem?_append, hcount,
    List.getElem?_map, List.getElem?_map, hsame]

/-- If the hash key is not zero, texts of one length that differ in one block have different tags. -/
theorem eq_of_tag_eq (hkey : cipher 0 ≠ 0) {nonce : Octets 12} {body other : Bytes} {place : Nat}
    (hlength : other.length = body.length)
    (hsame : ∀ i, i ≠ place → (chunks 16 other)[i]? = (chunks 16 body)[i]?)
    (htag : tag cipher nonce other = tag cipher nonce body) : other = body := by
  have hhash : ghash (cipher 0) (authenticated other) = ghash (cipher 0) (authenticated body) :=
    (BitVec.xor_left_inj _).1 htag
  have hblocks := eq_of_ghash_eq hkey (by simp [authenticated, hlength])
    (fun i hi => getElem?_authenticated hlength (hsame i hi)) hhash
  rw [authenticated, authenticated, hlength] at hblocks
  exact eq_of_blocks_eq hlength (List.append_cancel_right hblocks)

/-- If the cipher permutes blocks, one text has different tags under different nonces. -/
theorem nonce_eq_of_tag_eq (hcipher : Function.Injective cipher) {nonce other : Octets 12}
    {body : Bytes} (htag : tag cipher other body = tag cipher nonce body) : other = nonce := by
  have hblock : counterBlock other 1 = counterBlock nonce 1 :=
    hcipher ((BitVec.xor_right_inj _).1 htag)
  have hbytes := Block.eq_of_ofBytes_eq (by simp) (by simp) hblock
  exact Octets.ext (List.append_cancel_right hbytes)

/-- An encrypted text opens if the 16 bytes after it are its tag. -/
theorem decrypt_append {nonce : Octets 12} (body : Bytes) {mark : Bytes} (hmark : mark.length = 16) :
    decrypt cipher nonce (body ++ mark) =
      if mark = (tag cipher nonce body).toBytes then some (crypt cipher nonce body) else none := by
  have hlength : (body ++ mark).length - tagLength = body.length := by
    simp [hmark, tagLength]
  simp only [decrypt, hlength, List.take_left, List.drop_left]

/-- What opens to a text is this text encrypted, with the tag it gets there. -/
theorem decrypt_eq_some_iff {nonce : Octets 12} {bs text : Bytes} :
    decrypt cipher nonce bs = some text ↔ bs = encrypt cipher nonce text := by
  constructor
  · intro h
    simp only [decrypt] at h
    split at h
    · next hmark =>
      rw [← Option.some.inj h, encrypt, crypt_crypt, ← hmark, List.take_append_drop]
    · cases h
  · rintro rfl
    exact decrypt_encrypt cipher nonce text

/-- Behind an encrypted text only its tag makes it open. -/
theorem exists_encrypt_iff {nonce : Octets 12} (body : Bytes) {mark : Bytes}
    (hmark : mark.length = 16) :
    (∃ text, body ++ mark = encrypt cipher nonce text) ↔
      mark = (tag cipher nonce body).toBytes := by
  simp only [← decrypt_eq_some_iff, decrypt_append body hmark]
  split
  · next htag => simp [htag]
  · next htag => simp [htag]

end Gcm

end SealedPoll.Cipher
