import SealedPoll.MainKey
import SealedPoll.Proofs.Vote.Tampering

/-!
# Keys matter by their values only

* `Curve.SameCoordinate` : two public keys denote the same coordinate
  (`Curve.sameCoordinate_iff_ofOctets`), as they do if they differ in bit 255 only
  (`Curve.sameCoordinate_of_flipBit`);
* `Curve.clampOctets` : a private key with those bits cleared and set on which its scalar does not
  depend (`Curve.toNatLE_clampOctets`);
* `Vote.decrypt_same_coordinate`, `Vote.encrypt_same_coordinate`, `Vote.decrypt_flipBit` : votes are
  opened and sealed alike with keys of the same coordinate;
* `Vote.decrypt_same_scalar`, `MainKey.endorseBytes_same_scalar` : and with private keys of the same
  scalar, which also have the same public key.
-/

namespace SealedPoll

theorem modify_append_cons {α : Type} {front : List α} {i : Nat} (h : front.length = i) (x : α)
    (rest : List α) (f : α → α) : (front ++ x :: rest).modify i f = front ++ f x :: rest := by
  subst h
  rw [List.modify_eq_take_cons_drop (by simp)]
  simp

namespace Curve

variable {a b : Octets 32}

/-- The most significant byte apart. -/
theorem exists_last (a : Octets 32) :
    ∃ (front : Bytes) (last : UInt8), front.length = 31 ∧ a.toList = front ++ [last] := by
  have hne : a.toList ≠ [] := List.ne_nil_of_length_pos (by rw [a.length_toList]; decide)
  exact ⟨a.toList.dropLast, a.toList.getLast hne, by simp, (List.dropLast_append_getLast hne).symm⟩

/-! ## Public keys -/

/-- The bytes denote the same coordinate: least significant first, bit 255 dropped, reduced. -/
def SameCoordinate (a b : Octets 32) : Prop :=
  a.toNatLE % 2 ^ 255 ≡ b.toNatLE % 2 ^ 255 [MOD 2 ^ 255 - 19]

theorem sameCoordinate_iff_ofOctets :
    SameCoordinate a b ↔ FieldElement.ofOctets a = FieldElement.ofOctets b := by
  rw [Fin.ext_iff]
  exact Iff.rfl

/-- The prime itself and zero, with bit 255 set, denote zero. -/
example : SameCoordinate (.ofNatLE 32 (2 ^ 255 - 19)) (.ofNatLE 32 (2 ^ 255)) := by
  unfold SameCoordinate
  decide

theorem agree_same_coordinate (h : SameCoordinate a b) (secret : Octets 32) :
    agree secret a = agree secret b := by
  rw [agree, agree, sameCoordinate_iff_ofOctets.1 h]

/-- Bit 255 is the highest one of the last byte. -/
theorem sameCoordinate_of_flipBit (h : b.toList = flipBit a.toList 31 7) : SameCoordinate b a := by
  obtain ⟨front, last, hfront, ha⟩ := exists_last a
  have hmask : ∀ n : Fin 256, (n.val ^^^ 128) % 128 = n.val % 128 := by decide +kernel
  have hlast : (last ^^^ 128).toNat % 128 = last.toNat % 128 := hmask last.toFin
  rw [ha, flipBit, modify_append_cons hfront] at h
  have hlow : b.toNatLE % 2 ^ 255 = a.toNatLE % 2 ^ 255 := by
    rw [Octets.toNatLE, Octets.toNatLE, ha, h, Bytes.toNatLE_append, Bytes.toNatLE_append, hfront]
    change (_ + 256 ^ 31 * ((last ^^^ 128).toNat + 256 * 0)) % 2 ^ 255 = _
    simp only [Bytes.toNatLE]
    omega
  rw [SameCoordinate, hlow]

/-! ## Private keys -/

/-- Secret bytes after clamping: the lowest three bits and bit 255 are cleared and bit 254 is set. -/
def clampOctets (a : Octets 32) : Octets 32 :=
  ⟨(a.toList.modify 0 (· &&& 248)).modify 31 (· &&& 127 ||| 64), by simp⟩

/-- Their number is the scalar. -/
theorem toNatLE_clampOctets (a : Octets 32) : (clampOctets a).toNatLE = clamp a := by
  obtain ⟨front, last, hfront, ha⟩ := exists_last a
  obtain ⟨first, middle, rfl⟩ := List.exists_cons_of_length_eq_add_one hfront
  have hmiddle : middle.length = 30 := by simpa using hfront
  have hfirstMask : ∀ n : Fin 256, n.val &&& 248 = n.val / 8 * 8 := by decide +kernel
  have hlastMask : ∀ n : Fin 256, n.val &&& 127 ||| 64 = n.val % 64 + 64 := by decide +kernel
  have hfirst : (first &&& 248).toNat = first.toNat / 8 * 8 := hfirstMask first.toFin
  have hlast : (last &&& 127 ||| 64).toNat = last.toNat % 64 + 64 := hlastMask last.toFin
  have hclamped : (clampOctets a).toList = (first &&& 248) :: middle ++ [last &&& 127 ||| 64] := by
    have hbytes : (clampOctets a).toList =
        (a.toList.modify 0 (· &&& 248)).modify 31 (· &&& 127 ||| 64) := rfl
    have hlength : ((first &&& 248) :: middle).length = 31 := hfront
    rw [hbytes, ha]
    exact modify_append_cons hlength last [] _
  have hfirstLt := first.toNat_lt
  have hmiddleLt := Bytes.toNatLE_lt middle
  rw [hmiddle] at hmiddleLt
  rw [clamp, Octets.toNatLE, Octets.toNatLE, hclamped, ha, Bytes.toNatLE_append,
    Bytes.toNatLE_append, hfront, List.length_cons, hmiddle]
  simp only [Bytes.toNatLE, hfirst, hlast]
  omega

theorem clamp_eq_of_clampOctets_eq (h : clampOctets a = clampOctets b) : clamp a = clamp b := by
  rw [← toNatLE_clampOctets, h, toNatLE_clampOctets]

theorem agree_same_scalar (h : clampOctets a = clampOctets b) (peer : Octets 32) :
    agree a peer = agree b peer := by
  rw [agree, agree, clamp_eq_of_clampOctets_eq h]

theorem publicKey_same_scalar (h : clampOctets a = clampOctets b) : publicKey a = publicKey b := by
  rw [publicKey, publicKey, clamp_eq_of_clampOctets_eq h]

end Curve

/-! ## Votes -/

namespace PollKey

theorem sharedKey_same_coordinate {a b : PollPublicKey} (h : Curve.SameCoordinate a b)
    (secret : PollKey) : secret.sharedKey a = secret.sharedKey b := by
  simp only [sharedKey, Curve.agree_same_coordinate h]

theorem sharedKey_same_scalar {a b : PollKey}
    (h : Curve.clampOctets a.bytes = Curve.clampOctets b.bytes) (peer : PollPublicKey) :
    a.sharedKey peer = b.sharedKey peer := by
  simp only [sharedKey, Curve.agree_same_scalar h]

end PollKey

namespace Vote

theorem openParts_same_coordinate {p : Parts} {key : PollPublicKey}
    (h : Curve.SameCoordinate p.ephemeral key) (secret : PollKey) :
    openParts secret p = openParts secret ⟨key, p.nonce, p.body⟩ := by
  simp only [openParts, PollKey.sharedKey_same_coordinate h]

theorem openParts_same_scalar {a b : PollKey}
    (h : Curve.clampOctets a.bytes = Curve.clampOctets b.bytes) (p : Parts) :
    openParts a p = openParts b p := by
  simp only [openParts, PollKey.sharedKey_same_scalar h]

/-- A vote opens alike with either of two ephemeral keys of the same coordinate. -/
theorem decrypt_same_coordinate {a b : PollPublicKey} (h : Curve.SameCoordinate a b)
    (privateKey rest : Bytes) :
    decrypt privateKey (a.toList ++ rest) = decrypt privateKey (b.toList ++ rest) := by
  have hlength : (a.toList ++ rest).length = (b.toList ++ rest).length := by simp
  by_cases hlong : overhead ≤ (a.toList ++ rest).length
  · obtain ⟨p, hbytes, hbody⟩ := exists_parts hlong
    -- the parts are the key and what the rest consists of
    obtain ⟨hkey, hrest⟩ : a.toList = p.ephemeral.toList ∧ rest = p.nonce.toList ++ p.body := by
      rw [Parts.toBytes, List.append_assoc] at hbytes
      exact List.append_inj hbytes (by simp)
    obtain rfl : a = p.ephemeral := Octets.ext hkey
    have hother : b.toList ++ rest = Parts.toBytes ⟨b, p.nonce, p.body⟩ := by
      rw [hrest, Parts.toBytes, List.append_assoc]
    rw [hbytes, hother, decrypt_toBytes_bind privateKey hbody,
      decrypt_toBytes_bind privateKey (p := ⟨b, p.nonce, p.body⟩) hbody]
    simp only [openParts_same_coordinate h]
  · have hshort := Nat.not_le.1 hlong
    rw [decrypt_of_short privateKey hshort, decrypt_of_short privateKey (hlength ▸ hshort), hlength]

/-- Bit 255 of the ephemeral key does not matter. -/
theorem decrypt_flipBit (privateKey vote : Bytes) :
    decrypt privateKey (flipBit vote 31 7) = decrypt privateKey vote := by
  by_cases hlong : 32 ≤ vote.length
  · obtain ⟨front, last, hfront, hkey⟩ := Curve.exists_last ⟨vote.take 32, by simp [hlong]⟩
    let flipped := last ^^^ 128
    let a : PollPublicKey := ⟨front ++ [last], by simp [hfront]⟩
    let b : PollPublicKey := ⟨front ++ [flipped], by simp [hfront]⟩
    have hb : b.toList = flipBit a.toList 31 7 := (modify_append_cons hfront last [] (· ^^^ 128)).symm
    have hvote : vote = front ++ last :: vote.drop 32 := by
      rw [List.append_cons, ← hkey, List.take_append_drop]
    have hflipped : flipBit vote 31 7 = b.toList ++ vote.drop 32 := by
      rw [flipBit]
      nth_rewrite 1 [hvote]
      rw [modify_append_cons hfront, List.append_cons]
      rfl
    rw [hflipped, decrypt_same_coordinate (Curve.sameCoordinate_of_flipBit hb)]
    exact congrArg (decrypt privateKey) ((List.append_cons _ _ _).symm.trans hvote.symm)
  · rw [flipBit, List.modify_eq_self (by omega)]

/-- A vote opens alike with either of two private keys of the same scalar. -/
theorem decrypt_same_scalar {a b : Octets 32} (h : Curve.clampOctets a = Curve.clampOctets b)
    (vote : Bytes) : decrypt a.toList vote = decrypt b.toList vote := by
  by_cases hlong : overhead ≤ vote.length
  · obtain ⟨p, rfl, hbody⟩ := exists_parts hlong
    have hopen : openParts ⟨a⟩ p = openParts ⟨b⟩ p := openParts_same_scalar h p
    exact (decrypt_toBytes ⟨a⟩ hbody).trans (hopen.trans (decrypt_toBytes ⟨b⟩ hbody).symm)
  · have hshort := Nat.not_le.1 hlong
    rw [decrypt_of_short _ hshort, decrypt_of_short _ hshort]

/-- A text is sealed alike for either of two public keys of the same coordinate. -/
theorem encrypt_same_coordinate {a b : PollPublicKey} (h : Curve.SameCoordinate a b)
    (source : RandomSource) (text : Bytes) :
    encrypt source a.toList text = encrypt source b.toList text := by
  have hseal : ∀ ephemeral nonce, sealParts a ephemeral nonce text = sealParts b ephemeral nonce text := by
    intro ephemeral nonce
    simp only [sealParts, PollKey.sharedKey_same_coordinate h]
  simp only [encrypt, Octets.ofList?_toList, hseal]

end Vote

/-- The public keys of private keys of the same scalar are the same, and so are the signatures over
them. -/
theorem MainKey.endorseBytes_same_scalar {a b : Octets 32}
    (h : Curve.clampOctets a = Curve.clampOctets b) (key : MainKey) :
    key.endorseBytes a.toList = key.endorseBytes b.toList := by
  have hpublic : PollKey.publicKey ⟨a⟩ = PollKey.publicKey ⟨b⟩ := Curve.publicKey_same_scalar h
  have hendorse : key.endorse ⟨a⟩ = key.endorse ⟨b⟩ := by
    rw [MainKey.endorse, MainKey.endorse, hpublic]
  rw [MainKey.endorseBytes, MainKey.endorseBytes, PollKey.ofBytes_toList, PollKey.ofBytes_toList]
  exact congrArg Except.ok hendorse

/-- **Key encodings matter by the values they denote.**

* Votes that are equal from byte 32 on, and whose first 32 bytes denote the same coordinate, open
  alike with every private key; so changing bit 255 of the ephemeral key of a vote changes nothing.
* Private keys that are equal after clamping have the same endorsed public key under every main key,
  and open every vote alike.
* For public keys of the same coordinate the same text is sealed to the same vote, out of the same
  random bytes. -/
theorem encodings_immaterial :
    (∀ a b : PollPublicKey, Curve.SameCoordinate a b → ∀ privateKey rest : Bytes,
      Vote.decrypt privateKey (a.toList ++ rest) = Vote.decrypt privateKey (b.toList ++ rest)) ∧
    (∀ privateKey vote : Bytes,
      Vote.decrypt privateKey (flipBit vote 31 7) = Vote.decrypt privateKey vote) ∧
    (∀ a b : Octets 32, Curve.clampOctets a = Curve.clampOctets b →
      (∀ key : MainKey, key.endorseBytes a.toList = key.endorseBytes b.toList) ∧
        ∀ vote : Bytes, Vote.decrypt a.toList vote = Vote.decrypt b.toList vote) ∧
    ∀ a b : PollPublicKey, Curve.SameCoordinate a b → ∀ (source : RandomSource) (text : Bytes),
      Vote.encrypt source a.toList text = Vote.encrypt source b.toList text :=
  ⟨fun _ _ h => Vote.decrypt_same_coordinate h, Vote.decrypt_flipBit,
    fun _ _ h => ⟨MainKey.endorseBytes_same_scalar h, Vote.decrypt_same_scalar h⟩,
    fun _ _ h => Vote.encrypt_same_coordinate h⟩

end SealedPoll
