import SealedPoll.Bytes.Endian

/-!
# Blocks of 128 bits

`Block.toBytes` writes a block most significant byte first; `Block.ofBytes` reads at most 16 bytes,
filled up with zeros at the end (`Block.ofBytes_toBytes`).
-/

namespace SealedPoll.Cipher

/-- A block of 128 bits. -/
abbrev Block := BitVec 128

namespace Block

/-- The 16 bytes of a block, most significant first. -/
def toBytes (b : Block) : Bytes := Bytes.ofNatBE 16 b.toNat

/-- The block of at most 16 bytes, filled up with zeros at the end. -/
def ofBytes (bs : Bytes) : Block :=
  BitVec.ofNat 128 (Bytes.toNatBE (bs ++ List.replicate (16 - bs.length) 0))

@[simp] theorem length_toBytes (b : Block) : b.toBytes.length = 16 := by simp [toBytes]

@[simp] theorem ofBytes_toBytes (b : Block) : ofBytes b.toBytes = b := by
  apply BitVec.eq_of_toNat_eq
  rw [ofBytes, length_toBytes, Nat.sub_self, List.replicate_zero, List.append_nil, toBytes,
    Bytes.toNatBE_ofNatBE, BitVec.toNat_ofNat, Nat.mod_mod_of_dvd _ (by decide),
    Nat.mod_eq_of_lt b.isLt]

theorem toBytes_ofBytes {bs : Bytes} (h : bs.length = 16) : (ofBytes bs).toBytes = bs := by
  have hlt := Bytes.toNatBE_lt bs
  rw [h] at hlt
  rw [ofBytes, h, Nat.sub_self, List.replicate_zero, List.append_nil, toBytes, BitVec.toNat_ofNat,
    Nat.mod_eq_of_lt (by simpa using hlt), ← h, Bytes.ofNatBE_toNatBE]

theorem toBytes_injective {a b : Block} (h : a.toBytes = b.toBytes) : a = b := by
  rw [← ofBytes_toBytes a, h, ofBytes_toBytes]

end Block

end SealedPoll.Cipher
