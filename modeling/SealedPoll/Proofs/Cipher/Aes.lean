import Mathlib
import SealedPoll.Cipher.Aes

/-!
# The block cipher permutes blocks

Each part of a round can be undone: the substitution of bytes, the rotation of the rows, the mixing
of the columns, whose fourth power is the identity, and the sum with a round key.

* `Aes.substitute_injective`, `Aes.shiftRows_injective`, `Aes.mixColumns_injective` : the parts;
* `Aes.rounds_injective` : the rounds of any keys of 16 bytes;
* `Aes.encrypt_bijective` : the cipher under the round keys of any key.
-/

namespace SealedPoll.Cipher.Aes

/-! ## Bytes -/

/-- The place of each byte in the table. -/
def inverseTable : List Nat := [
  0x52, 0x09, 0x6a, 0xd5, 0x30, 0x36, 0xa5, 0x38, 0xbf, 0x40, 0xa3, 0x9e, 0x81, 0xf3, 0xd7, 0xfb,
  0x7c, 0xe3, 0x39, 0x82, 0x9b, 0x2f, 0xff, 0x87, 0x34, 0x8e, 0x43, 0x44, 0xc4, 0xde, 0xe9, 0xcb,
  0x54, 0x7b, 0x94, 0x32, 0xa6, 0xc2, 0x23, 0x3d, 0xee, 0x4c, 0x95, 0x0b, 0x42, 0xfa, 0xc3, 0x4e,
  0x08, 0x2e, 0xa1, 0x66, 0x28, 0xd9, 0x24, 0xb2, 0x76, 0x5b, 0xa2, 0x49, 0x6d, 0x8b, 0xd1, 0x25,
  0x72, 0xf8, 0xf6, 0x64, 0x86, 0x68, 0x98, 0x16, 0xd4, 0xa4, 0x5c, 0xcc, 0x5d, 0x65, 0xb6, 0x92,
  0x6c, 0x70, 0x48, 0x50, 0xfd, 0xed, 0xb9, 0xda, 0x5e, 0x15, 0x46, 0x57, 0xa7, 0x8d, 0x9d, 0x84,
  0x90, 0xd8, 0xab, 0x00, 0x8c, 0xbc, 0xd3, 0x0a, 0xf7, 0xe4, 0x58, 0x05, 0xb8, 0xb3, 0x45, 0x06,
  0xd0, 0x2c, 0x1e, 0x8f, 0xca, 0x3f, 0x0f, 0x02, 0xc1, 0xaf, 0xbd, 0x03, 0x01, 0x13, 0x8a, 0x6b,
  0x3a, 0x91, 0x11, 0x41, 0x4f, 0x67, 0xdc, 0xea, 0x97, 0xf2, 0xcf, 0xce, 0xf0, 0xb4, 0xe6, 0x73,
  0x96, 0xac, 0x74, 0x22, 0xe7, 0xad, 0x35, 0x85, 0xe2, 0xf9, 0x37, 0xe8, 0x1c, 0x75, 0xdf, 0x6e,
  0x47, 0xf1, 0x1a, 0x71, 0x1d, 0x29, 0xc5, 0x89, 0x6f, 0xb7, 0x62, 0x0e, 0xaa, 0x18, 0xbe, 0x1b,
  0xfc, 0x56, 0x3e, 0x4b, 0xc6, 0xd2, 0x79, 0x20, 0x9a, 0xdb, 0xc0, 0xfe, 0x78, 0xcd, 0x5a, 0xf4,
  0x1f, 0xdd, 0xa8, 0x33, 0x88, 0x07, 0xc7, 0x31, 0xb1, 0x12, 0x10, 0x59, 0x27, 0x80, 0xec, 0x5f,
  0x60, 0x51, 0x7f, 0xa9, 0x19, 0xb5, 0x4a, 0x0d, 0x2d, 0xe5, 0x7a, 0x9f, 0x93, 0xc9, 0x9c, 0xef,
  0xa0, 0xe0, 0x3b, 0x4d, 0xae, 0x2a, 0xf5, 0xb0, 0xc8, 0xeb, 0xbb, 0x3c, 0x83, 0x53, 0x99, 0x61,
  0x17, 0x2b, 0x04, 0x7e, 0xba, 0x77, 0xd6, 0x26, 0xe1, 0x69, 0x14, 0x63, 0x55, 0x21, 0x0c, 0x7d]

theorem inverseTable_table :
    (table.map fun b => inverseTable.getD b.toNat 256) = List.range 256 := by
  decide +kernel

theorem inverseTable_substitute (b : UInt8) :
    inverseTable.getD (substitute b).toNat 256 = b.toNat := by
  have hlength : table.length = 256 := by decide +kernel
  have hlt : b.toNat < table.length := hlength ▸ b.toNat_lt
  have hplace := congrArg (fun places => places[b.toNat]?) inverseTable_table
  simp only [List.getElem?_map, List.getElem?_eq_getElem hlt, Option.map_some,
    List.getElem?_range b.toNat_lt, Option.some.injEq] at hplace
  have hsubstitute : substitute b = table[b.toNat] := by simp [substitute, tableArray, hlt]
  rw [hsubstitute, hplace]

theorem substitute_injective : Function.Injective substitute := by
  intro a b h
  apply UInt8.toNat_inj.1
  rw [← inverseTable_substitute a, h, inverseTable_substitute]

theorem xor_left_comm (a b c : UInt8) : a ^^^ (b ^^^ c) = b ^^^ (a ^^^ c) := by
  rw [← UInt8.xor_assoc, UInt8.xor_comm a b, UInt8.xor_assoc]

theorem high_iff (b : UInt8) : 128 ≤ b.toNat ↔ b.toBitVec.msb = true := by
  rw [BitVec.msb_eq_decide]
  simp

theorem double_xor (a b : UInt8) : double (a ^^^ b) = double a ^^^ double b := by
  simp only [double, high_iff, UInt8.toBitVec_xor, BitVec.msb_xor, UInt8.shiftLeft_xor]
  cases a.toBitVec.msb <;> cases b.toBitVec.msb <;>
    simp [UInt8.xor_assoc, UInt8.xor_comm, xor_left_comm]

/-! ## Columns -/

theorem mixColumn_mixColumn (a b c d : UInt8) :
    mixColumn (mixColumn [a, b, c, d]) =
      [double (double a) ^^^ double (double c) ^^^ a, double (double b) ^^^ double (double d) ^^^ b,
        double (double c) ^^^ double (double a) ^^^ c,
        double (double d) ^^^ double (double b) ^^^ d] := by
  simp [mixColumn, double_xor, UInt8.xor_assoc, UInt8.xor_comm, xor_left_comm]

/-- Mixed four times, a column is as it was. -/
theorem mixColumn_four (a b c d : UInt8) :
    mixColumn (mixColumn (mixColumn (mixColumn [a, b, c, d]))) = [a, b, c, d] := by
  rw [mixColumn_mixColumn, mixColumn_mixColumn]
  simp [double_xor, UInt8.xor_comm, xor_left_comm]

theorem exists_bytes {column : Bytes} (h : column.length = 4) :
    ∃ a b c d, column = [a, b, c, d] := by
  match column, h with
  | [a, b, c, d], _ => exact ⟨a, b, c, d, rfl⟩

theorem length_mixColumn {column : Bytes} (h : column.length = 4) :
    (mixColumn column).length = 4 := by
  obtain ⟨a, b, c, d, rfl⟩ := exists_bytes h
  rfl

/-! ## States of 16 bytes -/

@[simp] theorem length_shiftRows (state : Bytes) : (shiftRows state).length = 16 := by
  simp [shiftRows]

theorem shiftRows_injective {state other : Bytes} (hstate : state.length = 16)
    (hother : other.length = 16) (h : shiftRows state = shiftRows other) : state = other := by
  apply List.ext_getElem (by rw [hstate, hother])
  intro j hj hj'
  -- byte `j` went to place `13 j`, since `5 * 13` is one modulo 16
  have hplace : 5 * (13 * j % 16) % 16 = j := by omega
  have hlt : 13 * j % 16 < 16 := by omega
  have hbyte := congrArg (fun s : Bytes => s.getD (13 * j % 16) 0) h
  simpa [shiftRows, hlt, hplace, hj, hj'] using hbyte

theorem length_of_mem_columns {state : Bytes} (h : state.length = 16) :
    ∀ column ∈ chunks 4 state, column.length = 4 :=
  have hlength : state.length = 4 * 4 := h
  length_of_mem_chunks (by decide) hlength

theorem length_of_mem_mixedColumns {state : Bytes} (h : state.length = 16) :
    ∀ mixed ∈ (chunks 4 state).map mixColumn, mixed.length = 4 := by
  intro mixed hmixed
  obtain ⟨column, hcolumn, rfl⟩ := List.mem_map.1 hmixed
  exact length_mixColumn (length_of_mem_columns h column hcolumn)

theorem length_mixColumns {state : Bytes} (h : state.length = 16) :
    (mixColumns state).length = 16 := by
  rw [mixColumns, List.flatMap_def, length_flatten_of_forall (length_of_mem_mixedColumns h),
    List.length_map, length_chunks, h]

/-- The columns of the mixed state are the mixed columns. -/
theorem chunks_mixColumns {state : Bytes} (h : state.length = 16) :
    chunks 4 (mixColumns state) = (chunks 4 state).map mixColumn := by
  rw [mixColumns, List.flatMap_def]
  exact chunks_flatten (by decide) (length_of_mem_mixedColumns h)

/-- Mixed three times more, the mixed columns are the columns. -/
theorem map_mixedColumns {state : Bytes} (h : state.length = 16) :
    (chunks 4 (mixColumns state)).map (fun c => mixColumn (mixColumn (mixColumn c))) =
      chunks 4 state := by
  rw [chunks_mixColumns h, List.map_map]
  conv_rhs => rw [← List.map_id (chunks 4 state)]
  apply List.map_congr_left
  intro column hcolumn
  obtain ⟨a, b, c, d, rfl⟩ := exists_bytes (length_of_mem_columns h column hcolumn)
  exact mixColumn_four a b c d

theorem mixColumns_injective {state other : Bytes} (hstate : state.length = 16)
    (hother : other.length = 16) (h : mixColumns state = mixColumns other) : state = other := by
  have hcolumns := map_mixedColumns hstate
  rw [h, map_mixedColumns hother] at hcolumns
  rw [← flatten_chunks (show 0 < 4 by decide) state, ← hcolumns, flatten_chunks (by decide)]

/-! ## Rounds -/

theorem xor_injective {a b key : Bytes} (ha : a.length = key.length) (hb : b.length = key.length)
    (h : Bytes.xor a key = Bytes.xor b key) : a = b := by
  rw [← Bytes.xor_xor_cancel ha.le, h, Bytes.xor_xor_cancel hb.le]

/-- Substituted and rotated bytes. -/
theorem shifted_injective {state other : Bytes} (hstate : state.length = 16)
    (hother : other.length = 16)
    (h : shiftRows (state.map substitute) = shiftRows (other.map substitute)) : state = other := by
  have hmap := shiftRows_injective (by simp [hstate]) (by simp [hother]) h
  exact List.map_injective_iff.2 substitute_injective hmap

theorem length_mixedRound {key state : Bytes} (hkey : key.length = 16) :
    (Bytes.xor (mixColumns (shiftRows (state.map substitute))) key).length = 16 := by
  simp [hkey, length_mixColumns]

theorem length_rounds {keys : List Bytes} (hkeys : ∀ key ∈ keys, key.length = 16) {state : Bytes}
    (hstate : state.length = 16) : (rounds keys state).length = 16 := by
  fun_induction rounds keys state with
  | case1 state => exact hstate
  | case2 key state => simp [hkeys]
  | case3 key keys state hne ih =>
    exact ih (fun k hk => hkeys k (by simp [hk])) (length_mixedRound (hkeys key (by simp)))

/-- The rounds of keys of 16 bytes can be undone. -/
theorem rounds_injective {keys : List Bytes} (hkeys : ∀ key ∈ keys, key.length = 16)
    {state other : Bytes} (hstate : state.length = 16) (hother : other.length = 16)
    (h : rounds keys state = rounds keys other) : state = other := by
  fun_induction rounds keys state generalizing other with
  | case1 state => exact h
  | case2 key state =>
    have hkey : key.length = 16 := hkeys key (by simp)
    exact shifted_injective hstate hother (xor_injective (by simp [hkey]) (by simp [hkey]) h)
  | case3 key keys state hne ih =>
    have hkey : key.length = 16 := hkeys key (by simp)
    rw [rounds.eq_3 _ _ _ hne] at h
    have hround := ih (fun k hk => hkeys k (by simp [hk])) (length_mixedRound hkey)
      (length_mixedRound hkey) h
    have hmixed := xor_injective (by simp [hkey, length_mixColumns])
      (by simp [hkey, length_mixColumns]) hround
    exact shifted_injective hstate hother (mixColumns_injective (by simp) (by simp) hmixed)

/-! ## Round keys -/

theorem length_nextWord {count : Nat} {latest : List Word} (hcount : 8 ≤ latest.length)
    (hlatest : ∀ word ∈ latest, word.length = 4) : (nextWord count latest).length = 4 := by
  have hword : ∀ i < 8, (latest.getD i []).length = 4 := by
    intro i hi
    rw [List.getD_eq_getElem latest [] (by omega)]
    exact hlatest _ (List.getElem_mem _)
  have hprevious := hword 0 (by omega)
  have holdest := hword 7 (by omega)
  simp only [nextWord]
  generalize latest.getD 0 [] = previous at hprevious ⊢
  generalize latest.getD 7 [] = oldest at holdest ⊢
  split
  · simp [hprevious, holdest]
  · split <;> simp [hprevious, holdest]

/-- Further key words have four bytes, as the first ones. -/
theorem length_of_mem_extendWords (more count : Nat) {latest : List Word}
    (hcount : 8 ≤ latest.length) (hlatest : ∀ word ∈ latest, word.length = 4) :
    (extendWords more count latest).length = latest.length + more ∧
      ∀ word ∈ extendWords more count latest, word.length = 4 := by
  induction more generalizing count latest with
  | zero => exact ⟨rfl, hlatest⟩
  | succ more ih =>
    have hwords : ∀ word ∈ nextWord count latest :: latest, word.length = 4 := by
      intro word hword
      rcases List.mem_cons.1 hword with rfl | hword
      · exact length_nextWord hcount hlatest
      · exact hlatest word hword
    obtain ⟨hlength, hall⟩ := ih (count + 1) (by simp; omega) hwords
    refine ⟨?_, hall⟩
    rw [extendWords, hlength, List.length_cons]
    omega

/-- A key has fifteen round keys of 16 bytes. -/
theorem length_roundKeys (key : Octets 32) :
    (roundKeys key).length = 15 ∧ ∀ round ∈ roundKeys key, round.length = 16 := by
  have hfirst : ∀ word ∈ (chunks 4 key.toList).reverse, word.length = 4 := by
    intro word hword
    have hkey : key.toList.length = 8 * 4 := key.length_toList
    exact length_of_mem_chunks (by decide) hkey word (by simpa using hword)
  obtain ⟨hcount, hwords⟩ := length_of_mem_extendWords 52 8 (by simp) hfirst
  have hreversed : ∀ word ∈ (extendWords 52 8 (chunks 4 key.toList).reverse).reverse,
      word.length = 4 := by
    simpa using hwords
  have hlength : (extendWords 52 8 (chunks 4 key.toList).reverse).reverse.flatten.length =
      15 * 16 := by
    rw [length_flatten_of_forall hreversed, List.length_reverse, hcount]
    simp
  refine ⟨?_, length_of_mem_chunks (by decide) hlength⟩
  rw [roundKeys, length_chunks, hlength]

/-- **The cipher permutes blocks**, whatever the key. -/
theorem encrypt_bijective (key : Octets 32) : Function.Bijective (encrypt (roundKeys key)) := by
  obtain ⟨hcount, hkeys⟩ := length_roundKeys key
  have hlater : ∀ round ∈ (roundKeys key).drop 1, round.length = 16 := fun round hround =>
    hkeys round (List.mem_of_mem_drop hround)
  have hfirst : ((roundKeys key).getD 0 []).length = 16 := by
    rw [List.getD_eq_getElem _ [] (by omega)]
    exact hkeys _ (List.getElem_mem _)
  have hsum : ∀ block : Block,
      (Bytes.xor block.toBytes ((roundKeys key).getD 0 [])).length = 16 := by
    intro block
    rw [Bytes.length_xor, Block.length_toBytes, hfirst]
    rfl
  apply Finite.injective_iff_bijective.1
  intro block other h
  have hbytes := congrArg Block.toBytes h
  rw [encrypt, encrypt, Block.toBytes_ofBytes (length_rounds hlater (hsum block)),
    Block.toBytes_ofBytes (length_rounds hlater (hsum other))] at hbytes
  have hstart := rounds_injective hlater (hsum block) (hsum other) hbytes
  apply Block.toBytes_injective
  exact xor_injective (by rw [Block.length_toBytes, hfirst]) (by rw [Block.length_toBytes, hfirst])
    hstart

end SealedPoll.Cipher.Aes
