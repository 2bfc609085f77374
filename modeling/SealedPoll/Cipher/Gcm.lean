import SealedPoll.Bytes.Chunks
import SealedPoll.Cipher.Block

/-!
# Galois/counter mode

Authenticated encryption over any function `cipher` on blocks, with 12-byte nonces and without
associated data.

* `Gcm.mul` : multiplication in the field of `2 ^ 128` elements, the first bit of a block being the
  constant term;
* `Gcm.ghash` : the polynomial hash of a list of blocks;
* `Gcm.keystream` : the blocks after the first counter block; `Gcm.crypt` adds it to a text and is
  its own inverse (`Gcm.crypt_crypt`);
* `Gcm.encrypt`, `Gcm.decrypt` : text with tag, and back (`Gcm.decrypt_encrypt`).
-/

namespace SealedPoll.Cipher.Gcm
open scoped NatPower

def tagLength : Nat := 16

/-- `x ^ 7 + x ^ 2 + x + 1`, which equals `x ^ 128` in the field. -/
def reduction : Block := 0xe1 <<< 120

/-- Multiplication by the polynomial `x`. -/
def mulX (v : Block) : Block := if v.getLsbD 0 then (v >>> 1) ^^^ reduction else v >>> 1

/-- One bit of the first factor: the sum so far and the second factor's next multiple. -/
def mulStep (a : Block) (s : Block × Block) (i : Nat) : Block × Block :=
  (if a.getMsbD i then s.1 ^^^ s.2 else s.1, mulX s.2)

/-- Multiplication in the field of `2 ^ 128` elements. -/
def mul (a b : Block) : Block := ((List.range 128).foldl (mulStep a) (0, b)).1

/-- The polynomial hash of a list of blocks under the hash key `h`. -/
def ghash (h : Block) (blocks : List Block) : Block :=
  blocks.foldl (fun y x => mul (y ^^^ x) h) 0

/-- The blocks that the tag covers: the text, and the two lengths in bits. -/
def authenticated (body : Bytes) : List Block :=
  (chunks 16 body).map Block.ofBytes ++ [BitVec.ofNat 128 (8 * body.length % 2 ^ (64 : Nat))]

/-- The counter block of number `n`, whose last four bytes count. -/
def counterBlock (nonce : Octets 12) (n : Nat) : Block :=
  Block.ofBytes (nonce.toList ++ Bytes.ofNatBE 4 n)

/-- At least `length` bytes of key stream, from the second counter block on. -/
def keystream (cipher : Block → Block) (nonce : Octets 12) (length : Nat) : Bytes :=
  (List.range ((length + 15) / 16)).flatMap fun i => (cipher (counterBlock nonce (i + 2))).toBytes

/-- A text with the key stream added. -/
def crypt (cipher : Block → Block) (nonce : Octets 12) (text : Bytes) : Bytes :=
  Bytes.xor text (keystream cipher nonce text.length)

/-- The tag of an encrypted text. -/
def tag (cipher : Block → Block) (nonce : Octets 12) (body : Bytes) : Block :=
  ghash (cipher 0) (authenticated body) ^^^ cipher (counterBlock nonce 1)

/-- The encrypted text, then its tag. -/
def encrypt (cipher : Block → Block) (nonce : Octets 12) (text : Bytes) : Bytes :=
  let body := crypt cipher nonce text
  body ++ (tag cipher nonce body).toBytes

/-- The text of an encrypted text with its tag, if the tag is the right one. -/
def decrypt (cipher : Block → Block) (nonce : Octets 12) (sealed : Bytes) : Option Bytes :=
  let body := sealed.take (sealed.length - tagLength)
  if sealed.drop (sealed.length - tagLength) = (tag cipher nonce body).toBytes then
    some (crypt cipher nonce body)
  else none

theorem length_keystream (cipher : Block → Block) (nonce : Octets 12) (length : Nat) :
    (keystream cipher nonce length).length = 16 * ((length + 15) / 16) := by
  simp [keystream, List.length_flatMap, List.map_const', Nat.mul_comm]

@[simp] theorem length_crypt (cipher : Block → Block) (nonce : Octets 12) (text : Bytes) :
    (crypt cipher nonce text).length = text.length := by
  rw [crypt, Bytes.length_xor, length_keystream]
  omega

theorem crypt_crypt (cipher : Block → Block) (nonce : Octets 12) (text : Bytes) :
    crypt cipher nonce (crypt cipher nonce text) = text := by
  rw [crypt, length_crypt, crypt, Bytes.xor_xor_cancel]
  rw [length_keystream]
  omega

@[simp] theorem length_encrypt (cipher : Block → Block) (nonce : Octets 12) (text : Bytes) :
    (encrypt cipher nonce text).length = text.length + 16 := by
  simp [encrypt]

theorem decrypt_encrypt (cipher : Block → Block) (nonce : Octets 12) (text : Bytes) :
    decrypt cipher nonce (encrypt cipher nonce text) = some text := by
  have hlen :
      (encrypt cipher nonce text).length - tagLength = (crypt cipher nonce text).length := by
    simp [tagLength]
  rw [decrypt, hlen, encrypt, List.take_left, List.drop_left, if_pos rfl, crypt_crypt]

end SealedPoll.Cipher.Gcm
