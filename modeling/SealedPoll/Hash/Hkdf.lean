import SealedPoll.Hash.Sha2

/-!
# Keys derived by HMAC-SHA-256

* `hmac` : the keyed digest; a key longer than a block is hashed first, a shorter one filled up with
  zeros;
* `Hkdf.derive` : extract, then the first block of expand, without salt and with an empty context.
-/

namespace SealedPoll.Hash

/-- The length of a block of SHA-256. -/
def blockLength : Nat := 64

/-- A key as exactly one block. -/
def keyBlock (key : Bytes) : Bytes :=
  let short := if blockLength < key.length then (sha256 key).toList else key
  short ++ List.replicate (blockLength - short.length) 0

/-- The digest of a message under a key. -/
def hmac (key message : Bytes) : Octets 32 :=
  let inner := (keyBlock key).map (· ^^^ 0x36)
  let outer := (keyBlock key).map (· ^^^ 0x5c)
  sha256 (outer ++ (sha256 (inner ++ message)).toList)

namespace Hkdf

/-- The pseudorandom key of a secret; a missing salt counts as a digest of zeros. -/
def extract (secret : Bytes) : Octets 32 := hmac (Octets.zero 32).toList secret

/-- The first 32 bytes of output under an empty context. -/
def expand (key : Octets 32) : Octets 32 := hmac key.toList [1]

/-- The 32-byte key derived from a secret. -/
def derive (secret : Octets 32) : Octets 32 := expand (extract secret.toList)

end Hkdf

end SealedPoll.Hash
