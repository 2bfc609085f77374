import SealedPoll.Bytes.Chunks
import SealedPoll.Bytes.Endian

/-!
# The hash functions SHA-256 and SHA-512

Both are one construction over words of `w` bits, told apart by the rotations and the number of
rounds of a `Variant w`; the constants of the shorter one are the high halves of the longer one's.

* `schedule` : the words of a block and those derived from them;
* `compress` : one block into the chaining state;
* `padded` : the message with its length, a whole number of blocks;
* `sha256`, `sha512` : the digests.
-/

namespace SealedPoll.Hash

/-- What tells the members of the family over words of `w` bits apart. -/
structure Variant (w : Nat) where
  /-- Rotations of the first word of a round. -/
  upper0 : Nat × Nat × Nat
  /-- Rotations of the fifth word of a round. -/
  upper1 : Nat × Nat × Nat
  /-- Two rotations and a shift for the schedule's word 15 places back. -/
  lower0 : Nat × Nat × Nat
  /-- Two rotations and a shift for the schedule's word 2 places back. -/
  lower1 : Nat × Nat × Nat
  rounds : Nat

/-- SHA-256. -/
def short : Variant 32 := ⟨(2, 13, 22), (6, 11, 25), (7, 18, 3), (17, 19, 10), 64⟩

/-- SHA-512. -/
def long : Variant 64 := ⟨(28, 34, 39), (14, 18, 41), (1, 8, 7), (19, 61, 6), 80⟩

/-- The first 64 bits of the fractional parts of the cube roots of the first 80 primes. -/
def cubeRoots : List Nat := [
  0x428a2f98d728ae22, 0x7137449123ef65cd, 0xb5c0fbcfec4d3b2f, 0xe9b5dba58189dbbc,
  0x3956c25bf348b538, 0x59f111f1b605d019, 0x923f82a4af194f9b, 0xab1c5ed5da6d8118,
  0xd807aa98a3030242, 0x12835b0145706fbe, 0x243185be4ee4b28c, 0x550c7dc3d5ffb4e2,
  0x72be5d74f27b896f, 0x80deb1fe3b1696b1, 0x9bdc06a725c71235, 0xc19bf174cf692694,
  0xe49b69c19ef14ad2, 0xefbe4786384f25e3, 0x0fc19dc68b8cd5b5, 0x240ca1cc77ac9c65,
  0x2de92c6f592b0275, 0x4a7484aa6ea6e483, 0x5cb0a9dcbd41fbd4, 0x76f988da831153b5,
  0x983e5152ee66dfab, 0xa831c66d2db43210, 0xb00327c898fb213f, 0xbf597fc7beef0ee4,
  0xc6e00bf33da88fc2, 0xd5a79147930aa725, 0x06ca6351e003826f, 0x142929670a0e6e70,
  0x27b70a8546d22ffc, 0x2e1b21385c26c926, 0x4d2c6dfc5ac42aed, 0x53380d139d95b3df,
  0x650a73548baf63de, 0x766a0abb3c77b2a8, 0x81c2c92e47edaee6, 0x92722c851482353b,
  0xa2bfe8a14cf10364, 0xa81a664bbc423001, 0xc24b8b70d0f89791, 0xc76c51a30654be30,
  0xd192e819d6ef5218, 0xd69906245565a910, 0xf40e35855771202a, 0x106aa07032bbd1b8,
  0x19a4c116b8d2d0c8, 0x1e376c085141ab53, 0x2748774cdf8eeb99, 0x34b0bcb5e19b48a8,
  0x391c0cb3c5c95a63, 0x4ed8aa4ae3418acb, 0x5b9cca4f7763e373, 0x682e6ff3d6b2b8a3,
  0x748f82ee5defb2fc, 0x78a5636f43172f60, 0x84c87814a1f0ab72, 0x8cc702081a6439ec,
  0x90befffa23631e28, 0xa4506cebde82bde9, 0xbef9a3f7b2c67915, 0xc67178f2e372532b,
  0xca273eceea26619c, 0xd186b8c721c0c207, 0xeada7dd6cde0eb1e, 0xf57d4f7fee6ed178,
  0x06f067aa72176fba, 0x0a637dc5a2c898a6, 0x113f9804bef90dae, 0x1b710b35131c471b,
  0x28db77f523047d84, 0x32caab7b40c72493, 0x3c9ebe0a15c9bebc, 0x431d67c49c100d4c,
  0x4cc5d4becb3e42b6, 0x597f299cfc657e2a, 0x5fcb6fab3ad6faec, 0x6c44198c4a475817]

/-- The first 64 bits of the fractional parts of the square roots of the first 8 primes. -/
def squareRoots : List Nat := [
  0x6a09e667f3bcc908, 0xbb67ae8584caa73b, 0x3c6ef372fe94f82b, 0xa54ff53a5f1d36f1,
  0x510e527fade682d1, 0x9b05688c2b3e6c1f, 0x1f83d9abfb41bd6b, 0x5be0cd19137e2179]

/-- The first `w` of 64 bits. -/
def highBitsOf (w n : Nat) : BitVec w := BitVec.ofNat w (n >>> (64 - w))

def roundConstants {w : Nat} (v : Variant w) : List (BitVec w) :=
  (cubeRoots.take v.rounds).map (highBitsOf w)

/-- The chaining state: eight words. -/
structure State (w : Nat) where
  a : BitVec w
  b : BitVec w
  c : BitVec w
  d : BitVec w
  e : BitVec w
  f : BitVec w
  g : BitVec w
  h : BitVec w

def State.initial (w : Nat) : State w :=
  let word i := highBitsOf w (squareRoots.getD i 0)
  ⟨word 0, word 1, word 2, word 3, word 4, word 5, word 6, word 7⟩

def State.add {w : Nat} (s t : State w) : State w :=
  ⟨s.a + t.a, s.b + t.b, s.c + t.c, s.d + t.d, s.e + t.e, s.f + t.f, s.g + t.g, s.h + t.h⟩

/-- The exclusive or of three rotations of a word. -/
def rotations {w : Nat} (r : Nat × Nat × Nat) (x : BitVec w) : BitVec w :=
  x.rotateRight r.1 ^^^ x.rotateRight r.2.1 ^^^ x.rotateRight r.2.2

/-- The exclusive or of two rotations of a word and a shift. -/
def rotationsShift {w : Nat} (r : Nat × Nat × Nat) (x : BitVec w) : BitVec w :=
  x.rotateRight r.1 ^^^ x.rotateRight r.2.1 ^^^ x >>> r.2.2

/-- The word that follows those of a schedule, the latest first. -/
def nextWord {w : Nat} (v : Variant w) (latest : List (BitVec w)) : BitVec w :=
  rotationsShift v.lower1 (latest.getD 1 0) + latest.getD 6 0 +
    rotationsShift v.lower0 (latest.getD 14 0) + latest.getD 15 0

/-- `count` further words of a schedule, the latest first. -/
def extendSchedule {w : Nat} (v : Variant w) : Nat → List (BitVec w) → List (BitVec w)
  | 0, latest => latest
  | count + 1, latest => extendSchedule v count (nextWord v latest :: latest)

def blockWords (w : Nat) (block : Bytes) : List (BitVec w) :=
  (chunks (w / 8) block).map fun bs => BitVec.ofNat w (Bytes.toNatBE bs)

/-- One word a round: those of the block and those derived from them. -/
def schedule {w : Nat} (v : Variant w) (block : Bytes) : List (BitVec w) :=
  (extendSchedule v (v.rounds - 16) (blockWords w block).reverse).reverse

/-- One round, with its constant and its word. -/
def round {w : Nat} (v : Variant w) (s : State w) (constant word : BitVec w) : State w :=
  let choice := (s.e &&& s.f) ^^^ (~~~s.e &&& s.g)
  let majority := (s.a &&& s.b) ^^^ (s.a &&& s.c) ^^^ (s.b &&& s.c)
  let t := s.h + rotations v.upper1 s.e + choice + constant + word
  ⟨t + rotations v.upper0 s.a + majority, s.a, s.b, s.c, s.d + t, s.e, s.f, s.g⟩

/-- One block into the chaining state. -/
def compress {w : Nat} (v : Variant w) (s : State w) (block : Bytes) : State w :=
  s.add (((roundConstants v).zip (schedule v block)).foldl (fun t kw => round v t kw.1 kw.2) s)

/-- The message, a one bit, zeros, and the message's length in bits as two words; blocks have 16
words. -/
def padded (w : Nat) (message : Bytes) : Bytes :=
  let block := 2 * w
  let tail := w / 4
  let zeros := (block - (message.length + 1 + tail) % block) % block
  message ++ 0x80 :: List.replicate zeros 0 ++ Bytes.ofNatBE tail (8 * message.length)

/-- The words of a state, most significant byte first. -/
def State.toBytes {w : Nat} (s : State w) : Bytes :=
  [s.a, s.b, s.c, s.d, s.e, s.f, s.g, s.h].flatMap fun x => Bytes.ofNatBE (w / 8) x.toNat

@[simp] theorem State.length_toBytes {w : Nat} (s : State w) : s.toBytes.length = 8 * (w / 8) := by
  simp [State.toBytes]
  omega

/-- The state after all blocks of the padded message. -/
def digest {w : Nat} (v : Variant w) (message : Bytes) : Octets (8 * (w / 8)) :=
  ⟨((chunks (2 * w) (padded w message)).foldl (compress v) (State.initial w)).toBytes, by simp⟩

def sha256 (message : Bytes) : Octets 32 := digest short message

def sha512 (message : Bytes) : Octets 64 := digest long message

end SealedPoll.Hash
