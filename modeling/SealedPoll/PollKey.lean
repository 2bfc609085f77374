import SealedPoll.Curve.Montgomery
import SealedPoll.Hash.Hkdf
import SealedPoll.RandomSource

/-!
# Poll keys

* `PollKey` : the private key of a poll, 32 bytes kept as they came;
* `PollKey.publicKey` : the key that votes are sealed for;
* `PollKey.sharedKey` : the symmetric key shared with the holder of another key, refused if the
  agreement yields nothing but zeros;
* `PollKey.draw` : a new key from a random source (`PollKey.draw_of_le`, `PollKey.draw_of_lt`).
-/

namespace SealedPoll

/-- The private key of a poll. -/
structure PollKey where
  bytes : Octets 32
deriving DecidableEq

/-- A public key that votes are sealed for. -/
abbrev PollPublicKey := Octets 32

namespace PollKey

/-- The private key with these bytes, which have to be 32. -/
def ofBytes (bs : Bytes) : Except Error PollKey :=
  match Octets.ofList? 32 bs with
  | some key => .ok ⟨key⟩
  | none => .error (.malformedPrivateKey bs.length)

/-- The printed form, which shows no byte of the key. -/
def print (_ : PollKey) : String := "PollSecret(..)"

/-- The public key of a private key. -/
def publicKey (secret : PollKey) : PollPublicKey := Curve.publicKey secret.bytes

/-- The symmetric key shared with the holder of the key to `peer`. -/
def sharedKey (secret : PollKey) (peer : PollPublicKey) : Except Error (Octets 32) :=
  let shared := Curve.agree secret.bytes peer
  if shared = Octets.zero 32 then .error .keyAgreementFailure else .ok (Hash.Hkdf.derive shared)

/-- A new private key from a random source. -/
def draw (source : RandomSource) : Except Error PollKey × RandomSource :=
  let (drawn, rest) := source.draw 32
  (drawn.map PollKey.mk, rest)

/-- The private key is made of the next 32 bytes. -/
theorem draw_of_le {source : RandomSource} (h : 32 ≤ source.size) :
    ∃ secret : PollKey, secret.bytes.toList = source.bytes.take 32 ∧
      draw source = (.ok secret, ⟨source.bytes.drop 32⟩) := by
  obtain ⟨bs, hbs, hdraw⟩ := RandomSource.draw_of_le h
  refine ⟨⟨bs⟩, hbs, ?_⟩
  rw [draw, hdraw]
  rfl

theorem draw_of_lt {source : RandomSource} (h : source.size < 32) :
    draw source = (.error RandomSource.exhausted, source) := by
  rw [draw, RandomSource.draw_of_lt h]
  rfl

theorem ofBytes_toList (key : Octets 32) : ofBytes key.toList = .ok ⟨key⟩ := by
  simp [ofBytes]

end PollKey

end SealedPoll
