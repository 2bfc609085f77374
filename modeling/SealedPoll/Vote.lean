import SealedPoll.Cipher.Aes
import SealedPoll.Cipher.Gcm
import SealedPoll.PollKey

/-!
# Sealed votes

A sealed vote is an ephemeral public key of 32 bytes, a nonce of 12 bytes and the encrypted text
with a tag of 16 bytes.

* `Vote.encrypt` : seals a text for the holder of a poll's key, with 44 random bytes;
* `Vote.decrypt` : opens a sealed vote with a poll's private key;
* `Vote.Parts` : the three parts (`Vote.Parts.ofBytes?`, `Vote.Parts.toBytes`).
-/

namespace SealedPoll.Vote

/-- The length of a sealed empty text. -/
def overhead : Nat := 60

/-- The parts of a sealed vote. -/
structure Parts where
  ephemeral : PollPublicKey
  nonce : Octets 12
  body : Bytes

/-- The parts one after the other. -/
def Parts.toBytes (p : Parts) : Bytes := p.ephemeral.toList ++ p.nonce.toList ++ p.body

/-- The parts of bytes that are long enough to hold the first two. -/
def Parts.ofBytes? (bs : Bytes) : Option Parts :=
  (Octets.ofList? 32 (bs.take 32)).bind fun ephemeral =>
    (Octets.ofList? 12 ((bs.drop 32).take 12)).map fun nonce => ⟨ephemeral, nonce, bs.drop 44⟩

theorem Parts.ofBytes?_toBytes (p : Parts) : Parts.ofBytes? p.toBytes = some p := by
  have hfirst : p.toBytes.take 32 = p.ephemeral.toList := by simp [toBytes]
  have hsecond : (p.toBytes.drop 32).take 12 = p.nonce.toList := by simp [toBytes]
  have hthird : p.toBytes.drop 44 = p.body := by simp [toBytes, List.drop_append]
  simp [ofBytes?, hfirst, hsecond, hthird]

/-- The cipher that a symmetric key stands for. -/
@[inline] def cipher (key : Octets 32) : Cipher.Block → Cipher.Block :=
  Cipher.Aes.encrypt (Cipher.Aes.roundKeys key)

/-- The text that the parts of a sealed vote hold. -/
def openParts (secret : PollKey) (p : Parts) : Except Error Bytes := do
  let key ← secret.sharedKey p.ephemeral
  match Cipher.Gcm.decrypt (cipher key) p.nonce p.body with
  | some text => .ok text
  | none => .error .authenticationFailed

/-- The text of a sealed vote. The length of the vote is looked at first, then the private key, the
agreement and the tag. -/
def decrypt (privateKey ciphertext : Bytes) : Except Error Bytes :=
  if ciphertext.length < overhead then .error (.ciphertextTooShort ciphertext.length)
  else match Parts.ofBytes? ciphertext with
    | none => .error .malformedPeerKey
    | some p => do
      let secret ← PollKey.ofBytes privateKey
      openParts secret p

/-- The parts of a vote sealed for `receiver` with an ephemeral key and a nonce. -/
def sealParts (receiver : PollPublicKey) (ephemeral : PollKey) (nonce : Octets 12)
    (text : Bytes) : Except Error Parts := do
  let key ← ephemeral.sharedKey receiver
  return ⟨ephemeral.publicKey, nonce, Cipher.Gcm.encrypt (cipher key) nonce text⟩

/-- A sealed vote for the holder of `publicKey`, and the random source after it. The public key is
looked at first; then the ephemeral key and the nonce are drawn, and only then the keys agree. -/
def encrypt (source : RandomSource) (publicKey text : Bytes) : Except Error Bytes × RandomSource :=
  match Octets.ofList? 32 publicKey with
  | none => (.error .malformedPeerKey, source)
  | some receiver =>
    match PollKey.draw source with
    | (.error e, rest) => (.error e, rest)
    | (.ok ephemeral, rest) =>
      match rest.draw 12 with
      | (.error e, rest) => (.error e, rest)
      | (.ok nonce, rest) => ((sealParts receiver ephemeral nonce text).map Parts.toBytes, rest)

end SealedPoll.Vote
