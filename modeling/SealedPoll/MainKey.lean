import SealedPoll.Curve.Signature
import SealedPoll.PollKey

/-!
# The main key

* `MainKey` : the long-lived signing key, made from a seed of 32 bytes (`MainKey.ofSeed`) that
  `MainKey.drawSeed` takes from a random source;
* `MainKey.sign`, `MainKey.publicKey` : signatures, and the key that verifies them;
* `MainKey.endorse` : the public key of a poll with the main key's signature over it;
* `parsePublicKey`, `verify` : public keys and strict verification on raw bytes.
-/

namespace SealedPoll

open Curve (SigningKey VerifyingKey Signature)

/-- The long-lived signing key. -/
structure MainKey where
  signing : SigningKey
deriving DecidableEq

namespace MainKey

def ofOctets (seed : Octets 32) : MainKey := ⟨⟨seed⟩⟩

/-- The main key of a seed, which has to have 32 bytes. -/
def ofSeed (seed : Bytes) : Except Error MainKey :=
  match Octets.ofList? 32 seed with
  | some seed => .ok (ofOctets seed)
  | none => .error (.invalidSeedLength seed.length)

/-- A new seed from a random source. -/
def drawSeed (source : RandomSource) : Except Error (Octets 32) × RandomSource := source.draw 32

def publicKey (key : MainKey) : VerifyingKey := key.signing.verifyingKey

def sign (key : MainKey) (data : Bytes) : Signature := key.signing.sign data

def publicHex (key : MainKey) : String := Hex.encode key.publicKey.encoded.toList

/-- The printed form, which shows the public half only. -/
def print (key : MainKey) : String := "MainKey(\x22" ++ key.publicHex ++ "\x22)"

/-- The printed form of a crypto engine that holds the key. -/
def printEngine (key : MainKey) : String := "CryptoEngine \x7b main_key: " ++ key.print ++ " \x7d"

/-- The public key of a poll and the signature over it. -/
def endorse (key : MainKey) (secret : PollKey) : PollPublicKey × Signature :=
  (secret.publicKey, key.sign secret.publicKey.toList)

/-- The public key for a poll's private key given as bytes, and the signature over it. -/
def endorseBytes (key : MainKey) (bs : Bytes) : Except Error (PollPublicKey × Signature) :=
  (PollKey.ofBytes bs).map key.endorse

end MainKey

/-- A public signing key from its encoding. -/
def parsePublicKey (bs : Bytes) : Except Error VerifyingKey :=
  match (Octets.ofList? 32 bs).bind VerifyingKey.decode? with
  | some key => .ok key
  | none => .error .invalidPublicKey

/-- Strict verification on raw bytes; malformed keys and signatures verify nothing. -/
def verify (publicKey message signature : Bytes) : Bool :=
  match parsePublicKey publicKey, Octets.ofList? 64 signature with
  | .ok key, some signature => key.verify message signature
  | _, _ => false

end SealedPoll
