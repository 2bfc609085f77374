import SealedPoll.Bytes.Hex

/-!
# Refusals

* `Error` : the reasons for which an operation of the library is refused, with what each needs to
  tell;
* `Error.message` : the text shown for a reason;
* `Error.causeMessage?` : the text of the reason underneath it, if there is one. A refused vote
  keeps its reason there and out of its own text.
-/

namespace SealedPoll

/-- Why an operation is refused. -/
inductive Error
  /-- A main key's seed has this many bytes. -/
  | invalidSeedLength (length : Nat)
  /-- A main key's seed is not written in hexadecimal. -/
  | invalidSeedHex (fault : Hex.Fault)
  | invalidConfig (detail : String)
  /-- The random source has too few bytes left. -/
  | randomSourceExhausted (detail : String)
  /-- A poll's private key has this many bytes. -/
  | malformedPrivateKey (length : Nat)
  /-- A sealed vote has this many bytes. -/
  | ciphertextTooShort (length : Nat)
  | malformedPeerKey
  /-- The shared secret is all zero. -/
  | keyAgreementFailure
  | keyDerivationFailure
  | authenticationFailed
  | encryptionFailed
  | pollAlreadyActive (poll : String)
  | pollNotFound (poll : String)
  /-- The vote at this position of a batch is refused. -/
  | voteDecryptionFailed (index : Nat) (cause : Error)
  /-- The item at this position of a list does not fit a frame. -/
  | plaintextTooLarge (index : Nat)
  | malformedFrame
  | invalidPublicKey
  | invalidSignature
deriving DecidableEq

namespace Error

/-- What is wrong, without the mark that every text starts with. -/
def detail : Error → String
  | invalidSeedLength n => "main key seed must be 32 bytes, got " ++ n.repr
  | invalidSeedHex fault => "main key seed is not valid hexidecimal: " ++ fault.message
  | invalidConfig text => "invalid configuration: " ++ text
  | randomSourceExhausted text => "random source exhausted: " ++ text
  | malformedPrivateKey n => "poll private key must be 32 bytes, got " ++ n.repr
  | ciphertextTooShort n => "ciphertext too short: need at least 60 bytes, got " ++ n.repr
  | malformedPeerKey => "invalid public key in ciphertext"
  | keyAgreementFailure => "key agreement produced a non-contributory shared secret"
  | keyDerivationFailure => "symmetric key derivation failed"
  | authenticationFailed => "ciphertext failed authentication"
  | encryptionFailed => "failed to encrypt vote"
  | pollAlreadyActive poll => "poll " ++ poll ++ " is already active"
  | pollNotFound poll => "poll " ++ poll ++ " not found"
  | voteDecryptionFailed index _ => "vote " ++ index.repr ++ " could not be decrypted"
  | plaintextTooLarge index => "plaintext " ++ index.repr ++ " is too large to frame"
  | malformedFrame => "malformed result frame"
  | invalidPublicKey => "invalid public key"
  | invalidSignature => "invalid signature encoding"

def message (e : Error) : String := "pollcrypt: " ++ e.detail

/-- The text of the reason underneath a refusal, if there is one. -/
def causeMessage? : Error → Option String
  | invalidSeedHex fault => some fault.message
  | randomSourceExhausted text => some text
  | voteDecryptionFailed _ cause => some cause.message
  | _ => none

end Error

end SealedPoll
