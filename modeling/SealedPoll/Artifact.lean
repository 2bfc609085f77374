import SealedPoll.Frame
import SealedPoll.MainKey

/-!
# Signed artifacts

* `Artifact` : a payload with a signature over it;
* `Artifact.sign`, `Artifact.verify` : made by a main key and verified by its public half;
* `Artifact.plaintexts` : the items of a payload that is a frame.
-/

namespace SealedPoll

/-- A payload with a signature over it. -/
structure Artifact where
  payload : Bytes
  signature : Curve.Signature
deriving DecidableEq

namespace Artifact

/-- A payload signed by a main key. -/
def sign (key : MainKey) (payload : Bytes) : Artifact := ⟨payload, key.sign payload⟩

/-- The signature over the payload is the key's. -/
def verify (artifact : Artifact) (key : Curve.VerifyingKey) : Bool :=
  key.verify artifact.payload artifact.signature

/-- The items of the payload, read as a frame. -/
def plaintexts (artifact : Artifact) : Except Error (List Bytes) := Frame.decode artifact.payload

end Artifact

end SealedPoll
