import SealedPoll.Text

/-!
# Commands

* `Command` : what the program can be asked to do, with its arguments as bytes;
* `Command.Name` : the names of the commands and of their arguments.
-/

namespace SealedPoll

/-- What the program can be asked to do. -/
inductive Command
  | keygen
  | pubkey
  | encrypt (pollPublicKey plaintext : Bytes)
  | verify (publicKey message signature : Bytes)
  /-- A whole poll: started, voted in, stopped and verified. -/
  | endToEnd (poll : Bytes) (votes : List Bytes)
deriving DecidableEq

namespace Command

inductive Name
  | keygen
  | pubkey
  | encrypt
  | verify
  | endToEnd
deriving DecidableEq

namespace Name

/-- All names, in alphabetical order of their texts. -/
def all : List Name := [endToEnd, encrypt, keygen, pubkey, verify]

def text : Name → String
  | keygen => "keygen"
  | pubkey => "pubkey"
  | encrypt => "encrypt"
  | verify => "verify"
  | endToEnd => "e2e"

/-- The name with this text, given in UTF-8. -/
def ofBytes? (bs : Bytes) : Option Name := all.find? fun name => Text.utf8 name.text = bs

/-- The names of the arguments, all of them needed. -/
def arguments : Name → List String
  | keygen => []
  | pubkey => []
  | encrypt => ["POLL-PUBLIC-KEY", "PLAINTEXT"]
  | verify => ["PUBLIC-KEY", "MESSAGE", "SIGNATURE"]
  | endToEnd => ["POLL-ID"]

/-- Any number of further arguments may follow. -/
def isOpen : Name → Bool
  | endToEnd => true
  | _ => false

end Name

def name : Command → Name
  | keygen => .keygen
  | pubkey => .pubkey
  | encrypt _ _ => .encrypt
  | verify _ _ _ => .verify
  | endToEnd _ _ => .endToEnd

/-- The command of a name with these arguments, if they are as many as it needs. -/
def ofValues? : Name → List Bytes → Option Command
  | .keygen, [] => some keygen
  | .pubkey, [] => some pubkey
  | .encrypt, [pollPublicKey, plaintext] => some (encrypt pollPublicKey plaintext)
  | .verify, [publicKey, message, signature] => some (verify publicKey message signature)
  | .endToEnd, poll :: votes => some (endToEnd poll votes)
  | _, _ => none

end Command

end SealedPoll
