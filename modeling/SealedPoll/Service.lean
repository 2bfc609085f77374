import SealedPoll.Artifact
import SealedPoll.Batch
import SealedPoll.Log
import SealedPoll.Registry

/-!
# The poll service

* `Service` : a main key, the registry of active polls and a random source;
* `Service.start` : a new poll, answered by its signed public key;
* `Service.stop` : the poll's key is used up, and the answer is the signed frame of all votes or the
  first vote that is refused;
* `Service.clear` : the poll is forgotten, if it is active.
-/

namespace SealedPoll

/-- A service that runs polls. -/
structure Service where
  mainKey : MainKey
  options : Batch.Options
  /-- The number of cores of the machine. -/
  cores : Nat
  polls : Registry
  random : RandomSource

/-- What an operation answers and logs, and the service after it. -/
structure Result (α : Type) where
  answer : α
  log : List LogEvent
  after : Service

/-- The same result with another form of answer. -/
def Result.map {α β : Type} (f : α → β) (r : Result α) : Result β := ⟨f r.answer, r.log, r.after⟩

namespace Service

def new (mainKey : MainKey) (options : Batch.Options) (cores : Nat) (random : RandomSource) :
    Service :=
  ⟨mainKey, options, cores, .empty, random⟩

/-- The key that verifies all that the service signs. -/
def publicKey (s : Service) : Curve.VerifyingKey := s.mainKey.publicKey

def isActive (s : Service) (id : String) : Bool := s.polls.contains id

/-- The signed public key of a poll. -/
def signedKey (s : Service) (secret : PollKey) : Artifact :=
  let (key, signature) := s.mainKey.endorse secret
  ⟨key.toList, signature⟩

/-- Starts a poll with a new key from the random source. -/
def start (s : Service) (id : String) : Result (Except Error Artifact) :=
  let created := s.polls.create id fun polls =>
    let (drawn, random) := PollKey.draw s.random
    (drawn, polls, random)
  let after := { s with polls := created.registry, random := created.left.getD s.random }
  match created.outcome with
  | .error e => ⟨.error e, [], after⟩
  | .ok secret => ⟨.ok (s.signedKey secret), [.started id], after⟩

/-- Stops a poll and signs the frame of its votes, opened in order. -/
def stop (s : Service) (id : String) (votes : List Bytes) : Result (Except Error Artifact) :=
  match s.polls.take id with
  | (.error e, _) => ⟨.error e, [], s⟩
  | (.ok secret, polls) =>
    let after := { s with polls }
    match Batch.openAll s.options s.cores secret votes with
    | .error bad =>
      ⟨.error bad.toError, [.undecryptable id bad.index, .cause id bad.cause], after⟩
    | .ok texts =>
      match Frame.encode texts with
      | .error e => ⟨.error e, [], after⟩
      | .ok payload => ⟨.ok (.sign s.mainKey payload), [.stopped id texts.length], after⟩

/-- Forgets a poll and its key. -/
def clear (s : Service) (id : String) : Result Unit :=
  let (found, polls) := s.polls.remove id
  ⟨(), if found then [.cleared id] else [], { s with polls }⟩

end Service

end SealedPoll
