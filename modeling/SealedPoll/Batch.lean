import SealedPoll.Bytes.Chunks
import SealedPoll.Vote

/-!
# Opening a batch of votes

* `Batch.Options` : how a batch is spread over workers; `Batch.Options.workersFor` says over how
  many;
* `Batch.openFrom` : opens votes one after the other and names the first that is refused;
* `Batch.openAll` : the same, the batch being cut into a chunk for each worker.
-/

namespace SealedPoll.Batch

/-- How a batch is spread over workers. -/
structure Options where
  /-- The number of workers, zero for as many as the machine has cores. -/
  workers : UInt64
  /-- A smaller batch is opened by one worker. -/
  threshold : UInt64
deriving DecidableEq

namespace Options

/-- As many workers as there are cores, for 64 votes and more. -/
def standard : Options := ⟨0, 64⟩

/-- The number of workers for a batch on a machine with `cores` cores: one for a small batch, and
never more than there are votes. -/
def workersFor (options : Options) (cores batch : Nat) : Nat :=
  if batch < max options.threshold.toNat 2 then 1
  else min (if options.workers = 0 then cores else options.workers.toNat) batch

end Options

/-- The first vote of a batch that is refused. -/
structure BadVote where
  index : Nat
  cause : Error
deriving DecidableEq

/-- The refusal of the whole batch. -/
def BadVote.toError (bad : BadVote) : Error := .voteDecryptionFailed bad.index bad.cause

/-- The texts of votes, the first of which has position `index` in the batch. -/
def openFrom (secret : PollKey) (index : Nat) : List Bytes → Except BadVote (List Bytes)
  | [] => .ok []
  | vote :: votes =>
    match Vote.decrypt secret.bytes.toList vote with
    | .error cause => .error ⟨index, cause⟩
    | .ok text => (openFrom secret (index + 1) votes).map (text :: ·)

/-- The texts of chunks in order, or the first refusal. -/
def join : List (Except BadVote (List Bytes)) → Except BadVote (List Bytes)
  | [] => .ok []
  | .error bad :: _ => .error bad
  | .ok texts :: rest => (join rest).map (texts ++ ·)

/-- The number of votes in a full chunk. -/
def chunkSize (batch workers : Nat) : Nat := (batch + workers - 1) / workers

/-- Chunks of `size` votes opened at the same time. -/
def openChunks (secret : PollKey) (size : Nat) (votes : List Bytes) :
    List (Except BadVote (List Bytes)) :=
  let tasks := (chunks size votes).mapIdx fun i chunk =>
    Task.spawn fun _ => openFrom secret (i * size) chunk
  tasks.map Task.get

/-- The texts of all votes, or the first that is refused. -/
def openAll (options : Options) (cores : Nat) (secret : PollKey) (votes : List Bytes) :
    Except BadVote (List Bytes) :=
  let workers := options.workersFor cores votes.length
  if workers ≤ 1 then openFrom secret 0 votes
  else join (openChunks secret (chunkSize votes.length workers) votes)

end SealedPoll.Batch
