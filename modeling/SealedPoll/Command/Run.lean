import SealedPoll.Artifact.Printer
import SealedPoll.Command.Arguments
import SealedPoll.Command.Report
import SealedPoll.Config

/-!
# Running commands

* `Command.run` : the report of a command, given the environment, the number of cores and a random
  source. An argument is read as a text when its turn comes, so that the failure of an earlier one
  wins;
* `Command.randomNeed` : how many random bytes a command uses at most.
-/

namespace SealedPoll.Command

/-- What a command finds around it. -/
structure Surroundings where
  env : Environment
  cores : Nat
  random : RandomSource

/-- The failure of a command for a reason that the library gives. -/
def refused (name : Name) (e : Error) : Report := .failed name.text e.message

/-- The bytes that a hexadecimal argument denotes, blanks at both ends left aside, or the
failure. -/
def hexArgument (name : Name) (argument : String) (written : Bytes) : Except Report Bytes :=
  match Text.ofUtf8? written with
  | none => .error .unreadable
  | some text =>
    match Hex.decode (Text.trim text) with
    | .ok bytes => .ok bytes
    | .error fault =>
      .error (.failed name.text ("invalid hex for " ++ argument ++ ": " ++ fault.message))

/-! ## Keys -/

/-- A new seed and its public key. -/
def runKeygen (around : Surroundings) : Report :=
  match (MainKey.drawSeed around.random).1 with
  | .error e => refused .keygen e
  | .ok seed =>
    .printed ["main-key-seed: " ++ Hex.encode seed.toList,
      "public-key: " ++ (MainKey.ofOctets seed).publicHex]

/-- The public key of the configured main key. -/
def runPubkey (around : Surroundings) : Report :=
  match Config.ofEnvironment around.env with
  | .error e => refused .pubkey e
  | .ok config =>
    (Report.logged ⟨.info, "pollcrypt::command_keygen",
      "loaded main key from " ++ Environment.mainKeyName⟩).followedBy
        (.printed [config.mainKey.publicHex])

/-! ## Votes and signatures -/

def runEncrypt (around : Surroundings) (pollPublicKey plaintext : Bytes) : Report :=
  match hexArgument .encrypt "POLL-PUBLIC-KEY" pollPublicKey with
  | .error failure => failure
  | .ok key =>
    if Text.isUtf8 plaintext then
      match (Vote.encrypt around.random key plaintext).1 with
      | .error e => refused .encrypt e
      | .ok sealedVote => .printed [Hex.encode sealedVote]
    else .unreadable

def runVerify (publicKey message signature : Bytes) : Report :=
  match hexArgument .verify "PUBLIC-KEY" publicKey with
  | .error failure => failure
  | .ok publicKey =>
    match hexArgument .verify "MESSAGE" message with
    | .error failure => failure
    | .ok message =>
      match hexArgument .verify "SIGNATURE" signature with
      | .error failure => failure
      | .ok signature =>
        if SealedPoll.verify publicKey message signature then .printed ["> Signature verified OK"]
        else .failed Name.verify.text "signature verification failed"

/-! ## A whole poll -/

/-- The part of the program that speaks for a whole poll. -/
def endToEndSource : String := "pollcrypt::command_e2e"

/-- Votes sealed one after the other, and the random source after them. -/
def sealVotes (random : RandomSource) (key : Bytes) :
    List Bytes → Except Error (List Bytes) × RandomSource
  | [] => (.ok [], random)
  | vote :: votes =>
    match Vote.encrypt random key vote with
    | (.error e, random) => (.error e, random)
    | (.ok first, random) =>
      let (rest, random) := sealVotes random key votes
      (rest.map (first :: ·), random)

/-- The line of a vote in the result: its text, or its bytes if they are no UTF-8. -/
def voteLine (vote : Bytes) : String :=
  match Text.ofUtf8? vote with
  | some text => "  " ++ text
  | none => "  0x" ++ Hex.encode vote

/-- The service for a whole poll: the configured one, or one with a throwaway key if no main key is
set. -/
def openService (around : Surroundings) : Except Error Service :=
  match around.env.mainKeyText? with
  | some _ =>
    (Config.ofEnvironment around.env).map fun config => config.service around.cores around.random
  | none =>
    match MainKey.drawSeed around.random with
    | (.error e, _) => .error e
    | (.ok seed, random) =>
      .ok (.new (.ofOctets seed) Batch.Options.standard around.cores random)

/-- The log of the choice of a main key. -/
def mainKeyLog (env : Environment) : Report :=
  match env.mainKeyText? with
  | some _ => .printed []
  | none =>
    .logged ⟨.warn, endToEndSource,
      Environment.mainKeyName ++ " not set, using a throwaway main key"⟩

/-- The lines on a result that has been verified. -/
def resultReport (poll : String) (result : Artifact) : Report :=
  (Report.printed ["> Poll " ++ poll ++ " stopped, result verified OK", "Votes:"]).followedBy
    (match result.plaintexts with
    | .error e => refused .endToEnd e
    | .ok votes => .printed (votes.map voteLine ++ ["Signed result:", result.pretty]))

def finishPoll (service : Service) (poll : String) (votes : List Bytes) : Report :=
  let stopped := service.stop poll votes
  (Report.events stopped.log).followedBy
    (match stopped.answer with
    | .error e => refused .endToEnd e
    | .ok result =>
      if result.verify service.publicKey then resultReport poll result
      else .failed Name.endToEnd.text "result signature did not verify")

def castVotes (service : Service) (poll : String) (key : Artifact) (votes : List Bytes) : Report :=
  match sealVotes service.random key.payload votes with
  | (.error e, _) => refused .endToEnd e
  | (.ok ballots, random) =>
    (Report.logged ⟨.info, endToEndSource,
      "encrypted " ++ ballots.length.repr ++ " votes"⟩).followedBy
        (finishPoll { service with random } poll ballots)

/-- The lines on a poll that has been started. -/
def startReport (service : Service) (poll : String) (key : Artifact) : Report :=
  .printed ["> Poll " ++ poll ++ " started",
    "  main-public-key: " ++ Hex.encode service.publicKey.encoded.toList,
    "  poll-public-key: " ++ Hex.encode key.payload]

/-- Starts the poll, lets the votes be cast and stops it. -/
def runPoll (service : Service) (poll : String) (votes : List Bytes) : Report :=
  let started := service.start poll
  (Report.events started.log).followedBy
    (match started.answer with
    | .error e => refused .endToEnd e
    | .ok key =>
      if key.verify service.publicKey then
        (startReport service poll key).followedBy (castVotes started.after poll key votes)
      else .failed Name.endToEnd.text "poll key signature did not verify")

def runEndToEnd (around : Surroundings) (poll : Bytes) (votes : List Bytes) : Report :=
  match Text.ofUtf8? poll with
  | none => .unreadable
  | some poll =>
    if votes.all Text.isUtf8 then
      (mainKeyLog around.env).followedBy
        (match openService around with
        | .error e => refused .endToEnd e
        | .ok service => runPoll service poll votes)
    else .unreadable

/-! ## All commands -/

def run (around : Surroundings) : Command → Report
  | keygen => runKeygen around
  | pubkey => runPubkey around
  | encrypt pollPublicKey plaintext => runEncrypt around pollPublicKey plaintext
  | verify publicKey message signature => runVerify publicKey message signature
  | endToEnd poll votes => runEndToEnd around poll votes

/-- The number of random bytes that a command uses at most. -/
def randomNeed : Command → Nat
  | keygen => 32
  | pubkey => 0
  | encrypt _ _ => 44
  | verify _ _ _ => 0
  | endToEnd _ votes => 64 + 44 * votes.length

end SealedPoll.Command
