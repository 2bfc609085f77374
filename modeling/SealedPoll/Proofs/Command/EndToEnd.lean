import SealedPoll.Proofs.Artifact.RoundTrip
import SealedPoll.Proofs.Command
import SealedPoll.Proofs.Service

/-!
# A whole poll on the command line

* `Draws` : what the random source hands out to a poll and its votes, in order;
* `RunsWith` : the main key of a whole poll, configured or thrown away afterwards, and the random bytes
  left for it;
* `encrypt_of_draws`, `sealVotes_of_draws` : votes that are sealed for a poll open with its key;
* `prints_castVotes`, `prints_runPoll` : the lines on a poll that takes its course;
* `endToEnd_checkable` : the report of a whole poll shows the votes as they were cast, and what it
  prints can be read back and verified.
-/

namespace SealedPoll.Command

/-! ## What is drawn -/

/-- What seals a vote. -/
structure Sealing where
  ephemeral : PollKey
  nonce : Octets 12

def Sealing.bytes (sealing : Sealing) : Bytes :=
  sealing.ephemeral.bytes.toList ++ sealing.nonce.toList

/-- The keys agree, and not on zeros only. -/
structure Sealing.Reaches (sealing : Sealing) (secret : PollKey) : Prop where
  agrees : PollKey.Agrees secret sealing.ephemeral
  contributes : Curve.agree sealing.ephemeral.bytes secret.publicKey ≠ Octets.zero 32

/-- What the random source hands out to a poll: its private key, then what seals each vote. Any bytes
that are enough begin with such. -/
structure Draws where
  secret : PollKey
  sealings : List Sealing

def Draws.bytes (draws : Draws) : Bytes :=
  draws.secret.bytes.toList ++ draws.sealings.flatMap Sealing.bytes

/-- The main key of a whole poll and the random bytes left for it. One that is thrown away takes the
first of them as its seed. -/
inductive RunsWith (around : Surroundings) : MainKey → Bytes → Prop
  | configured {config : Config} : Config.ofEnvironment around.env = .ok config →
      RunsWith around config.mainKey around.random.bytes
  | throwaway {seed : Octets 32} {script : Bytes} :
      (∀ text, around.env.mainKey? ≠ some (Text.utf8 text)) →
      around.random.bytes = seed.toList ++ script → RunsWith around (.ofOctets seed) script

theorem draw_append (secret : PollKey) (rest : Bytes) :
    PollKey.draw ⟨secret.bytes.toList ++ rest⟩ = (.ok secret, ⟨rest⟩) := by
  rw [PollKey.draw, RandomSource.draw_append]
  rfl

/-! ## Votes -/

theorem exists_sealParts {secret : PollKey} {sealing : Sealing} (h : sealing.Reaches secret)
    (text : Bytes) :
    ∃ p, Vote.sealParts secret.publicKey sealing.ephemeral sealing.nonce text = .ok p := by
  rw [Vote.sealParts, PollKey.sharedKey, if_neg h.contributes]
  exact ⟨_, rfl⟩

theorem encrypt_of_draws {secret : PollKey} {sealing : Sealing} (h : sealing.Reaches secret)
    (text rest : Bytes) :
    ∃ ballot, Vote.encrypt ⟨sealing.bytes ++ rest⟩ secret.publicKey.toList text =
        (.ok ballot, ⟨rest⟩) ∧
      Vote.decrypt secret.bytes.toList ballot = .ok text := by
  obtain ⟨p, hp⟩ := exists_sealParts h text
  obtain ⟨hopen, hbody⟩ := Vote.openParts_of_sealParts h.agrees hp
  refine ⟨p.toBytes, ?_, by rw [Vote.decrypt_toBytes secret (by omega), hopen]⟩
  rw [Sealing.bytes, List.append_assoc, Vote.encrypt, Octets.ofList?_toList]
  simp only [draw_append, RandomSource.draw_append, hp]
  rfl

theorem sealVotes_of_draws {secret : PollKey} {sealings : List Sealing} {texts : List Bytes}
    (hreaches : ∀ sealing ∈ sealings, sealing.Reaches secret)
    (hcount : sealings.length = texts.length) (rest : Bytes) :
    ∃ ballots, sealVotes ⟨sealings.flatMap Sealing.bytes ++ rest⟩ secret.publicKey.toList texts =
        (.ok ballots, ⟨rest⟩) ∧
      Batch.Opens secret ballots texts := by
  induction texts generalizing sealings with
  | nil =>
    obtain rfl := List.eq_nil_of_length_eq_zero hcount
    exact ⟨[], rfl, rfl⟩
  | cons text texts ih =>
    cases sealings with
    | nil => cases hcount
    | cons sealing sealings =>
      obtain ⟨hfirst, hmore⟩ := List.forall_mem_cons.1 hreaches
      obtain ⟨ballot, hballot, hopen⟩ :=
        encrypt_of_draws hfirst text (sealings.flatMap Sealing.bytes ++ rest)
      obtain ⟨ballots, hballots, hopens⟩ := ih hmore (Nat.succ.inj hcount)
      refine ⟨ballot :: ballots, ?_, ?_⟩
      · rw [List.flatMap_cons, List.append_assoc, sealVotes, hballot]
        simp only [hballots]
        rfl
      · simp only [Batch.Opens, Batch.outcomes, List.map_cons, hopen] at hopens ⊢
        rw [hopens]

/-! ## A poll -/

/-- The result of a poll: the frame of the votes, signed. -/
def resultOf (key : MainKey) (votes : List String) : Artifact :=
  .sign key ((votes.map Text.utf8).flatMap Frame.item)

/-- The lines on the result of a poll. -/
def resultLines (poll : String) (votes : List String) (json : String) : List String :=
  ["> Poll " ++ poll ++ " stopped, result verified OK", "Votes:"] ++ votes.map ("  " ++ ·) ++
    ["Signed result:", json]

variable {votes : List String}

theorem plaintexts_resultOf (hshort : ∀ vote ∈ votes, (Text.utf8 vote).length < Frame.itemBound)
    (key : MainKey) : (resultOf key votes).plaintexts = .ok (votes.map Text.utf8) :=
  Frame.decode_flatMap_item (by simpa using hshort)

theorem map_voteLine : (votes.map Text.utf8).map voteLine = votes.map ("  " ++ ·) := by
  rw [List.map_map]
  refine List.map_congr_left fun vote _ => ?_
  simp only [Function.comp_apply, voteLine, Text.ofUtf8?_utf8]

theorem prints_resultReport (hshort : ∀ vote ∈ votes, (Text.utf8 vote).length < Frame.itemBound)
    (poll : String) (key : MainKey) :
    (resultReport poll (resultOf key votes)).Prints
      (resultLines poll votes (resultOf key votes).pretty) := by
  rw [resultReport, plaintexts_resultOf hshort]
  simp only [map_voteLine]
  have hlines := (Report.prints_printed ["> Poll " ++ poll ++ " stopped, result verified OK",
    "Votes:"]).followedBy (Report.prints_printed (votes.map ("  " ++ ·) ++ ["Signed result:",
      (resultOf key votes).pretty]))
  rwa [← List.append_assoc] at hlines

variable {service : Service} {poll : String} {secret : PollKey}

theorem prints_finishPoll {ballots : List Bytes}
    (hshort : ∀ vote ∈ votes, (Text.utf8 vote).length < Frame.itemBound)
    (hheld : service.polls.get? poll = some secret)
    (hopens : Batch.Opens secret ballots (votes.map Text.utf8))
    (haccepts : service.mainKey.StrictAccepts ((votes.map Text.utf8).flatMap Frame.item)) :
    (finishPoll service poll ballots).Prints
      (resultLines poll votes (resultOf service.mainKey votes).pretty) := by
  have hanswer : (service.stop poll ballots).answer = .ok (resultOf service.mainKey votes) := by
    rw [Service.stop_of_held hheld]
    exact Service.tally_of_opens hopens (by simpa using hshort) service.mainKey
  have hverify : (resultOf service.mainKey votes).verify service.publicKey = true := haccepts
  simp only [finishPoll, hanswer, hverify, if_true]
  exact (Report.prints_events _).followedBy (prints_resultReport hshort poll service.mainKey)

/-- Votes are cast in a poll that holds the key of the sealings drawn for them. -/
theorem prints_castVotes {sealings : List Sealing} {rest : Bytes}
    (hshort : ∀ vote ∈ votes, (Text.utf8 vote).length < Frame.itemBound)
    (hheld : service.polls.get? poll = some secret)
    (hrandom : service.random = ⟨sealings.flatMap Sealing.bytes ++ rest⟩)
    (hreaches : ∀ sealing ∈ sealings, sealing.Reaches secret)
    (hcount : sealings.length = votes.length)
    (haccepts : service.mainKey.StrictAccepts ((votes.map Text.utf8).flatMap Frame.item)) :
    (castVotes service poll (service.signedKey secret) (votes.map Text.utf8)).Prints
      (resultLines poll votes (resultOf service.mainKey votes).pretty) := by
  have hcount : sealings.length = (votes.map Text.utf8).length := by simpa using hcount
  obtain ⟨ballots, hseal, hopens⟩ := sealVotes_of_draws hreaches hcount rest
  have hpayload : (service.signedKey secret).payload = secret.publicKey.toList := rfl
  simp only [castVotes, hpayload, hrandom, hseal]
  exact (Report.prints_logged _).followedBy (prints_finishPoll hshort hheld hopens haccepts)

/-- The lines on a poll from its start on. -/
def pollLines (key : MainKey) (secret : PollKey) (poll : String) (votes : List String) :
    List String :=
  ["> Poll " ++ poll ++ " started",
    "  main-public-key: " ++ Hex.encode key.publicKey.encoded.toList,
    "  poll-public-key: " ++ Hex.encode secret.publicKey.toList] ++
    resultLines poll votes (resultOf key votes).pretty

theorem prints_runPoll {draws : Draws} {rest : Bytes} (poll : String)
    (hshort : ∀ vote ∈ votes, (Text.utf8 vote).length < Frame.itemBound)
    (hfresh : service.isActive poll = false) (hrandom : service.random = ⟨draws.bytes ++ rest⟩)
    (hreaches : ∀ sealing ∈ draws.sealings, sealing.Reaches draws.secret)
    (hcount : draws.sealings.length = votes.length)
    (hkey : service.mainKey.StrictAccepts draws.secret.publicKey.toList)
    (hframe : service.mainKey.StrictAccepts ((votes.map Text.utf8).flatMap Frame.item)) :
    (runPoll service poll (votes.map Text.utf8)).Prints
      (pollLines service.mainKey draws.secret poll votes) := by
  have hdraw : PollKey.draw service.random =
      (.ok draws.secret, ⟨draws.sealings.flatMap Sealing.bytes ++ rest⟩) := by
    rw [hrandom, Draws.bytes, List.append_assoc, draw_append]
  have hverify : (service.signedKey draws.secret).verify service.publicKey = true := hkey
  simp only [runPoll, Service.start_of_draw hfresh hdraw, hverify, if_true]
  refine (Report.prints_events _).followedBy ((Report.prints_printed _).followedBy ?_)
  exact prints_castVotes hshort (Registry.get?_insertNew_self hfresh _) rfl hreaches hcount hframe

/-! ## The command -/

theorem prints_mainKeyLog (env : Environment) : (mainKeyLog env).Prints [] := by
  unfold mainKeyLog
  split
  · exact Report.prints_printed []
  · exact Report.prints_logged _

theorem openService_of_runsWith {around : Surroundings} {key : MainKey} {script : Bytes}
    (h : RunsWith around key script) :
    ∃ options, openService around = .ok (.new key options around.cores ⟨script⟩) := by
  cases h with
  | @configured config hconfig =>
    cases hset : around.env.mainKeyText? with
    | none => simp [Config.ofEnvironment, hset] at hconfig
    | some text =>
      refine ⟨config.options, ?_⟩
      simp only [openService, hset, hconfig]
      rfl
  | @throwaway seed script hunset hrandom =>
    have hnone : around.env.mainKeyText? = none := by
      refine Option.eq_none_iff_forall_ne_some.2 fun text htext => ?_
      obtain ⟨value, hvalue, hread⟩ := Option.bind_eq_some_iff.1 htext
      exact hunset text (hvalue.trans (congrArg some (Text.ofUtf8?_eq_some_iff.1 hread)))
    have hsource : around.random = ⟨seed.toList ++ script⟩ := congrArg RandomSource.mk hrandom
    refine ⟨.standard, ?_⟩
    simp only [openService, hnone, MainKey.drawSeed, hsource, RandomSource.draw_append]

theorem all_isUtf8 (votes : List String) : (votes.map Text.utf8).all Text.isUtf8 = true := by
  simp [Text.isUtf8]

theorem prints_endToEnd {around : Surroundings} {key : MainKey} {draws : Draws} {rest : Bytes}
    (poll : String) (hkey : RunsWith around key (draws.bytes ++ rest))
    (hcount : draws.sealings.length = votes.length)
    (hreaches : ∀ sealing ∈ draws.sealings, sealing.Reaches draws.secret)
    (hshort : ∀ vote ∈ votes, (Text.utf8 vote).length < Frame.itemBound)
    (hannounced : key.StrictAccepts draws.secret.publicKey.toList)
    (hframe : key.StrictAccepts ((votes.map Text.utf8).flatMap Frame.item)) :
    (run around (.endToEnd (Text.utf8 poll) (votes.map Text.utf8))).Prints
      (pollLines key draws.secret poll votes) := by
  obtain ⟨options, hservice⟩ := openService_of_runsWith hkey
  simp only [run, runEndToEnd, Text.ofUtf8?_utf8, all_isUtf8, if_true, hservice]
  refine (prints_mainKeyLog around.env).followedBy ?_
  exact prints_runPoll poll hshort rfl rfl hreaches hcount hannounced hframe

/-- **A whole poll shows what was cast, and what can be checked.** With a main key that is configured
or thrown away, and random bytes for all that is drawn, the command succeeds whatever the votes are;
the bound that a frame sets on each of them is one that no argument reaches. Each vote is printed as it
was given. The text printed last reads as an artifact that holds the votes in order, and the command
`verify` accepts it under the main public key that is printed.

It is assumed that agreement is symmetric and not zero for the keys drawn, and that strict verification
accepts the two signatures that the main key makes. -/
theorem endToEnd_checkable (around : Surroundings) (key : MainKey) (draws : Draws) (rest : Bytes)
    (poll : String) (votes : List String) (hkey : RunsWith around key (draws.bytes ++ rest))
    (hcount : draws.sealings.length = votes.length)
    (hreaches : ∀ sealing ∈ draws.sealings, sealing.Reaches draws.secret)
    (hshort : ∀ vote ∈ votes, (Text.utf8 vote).length < Frame.itemBound)
    (hannounced : key.StrictAccepts draws.secret.publicKey.toList)
    (hframe : key.StrictAccepts ((votes.map Text.utf8).flatMap Frame.item)) :
    let report := run around (.endToEnd (Text.utf8 poll) (votes.map Text.utf8))
    let publicHex := Hex.encode key.publicKey.encoded.toList
    report.exitCode = 0 ∧ ∃ json artifact,
      report.output = ["> Poll " ++ poll ++ " started", "  main-public-key: " ++ publicHex,
          "  poll-public-key: " ++ Hex.encode draws.secret.publicKey.toList,
          "> Poll " ++ poll ++ " stopped, result verified OK", "Votes:"] ++
        votes.map ("  " ++ ·) ++ ["Signed result:", json] ∧
      Artifact.parse json = .ok artifact ∧ artifact.plaintexts = .ok (votes.map Text.utf8) ∧
      ∃ command, Invocation.ofArguments (["verify", publicHex, Hex.encode artifact.payload,
          Hex.encode artifact.signature.toList].map Text.utf8) = .run 0 command ∧
        ∀ elsewhere, (run elsewhere command).exitCode = 0 := by
  intro report publicHex
  have hprints : report.Prints (pollLines key draws.secret poll votes) :=
    prints_endToEnd poll hkey hcount hreaches hshort hannounced hframe
  refine ⟨hprints.exitCode, (resultOf key votes).pretty, resultOf key votes, hprints.output, ?_,
    plaintexts_resultOf hshort key, _, Invocation.ofArguments_verify _ _ _, fun elsewhere => ?_⟩
  · exact Artifact.parse_of_isMap (Artifact.isMap_of_printed _ _ (by simp))
  · exact (run_verify hframe elsewhere).exitCode

/-- An empty vote, and one that looks like bytes; the main key is thrown away. -/
theorem two_votes_checkable :
    let key : MainKey := .ofOctets (Octets.zero 32)
    let draws : Draws := ⟨⟨⟨List.replicate 32 1, rfl⟩⟩,
      [⟨⟨⟨List.replicate 32 2, rfl⟩⟩, Octets.zero 12⟩, ⟨⟨⟨List.replicate 32 3, rfl⟩⟩, Octets.zero 12⟩]⟩
    let around : Surroundings :=
      ⟨⟨none, none, none⟩, 4, ⟨(Octets.zero 32).toList ++ (draws.bytes ++ [])⟩⟩
    let report := run around (.endToEnd (Text.utf8 "tea?") (["", "0x6e6f"].map Text.utf8))
    report.exitCode = 0 ∧ ∃ json artifact,
      report.output = ["> Poll tea? started",
        "  main-public-key: " ++ Hex.encode key.publicKey.encoded.toList,
        "  poll-public-key: " ++ Hex.encode draws.secret.publicKey.toList,
        "> Poll tea? stopped, result verified OK", "Votes:", "  ", "  0x6e6f", "Signed result:",
        json] ∧
      Artifact.parse json = .ok artifact ∧
      artifact.plaintexts = .ok (["", "0x6e6f"].map Text.utf8) := by
  intro key draws around report
  have hreaches : ∀ sealing ∈ draws.sealings, sealing.Reaches draws.secret := by
    simp only [draws, List.forall_mem_cons]
    exact ⟨⟨by decide +kernel, by decide +kernel⟩, ⟨by decide +kernel, by decide +kernel⟩, by simp⟩
  have hshort : ∀ vote ∈ ["", "0x6e6f"], (Text.utf8 vote).length < Frame.itemBound := by
    decide +kernel
  have hannounced : key.StrictAccepts draws.secret.publicKey.toList := by decide +kernel
  have hframe : key.StrictAccepts ((["", "0x6e6f"].map Text.utf8).flatMap Frame.item) := by
    decide +kernel
  obtain ⟨hexit, json, artifact, houtput, hparse, htexts, -⟩ :=
    endToEnd_checkable around key draws [] "tea?" ["", "0x6e6f"]
      (.throwaway (fun _ => (Option.some_ne_none _).symm) rfl) rfl hreaches hshort hannounced hframe
  exact ⟨hexit, json, artifact, by simpa [report] using houtput, hparse, htexts⟩

end SealedPoll.Command
