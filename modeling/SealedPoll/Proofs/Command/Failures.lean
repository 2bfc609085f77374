import SealedPoll.Proofs.Command.Arguments
import SealedPoll.Proofs.Command.EndToEnd
import SealedPoll.Proofs.Command.Keys
import SealedPoll.Proofs.Vote.Keys

/-!
# How commands fail

* `Report.Refuses` : a report of a failure, nothing being printed;
* `Hexadecimal`, `NotHexadecimal` : arguments in hexadecimal, and the others;
* `Fails` : why commands fail, by rules of which one at most applies;
* `refuses_of_fails`, `prints_or_fails` : whatever applies is reported, and where none does the command
  succeeds;
* `exists_fails_verify_iff`, `exists_fails_encrypt_iff`, `exists_fails_pubkey_iff`,
  `exists_fails_endToEnd_iff` : when that is;
* `commands_fail_cleanly` : every command succeeds or fails so.
-/

namespace SealedPoll.Command

/-! ## Reports of failures -/

/-- The report is a failure of the command for this reason, with nothing printed before. -/
structure Report.Refuses (report : Report) (name : Name) (reason : String) : Prop where
  output : report.output = []
  failure : report.failure? = some (.explained name.text reason)

namespace Report

variable {report first second : Report} {name : Name} {reason other : String}

theorem refuses_failed (name : Name) (reason : String) : (failed name.text reason).Refuses name reason :=
  ⟨rfl, rfl⟩

theorem Refuses.exitCode (h : report.Refuses name reason) : report.exitCode = 1 := by
  rw [Report.exitCode, h.failure]
  rfl

/-- The reason is given last. -/
theorem Refuses.getLast?_errorLines (h : report.Refuses name reason) (verbosity : Nat) (time : String) :
    (report.errorLines verbosity time).getLast? =
      some ("pollcrypt " ++ name.text ++ ": " ++ reason) := by
  rw [errorLines, h.failure]
  exact List.getLast?_concat

theorem Refuses.unique (h : report.Refuses name reason) (h' : report.Refuses name other) :
    reason = other := by
  have hfailure := h.failure.symm.trans h'.failure
  simp only [Option.some.injEq, Failure.explained.injEq, true_and] at hfailure
  exact hfailure

theorem Prints.not_refuses {lines : List String} (h : report.Prints lines) :
    ¬ report.Refuses name reason := fun h' => by
  have hfailure := h.failure.symm.trans h'.failure
  cases hfailure

/-- A failure after a log is a failure. -/
theorem Prints.followedBy_refuses (hfirst : first.Prints []) (hsecond : second.Refuses name reason) :
    (first.followedBy second).Refuses name reason := by
  rw [Report.followedBy, hfirst.failure, hfirst.output, hsecond.output, hsecond.failure]
  exact ⟨rfl, rfl⟩

end Report

/-! ## Arguments -/

/-- The argument is a text that holds the digits of these bytes between blanks. -/
def Hexadecimal (value bytes : Bytes) : Prop :=
  ∃ text core, value = Text.utf8 text ∧ Text.Trims text core ∧ Hex.IsText core.toList bytes

/-- The argument is a text, and what it holds between blanks is no such digits. -/
def NotHexadecimal (value : Bytes) (fault : Hex.Fault) : Prop :=
  ∃ text core, value = Text.utf8 text ∧ Text.Trims text core ∧ Hex.Refused (Text.utf8 core) fault

/-- The wording for an argument that is not hexadecimal. -/
def hexReason (argument : String) (fault : Hex.Fault) : String :=
  "invalid hex for " ++ argument ++ ": " ++ fault.message

theorem hexArgument_of_hexadecimal {value bytes : Bytes} (h : Hexadecimal value bytes) (name : Name)
    (argument : String) : hexArgument name argument value = .ok bytes := by
  obtain ⟨text, core, rfl, htrim, hdigits⟩ := h
  have hdecode : Hex.decode (Text.trim text) = .ok bytes :=
    Config.decode_trim_eq_ok_iff.2 ⟨core, htrim, hdigits⟩
  simp only [hexArgument, Text.ofUtf8?_utf8, hdecode]

theorem hexArgument_of_notHexadecimal {value : Bytes} {fault : Hex.Fault}
    (h : NotHexadecimal value fault) (name : Name) (argument : String) :
    hexArgument name argument value = .error (.failed name.text (hexReason argument fault)) := by
  obtain ⟨text, core, rfl, htrim, hfault⟩ := h
  have hdecode : Hex.decode (Text.trim text) = .error fault :=
    Config.decode_trim_eq_error_iff.2 ⟨core, htrim, hfault⟩
  simp only [hexArgument, Text.ofUtf8?_utf8, hdecode]
  rfl

theorem hexadecimal_or_not {value : Bytes} (h : ∃ text, value = Text.utf8 text) :
    (∃ bytes, Hexadecimal value bytes) ∨ ∃ fault, NotHexadecimal value fault := by
  obtain ⟨text, rfl⟩ := h
  cases hdecode : Hex.decode (Text.trim text) with
  | ok bytes =>
    obtain ⟨core, hcore⟩ := Config.decode_trim_eq_ok_iff.1 hdecode
    exact .inl ⟨bytes, text, core, rfl, hcore⟩
  | error fault =>
    obtain ⟨core, hcore⟩ := Config.decode_trim_eq_error_iff.1 hdecode
    exact .inr ⟨fault, text, core, rfl, hcore⟩

theorem Hexadecimal.unique {value bs cs : Bytes} (h : Hexadecimal value bs)
    (h' : Hexadecimal value cs) : bs = cs :=
  Except.ok.inj ((hexArgument_of_hexadecimal h .verify "").symm.trans
    (hexArgument_of_hexadecimal h' .verify ""))

theorem NotHexadecimal.not {value : Bytes} {fault : Hex.Fault} (h : NotHexadecimal value fault)
    (bs : Bytes) : ¬ Hexadecimal value bs := fun h' => by
  have hread := (hexArgument_of_notHexadecimal h .verify "").symm.trans
    (hexArgument_of_hexadecimal h' .verify "")
  cases hread

/-! ## Why commands fail -/

/-- Why a command fails. Among the arguments of one command, the first that is not hexadecimal gives
the reason. -/
inductive Fails (around : Surroundings) : Command → String → Prop
  | configuration {e : Error} : Config.ofEnvironment around.env = .error e →
      Fails around .pubkey e.message
  | sealingKey {key plaintext : Bytes} {fault : Hex.Fault} : NotHexadecimal key fault →
      Fails around (.encrypt key plaintext) (hexReason "POLL-PUBLIC-KEY" fault)
  | sealingKeyLength {key plaintext bytes : Bytes} : Hexadecimal key bytes → bytes.length ≠ 32 →
      Fails around (.encrypt key plaintext) Error.malformedPeerKey.message
  | agreement {key plaintext : Bytes} {receiver : PollPublicKey} {ephemeral : PollKey}
      {nonce : Octets 12} : Hexadecimal key receiver.toList →
      Vote.Hands around.random ephemeral nonce →
      Curve.agree ephemeral.bytes receiver = Octets.zero 32 →
      Fails around (.encrypt key plaintext) Error.keyAgreementFailure.message
  | publicKey {key message signature : Bytes} {fault : Hex.Fault} : NotHexadecimal key fault →
      Fails around (.verify key message signature) (hexReason "PUBLIC-KEY" fault)
  | message {key message signature keyBytes : Bytes} {fault : Hex.Fault} :
      Hexadecimal key keyBytes → NotHexadecimal message fault →
      Fails around (.verify key message signature) (hexReason "MESSAGE" fault)
  | signature {key message signature keyBytes messageBytes : Bytes} {fault : Hex.Fault} :
      Hexadecimal key keyBytes → Hexadecimal message messageBytes → NotHexadecimal signature fault →
      Fails around (.verify key message signature) (hexReason "SIGNATURE" fault)
  | verification {key message signature keyBytes messageBytes signatureBytes : Bytes} :
      Hexadecimal key keyBytes → Hexadecimal message messageBytes →
      Hexadecimal signature signatureBytes →
      SealedPoll.verify keyBytes messageBytes signatureBytes = false →
      Fails around (.verify key message signature) "signature verification failed"
  | pollConfiguration {text : String} {poll : Bytes} {votes : List Bytes} {e : Error} :
      around.env.mainKey? = some (Text.utf8 text) → Config.ofEnvironment around.env = .error e →
      Fails around (.endToEnd poll votes) e.message

variable {around : Surroundings} {command : Command} {reason : String}

theorem isUtf8_of_text {value : Bytes} (h : ∃ text, value = Text.utf8 text) :
    Text.isUtf8 value = true := by
  obtain ⟨text, rfl⟩ := h
  simp [Text.isUtf8]

theorem IsText.plaintext {key plaintext : Bytes} (h : (encrypt key plaintext).IsText) :
    Text.isUtf8 plaintext = true := isUtf8_of_text (h plaintext (by simp [values]))

theorem IsText.exists_poll {poll : Bytes} {votes : List Bytes} (h : (endToEnd poll votes).IsText) :
    ∃ (pollText : String) (texts : List String), poll = Text.utf8 pollText ∧
      votes = texts.map Text.utf8 := by
  obtain ⟨⟨pollText, hpoll⟩, hvotes⟩ := List.forall_mem_cons.1 h
  have hmem : votes ∈ Set.range (List.map Text.utf8) := by
    rw [Set.range_list_map]
    exact fun value hvalue => (hvotes value hvalue).imp fun _ => Eq.symm
  obtain ⟨texts, htexts⟩ := hmem
  exact ⟨pollText, texts, hpoll, htexts.symm⟩

/-- Whatever applies is reported, and nothing is printed. -/
theorem refuses_of_fails (htext : command.IsText) (h : Fails around command reason) :
    (run around command).Refuses command.name reason := by
  cases h with
  | configuration hrefused =>
    simp only [run, runPubkey, hrefused]
    exact Report.refuses_failed _ _
  | sealingKey hkey =>
    simp only [run, runEncrypt, hexArgument_of_notHexadecimal hkey]
    exact Report.refuses_failed _ _
  | sealingKeyLength hkey hlength =>
    simp only [run, runEncrypt, hexArgument_of_hexadecimal hkey, htext.plaintext, if_true,
      Vote.encrypt_of_rule (.malformed hlength)]
    exact Report.refuses_failed _ _
  | agreement hkey hhands hzero =>
    simp only [run, runEncrypt, hexArgument_of_hexadecimal hkey, htext.plaintext, if_true,
      Vote.encrypt_of_rule (.noAgreement hhands hzero)]
    exact Report.refuses_failed _ _
  | publicKey hkey =>
    simp only [run, runVerify, hexArgument_of_notHexadecimal hkey]
    exact Report.refuses_failed _ _
  | message hkey hmessage =>
    simp only [run, runVerify, hexArgument_of_hexadecimal hkey,
      hexArgument_of_notHexadecimal hmessage]
    exact Report.refuses_failed _ _
  | signature hkey hmessage hsignature =>
    simp only [run, runVerify, hexArgument_of_hexadecimal hkey, hexArgument_of_hexadecimal hmessage,
      hexArgument_of_notHexadecimal hsignature]
    exact Report.refuses_failed _ _
  | verification hkey hmessage hsignature hrejects =>
    simp only [run, runVerify, hexArgument_of_hexadecimal hkey, hexArgument_of_hexadecimal hmessage,
      hexArgument_of_hexadecimal hsignature, hrejects]
    exact Report.refuses_failed _ _
  | pollConfiguration hset hrefused =>
    obtain ⟨pollText, texts, rfl, rfl⟩ := htext.exists_poll
    have hmainKey : around.env.mainKeyText? = some _ := (Config.holds_bind _ _).2 hset
    simp only [run, runEndToEnd, Text.ofUtf8?_utf8, all_isUtf8, if_true, openService, hmainKey,
      hrefused]
    exact (prints_mainKeyLog _).followedBy_refuses (Report.refuses_failed _ _)

/-! ## All other commands succeed -/

theorem exists_octets (n : Nat) (bs : Bytes) (h : n ≤ bs.length) :
    ∃ first : Octets n, bs = first.toList ++ bs.drop n :=
  ⟨⟨bs.take n, by simp [h]⟩, (List.take_append_drop n bs).symm⟩

theorem exists_sealings (n : Nat) {script : Bytes} (h : 44 * n ≤ script.length) :
    ∃ (sealings : List Sealing) (rest : Bytes), sealings.length = n ∧
      script = sealings.flatMap Sealing.bytes ++ rest := by
  induction n generalizing script with
  | zero => exact ⟨[], script, rfl, rfl⟩
  | succ n ih =>
    obtain ⟨ephemeral, hephemeral⟩ := exists_octets 32 script (by omega)
    obtain ⟨nonce, hnonce⟩ := exists_octets 12 (script.drop 32) (by simp; omega)
    have hleft : 44 * n ≤ ((script.drop 32).drop 12).length := by
      simp
      omega
    obtain ⟨sealings, rest, hcount, hrest⟩ := ih hleft
    refine ⟨⟨⟨ephemeral⟩, nonce⟩ :: sealings, rest, by rw [List.length_cons, hcount], ?_⟩
    rw [List.flatMap_cons, List.append_assoc, ← hrest, Sealing.bytes, List.append_assoc, ← hnonce]
    exact hephemeral

/-- Bytes that are enough begin with what is drawn. -/
theorem exists_draws {n : Nat} {script : Bytes} (h : 32 + 44 * n ≤ script.length) :
    ∃ (draws : Draws) (rest : Bytes), draws.sealings.length = n ∧ script = draws.bytes ++ rest := by
  obtain ⟨secret, hsecret⟩ := exists_octets 32 script (by omega)
  have hleft : 44 * n ≤ (script.drop 32).length := by
    rw [List.length_drop]
    omega
  obtain ⟨sealings, rest, hcount, hrest⟩ := exists_sealings n hleft
  refine ⟨⟨⟨secret⟩, sealings⟩, rest, hcount, ?_⟩
  rw [Draws.bytes, List.append_assoc, ← hrest]
  exact hsecret

theorem Sealing.reaches (sealing : Sealing) (secret : PollKey) : sealing.Reaches secret :=
  ⟨secret.agrees sealing.ephemeral, sealing.ephemeral.contributes secret⟩

/-- What is assumed of a whole poll: strict verification accepts the two signatures that its main key
makes, and each vote has fewer bytes than the bound of an item. -/
structure HonestPoll (around : Surroundings) (votes : List Bytes) : Prop where
  accepts : ∀ (key : MainKey) (secret : PollKey) (rest : Bytes),
    RunsWith around key (secret.bytes.toList ++ rest) →
      key.StrictAccepts secret.publicKey.toList ∧ key.StrictAccepts (votes.flatMap Frame.item)
  short : ∀ vote ∈ votes, vote.length < Frame.itemBound

/-- Of the other commands nothing is assumed. -/
def Assumed (around : Surroundings) : Command → Prop
  | endToEnd _ votes => HonestPoll around votes
  | _ => True

/-- A whole poll with a main key takes its course. -/
theorem prints_of_runsWith {key : MainKey} {script : Bytes} {poll : String} {votes : List String}
    (hkey : RunsWith around key script) (henough : 32 + 44 * votes.length ≤ script.length)
    (hhonest : HonestPoll around (votes.map Text.utf8)) :
    ∃ lines, (run around (.endToEnd (Text.utf8 poll) (votes.map Text.utf8))).Prints lines := by
  obtain ⟨draws, rest, hcount, rfl⟩ := exists_draws henough
  have hdraws : draws.bytes ++ rest =
      draws.secret.bytes.toList ++ (draws.sealings.flatMap Sealing.bytes ++ rest) :=
    List.append_assoc _ _ _
  obtain ⟨hannounced, hframe⟩ := hhonest.accepts key draws.secret _ (hdraws ▸ hkey)
  have hshort : ∀ vote ∈ votes, (Text.utf8 vote).length < Frame.itemBound := by
    simpa using hhonest.short
  exact ⟨_, prints_endToEnd poll hkey hcount (fun sealing _ => sealing.reaches draws.secret) hshort
    hannounced hframe⟩

theorem prints_or_fails_endToEnd {poll : Bytes} {votes : List Bytes}
    (htext : (endToEnd poll votes).IsText) (henough : 64 + 44 * votes.length ≤ around.random.size)
    (hhonest : HonestPoll around votes) :
    (∃ lines, (run around (.endToEnd poll votes)).Prints lines) ∨
      ∃ reason, Fails around (.endToEnd poll votes) reason := by
  obtain ⟨pollText, texts, rfl, rfl⟩ := htext.exists_poll
  have hlength : 64 + 44 * texts.length ≤ around.random.bytes.length := by
    rwa [List.length_map] at henough
  by_cases hset : ∃ text, around.env.mainKey? = some (Text.utf8 text)
  · obtain ⟨text, hmainKey⟩ := hset
    cases hconfig : Config.ofEnvironment around.env with
    | ok config => exact .inl (prints_of_runsWith (.configured hconfig) (by omega) hhonest)
    | error e => exact .inr ⟨_, .pollConfiguration hmainKey hconfig⟩
  · obtain ⟨seed, hseed⟩ := exists_octets 32 around.random.bytes (by omega)
    refine .inl (prints_of_runsWith (.throwaway (not_exists.1 hset) hseed) ?_ hhonest)
    rw [List.length_drop]
    omega

theorem prints_encrypt {key plaintext bytes vote : Bytes} {rest : RandomSource}
    (htext : (encrypt key plaintext).IsText) (hkey : Hexadecimal key bytes)
    (hsealed : Vote.encrypt around.random bytes plaintext = (.ok vote, rest)) :
    (run around (.encrypt key plaintext)).Prints [Hex.encode vote] := by
  simp only [run, runEncrypt, hexArgument_of_hexadecimal hkey, htext.plaintext, if_true, hsealed]
  exact Report.prints_printed _

theorem prints_or_fails_encrypt {key plaintext : Bytes} (htext : (encrypt key plaintext).IsText)
    (henough : 44 ≤ around.random.size) :
    (∃ lines, (run around (.encrypt key plaintext)).Prints lines) ∨
      ∃ reason, Fails around (.encrypt key plaintext) reason := by
  rcases hexadecimal_or_not (htext key (by simp [values])) with ⟨bytes, hkey⟩ | ⟨fault, hkey⟩
  · by_cases hlength : bytes.length = 32
    · obtain ⟨receiver, rfl⟩ : ∃ receiver : PollPublicKey, bytes = receiver.toList :=
        ⟨⟨bytes, hlength⟩, rfl⟩
      obtain ⟨ephemeral, nonce, hhands⟩ := Vote.exists_hands henough
      by_cases hzero : Curve.agree ephemeral.bytes receiver = Octets.zero 32
      · exact .inr ⟨_, .agreement hkey hhands hzero⟩
      · exact .inl ⟨_, prints_encrypt htext hkey (Vote.encrypt_of_rule (.done hhands hzero))⟩
    · exact .inr ⟨_, .sealingKeyLength hkey hlength⟩
  · exact .inr ⟨_, .sealingKey hkey⟩

/-- The arguments of `verify` are hexadecimal and make a signature that verifies. -/
def Verifies (key message signature : Bytes) : Prop :=
  ∃ keyBytes messageBytes signatureBytes, Hexadecimal key keyBytes ∧
    Hexadecimal message messageBytes ∧ Hexadecimal signature signatureBytes ∧
      SealedPoll.verify keyBytes messageBytes signatureBytes = true

theorem prints_of_verifies {key message signature : Bytes} (h : Verifies key message signature) :
    (run around (.verify key message signature)).Prints ["> Signature verified OK"] := by
  obtain ⟨_, _, _, hkey, hmessage, hsignature, haccepts⟩ := h
  simp only [run, runVerify, hexArgument_of_hexadecimal hkey, hexArgument_of_hexadecimal hmessage,
    hexArgument_of_hexadecimal hsignature, haccepts, if_true]
  exact Report.prints_printed _

theorem verifies_or_fails {key message signature : Bytes}
    (htext : (verify key message signature).IsText) :
    Verifies key message signature ∨ ∃ reason, Fails around (.verify key message signature) reason := by
  simp only [IsText, values, List.forall_mem_cons] at htext
  obtain ⟨hkeyText, hmessageText, hsignatureText, -⟩ := htext
  rcases hexadecimal_or_not hkeyText with ⟨keyBytes, hkey⟩ | ⟨fault, hkey⟩
  · rcases hexadecimal_or_not hmessageText with ⟨messageBytes, hmessage⟩ | ⟨fault, hmessage⟩
    · rcases hexadecimal_or_not hsignatureText with ⟨signatureBytes, hsignature⟩ | ⟨fault, hsignature⟩
      · cases hverify : SealedPoll.verify keyBytes messageBytes signatureBytes with
        | true => exact .inl ⟨_, _, _, hkey, hmessage, hsignature, hverify⟩
        | false => exact .inr ⟨_, .verification hkey hmessage hsignature hverify⟩
      · exact .inr ⟨_, .signature hkey hmessage hsignature⟩
    · exact .inr ⟨_, .message hkey hmessage⟩
  · exact .inr ⟨_, .publicKey hkey⟩

/-- Where no rule applies the command succeeds. -/
theorem prints_or_fails (htext : command.IsText) (henough : randomNeed command ≤ around.random.size)
    (hassumed : Assumed around command) :
    (∃ lines, (run around command).Prints lines) ∨ ∃ reason, Fails around command reason := by
  cases command with
  | keygen =>
    obtain ⟨seed, hseed⟩ := exists_octets 32 around.random.bytes henough
    exact .inl ⟨_, prints_keygen hseed⟩
  | pubkey =>
    cases hconfig : Config.ofEnvironment around.env with
    | ok config => exact .inl ⟨_, prints_pubkey hconfig⟩
    | error e => exact .inr ⟨_, .configuration hconfig⟩
  | encrypt key plaintext => exact prints_or_fails_encrypt htext henough
  | verify publicKey message signature =>
    exact (verifies_or_fails htext).imp_left fun hverifies => ⟨_, prints_of_verifies hverifies⟩
  | endToEnd poll votes => exact prints_or_fails_endToEnd htext henough hassumed

/-! ## When the commands fail -/

theorem exitCode_eq_zero_iff (htext : command.IsText)
    (hsettled : (∃ lines, (run around command).Prints lines) ∨ ∃ reason, Fails around command reason) :
    (run around command).exitCode = 0 ↔ ¬ ∃ reason, Fails around command reason := by
  constructor
  · rintro hexit ⟨reason, hfails⟩
    rw [(refuses_of_fails htext hfails).exitCode] at hexit
    exact absurd hexit (by decide)
  · intro hnot
    obtain ⟨lines, hlines⟩ := hsettled.resolve_right hnot
    exact hlines.exitCode

theorem exitCode_eq_one_iff (htext : command.IsText)
    (hsettled : (∃ lines, (run around command).Prints lines) ∨ ∃ reason, Fails around command reason) :
    (run around command).exitCode = 1 ↔ ∃ reason, Fails around command reason := by
  refine ⟨fun hexit => ?_, fun ⟨reason, hfails⟩ => (refuses_of_fails htext hfails).exitCode⟩
  by_contra hnot
  rw [(exitCode_eq_zero_iff htext hsettled).2 hnot] at hexit
  exact absurd hexit (by decide)

theorem exists_fails_pubkey_iff :
    (∃ reason, Fails around .pubkey reason) ↔
      ∀ config, Config.ofEnvironment around.env ≠ .ok config := by
  constructor
  · rintro ⟨_, hfails⟩ config hconfig
    cases hfails with
    | configuration hrefused => cases hrefused.symm.trans hconfig
  · intro h
    cases hconfig : Config.ofEnvironment around.env with
    | ok config => exact absurd hconfig (h config)
    | error e => exact ⟨_, .configuration hconfig⟩

theorem exists_fails_endToEnd_iff {poll : Bytes} {votes : List Bytes} :
    (∃ reason, Fails around (.endToEnd poll votes) reason) ↔
      (∃ text, around.env.mainKey? = some (Text.utf8 text)) ∧
        ∀ config, Config.ofEnvironment around.env ≠ .ok config := by
  rw [← exists_fails_pubkey_iff]
  constructor
  · rintro ⟨_, hfails⟩
    cases hfails with
    | pollConfiguration hset hrefused => exact ⟨⟨_, hset⟩, _, .configuration hrefused⟩
  · rintro ⟨⟨text, hset⟩, _, hfails⟩
    cases hfails with
    | configuration hrefused => exact ⟨_, .pollConfiguration hset hrefused⟩

theorem exists_fails_encrypt_iff {key plaintext : Bytes} (htext : (encrypt key plaintext).IsText) :
    (∃ reason, Fails around (.encrypt key plaintext) reason) ↔
      (∀ bytes, ¬ Hexadecimal key bytes) ∨ ∃ bytes, Hexadecimal key bytes ∧ (bytes.length ≠ 32 ∨
        ∃ (receiver : PollPublicKey) (ephemeral : PollKey) (nonce : Octets 12),
          receiver.toList = bytes ∧ Vote.Hands around.random ephemeral nonce ∧
            Curve.agree ephemeral.bytes receiver = Octets.zero 32) := by
  constructor
  · rintro ⟨_, hfails⟩
    cases hfails with
    | sealingKey hkey => exact .inl hkey.not
    | sealingKeyLength hkey hlength => exact .inr ⟨_, hkey, .inl hlength⟩
    | agreement hkey hhands hzero => exact .inr ⟨_, hkey, .inr ⟨_, _, _, rfl, hhands, hzero⟩⟩
  · rintro (hnone | ⟨bytes, hkey, hlength | ⟨receiver, ephemeral, nonce, rfl, hhands, hzero⟩⟩)
    · rcases hexadecimal_or_not (htext key (by simp [values])) with ⟨bytes, hkey⟩ | ⟨fault, hkey⟩
      · exact absurd hkey (hnone bytes)
      · exact ⟨_, .sealingKey hkey⟩
    · exact ⟨_, .sealingKeyLength hkey hlength⟩
    · exact ⟨_, .agreement hkey hhands hzero⟩

theorem exists_fails_verify_iff {key message signature : Bytes}
    (htext : (verify key message signature).IsText) :
    (∃ reason, Fails around (.verify key message signature) reason) ↔
      ¬ Verifies key message signature := by
  refine ⟨?_, (verifies_or_fails htext).resolve_left⟩
  rintro ⟨_, hfails⟩ ⟨keyBytes, messageBytes, signatureBytes, hkey, hmessage, hsignature, haccepts⟩
  cases hfails with
  | publicKey hfault => exact hfault.not _ hkey
  | message _ hfault => exact hfault.not _ hmessage
  | signature _ _ hfault => exact hfault.not _ hsignature
  | verification hkey' hmessage' hsignature' hrejects =>
    obtain rfl := hkey.unique hkey'
    obtain rfl := hmessage.unique hmessage'
    obtain rfl := hsignature.unique hsignature'
    rw [haccepts] at hrejects
    cases hrejects

/-- **Commands fail cleanly.** Out of texts a command is handed texts. With these and enough random
bytes, it succeeds, or it fails for the one reason that applies: then nothing is printed, and the reason
is the last line on standard error.

* `verify` succeeds exactly with hexadecimal arguments that make a signature that verifies.
* `encrypt` fails exactly with a key that is not hexadecimal, not of 32 bytes, or does not agree with
  the private key that is drawn.
* `pubkey` fails exactly if the configuration is refused, and a whole poll exactly if it is refused
  and a main key is set.

Of a whole poll it is assumed that strict verification accepts the two signatures of its main key; the
bound that a frame sets on each vote is one that no argument reaches. -/
theorem commands_fail_cleanly (around : Surroundings) :
    (∀ (texts : List String) (verbosity : Nat) (command : Command),
      Invocation.ofArguments (texts.map Text.utf8) = .run verbosity command → command.IsText) ∧
    (∀ command : Command, command.IsText → randomNeed command ≤ around.random.size →
      Assumed around command →
        ((run around command).exitCode = 0 ∧ ∀ reason, ¬ Fails around command reason) ∨
        ∃ reason, Fails around command reason ∧ (∀ other, Fails around command other → other = reason) ∧
          (run around command).exitCode = 1 ∧ (run around command).output = [] ∧
          ∀ verbosity time, ((run around command).errorLines verbosity time).getLast? =
            some ("pollcrypt " ++ command.name.text ++ ": " ++ reason)) ∧
    (∀ key message signature : Bytes, (verify key message signature).IsText →
      ((run around (.verify key message signature)).exitCode = 0 ↔
        ∃ keyBytes messageBytes signatureBytes, Hexadecimal key keyBytes ∧
          Hexadecimal message messageBytes ∧ Hexadecimal signature signatureBytes ∧
            SealedPoll.verify keyBytes messageBytes signatureBytes = true)) ∧
    (∀ key plaintext : Bytes, (encrypt key plaintext).IsText → 44 ≤ around.random.size →
      ((run around (.encrypt key plaintext)).exitCode = 1 ↔
        (∀ bytes, ¬ Hexadecimal key bytes) ∨ ∃ bytes, Hexadecimal key bytes ∧ (bytes.length ≠ 32 ∨
          ∃ (receiver : PollPublicKey) (ephemeral : PollKey) (nonce : Octets 12),
            receiver.toList = bytes ∧ Vote.Hands around.random ephemeral nonce ∧
              Curve.agree ephemeral.bytes receiver = Octets.zero 32))) ∧
    ((run around .pubkey).exitCode = 1 ↔ ∀ config, Config.ofEnvironment around.env ≠ .ok config) ∧
    ∀ (poll : Bytes) (votes : List Bytes), (endToEnd poll votes).IsText →
      64 + 44 * votes.length ≤ around.random.size → HonestPoll around votes →
        ((run around (.endToEnd poll votes)).exitCode = 1 ↔
          (∃ text, around.env.mainKey? = some (Text.utf8 text)) ∧
            ∀ config, Config.ofEnvironment around.env ≠ .ok config) := by
  refine ⟨fun _ _ _ => Invocation.isText_of_ofArguments, fun command htext henough hassumed => ?_,
    fun key message signature htext => ?_, fun key plaintext htext henough => ?_, ?_,
    fun poll votes htext henough hhonest => ?_⟩
  · rcases prints_or_fails htext henough hassumed with ⟨lines, hlines⟩ | ⟨reason, hfails⟩
    · exact .inl ⟨hlines.exitCode, fun reason hfails =>
        hlines.not_refuses (refuses_of_fails htext hfails)⟩
    · have hrefuses := refuses_of_fails htext hfails
      exact .inr ⟨reason, hfails, fun other hother => (refuses_of_fails htext hother).unique hrefuses,
        hrefuses.exitCode, hrefuses.output, hrefuses.getLast?_errorLines⟩
  · rw [exitCode_eq_zero_iff htext (prints_or_fails htext (Nat.zero_le _) trivial),
      exists_fails_verify_iff htext, not_not]
    exact Iff.rfl
  · rw [exitCode_eq_one_iff htext (prints_or_fails htext henough trivial),
      exists_fails_encrypt_iff htext]
  · have htext : pubkey.IsText := List.forall_mem_nil _
    rw [exitCode_eq_one_iff htext (prints_or_fails htext (Nat.zero_le _) trivial),
      exists_fails_pubkey_iff]
  · rw [exitCode_eq_one_iff htext (prints_or_fails htext henough hhonest),
      exists_fails_endToEnd_iff]

/-- A poll with one vote, its main key being thrown away. -/
theorem throwaway_poll_succeeds :
    let around : Surroundings :=
      ⟨⟨none, none, none⟩, 4, ⟨List.replicate 32 0 ++ (List.replicate 32 1 ++ List.replicate 44 2)⟩⟩
    let command : Command := .endToEnd (Text.utf8 "tea?") [Text.utf8 "yes"]
    Assumed around command ∧ (run around command).exitCode = 0 := by
  intro around command
  have hassumed : Assumed around command := by
    refine ⟨fun key secret rest hruns => ?_, by decide +kernel⟩
    generalize hscript : secret.bytes.toList ++ rest = script at hruns
    cases hruns with
    | configured hconfig => cases hconfig
    | @throwaway seed _ _ hrandom =>
      obtain ⟨hseed, hleft⟩ := List.append_inj hrandom (by simp)
      obtain ⟨hsecret, -⟩ := List.append_inj (hleft.trans hscript.symm) (by simp)
      obtain rfl : seed = ⟨List.replicate 32 0, rfl⟩ := Octets.ext hseed.symm
      obtain rfl : secret = ⟨⟨List.replicate 32 1, rfl⟩⟩ := by
        cases secret
        exact congrArg PollKey.mk (Octets.ext hsecret.symm)
      exact ⟨by decide +kernel, by decide +kernel⟩
  have htext : command.IsText := by
    simp only [IsText, command, values, List.forall_mem_cons]
    exact ⟨⟨_, rfl⟩, ⟨_, rfl⟩, List.forall_mem_nil _⟩
  refine ⟨hassumed, ?_⟩
  rcases (commands_fail_cleanly around).2.1 command htext (by decide) hassumed with
    ⟨hexit, -⟩ | ⟨reason, hfails, -⟩
  · exact hexit
  · obtain ⟨⟨text, hset⟩, -⟩ := exists_fails_endToEnd_iff.1 ⟨reason, hfails⟩
    cases hset

end SealedPoll.Command
