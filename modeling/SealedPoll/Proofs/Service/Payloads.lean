import SealedPoll.Proofs.Frame.Grammar
import SealedPoll.Proofs.Service.History

/-!
# Where a signed payload comes from

A start signs the public key of a poll and a stop the frame of its texts, with the same main key and
nothing beside the payload to tell them apart. A public key has 32 bytes, and so have some frames.

* `Announced`, `Reported` : what the artifact of a start and of a stop consists of;
* `announced_or_reported` : every artifact is one of the two; `Emits` : the artifacts of a run;
* `KeySized` : the texts that make a frame of 32 bytes (`keySized_iff`), at most eight, and how such a
  frame begins (`KeySized.length_le`, `KeySized.begins`);
* `key_sized_payloads` : which artifacts of a run have a payload of 32 bytes.
-/

namespace SealedPoll.Service

/-- The artifact of a start: the public half of a secret that is drawn and kept. -/
structure Announced (s : Service) (id : String) (artifact : Artifact) (secret : PollKey) : Prop where
  drawn : secret.bytes.toList = s.random.bytes.take 32
  kept : (s.start id).after.polls.get? id = some secret
  payload : artifact.payload = secret.publicKey.toList

/-- The artifact of a stop: the frame of the texts that the votes open to. -/
structure Reported (s : Service) (id : String) (votes : List Bytes) (artifact : Artifact)
    (texts : List Bytes) : Prop where
  opened : ∃ secret, s.polls.get? id = some secret ∧ Batch.Opens secret votes texts
  payload : Frame.encode texts = .ok artifact.payload

/-- A run answers with the artifact, at the step that comes after these. -/
structure Emits (s : Service) (steps earlier : List Step) (step : Step) (artifact : Artifact) :
    Prop where
  position : ∃ later, steps = earlier ++ step :: later
  answer : (step.run (s.afterAll earlier)).answer = .artifact (.ok artifact)

/-- The texts make a frame that is as long as a public key. -/
def KeySized (texts : List Bytes) : Prop := (texts.map fun text => text.length + 4).sum = 32

instance (texts : List Bytes) : Decidable (KeySized texts) := inferInstanceAs (Decidable (_ = _))

variable {s : Service} {id : String} {votes texts : List Bytes} {artifact : Artifact}

/-! ## One step -/

theorem exists_announced (h : (s.start id).answer = .ok artifact) :
    ∃ secret, Announced s id artifact secret := by
  have hstarts : s.Starts id := ⟨artifact, h⟩
  obtain ⟨secret, hdrawn, hstart⟩ := exists_start hstarts
  have hkey : s.signedKey secret = artifact := by simpa [hstart] using h
  refine ⟨secret, hdrawn, ?_, ?_⟩
  · rw [hstart]
    exact Registry.get?_insertNew_self (starts_iff.1 hstarts).1 secret
  · rw [← hkey]
    rfl

theorem Announced.length_payload {secret : PollKey} (h : Announced s id artifact secret) :
    artifact.payload.length = 32 := by
  rw [h.payload, Octets.length_toList]

theorem exists_reported (h : (s.stop id votes).answer = .ok artifact) :
    ∃ texts, Reported s id votes artifact texts := by
  obtain ⟨-, secret, texts, hheld, hopens, hframe⟩ := stop_eq_ok_iff.1 h
  exact ⟨texts, ⟨secret, hheld, hopens⟩, hframe⟩

/-- A step that answers with an artifact announces a key or reports texts. -/
theorem announced_or_reported {step : Step}
    (h : (step.run s).answer = .artifact (.ok artifact)) :
    (∃ id secret, step = .start id ∧ Announced s id artifact secret) ∨
      ∃ id votes texts, step = .stop id votes ∧ Reported s id votes artifact texts := by
  cases step with
  | start id =>
    obtain ⟨secret, hsecret⟩ := exists_announced (Reply.artifact.inj h)
    exact Or.inl ⟨id, secret, rfl, hsecret⟩
  | stop id votes =>
    obtain ⟨texts, htexts⟩ := exists_reported (Reply.artifact.inj h)
    exact Or.inr ⟨id, votes, texts, rfl, htexts⟩
  | clear id => cases h
  | isActive id => cases h
  | publicKey => cases h
  | sign data => cases h

theorem Reported.length_votes (h : Reported s id votes artifact texts) :
    votes.length = texts.length := by
  obtain ⟨secret, -, hopens⟩ := h.opened
  exact hopens.length_eq

/-! ## Frames as long as a key -/

theorem keySized_iff {frame : Bytes} (h : Frame.encode texts = .ok frame) :
    KeySized texts ↔ frame.length = 32 := by
  obtain ⟨-, rfl⟩ := Frame.encode_eq_ok_iff.1 h
  rw [KeySized, Frame.length_flatMap_item]

theorem KeySized.length_add_le (h : KeySized texts) : ∀ text ∈ texts, text.length + 4 ≤ 32 := by
  intro text htext
  rw [← h]
  exact List.single_le_sum (by simp) _ (List.mem_map_of_mem htext)

theorem KeySized.encode (h : KeySized texts) :
    Frame.encode texts = .ok (texts.flatMap Frame.item) := by
  refine Frame.encode_eq_ok_iff.2 ⟨fun text htext => ?_, rfl⟩
  have hlen := h.length_add_le text htext
  simp only [Frame.itemBound]
  omega

theorem KeySized.ne_nil (h : KeySized texts) : texts ≠ [] := by
  rintro rfl
  simp [KeySized] at h

theorem KeySized.length_le (h : KeySized texts) : texts.length ≤ 8 := by
  have hsum : (texts.map fun text => text.length + 4).sum =
      (texts.map List.length).sum + texts.length * 4 := by
    simp [List.sum_map_add]
  rw [KeySized, hsum] at h
  omega

/-- Such a frame begins with the length of a first text of at most 28 bytes. -/
theorem KeySized.begins (h : KeySized texts) {frame : Bytes} (hframe : Frame.encode texts = .ok frame) :
    ∃ n ≤ 28, frame.take 4 = [0, 0, 0, UInt8.ofNat n] := by
  obtain ⟨first, rest, rfl⟩ := List.exists_cons_of_ne_nil h.ne_nil
  have hfirst := h.length_add_le first (by simp)
  obtain ⟨-, rfl⟩ := Frame.encode_eq_ok_iff.1 hframe
  refine ⟨first.length, by omega, ?_⟩
  have hhead : (Frame.item first ++ rest.flatMap Frame.item).take 4 = Bytes.ofNatBE 4 first.length := by
    simp [Frame.item]
  rw [List.flatMap_cons, hhead]
  have hdigits : ∀ n ≤ 28, Bytes.ofNatBE 4 n = [0, 0, 0, UInt8.ofNat n] := by decide
  exact hdigits _ (by omega)

/-! ## A vote without a text -/

/-- A private key of a poll. -/
def onesKey : PollKey := ⟨⟨List.replicate 32 1, rfl⟩⟩

/-- The empty text, sealed for the holder of `onesKey`. -/
def emptyVote : Bytes :=
  [93, 254, 221, 59, 107, 212, 127, 111, 162, 142, 225, 93, 150, 157, 91, 176, 234, 83, 119, 77, 72,
    139, 218, 249, 223, 28, 110, 1, 36, 179, 239, 34, 3, 3, 3, 3, 3, 3, 3, 3, 3, 3, 3, 3, 48, 46, 100,
    109, 126, 102, 242, 127, 26, 40, 117, 116, 243, 240, 83, 112]

/-- A service whose first poll is given `onesKey`. -/
def onesService : Service :=
  new (.ofOctets (Octets.zero 32)) ⟨0, 64⟩ 8 ⟨onesKey.bytes.toList⟩

theorem opens_emptyVote (n : Nat) :
    Batch.Opens onesKey (List.replicate n emptyVote) (List.replicate n []) := by
  have hvote : Vote.decrypt onesKey.bytes.toList emptyVote = .ok [] := by decide +kernel
  simp [Batch.Opens, Batch.outcomes, hvote]

theorem held_onesKey : (onesService.afterAll [.start "mayor"]).polls.get? "mayor" = some onesKey := by
  decide +kernel

/-! ## Runs -/

/-- **Where a payload of 32 bytes comes from.** An artifact of a run whose payload is as long as a
public key is that of a start, with the public half of the secret that the start drew and keeps, or
that of a stop with one to eight votes whose texts make a frame of this length. Such a frame begins
with three zero bytes and a byte of at most 28; an artifact that does not read as a frame is that of
a start. A stop has a payload of 32 bytes signed if and only if its votes open to such texts. -/
theorem key_sized_payloads (mainKey : MainKey) (options : Batch.Options) (cores : Nat)
    (random : RandomSource) (steps : List Step) :
    let fresh := new mainKey options cores random
    (∀ earlier step artifact, Emits fresh steps earlier step artifact →
      artifact.payload.length = 32 →
      (∃ id secret, step = .start id ∧ Announced (fresh.afterAll earlier) id artifact secret) ∨
      ∃ id votes texts, step = .stop id votes ∧
        Reported (fresh.afterAll earlier) id votes artifact texts ∧ KeySized texts ∧
        1 ≤ votes.length ∧ votes.length ≤ 8 ∧
        ∃ n ≤ 28, artifact.payload.take 4 = [0, 0, 0, UInt8.ofNat n]) ∧
    (∀ earlier step artifact, Emits fresh steps earlier step artifact →
      (∀ texts, artifact.plaintexts ≠ .ok texts) →
      ∃ id secret, step = .start id ∧ Announced (fresh.afterAll earlier) id artifact secret) ∧
    ∀ id votes,
      (∃ artifact, ((fresh.afterAll steps).stop id votes).answer = .ok artifact ∧
        artifact.payload.length = 32) ↔
      ∃ secret texts, (fresh.afterAll steps).polls.get? id = some secret ∧
        Batch.Opens secret votes texts ∧ KeySized texts := by
  intro fresh
  refine ⟨fun earlier step artifact hemits hlength => ?_, fun earlier step artifact hemits hnone => ?_,
    fun id votes => ⟨?_, ?_⟩⟩
  · rcases announced_or_reported hemits.answer with hkey | ⟨id, votes, texts, rfl, htexts⟩
    · exact Or.inl hkey
    · have hsized : KeySized texts := (keySized_iff htexts.payload).2 hlength
      have hvotes := htexts.length_votes
      have hpos := List.length_pos_iff.2 hsized.ne_nil
      have hle := hsized.length_le
      exact Or.inr ⟨id, votes, texts, rfl, htexts, hsized, by omega, by omega,
        hsized.begins htexts.payload⟩
  · rcases announced_or_reported hemits.answer with hkey | ⟨id, votes, texts, rfl, htexts⟩
    · exact hkey
    · exact absurd (Frame.decode_eq_ok_iff_encode.2 htexts.payload) (hnone texts)
  · rintro ⟨artifact, hanswer, hlength⟩
    obtain ⟨-, secret, texts, hheld, hopens, hframe⟩ := stop_eq_ok_iff.1 hanswer
    exact ⟨secret, texts, hheld, hopens, (keySized_iff hframe).2 hlength⟩
  · rintro ⟨secret, texts, hheld, hopens, hsized⟩
    have hframe := hsized.encode
    refine ⟨.sign (fresh.afterAll steps).mainKey (texts.flatMap Frame.item), ?_, ?_⟩
    · exact stop_eq_ok_iff.2 ⟨rfl, secret, texts, hheld, hopens, hframe⟩
    · exact (keySized_iff hframe).1 hsized

/-- A poll that is announced, and stopped with eight votes without a text. -/
theorem eight_empty_votes_reported :
    let votes := List.replicate 8 emptyVote
    let steps : List Step := [.start "mayor", .stop "mayor" votes]
    ∃ key secret result texts, Emits onesService steps [] (.start "mayor") key ∧
      key.payload.length = 32 ∧ Announced onesService "mayor" key secret ∧
      Emits onesService steps [.start "mayor"] (.stop "mayor" votes) result ∧
      result.payload.length = 32 ∧
      Reported (onesService.afterAll [.start "mayor"]) "mayor" votes result texts ∧
      KeySized texts := by
  intro votes steps
  obtain ⟨horigin, -, -⟩ := key_sized_payloads (.ofOctets (Octets.zero 32)) ⟨0, 64⟩ 8
    ⟨onesKey.bytes.toList⟩ steps
  obtain ⟨-, -, hstop⟩ := key_sized_payloads (.ofOctets (Octets.zero 32)) ⟨0, 64⟩ 8
    ⟨onesKey.bytes.toList⟩ [.start "mayor"]
  obtain ⟨key, hstart⟩ : onesService.Starts "mayor" := starts_iff.2 (by decide +kernel)
  obtain ⟨_, hannounced⟩ := exists_announced hstart
  obtain ⟨result, hanswer, hlength⟩ :=
    (hstop "mayor" votes).2 ⟨onesKey, _, held_onesKey, opens_emptyVote 8, by decide⟩
  have hkey : Emits onesService steps [] (.start "mayor") key :=
    ⟨⟨_, rfl⟩, congrArg Reply.artifact hstart⟩
  have hresult : Emits onesService steps [.start "mayor"] (.stop "mayor" votes) result :=
    ⟨⟨[], rfl⟩, congrArg Reply.artifact hanswer⟩
  obtain ⟨_, secret, hid, hsecret⟩ | ⟨_, _, _, hid, -⟩ :=
    horigin _ _ _ hkey hannounced.length_payload
  · obtain ⟨_, _, hid', -⟩ | ⟨_, _, texts, hid', htexts, hsized, -⟩ := horigin _ _ _ hresult hlength
    · cases hid'
    · cases hid
      cases hid'
      exact ⟨key, secret, result, texts, hkey, hannounced.length_payload, hsecret, hresult, hlength,
        htexts, hsized⟩
  · cases hid

/-- The frame of eight empty texts is signed, 32 zero bytes, that no start announced. -/
theorem zero_payload_not_announced :
    let steps : List Step := [.start "mayor", .stop "mayor" (List.replicate 8 emptyVote)]
    ¬ ∀ earlier step artifact, Emits onesService steps earlier step artifact →
      artifact.payload.length = 32 →
      ∃ id secret, step = .start id ∧
        Announced (onesService.afterAll earlier) id artifact secret := by
  intro steps hclaim
  have hframe : Frame.encode (List.replicate 8 []) = .ok (List.replicate 32 0) := by decide
  let result : Artifact := .sign (onesService.afterAll [.start "mayor"]).mainKey (List.replicate 32 0)
  have hanswer : ((onesService.afterAll [.start "mayor"]).stop "mayor"
      (List.replicate 8 emptyVote)).answer = .ok result :=
    stop_eq_ok_iff.2 ⟨rfl, onesKey, _, held_onesKey, opens_emptyVote 8, hframe⟩
  have hlength : result.payload.length = 32 := List.length_replicate
  obtain ⟨_, _, hstep, -⟩ := hclaim [.start "mayor"] (.stop "mayor" (List.replicate 8 emptyVote))
    result ⟨⟨[], rfl⟩, congrArg Reply.artifact hanswer⟩ hlength
  cases hstep

end SealedPoll.Service
