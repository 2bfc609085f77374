import SealedPoll.Proofs.Batch
import SealedPoll.Proofs.Frame
import SealedPoll.Service

/-!
# The operations of the poll service

What each operation does to any service, one statement for each way it can end:

* `start_of_active`, `start_of_exhausted`, `start_of_draw` : a poll is started with the key drawn, or
  nothing happens;
* `stop_of_inactive`, `stop_of_held` : an active poll is gone after `stop`, and the answer is the
  `tally` of its votes under its key;
* `tally_of_opens`, `tally_of_firstRefused`, `tally_of_tooLarge` : what a tally comes to;
* `tally_eq_ok_iff`, `stop_eq_ok_iff` : when the answer is an artifact, and which;
* `stop_atomic` : a poll is stopped as a whole.
-/

namespace SealedPoll

namespace Service

variable {s : Service} {id : String} {secret : PollKey}

theorem isActive_eq_false_iff : s.isActive id = false ↔ s.polls.get? id = none := by
  simp [isActive, Registry.contains]

theorem isActive_iff : s.isActive id = true ↔ ∃ secret, s.polls.get? id = some secret := by
  rw [isActive, Registry.contains, Option.isSome_iff_exists]

theorem isActive_of_held (h : s.polls.get? id = some secret) : s.isActive id = true :=
  isActive_iff.2 ⟨secret, h⟩

/-! ## Starting -/

theorem start_of_active (h : s.isActive id = true) :
    s.start id = ⟨.error (.pollAlreadyActive id), [], s⟩ := by
  rw [isActive] at h
  simp only [start, Registry.create, h, if_true]
  rfl

theorem start_of_exhausted (h : s.isActive id = false) (hrandom : s.random.size < 32) :
    s.start id = ⟨.error RandomSource.exhausted, [], s⟩ := by
  rw [isActive] at h
  simp only [start, Registry.create, h, PollKey.draw_of_lt hrandom]
  rfl

theorem start_of_draw (h : s.isActive id = false) {rest : RandomSource}
    (hdraw : PollKey.draw s.random = (.ok secret, rest)) :
    s.start id = ⟨.ok (s.signedKey secret), [.started id],
      { s with polls := s.polls.insertNew id secret, random := rest }⟩ := by
  rw [isActive] at h
  simp only [start, Registry.create, h, hdraw]
  rfl

/-! ## Stopping -/

/-- What stopping a poll answers: the signed frame of its votes, or the first that is refused. -/
def tally (mainKey : MainKey) (secret : PollKey) (votes : List Bytes) : Except Error Artifact :=
  match Batch.openFrom secret 0 votes with
  | .error bad => .error bad.toError
  | .ok texts => (Frame.encode texts).map (.sign mainKey)

theorem stop_of_inactive (h : s.isActive id = false) (votes : List Bytes) :
    s.stop id votes = ⟨.error (.pollNotFound id), [], s⟩ := by
  rw [isActive_eq_false_iff] at h
  simp only [stop, Registry.take, h]

/-- What stopping a poll logs. Texts that do not fit a frame leave no trace. -/
def tallyLog (id : String) (secret : PollKey) (votes : List Bytes) : List LogEvent :=
  match Batch.openFrom secret 0 votes with
  | .error bad => [.undecryptable id bad.index, .cause id bad.cause]
  | .ok texts =>
    match Frame.encode texts with
    | .error _ => []
    | .ok _ => [.stopped id texts.length]

theorem stop_of_held (h : s.polls.get? id = some secret) (votes : List Bytes) :
    s.stop id votes = ⟨tally s.mainKey secret votes, tallyLog id secret votes,
      { s with polls := s.polls.erase id }⟩ := by
  simp only [stop, Registry.take, h, Batch.openAll_eq_openFrom, tally, tallyLog]
  cases Batch.openFrom secret 0 votes with
  | error bad => rfl
  | ok texts =>
    simp only
    cases Frame.encode texts <;> rfl

theorem tally_of_opens {votes texts : List Bytes} (h : Batch.Opens secret votes texts)
    (hshort : ∀ text ∈ texts, text.length < Frame.itemBound) (mainKey : MainKey) :
    tally mainKey secret votes = .ok (.sign mainKey (texts.flatMap Frame.item)) := by
  rw [tally, Batch.openFrom_of_opens h]
  simp only [Frame.encode, Frame.encodeFrom_of_lt hshort]
  rfl

theorem tally_of_firstRefused {votes : List Bytes} {bad : Batch.BadVote}
    (h : Batch.FirstRefused secret votes bad) (mainKey : MainKey) :
    tally mainKey secret votes = .error (.voteDecryptionFailed bad.index bad.cause) := by
  rw [tally, Batch.openFrom_of_firstRefused h, Nat.zero_add]
  rfl

theorem tally_of_tooLarge {votes front back : List Bytes} {text : Bytes}
    (h : Batch.Opens secret votes (front ++ text :: back))
    (hfront : ∀ x ∈ front, x.length < Frame.itemBound) (htext : Frame.itemBound ≤ text.length)
    (mainKey : MainKey) :
    tally mainKey secret votes = .error (.plaintextTooLarge front.length) := by
  rw [tally, Batch.openFrom_of_opens h]
  simp only [Frame.encode, Frame.encodeFrom_of_le hfront htext, Nat.zero_add]
  rfl

/-- The frame of all texts, signed, is the one answer that is not a refusal. -/
theorem tally_eq_ok_iff {votes : List Bytes} {mainKey : MainKey} {artifact : Artifact} :
    tally mainKey secret votes = .ok artifact ↔
      artifact.signature = mainKey.sign artifact.payload ∧
        ∃ texts, Batch.Opens secret votes texts ∧ Frame.encode texts = .ok artifact.payload := by
  constructor
  · intro h
    rcases Batch.opens_or_firstRefused secret votes with ⟨texts, hopens⟩ | ⟨bad, hbad⟩
    · rw [tally, Batch.openFrom_of_opens hopens] at h
      cases hframe : Frame.encode texts with
      | error e => simp [hframe, Except.map] at h
      | ok frame =>
        obtain rfl : Artifact.sign mainKey frame = artifact := by simpa [hframe, Except.map] using h
        exact ⟨rfl, texts, hopens, hframe⟩
    · rw [tally_of_firstRefused hbad] at h
      cases h
  · rintro ⟨hsigned, texts, hopens, hframe⟩
    simp only [tally, Batch.openFrom_of_opens hopens, hframe, Except.map, Artifact.sign, ← hsigned]

theorem stop_eq_ok_iff {votes : List Bytes} {artifact : Artifact} :
    (s.stop id votes).answer = .ok artifact ↔
      artifact.signature = s.mainKey.sign artifact.payload ∧
        ∃ secret texts, s.polls.get? id = some secret ∧ Batch.Opens secret votes texts ∧
          Frame.encode texts = .ok artifact.payload := by
  cases hheld : s.polls.get? id with
  | none => simp [stop_of_inactive (isActive_eq_false_iff.2 hheld)]
  | some secret => simp [stop_of_held hheld, tally_eq_ok_iff]

theorem length_frame_of_opens {votes texts : List Bytes} (h : Batch.Opens secret votes texts) :
    (texts.flatMap Frame.item).length = (votes.map fun vote => vote.length - 56).sum := by
  rw [Frame.length_flatMap_item]
  induction votes generalizing texts with
  | nil =>
    obtain rfl : texts = [] := by simpa [Batch.Opens, Batch.outcomes] using h
    rfl
  | cons vote votes ih =>
    cases texts with
    | nil => simp [Batch.Opens, Batch.outcomes] at h
    | cons text texts =>
      simp only [Batch.Opens, Batch.outcomes, List.map_cons, List.cons.injEq] at h
      have hlen : vote.length = text.length + Vote.overhead := Vote.length_of_decrypt h.1
      have hrest := ih h.2
      simp only [Vote.overhead] at hlen
      simp only [List.map_cons, List.sum_cons, hrest]
      omega

/-- **A poll is stopped as a whole.** A poll that is not active is not found, whatever the votes. An
active one is gone afterwards, and only it. It is answered by the signed frame of all texts, or by
the first vote that is refused and the reason; a text that is too long for a frame is the one other
way to fail. -/
theorem stop_atomic (s : Service) (id : String) (votes : List Bytes) :
    (s.isActive id = false → s.stop id votes = ⟨.error (.pollNotFound id), [], s⟩) ∧
    ∀ secret, s.polls.get? id = some secret →
      (s.stop id votes).after = { s with polls := (s.stop id votes).after.polls } ∧
      (∀ other, (s.stop id votes).after.polls.get? other =
        if other = id then none else s.polls.get? other) ∧
      ((∃ texts, Batch.Opens secret votes texts) ∨ ∃ bad, Batch.FirstRefused secret votes bad) ∧
      (∀ texts, Batch.Opens secret votes texts → (∀ text ∈ texts, text.length < Frame.itemBound) →
        ∃ frame, Frame.encode texts = .ok frame ∧
          frame.length = (votes.map fun vote => vote.length - 56).sum ∧
          (s.stop id votes).answer = .ok (.sign s.mainKey frame)) ∧
      (∀ bad, Batch.FirstRefused secret votes bad →
        (s.stop id votes).answer = .error (.voteDecryptionFailed bad.index bad.cause) ∧
          ∃ vote, votes[bad.index]? = some vote ∧
            (bad.cause = .ciphertextTooShort vote.length ∨ bad.cause = .keyAgreementFailure ∨
              bad.cause = .authenticationFailed)) ∧
      ∀ front text back, Batch.Opens secret votes (front ++ text :: back) →
        (∀ x ∈ front, x.length < Frame.itemBound) → Frame.itemBound ≤ text.length →
        (s.stop id votes).answer = .error (.plaintextTooLarge front.length) := by
  refine ⟨fun h => stop_of_inactive h votes, fun secret hheld => ?_⟩
  rw [stop_of_held hheld]
  refine ⟨rfl, Registry.get?_erase s.polls id, Batch.opens_or_firstRefused secret votes, ?_, ?_, ?_⟩
  · intro texts hopens hshort
    refine ⟨texts.flatMap Frame.item, Frame.encodeFrom_of_lt hshort 0, length_frame_of_opens hopens, ?_⟩
    exact tally_of_opens hopens hshort s.mainKey
  · intro bad hbad
    refine ⟨tally_of_firstRefused hbad s.mainKey, ?_⟩
    obtain ⟨vote, hvote, hcause⟩ := Batch.exists_refused hbad
    exact ⟨vote, hvote, Vote.decrypt_eq_error hcause⟩
  · intro front text back hopens hfront htext
    exact tally_of_tooLarge hopens hfront htext s.mainKey

end Service

end SealedPoll
