import SealedPoll.Batch
import SealedPoll.Proofs.Vote

/-!
# Batches of votes

* `outcomes` : what each vote of a batch comes to on its own; `Opens` and `FirstRefused` say that all
  of them open, or which is the first that does not, and one of the two holds
  (`opens_or_firstRefused`);
* `openFrom_of_opens`, `openFrom_of_firstRefused` : the answer for the whole batch;
* `openAll_eq_openFrom` : chunks opened at the same time answer as the votes one after the other.
-/

namespace SealedPoll.Batch

/-! ## One vote after the other -/

/-- What each vote of a batch comes to on its own. -/
def outcomes (secret : PollKey) (votes : List Bytes) : List (Except Error Bytes) :=
  votes.map (Vote.decrypt secret.bytes.toList)

/-- All votes open, to these texts. -/
def Opens (secret : PollKey) (votes texts : List Bytes) : Prop :=
  outcomes secret votes = texts.map .ok

/-- This vote is refused, and all before it open. -/
def FirstRefused (secret : PollKey) (votes : List Bytes) (bad : BadVote) : Prop :=
  (outcomes secret votes)[bad.index]? = some (.error bad.cause) ∧
    ∀ i < bad.index, ∃ text, (outcomes secret votes)[i]? = some (.ok text)

theorem Opens.length_eq {secret : PollKey} {votes texts : List Bytes}
    (h : Opens secret votes texts) : votes.length = texts.length := by
  simpa [outcomes] using congrArg List.length h

theorem exists_refused {secret : PollKey} {votes : List Bytes} {bad : BadVote}
    (h : FirstRefused secret votes bad) :
    ∃ vote, votes[bad.index]? = some vote ∧
      Vote.decrypt secret.bytes.toList vote = .error bad.cause := by
  obtain ⟨hbad, -⟩ := h
  rw [outcomes, List.getElem?_map, Option.map_eq_some_iff] at hbad
  exact hbad

theorem openFrom_of_error {secret : PollKey} {vote : Bytes} {cause : Error}
    (h : Vote.decrypt secret.bytes.toList vote = .error cause) (index : Nat) (votes : List Bytes) :
    openFrom secret index (vote :: votes) = .error ⟨index, cause⟩ := by
  rw [openFrom, h]

theorem openFrom_of_ok {secret : PollKey} {vote text : Bytes}
    (h : Vote.decrypt secret.bytes.toList vote = .ok text) (index : Nat) (votes : List Bytes) :
    openFrom secret index (vote :: votes) =
      (openFrom secret (index + 1) votes).map (text :: ·) := by
  rw [openFrom, h]

theorem openFrom_of_opens {secret : PollKey} {votes texts : List Bytes}
    (h : Opens secret votes texts) (index : Nat) : openFrom secret index votes = .ok texts := by
  induction votes generalizing index texts with
  | nil =>
    obtain rfl : texts = [] := by simpa [Opens, outcomes] using h
    rfl
  | cons vote votes ih =>
    cases texts with
    | nil => simp [Opens, outcomes] at h
    | cons text texts =>
      simp only [Opens, outcomes, List.map_cons, List.cons.injEq] at h
      rw [openFrom_of_ok h.1, ih h.2]
      rfl

theorem openFrom_of_firstRefused {secret : PollKey} {votes : List Bytes} {bad : BadVote}
    (h : FirstRefused secret votes bad) (index : Nat) :
    openFrom secret index votes = .error ⟨index + bad.index, bad.cause⟩ := by
  obtain ⟨i, cause⟩ := bad
  induction votes generalizing index i with
  | nil => simp [FirstRefused, outcomes] at h
  | cons vote votes ih =>
    obtain ⟨hbad, hfront⟩ := h
    cases i with
    | zero => exact openFrom_of_error (by simpa [outcomes] using hbad) index votes
    | succ i =>
      obtain ⟨text, htext⟩ := hfront 0 (Nat.succ_pos i)
      have hrest : FirstRefused secret votes ⟨i, cause⟩ := by
        refine ⟨by simpa [outcomes] using hbad, fun j hj => ?_⟩
        obtain ⟨text, htext⟩ := hfront (j + 1) (Nat.succ_lt_succ hj)
        exact ⟨text, by simpa [outcomes] using htext⟩
      rw [openFrom_of_ok (by simpa [outcomes] using htext), ih (index + 1) i hrest,
        show index + 1 + i = index + (i + 1) by omega]
      rfl

/-- A batch opens, or has a first vote that is refused. -/
theorem opens_or_firstRefused (secret : PollKey) (votes : List Bytes) :
    (∃ texts, Opens secret votes texts) ∨ ∃ bad, FirstRefused secret votes bad := by
  induction votes with
  | nil => exact Or.inl ⟨[], rfl⟩
  | cons vote votes ih =>
    cases hvote : Vote.decrypt secret.bytes.toList vote with
    | error cause =>
      exact Or.inr ⟨⟨0, cause⟩, by simp [outcomes, hvote], fun i hi => absurd hi (Nat.not_lt_zero i)⟩
    | ok text =>
      rcases ih with ⟨texts, h⟩ | ⟨⟨i, cause⟩, hbad, hfront⟩
      · refine Or.inl ⟨text :: texts, ?_⟩
        simpa [Opens, outcomes, hvote] using h
      · refine Or.inr ⟨⟨i + 1, cause⟩, by simpa [outcomes] using hbad, fun j hj => ?_⟩
        cases j with
        | zero => exact ⟨text, by simp [outcomes, hvote]⟩
        | succ j =>
          obtain ⟨text', htext⟩ := hfront j (Nat.lt_of_succ_lt_succ hj)
          exact ⟨text', by simpa [outcomes] using htext⟩

/-! ## Chunks -/

/-- A part of a batch opened first, then the rest from the next position on. -/
theorem join_openFrom_append (secret : PollKey) (index : Nat) (front back : List Bytes)
    {rest : List (Except BadVote (List Bytes))}
    (hrest : join rest = openFrom secret (index + front.length) back) :
    join (openFrom secret index front :: rest) = openFrom secret index (front ++ back) := by
  induction front generalizing index with
  | nil =>
    rw [openFrom, join, hrest, List.length_nil, Nat.add_zero, List.nil_append]
    cases openFrom secret index back <;> rfl
  | cons vote front ih =>
    cases hvote : Vote.decrypt secret.bytes.toList vote with
    | error cause => rw [List.cons_append, openFrom_of_error hvote, openFrom_of_error hvote, join]
    | ok text =>
      have hih := ih (index + 1) (by rw [hrest, List.length_cons, Nat.add_assoc, Nat.add_comm 1])
      rw [List.cons_append, openFrom_of_ok hvote, openFrom_of_ok hvote, ← hih]
      cases openFrom secret (index + 1) front with
      | error bad => rfl
      | ok texts =>
        cases hjoin : join rest <;> simp [join, hjoin, Except.map]

/-- Every piece starts at its number times the size of a full one. -/
theorem join_firstChunks (secret : PollKey) (size count first : Nat) (votes : List Bytes)
    (h : votes.length ≤ count * size) :
    join ((firstChunks size count votes).mapIdx fun i chunk =>
      openFrom secret ((first + i) * size) chunk) = openFrom secret (first * size) votes := by
  induction count generalizing first votes with
  | zero =>
    obtain rfl : votes = [] := by simpa using h
    rfl
  | succ count ih =>
    have hdrop : (votes.drop size).length ≤ count * size := by
      rw [List.length_drop]
      rw [Nat.succ_mul] at h
      omega
    have hrest := ih (first + 1) (votes.drop size) hdrop
    rw [firstChunks, List.mapIdx_cons, Nat.add_zero]
    conv => rhs; rw [← List.take_append_drop size votes]
    apply join_openFrom_append
    simp only [Nat.add_assoc, Nat.add_comm 1] at hrest ⊢
    rw [hrest]
    -- after a piece that is not full there are no votes left to number
    by_cases hfull : size ≤ votes.length
    · rw [List.length_take, Nat.min_eq_left hfull, Nat.succ_mul]
    · rw [List.drop_of_length_le (by omega)]
      rfl

theorem openChunks_eq (secret : PollKey) (size : Nat) (votes : List Bytes) :
    openChunks secret size votes =
      (chunks size votes).mapIdx fun i chunk => openFrom secret (i * size) chunk := by
  apply List.ext_getElem?
  intro i
  simp only [openChunks, List.getElem?_map, List.getElem?_mapIdx, Option.map_map]
  rfl

theorem join_openChunks (secret : PollKey) {size : Nat} (hsize : 0 < size) (votes : List Bytes) :
    join (openChunks secret size votes) = openFrom secret 0 votes := by
  have h := join_firstChunks secret size _ 0 votes (length_le_count_mul hsize votes.length)
  simp only [Nat.zero_add, Nat.zero_mul] at h
  rw [openChunks_eq, chunks, h]

theorem chunkSize_pos {batch workers : Nat} (hbatch : 0 < batch) (hworkers : 0 < workers) :
    0 < chunkSize batch workers :=
  Nat.div_pos (by omega) hworkers

theorem Options.workersFor_le (options : Options) (cores batch : Nat) :
    options.workersFor cores batch ≤ max 1 batch := by
  unfold workersFor
  split
  · exact Nat.le_max_left _ _
  · exact Nat.le_trans (Nat.min_le_right _ _) (Nat.le_max_right _ _)

/-- However a batch is spread over workers, it opens as its votes do one after the other. -/
theorem openAll_eq_openFrom (options : Options) (cores : Nat) (secret : PollKey)
    (votes : List Bytes) : openAll options cores secret votes = openFrom secret 0 votes := by
  have hle := options.workersFor_le cores votes.length
  simp only [openAll]
  split
  · rfl
  · exact join_openChunks secret (chunkSize_pos (by omega) (by omega)) votes

end SealedPoll.Batch
