import Mathlib.Algebra.Group.Nat.Defs
import SealedPoll.Proofs.Batch

/-!
# Where the chunks of a batch lie

* `Word.add?`, `Word.sub?`, `Word.mul?`, `Word.div?` : arithmetic on 64-bit words, with no answer
  where a word cannot hold it;
* `chunkSize?`, `position?` : the size of a chunk and the position of a vote, counted in words
  (`chunkSize?_eq_some_iff`, `position?_eq_some_iff`);
* `positions` : the positions of the votes of a chunk; `Tiling` says that the chunks lie side by
  side over the whole batch (`tiling_chunks`);
* `voteAt?` : a vote of a chunk, which is the vote of the batch at its position
  (`voteAt?_eq_some_iff`);
* `chunks_tile_batch` : however a batch is spread over workers, all this holds of its chunks.
-/

namespace SealedPoll

/-! ## Words -/

namespace Word

/-- The sum of two words, if a word can hold it. -/
def add? (a b : UInt64) : Option UInt64 := if a.toNat + b.toNat < 2 ^ 64 then some (a + b) else none

/-- The difference of two words, if it is not negative. -/
def sub? (a b : UInt64) : Option UInt64 := if b ≤ a then some (a - b) else none

/-- The product of two words, if a word can hold it. -/
def mul? (a b : UInt64) : Option UInt64 := if a.toNat * b.toNat < 2 ^ 64 then some (a * b) else none

/-- The whole quotient of two words, if the second is not zero. -/
def div? (a b : UInt64) : Option UInt64 := if b = 0 then none else some (a / b)

variable {a b c : UInt64}

theorem add?_eq_some_iff : add? a b = some c ↔ c.toNat = a.toNat + b.toNat := by
  have hc := c.toNat_lt
  unfold add?
  split
  case isTrue h =>
    rw [Option.some.injEq, ← UInt64.toNat_inj, UInt64.toNat_add, Nat.mod_eq_of_lt h, eq_comm]
  case isFalse h =>
    simp only [reduceCtorEq, false_iff]
    omega

theorem sub?_eq_some_iff : sub? a b = some c ↔ c.toNat + b.toNat = a.toNat := by
  unfold sub?
  split
  case isTrue h =>
    have hle := UInt64.le_iff_toNat_le.1 h
    rw [Option.some.injEq, ← UInt64.toNat_inj, UInt64.toNat_sub_of_le a b h]
    omega
  case isFalse h =>
    rw [UInt64.le_iff_toNat_le] at h
    simp only [reduceCtorEq, false_iff]
    omega

theorem mul?_eq_some_iff : mul? a b = some c ↔ c.toNat = a.toNat * b.toNat := by
  have hc := c.toNat_lt
  unfold mul?
  split
  case isTrue h =>
    rw [Option.some.injEq, ← UInt64.toNat_inj, UInt64.toNat_mul, Nat.mod_eq_of_lt h, eq_comm]
  case isFalse h =>
    simp only [reduceCtorEq, false_iff]
    omega

theorem div?_eq_some_iff : div? a b = some c ↔ 0 < b.toNat ∧ c.toNat = a.toNat / b.toNat := by
  have hb : b = 0 ↔ b.toNat = 0 := by rw [← UInt64.toNat_inj, UInt64.toNat_zero]
  unfold div?
  split
  case isTrue h =>
    rw [hb] at h
    simp only [reduceCtorEq, false_iff]
    omega
  case isFalse h =>
    rw [hb] at h
    rw [Option.some.injEq, ← UInt64.toNat_inj, UInt64.toNat_div, eq_comm,
      and_iff_right (Nat.pos_of_ne_zero h)]

/-- The bound is a power, which `omega` compares with others. -/
theorem toNat_ofNat {n : Nat} (h : n < 2 ^ 64) : (UInt64.ofNat n).toNat = n :=
  UInt64.toNat_ofNat_of_lt' h

end Word

namespace Batch

/-- The size of a full chunk, counted in words. -/
def chunkSize? (batch workers : UInt64) : Option UInt64 :=
  (Word.add? batch workers).bind fun sum =>
    (Word.sub? sum 1).bind fun raised => Word.div? raised workers

/-- The position of the vote at `i` of chunk `j`, counted in words. -/
def position? (j size i : UInt64) : Option UInt64 :=
  (Word.mul? j size).bind fun start => Word.add? start i

theorem chunkSize?_eq_some_iff {batch workers size : UInt64} :
    chunkSize? batch workers = some size ↔
      batch.toNat + workers.toNat < 2 ^ 64 ∧ 0 < workers.toNat ∧
        size.toNat = chunkSize batch.toNat workers.toNat := by
  simp only [chunkSize?, Option.bind_eq_some_iff, Word.add?_eq_some_iff, Word.sub?_eq_some_iff,
    Word.div?_eq_some_iff, UInt64.toNat_one]
  constructor
  · rintro ⟨sum, hsum, raised, hraised, hworkers, hsize⟩
    have hbound := sum.toNat_lt
    refine ⟨by omega, hworkers, ?_⟩
    rw [hsize, chunkSize, ← hsum, ← hraised, Nat.add_sub_cancel]
  · rintro ⟨hbound, hworkers, hsize⟩
    refine ⟨.ofNat (batch.toNat + workers.toNat), Word.toNat_ofNat hbound,
      .ofNat (batch.toNat + workers.toNat - 1), ?_, hworkers, ?_⟩
    · rw [Word.toNat_ofNat hbound, Word.toNat_ofNat (by omega)]
      omega
    · rw [Word.toNat_ofNat (by omega), hsize, chunkSize]

theorem position?_eq_some_iff {j size i position : UInt64} :
    position? j size i = some position ↔
      position.toNat = j.toNat * size.toNat + i.toNat := by
  simp only [position?, Option.bind_eq_some_iff, Word.add?_eq_some_iff, Word.mul?_eq_some_iff]
  constructor
  · rintro ⟨start, hstart, hposition⟩
    rw [hposition, hstart]
  · intro hposition
    have hbound := position.toNat_lt
    have hstart := Word.toNat_ofNat (show j.toNat * size.toNat < 2 ^ 64 by omega)
    exact ⟨.ofNat (j.toNat * size.toNat), hstart, by rw [hposition, hstart]⟩

/-- A sum that is too large for a word is no size. -/
example : chunkSize? (.ofNat (2 ^ 64 - 1)) 2 = none := by decide

/-! ## Tilings -/

/-- The position after the last vote of chunk `j`. -/
def chunkEnd (batch size j : Nat) : Nat := min ((j + 1) * size) batch

/-- The positions of the votes of chunk `j`, in order. -/
def positions (batch size j : Nat) : List Nat :=
  List.range' (j * size) (chunkEnd batch size j - j * size)

/-- Chunks of `size` votes lie side by side over the whole batch. -/
structure Tiling (batch size count : Nat) : Prop where
  /-- No chunk is empty. -/
  nonempty : ∀ j < count, j * size < chunkEnd batch size j
  /-- A chunk ends no later than any chunk after it starts. -/
  disjoint : ∀ j k, j < k → k < count → chunkEnd batch size j ≤ k * size
  /-- The positions of all chunks, one chunk after the other, are those of the batch. -/
  covers : (List.range count).flatMap (positions batch size) = List.range batch

variable {batch size count workers j i : Nat}

theorem mem_positions_iff {position : Nat} :
    position ∈ positions batch size j ↔ j * size ≤ position ∧ position < chunkEnd batch size j := by
  rw [positions, List.mem_range'_1]
  omega

/-- A chunk that is counted starts inside the batch. -/
theorem lt_count_iff (hsize : 0 < size) : j < (batch + size - 1) / size ↔ j * size < batch := by
  rw [Nat.lt_div_iff_mul_lt hsize]
  omega

theorem count_le_of_le_mul (hsize : 0 < size) (h : batch ≤ count * size) :
    (batch + size - 1) / size ≤ count := by
  rw [← Nat.lt_succ_iff, Nat.div_lt_iff_lt_mul hsize, Nat.succ_mul]
  omega

/-- The positions of the chunks are the positions of the batch, cut into chunks. -/
theorem map_positions (batch size : Nat) :
    (List.range ((batch + size - 1) / size)).map (positions batch size) =
      chunks size (List.range batch) := by
  apply List.ext_getElem?
  intro j
  by_cases hj : j < (batch + size - 1) / size
  · rw [List.getElem?_map, List.getElem?_range hj, getElem?_chunks (by rwa [List.length_range]),
      List.take_drop, List.take_range, List.range_eq_range', List.drop_range', Option.map_some,
      positions, chunkEnd, Nat.succ_mul, Nat.zero_add, Nat.mul_one]
  · rw [List.getElem?_eq_none (by simpa using hj), List.getElem?_eq_none (by simpa using hj)]

theorem tiling_chunks (hsize : 0 < size) : Tiling batch size ((batch + size - 1) / size) where
  nonempty j hj := by
    have hstart := (lt_count_iff hsize).1 hj
    rw [chunkEnd, Nat.succ_mul]
    omega
  disjoint j k hjk _ := Nat.le_trans (Nat.min_le_left _ _) (Nat.mul_le_mul_right size hjk)
  covers := by rw [List.flatMap_def, map_positions, flatten_chunks hsize]

example : (List.range 4).map (positions 7 2) = [[0, 1], [2, 3], [4, 5], [6]] := by decide

/-! ## Votes of a chunk -/

/-- The vote at `i` of chunk `j`. -/
def voteAt? (votes : List Bytes) (size j i : Nat) : Option Bytes :=
  (chunks size votes)[j]?.bind fun chunk => chunk[i]?

variable {secret : PollKey} {votes : List Bytes} {vote : Bytes}

theorem voteAt?_eq_some_iff (hsize : 0 < size) :
    voteAt? votes size j i = some vote ↔
      j * size + i ∈ positions votes.length size j ∧ votes[j * size + i]? = some vote := by
  have hmem : j * size + i ∈ positions votes.length size j ↔
      i < size ∧ j * size + i < votes.length := by
    rw [mem_positions_iff, chunkEnd, Nat.succ_mul]
    omega
  rw [voteAt?, hmem]
  by_cases hj : j < (votes.length + size - 1) / size
  · rw [getElem?_chunks hj, Option.bind_some, List.getElem?_take, List.getElem?_drop]
    by_cases hi : i < size
    · rw [if_pos hi]
      constructor
      · intro hvote
        exact ⟨⟨hi, (List.getElem?_eq_some_iff.1 hvote).1⟩, hvote⟩
      · exact And.right
    · rw [if_neg hi]
      simp [hi]
  · -- a chunk that is not counted would start behind the batch
    rw [List.getElem?_eq_none (by simpa using hj)]
    rw [lt_count_iff hsize] at hj
    simp only [Option.bind_none, reduceCtorEq, false_iff]
    omega

theorem exists_of_openFrom_eq_error {index : Nat} {bad : BadVote}
    (h : openFrom secret index votes = .error bad) :
    ∃ i vote, votes[i]? = some vote ∧ bad.index = index + i ∧
      Vote.decrypt secret.bytes.toList vote = .error bad.cause := by
  rcases opens_or_firstRefused secret votes with ⟨texts, hopens⟩ | ⟨first, hfirst⟩
  · rw [openFrom_of_opens hopens] at h
    cases h
  · rw [openFrom_of_firstRefused hfirst] at h
    cases h
    obtain ⟨vote, hvote, hrefused⟩ := exists_refused hfirst
    exact ⟨first.index, vote, hvote, rfl, hrefused⟩

theorem length_openChunks (secret : PollKey) (size : Nat) (votes : List Bytes) :
    (openChunks secret size votes).length = (votes.length + size - 1) / size := by
  rw [openChunks_eq, List.length_mapIdx, length_chunks]

theorem exists_of_openChunks_eq_error {bad : BadVote}
    (h : (openChunks secret size votes)[j]? = some (.error bad)) :
    ∃ i vote, voteAt? votes size j i = some vote ∧ bad.index = j * size + i ∧
      Vote.decrypt secret.bytes.toList vote = .error bad.cause := by
  rw [openChunks_eq, List.getElem?_mapIdx, Option.map_eq_some_iff] at h
  obtain ⟨chunk, hchunk, hopen⟩ := h
  obtain ⟨i, vote, hvote, hindex, hrefused⟩ := exists_of_openFrom_eq_error hopen
  exact ⟨i, vote, by rw [voteAt?, hchunk, Option.bind_some, hvote], hindex, hrefused⟩

/-! ## Batches spread over workers -/

theorem Options.workersFor_pos (options : Options) {cores : Nat} (hcores : 1 ≤ cores)
    (batch : Nat) : 1 ≤ options.workersFor cores batch := by
  unfold workersFor
  split
  case isTrue => exact Nat.le_refl 1
  case isFalse hbatch =>
    refine Nat.le_min.2 ⟨?_, by omega⟩
    split
    case isTrue => exact hcores
    case isFalse hworkers =>
      exact Nat.one_le_iff_ne_zero.2 fun hzero => hworkers (UInt64.toNat_inj.1 hzero)

/-- A batch is cut into chunks of `size` votes for its workers, and all that is counted for it fits
a word. -/
structure SafelyCut (secret : PollKey) (votes : List Bytes) (workers size : Nat) : Prop where
  /-- The number that is divided to get the size of a chunk fits a word. -/
  sum_fits : votes.length + workers - 1 ≤ 2 ^ 64 - 1
  /-- Words come to the size without an overflow. -/
  size_fits : (chunkSize? (.ofNat votes.length) (.ofNat workers)).map UInt64.toNat = some size
  size_pos : 1 ≤ size
  /-- No more chunks are opened than there are workers. -/
  count_le : (openChunks secret size votes).length ≤ workers
  tiling : Tiling votes.length size (openChunks secret size votes).length
  /-- The votes of a chunk are the votes of the batch at its positions. -/
  place : ∀ j i vote, voteAt? votes size j i = some vote ↔
    j * size + i ∈ positions votes.length size j ∧ votes[j * size + i]? = some vote
  /-- The position of a vote is inside the batch, and words come to it without an overflow. -/
  place_fits : ∀ j i vote, voteAt? votes size j i = some vote → j * size + i < votes.length ∧
    (position? (.ofNat j) (.ofNat size) (.ofNat i)).map UInt64.toNat = some (j * size + i)
  /-- A chunk that is refused names the position of a vote of its own that is refused. -/
  refused : ∀ j bad, (openChunks secret size votes)[j]? = some (.error bad) → ∃ i vote,
    voteAt? votes size j i = some vote ∧ bad.index = j * size + i ∧
      Vote.decrypt secret.bytes.toList vote = .error bad.cause

theorem toNat_position?_of_voteAt? (hsize : 0 < size) (hfits : size < 2 ^ 64)
    (hvotes : votes.length < 2 ^ 63) (h : voteAt? votes size j i = some vote) :
    j * size + i < votes.length ∧
      (position? (.ofNat j) (.ofNat size) (.ofNat i)).map UInt64.toNat = some (j * size + i) := by
  obtain ⟨-, hvote⟩ := (voteAt?_eq_some_iff hsize).1 h
  have hlt : j * size + i < votes.length := (List.getElem?_eq_some_iff.1 hvote).1
  have hj : j ≤ j * size := Nat.le_mul_of_pos_right j hsize
  have hword := Word.toNat_ofNat (show j * size + i < 2 ^ 64 by omega)
  have hposition : position? (.ofNat j) (.ofNat size) (.ofNat i) =
      some (.ofNat (j * size + i)) := by
    rw [position?_eq_some_iff, hword, Word.toNat_ofNat (by omega), Word.toNat_ofNat hfits,
      Word.toNat_ofNat (by omega)]
  exact ⟨hlt, by rw [hposition, Option.map_some, hword]⟩

theorem safelyCut_chunkSize (secret : PollKey) (hvotes : votes.length < 2 ^ 63)
    (hworkers : 1 < workers) (hle : workers ≤ votes.length) :
    SafelyCut secret votes workers (chunkSize votes.length workers) := by
  have hsize : 0 < chunkSize votes.length workers := chunkSize_pos (by omega) (by omega)
  have hfits : chunkSize votes.length workers < 2 ^ 64 :=
    Nat.lt_of_le_of_lt (Nat.div_le_self _ _) (by omega)
  have hcount := length_openChunks secret (chunkSize votes.length workers) votes
  have hword := Word.toNat_ofNat hfits
  have hcounted : chunkSize? (.ofNat votes.length) (.ofNat workers) =
      some (.ofNat (chunkSize votes.length workers)) := by
    rw [chunkSize?_eq_some_iff, hword, Word.toNat_ofNat (by omega), Word.toNat_ofNat (by omega)]
    exact ⟨by omega, by omega, rfl⟩
  refine ⟨by omega, ?_, hsize, ?_, ?_, fun j i vote => voteAt?_eq_some_iff hsize,
    fun j i vote => toNat_position?_of_voteAt? hsize hfits hvotes,
    fun j bad => exists_of_openChunks_eq_error⟩
  · rw [hcounted, Option.map_some, hword]
  · -- so many chunks as there are workers would hold all votes
    have hhold : votes.length ≤ workers * chunkSize votes.length workers := by
      rw [Nat.mul_comm]
      exact length_le_count_mul (by omega) votes.length
    rw [hcount]
    exact count_le_of_le_mul hsize hhold
  · rw [hcount]
    exact tiling_chunks hsize

/-- **Chunks tile the batch.** A batch has at least one worker, and no more than it has votes. With
more than one it is opened in chunks, no more than there are workers and none of them empty, which
lie side by side over the batch in order. A refused vote is named by its position in the whole
batch, and no word overflows on the way. -/
theorem chunks_tile_batch (options : Options) {cores : Nat} (hcores : 1 ≤ cores) (secret : PollKey)
    {votes : List Bytes} (hvotes : votes.length < 2 ^ 63) :
    (1 ≤ options.workersFor cores votes.length ∧
      options.workersFor cores votes.length ≤ max 1 votes.length) ∧
    ∀ workers, options.workersFor cores votes.length = workers → 1 < workers →
      openAll options cores secret votes =
        join (openChunks secret (chunkSize votes.length workers) votes) ∧
      SafelyCut secret votes workers (chunkSize votes.length workers) := by
  have hle := options.workersFor_le cores votes.length
  refine ⟨⟨options.workersFor_pos hcores votes.length, hle⟩, ?_⟩
  rintro workers rfl hworkers
  refine ⟨?_, safelyCut_chunkSize secret hvotes hworkers (by omega)⟩
  simp only [openAll]
  rw [if_neg (Nat.not_le.2 hworkers)]

/-- Seven votes for five workers make four chunks, the last with one vote; it names the seventh. -/
theorem seven_votes_tiled :
    let votes : List Bytes := List.replicate 7 []
    let secret : PollKey := ⟨Octets.zero 32⟩
    votes.length < 2 ^ 63 ∧ Options.workersFor ⟨5, 0⟩ 1 votes.length = 5 ∧
      SafelyCut secret votes 5 2 ∧ (openChunks secret 2 votes).length = 4 ∧
      (openChunks secret 2 votes)[3]? = some (.error ⟨6, .ciphertextTooShort 0⟩) := by
  have hsize : chunkSize (List.replicate 7 ([] : Bytes)).length 5 = 2 := by decide
  obtain ⟨-, hcut⟩ := chunks_tile_batch ⟨5, 0⟩ (Nat.le_refl 1) ⟨Octets.zero 32⟩
    (show (List.replicate 7 ([] : Bytes)).length < 2 ^ 63 by decide)
  obtain ⟨-, hsafe⟩ := hcut 5 (by decide) (by decide)
  rw [hsize] at hsafe
  exact ⟨by decide, by decide, hsafe, by decide, rfl⟩

end Batch

end SealedPoll
