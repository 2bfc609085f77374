/-!
# Cutting a list into chunks

`chunks size xs` is `xs` in pieces of `size` items, the last one possibly shorter; joined again they
are `xs` (`flatten_chunks`). Piece `j` starts at `j * size` (`getElem?_chunks`), and lists of `size`
items that were joined are the pieces (`chunks_flatten`).
-/

namespace SealedPoll

/-- The first `count` pieces of `size` items. -/
def firstChunks {α : Type} (size : Nat) : Nat → List α → List (List α)
  | 0, _ => []
  | count + 1, xs => xs.take size :: firstChunks size count (xs.drop size)

/-- A list in pieces of `size` items, the last one possibly shorter. -/
def chunks {α : Type} (size : Nat) (xs : List α) : List (List α) :=
  firstChunks size ((xs.length + size - 1) / size) xs

@[simp] theorem length_firstChunks {α : Type} (size count : Nat) (xs : List α) :
    (firstChunks size count xs).length = count := by
  induction count generalizing xs with
  | zero => rfl
  | succ count ih => simp [firstChunks, ih]

theorem flatten_firstChunks {α : Type} (size count : Nat) (xs : List α)
    (h : xs.length ≤ count * size) : (firstChunks size count xs).flatten = xs := by
  induction count generalizing xs with
  | zero => simp_all [firstChunks]
  | succ count ih =>
    rw [firstChunks, List.flatten_cons, ih, List.take_append_drop]
    rw [List.length_drop]
    rw [Nat.succ_mul] at h
    omega

/-- So many pieces hold the whole list. -/
theorem length_le_count_mul {size : Nat} (hsize : 0 < size) (length : Nat) :
    length ≤ (length + size - 1) / size * size := by
  have h := Nat.div_add_mod (length + size - 1) size
  have hmod := Nat.mod_lt (length + size - 1) hsize
  rw [Nat.mul_comm]
  omega

theorem flatten_chunks {α : Type} {size : Nat} (hsize : 0 < size) (xs : List α) :
    (chunks size xs).flatten = xs :=
  flatten_firstChunks size _ xs (length_le_count_mul hsize xs.length)

theorem getElem?_firstChunks {α : Type} (size : Nat) {count j : Nat} (h : j < count) (xs : List α) :
    (firstChunks size count xs)[j]? = some ((xs.drop (j * size)).take size) := by
  induction count generalizing j xs with
  | zero => omega
  | succ count ih =>
    cases j with
    | zero => simp [firstChunks]
    | succ j =>
      rw [firstChunks, List.getElem?_cons_succ, ih (Nat.lt_of_succ_lt_succ h), List.drop_drop,
        Nat.succ_mul, Nat.add_comm]

theorem getElem?_chunks {α : Type} {size j : Nat} {xs : List α}
    (h : j < (xs.length + size - 1) / size) :
    (chunks size xs)[j]? = some ((xs.drop (j * size)).take size) :=
  getElem?_firstChunks size h xs

@[simp] theorem length_chunks {α : Type} (size : Nat) (xs : List α) :
    (chunks size xs).length = (xs.length + size - 1) / size :=
  length_firstChunks size _ xs

theorem firstChunks_flatten {α : Type} {size : Nat} {pieces : List (List α)}
    (h : ∀ piece ∈ pieces, piece.length = size) :
    firstChunks size pieces.length pieces.flatten = pieces := by
  induction pieces with
  | nil => rfl
  | cons piece pieces ih =>
    have hpiece : piece.length = size := h piece (by simp)
    rw [List.length_cons, List.flatten_cons, firstChunks, List.take_left' hpiece,
      List.drop_left' hpiece, ih fun x hx => h x (by simp [hx])]

theorem length_flatten_of_forall {α : Type} {size : Nat} {pieces : List (List α)}
    (h : ∀ piece ∈ pieces, piece.length = size) :
    pieces.flatten.length = pieces.length * size := by
  induction pieces with
  | nil => simp
  | cons piece pieces ih =>
    rw [List.flatten_cons, List.length_append, h piece (by simp), ih fun x hx => h x (by simp [hx]),
      List.length_cons, Nat.succ_mul, Nat.add_comm]

/-- Whole pieces are as many as they are counted. -/
theorem count_of_mul {size : Nat} (hsize : 0 < size) (count : Nat) :
    (count * size + size - 1) / size = count := by
  rw [Nat.add_sub_assoc hsize, Nat.mul_comm, Nat.mul_add_div hsize, Nat.div_eq_of_lt (by omega),
    Nat.add_zero]

theorem chunks_flatten {α : Type} {size : Nat} (hsize : 0 < size) {pieces : List (List α)}
    (h : ∀ piece ∈ pieces, piece.length = size) : chunks size pieces.flatten = pieces := by
  rw [chunks, length_flatten_of_forall h, count_of_mul hsize, firstChunks_flatten h]

theorem length_of_mem_firstChunks {α : Type} {size count : Nat} {xs : List α}
    (h : xs.length = count * size) : ∀ piece ∈ firstChunks size count xs, piece.length = size := by
  induction count generalizing xs with
  | zero => simp [firstChunks]
  | succ count ih =>
    rw [Nat.succ_mul] at h
    intro piece hpiece
    rcases List.mem_cons.1 hpiece with rfl | hrest
    · rw [List.length_take]
      omega
    · exact ih (by rw [List.length_drop]; omega) piece hrest

theorem length_of_mem_chunks {α : Type} {size count : Nat} (hsize : 0 < size) {xs : List α}
    (h : xs.length = count * size) : ∀ piece ∈ chunks size xs, piece.length = size := by
  rw [chunks, h, count_of_mul hsize]
  exact length_of_mem_firstChunks h

end SealedPoll
