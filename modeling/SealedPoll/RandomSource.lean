import SealedPoll.Error

/-!
# Random sources

A random source is the finite script of the bytes it has still to hand out.

* `RandomSource.draw n` : hands out the next `n` bytes, or is refused and hands out nothing
  (`RandomSource.draw_of_le`, `RandomSource.draw_of_lt`).
-/

namespace SealedPoll

/-- The bytes still to be handed out, the next one first. -/
structure RandomSource where
  bytes : Bytes
deriving DecidableEq

namespace RandomSource

/-- The number of bytes left. -/
def size (source : RandomSource) : Nat := source.bytes.length

/-- The refusal of a source with too few bytes left. -/
def exhausted : Error := .randomSourceExhausted "random source exhausted"

/-- The next `n` bytes and the source after them; a source with fewer is refused and keeps them. -/
def draw (n : Nat) (source : RandomSource) : Except Error (Octets n) × RandomSource :=
  match Octets.ofList? n (source.bytes.take n) with
  | some bs => (.ok bs, ⟨source.bytes.drop n⟩)
  | none => (.error exhausted, source)

theorem draw_append {n : Nat} (bs : Octets n) (rest : Bytes) :
    draw n ⟨bs.toList ++ rest⟩ = (.ok bs, ⟨rest⟩) := by
  have htake : (bs.toList ++ rest).take n = bs.toList := by
    rw [List.take_append_of_le_length (by simp), List.take_of_length_le (by simp)]
  have hdrop : (bs.toList ++ rest).drop n = rest := by
    rw [List.drop_append_of_le_length (by simp), List.drop_of_length_le (by simp), List.nil_append]
  simp [draw, htake, hdrop]

theorem draw_of_lt {n : Nat} {source : RandomSource} (h : source.size < n) :
    draw n source = (.error exhausted, source) := by
  have hnone : Octets.ofList? n (source.bytes.take n) = none := by
    rw [Octets.ofList?_eq_none_iff, List.length_take]
    rw [size] at h
    omega
  simp [draw, hnone]

/-- The bytes handed out are the next ones. -/
theorem draw_of_le {n : Nat} {source : RandomSource} (h : n ≤ source.size) :
    ∃ bs : Octets n, bs.toList = source.bytes.take n ∧
      draw n source = (.ok bs, ⟨source.bytes.drop n⟩) := by
  rw [size] at h
  refine ⟨⟨source.bytes.take n, by simp [h]⟩, rfl, ?_⟩
  simp [draw, Octets.ofList?, h]

end RandomSource

end SealedPoll
