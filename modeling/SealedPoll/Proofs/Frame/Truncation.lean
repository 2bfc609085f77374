import SealedPoll.Proofs.Frame.Grammar

/-!
# Frames put together and cut off

* `encode_append_eq_ok_iff` : two lists in a row are written as their frames in a row;
* `decode_append` : a frame in front of any bytes is read as its items in front of theirs;
* `boundary` : how many bytes the first items of a list take (`take_boundary`);
* `decode_take_eq_ok_iff` : a frame that is cut off is read exactly if the cut is at a boundary;
* `concatenates_and_truncates` : all this together.
-/

namespace SealedPoll.Frame

variable {items front back : List Bytes} {frame : Bytes}

/-! ## Putting frames together -/

theorem encode_append_eq_ok_iff :
    encode (front ++ back) = .ok frame ↔
      ∃ first second, encode front = .ok first ∧ encode back = .ok second ∧
        frame = first ++ second := by
  simp only [encode_eq_ok_iff, List.forall_mem_append, List.flatMap_append]
  constructor
  · rintro ⟨⟨hfront, hback⟩, rfl⟩
    exact ⟨_, _, ⟨hfront, rfl⟩, ⟨hback, rfl⟩, rfl⟩
  · rintro ⟨_, _, ⟨hfront, rfl⟩, ⟨hback, rfl⟩, rfl⟩
    exact ⟨⟨hfront, hback⟩, rfl⟩

theorem decode_flatMap_item_append (h : ∀ bs ∈ items, bs.length < itemBound) (rest : Bytes) :
    decode (items.flatMap item ++ rest) = (decode rest).map (items ++ ·) := by
  induction items with
  | nil =>
    rw [List.flatMap_nil, List.nil_append]
    cases decode rest <;> rfl
  | cons bs items ih =>
    obtain ⟨hbs, hitems⟩ := List.forall_mem_cons.1 h
    rw [List.flatMap_cons, List.append_assoc, decode_item_append hbs, ih hitems]
    cases decode rest <;> rfl

/-- What has been read does not matter to the reading of what follows. -/
theorem decode_append (h : decode frame = .ok items) (rest : Bytes) :
    decode (frame ++ rest) = (decode rest).map (items ++ ·) := by
  obtain ⟨hfit, rfl⟩ := decode_eq_ok_iff.1 h
  exact decode_flatMap_item_append hfit rest

theorem decode_append_eq_ok_iff (h : decode frame = .ok items) {rest : Bytes} :
    decode (frame ++ rest) = .ok (items ++ back) ↔ decode rest = .ok back := by
  rw [decode_append h]
  cases decode rest <;> simp [Except.map]

theorem decode_append_of_forall_ne (h : decode frame = .ok items) {rest : Bytes}
    (hrest : ∀ more, decode rest ≠ .ok more) : decode (frame ++ rest) = .error .malformedFrame := by
  cases hread : decode rest with
  | ok more => exact absurd hread (hrest more)
  | error e => rw [decode_append h, hread, decode_eq_error hread, Except.map]

/-! ## Cutting frames off -/

/-- The number of bytes that the first `k` items take: each takes four more than it has. -/
def boundary (items : List Bytes) (k : Nat) : Nat :=
  ((items.take k).map fun bs => bs.length + 4).sum

theorem length_flatMap_take (items : List Bytes) (k : Nat) :
    ((items.take k).flatMap item).length = boundary items k :=
  length_flatMap_item (items.take k)

/-- The bytes in front of a boundary are the frame of the items in front of it. -/
theorem take_boundary (items : List Bytes) (k : Nat) :
    (items.flatMap item).take (boundary items k) = (items.take k).flatMap item := by
  have hsplit : items.flatMap item = (items.take k).flatMap item ++ (items.drop k).flatMap item := by
    rw [← List.flatMap_append, List.take_append_drop]
  rw [hsplit, ← length_flatMap_take, List.take_left]

/-- What is read of a frame that is cut off are the first items of its list. -/
theorem eq_take_of_decode_take (hfit : ∀ bs ∈ items, bs.length < itemBound) {cut : Nat}
    {read : List Bytes} (h : decode ((items.flatMap item).take cut) = .ok read) :
    read.length ≤ items.length ∧ read = items.take read.length := by
  have hwhole := decode_flatMap_item hfit
  rw [← List.take_append_drop cut (items.flatMap item), decode_append h] at hwhole
  cases hrest : decode ((items.flatMap item).drop cut) with
  | error e =>
    rw [hrest] at hwhole
    cases hwhole
  | ok more =>
    rw [hrest] at hwhole
    obtain rfl : read ++ more = items := Except.ok.inj hwhole
    exact ⟨by simp, by simp⟩

theorem decode_take_eq_ok_iff (hfit : ∀ bs ∈ items, bs.length < itemBound) {cut : Nat}
    (hcut : cut ≤ (items.flatMap item).length) {read : List Bytes} :
    decode ((items.flatMap item).take cut) = .ok read ↔
      ∃ k ≤ items.length, cut = boundary items k ∧ read = items.take k := by
  constructor
  · intro h
    obtain ⟨hlength, hread⟩ := eq_take_of_decode_take hfit h
    refine ⟨read.length, hlength, ?_, hread⟩
    -- the cut is as far as what is written for the items that were read
    obtain ⟨-, hwritten⟩ := decode_eq_ok_iff.1 h
    rw [← length_flatMap_take, ← hread, ← hwritten, List.length_take_of_le hcut]
  · rintro ⟨k, -, rfl, rfl⟩
    rw [take_boundary]
    exact decode_flatMap_item fun bs hbs => hfit bs (List.mem_of_mem_take hbs)

/-- **Frames concatenate and are cut off cleanly.** What follows a frame is read as if it stood alone,
and decides whether all of it is read; lists in a row are written as their frames in a row. A frame
that is cut off at the boundary after `k` items is read as these, and at any other place it is refused,
so that what is read is always a number of whole items from the front. -/
theorem concatenates_and_truncates :
    (∀ (frame : Bytes) (items : List Bytes), decode frame = .ok items → ∀ rest : Bytes,
      (∀ more, decode (frame ++ rest) = .ok (items ++ more) ↔ decode rest = .ok more) ∧
      ((∀ more, decode rest ≠ .ok more) → decode (frame ++ rest) = .error .malformedFrame)) ∧
    (∀ (front back : List Bytes) (frame : Bytes), encode (front ++ back) = .ok frame ↔
      ∃ first second, encode front = .ok first ∧ encode back = .ok second ∧
        frame = first ++ second) ∧
    ∀ items : List Bytes, (∀ bs ∈ items, bs.length < 2 ^ 32) → ∃ frame, encode items = .ok frame ∧
      (∀ k ≤ items.length, decode (frame.take (boundary items k)) = .ok (items.take k)) ∧
      (∀ cut ≤ frame.length, (∀ k ≤ items.length, cut ≠ boundary items k) →
        decode (frame.take cut) = .error .malformedFrame) ∧
      ∀ cut read, decode (frame.take cut) = .ok read → read <+: items := by
  refine ⟨fun frame items h rest => ⟨fun more => decode_append_eq_ok_iff h,
    decode_append_of_forall_ne h⟩, fun _ _ _ => encode_append_eq_ok_iff, fun items hfit => ?_⟩
  refine ⟨items.flatMap item, encode_eq_ok_iff.2 ⟨hfit, rfl⟩, fun k _ => ?_, fun cut hcut hno => ?_,
    fun cut read hread => ?_⟩
  · rw [take_boundary]
    exact decode_flatMap_item fun bs hbs => hfit bs (List.mem_of_mem_take hbs)
  · cases hread : decode ((items.flatMap item).take cut) with
    | error e => rw [decode_eq_error hread]
    | ok read =>
      obtain ⟨k, hk, hboundary, -⟩ := (decode_take_eq_ok_iff hfit hcut).1 hread
      exact absurd hboundary (hno k hk)
  · rw [(eq_take_of_decode_take hfit hread).2]
    exact List.take_prefix _ _

end SealedPoll.Frame
