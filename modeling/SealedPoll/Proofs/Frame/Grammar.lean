import SealedPoll.Proofs.Frame

/-!
# The grammar of frames

* `IsGroup`, `IsFrame` : four bytes of length and as many bytes as they say, and any number of these;
* `FirstTooLong` : the position of the first item that does not fit;
* `encode_eq_ok_iff`, `encode_eq_error_iff` : when a list of items is written, and what is refused;
* `splitItem_eq_ok_iff`, `decode_eq_ok_iff`, `decode_eq_error` : when a frame is read, and the only
  refusal;
* `exists_decode_iff` : which byte strings are frames;
* `codec_bijective` : writing and reading are inverse to each other, onto the frames of the grammar.
-/

namespace SealedPoll.Frame

/-- Four bytes of length, most significant first, and as many bytes as they say. -/
def IsGroup (bs : Bytes) : Prop :=
  ∃ size body : Bytes, size.length = 4 ∧ body.length = Bytes.toNatBE size ∧ bs = size ++ body

/-- Any number of groups, one after the other. -/
def IsFrame (frame : Bytes) : Prop :=
  ∃ groups : List Bytes, (∀ g ∈ groups, IsGroup g) ∧ frame = groups.flatten

/-- Item `i` does not fit, and all before it do. -/
structure FirstTooLong (items : List Bytes) (i : Nat) : Prop where
  too_long : ∃ bs, items[i]? = some bs ∧ itemBound ≤ bs.length
  before : ∀ bs ∈ items.take i, bs.length < itemBound

/-! ## Writing -/

theorem encode_eq_error {items : List Bytes} {i : Nat} (h : FirstTooLong items i) :
    encode items = .error (.plaintextTooLarge i) := by
  obtain ⟨bs, hbs, hlong⟩ := h.too_long
  obtain ⟨hi, rfl⟩ := List.getElem?_eq_some_iff.1 hbs
  have hwritten := encodeFrom_of_le h.before hlong (items.drop (i + 1)) 0
  rwa [← List.drop_eq_getElem_cons hi, List.take_append_drop, List.length_take_of_le hi.le,
    Nat.zero_add] at hwritten

theorem forall_lt_or_firstTooLong (items : List Bytes) :
    (∀ bs ∈ items, bs.length < itemBound) ∨ ∃ i, FirstTooLong items i := by
  induction items with
  | nil => exact Or.inl (by simp)
  | cons bs rest ih =>
    by_cases hbs : bs.length < itemBound
    · rcases ih with hrest | ⟨i, hlong, hbefore⟩
      · exact Or.inl (by simpa [hbs] using hrest)
      · exact Or.inr ⟨i + 1, by simpa using hlong, by simpa [hbs] using hbefore⟩
    · exact Or.inr ⟨0, ⟨bs, rfl, Nat.not_lt.1 hbs⟩, by simp⟩

theorem encode_eq_ok_iff {items : List Bytes} {frame : Bytes} :
    encode items = .ok frame ↔
      (∀ bs ∈ items, bs.length < itemBound) ∧ frame = items.flatMap item := by
  rcases forall_lt_or_firstTooLong items with hfit | ⟨i, hfirst⟩
  · rw [encode, encodeFrom_of_lt hfit, Except.ok.injEq]
    exact ⟨fun h => ⟨hfit, h.symm⟩, fun h => h.2.symm⟩
  · rw [encode_eq_error hfirst]
    obtain ⟨bs, hbs, hlong⟩ := hfirst.too_long
    constructor
    · intro h
      cases h
    · intro h
      exact absurd (h.1 bs (List.mem_of_getElem? hbs)) (Nat.not_lt.2 hlong)

theorem encode_eq_error_iff {items : List Bytes} {e : Error} :
    encode items = .error e ↔ ∃ i, FirstTooLong items i ∧ e = .plaintextTooLarge i := by
  constructor
  · intro h
    rcases forall_lt_or_firstTooLong items with hfit | ⟨i, hfirst⟩
    · rw [encode, encodeFrom_of_lt hfit] at h
      cases h
    · rw [encode_eq_error hfirst] at h
      exact ⟨i, hfirst, (Except.error.inj h).symm⟩
  · rintro ⟨i, hfirst, rfl⟩
    exact encode_eq_error hfirst

/-! ## Reading -/

theorem append_eq_item {size body : Bytes} (hsize : size.length = 4)
    (hbody : body.length = Bytes.toNatBE size) :
    body.length < itemBound ∧ size ++ body = item body := by
  have hlt := Bytes.toNatBE_lt size
  rw [← hbody, hsize] at hlt
  refine ⟨hlt, ?_⟩
  rw [item, hbody, ← hsize, Bytes.ofNatBE_toNatBE]

theorem isGroup_iff {bs : Bytes} :
    IsGroup bs ↔ ∃ body, body.length < itemBound ∧ bs = item body := by
  constructor
  · rintro ⟨size, body, hsize, hbody, rfl⟩
    exact ⟨body, append_eq_item hsize hbody⟩
  · rintro ⟨body, hbody, rfl⟩
    refine ⟨Bytes.ofNatBE 4 body.length, body, by simp, ?_, rfl⟩
    rw [Bytes.toNatBE_ofNatBE, Nat.mod_eq_of_lt (by simpa [itemBound] using hbody)]

/-- The first item of a frame is what is written in front of the rest. -/
theorem splitItem_eq_ok_iff {frame first rest : Bytes} :
    splitItem frame = .ok (first, rest) ↔ first.length < itemBound ∧ frame = item first ++ rest := by
  constructor
  · intro h
    simp only [splitItem] at h
    split at h
    · cases h
    · next hhead =>
      split at h
      · cases h
      · next hfirst =>
        obtain ⟨rfl, rfl⟩ := Prod.mk.inj (Except.ok.inj h)
        have hsize : (frame.take 4).length = 4 := by
          rw [List.length_take] at hhead ⊢
          omega
        have hbody : ((frame.drop 4).take (Bytes.toNatBE (frame.take 4))).length =
            Bytes.toNatBE (frame.take 4) := by
          rw [List.length_take] at hfirst ⊢
          omega
        -- head and first item are a group, and the group is the item that is written
        obtain ⟨hlt, hitem⟩ := append_eq_item hsize hbody
        refine ⟨hlt, ?_⟩
        rw [← hitem, List.append_assoc, List.take_append_drop, List.take_append_drop]
  · rintro ⟨hfirst, rfl⟩
    exact splitItem_item_append hfirst rest

theorem splitItem_eq_error {frame : Bytes} {e : Error} (h : splitItem frame = .error e) :
    e = .malformedFrame := by
  unfold splitItem at h
  grind

theorem decode_eq_ok_iff {frame : Bytes} {items : List Bytes} :
    decode frame = .ok items ↔
      (∀ bs ∈ items, bs.length < itemBound) ∧ frame = items.flatMap item := by
  constructor
  · intro h
    fun_induction decode frame generalizing items with
    | case1 =>
      cases h
      simp
    | case2 frame hne e hsplit => cases h
    | case3 frame hne first rest hsplit _ ih =>
      cases hrest : decode rest with
      | error e =>
        rw [hrest] at h
        cases h
      | ok more =>
        rw [hrest] at h
        cases h
        obtain ⟨hfit, rfl⟩ := ih hrest
        obtain ⟨hfirst, rfl⟩ := splitItem_eq_ok_iff.1 hsplit
        exact ⟨by simpa [hfirst] using hfit, by simp⟩
  · rintro ⟨hfit, rfl⟩
    exact decode_flatMap_item hfit

theorem decode_eq_error {frame : Bytes} {e : Error} (h : decode frame = .error e) :
    e = .malformedFrame := by
  fun_induction decode frame with
  | case1 => cases h
  | case2 frame hne e' hsplit =>
    cases h
    exact splitItem_eq_error hsplit
  | case3 frame hne first rest hsplit _ ih =>
    cases hrest : decode rest with
    | error e' =>
      rw [hrest] at h
      cases h
      exact ih hrest
    | ok more =>
      rw [hrest] at h
      cases h

theorem decode_eq_ok_iff_encode {frame : Bytes} {items : List Bytes} :
    decode frame = .ok items ↔ encode items = .ok frame := by
  rw [decode_eq_ok_iff, encode_eq_ok_iff]

theorem exists_decode_iff {frame : Bytes} :
    (∃ items, decode frame = .ok items) ↔ IsFrame frame := by
  constructor
  · rintro ⟨items, hitems⟩
    obtain ⟨hfit, rfl⟩ := decode_eq_ok_iff.1 hitems
    refine ⟨items.map item, fun g hg => ?_, List.flatMap_def ..⟩
    obtain ⟨bs, hbs, rfl⟩ := List.mem_map.1 hg
    exact isGroup_iff.2 ⟨bs, hfit bs hbs, rfl⟩
  · rintro ⟨groups, hgroups, rfl⟩
    induction groups with
    | nil => exact ⟨[], decode_eq_ok_iff.2 (by simp)⟩
    | cons g groups ih =>
      obtain ⟨items, hitems⟩ := ih fun x hx => hgroups x (by simp [hx])
      obtain ⟨body, hbody, rfl⟩ := isGroup_iff.1 (hgroups g (by simp))
      refine ⟨body :: items, ?_⟩
      rw [List.flatten_cons, decode_item_append hbody, hitems]
      rfl

/-- **Frames and lists of items correspond to each other.** Lists whose items all fit are written as
frames that read back as the list, and every frame that reads is what its items are written as; only
the first item that does not fit is refused, and only what is not a number of groups. -/
theorem codec_bijective :
    (∀ items, (∃ e, encode items = .error e) ↔ ∃ bs ∈ items, 2 ^ 32 ≤ bs.length) ∧
    (∀ items e, encode items = .error e ↔
      ∃ i, FirstTooLong items i ∧ e = .plaintextTooLarge i) ∧
    (∀ items : List Bytes, (∀ bs ∈ items, bs.length < 2 ^ 32) →
      ∃ frame, encode items = .ok frame ∧ decode frame = .ok items) ∧
    (∀ frame items, decode frame = .ok items → encode items = .ok frame) ∧
    (∀ frame, (∃ items, decode frame = .ok items) ↔ IsFrame frame) ∧
    (∀ frame, ¬ IsFrame frame → decode frame = .error .malformedFrame) ∧
    (∀ items other frame, encode items = .ok frame → encode other = .ok frame →
      items = other) := by
  refine ⟨fun items => ?_, fun _ _ => encode_eq_error_iff, fun items hfit => ?_,
    fun _ _ => decode_eq_ok_iff_encode.1, fun _ => exists_decode_iff, fun frame hnone => ?_,
    fun items other frame hitems hother => ?_⟩
  · constructor
    · rintro ⟨e, he⟩
      obtain ⟨i, hfirst, -⟩ := encode_eq_error_iff.1 he
      obtain ⟨bs, hbs, hlong⟩ := hfirst.too_long
      exact ⟨bs, List.mem_of_getElem? hbs, hlong⟩
    · rintro ⟨bs, hbs, hlong⟩
      rcases forall_lt_or_firstTooLong items with hfit | ⟨i, hfirst⟩
      · exact absurd (hfit bs hbs) (Nat.not_lt.2 hlong)
      · exact ⟨_, encode_eq_error hfirst⟩
  · have hwritten : encode items = .ok (items.flatMap item) := encode_eq_ok_iff.2 ⟨hfit, rfl⟩
    exact ⟨_, hwritten, decode_eq_ok_iff_encode.2 hwritten⟩
  · cases h : decode frame with
    | ok items => exact absurd (exists_decode_iff.1 ⟨items, h⟩) hnone
    | error e => rw [decode_eq_error h]
  · have hread := decode_eq_ok_iff_encode.2 hitems
    rw [decode_eq_ok_iff_encode.2 hother] at hread
    exact (Except.ok.inj hread).symm

end SealedPoll.Frame
