import Mathlib
import SealedPoll.Frame

/-!
# Frames and their items

* `encodeFrom_of_lt`, `encodeFrom_of_le` : the frame of items that fit, and the refusal that names
  the first that does not;
* `decode_item_append` : one item in front of any frame; `decode_flatMap_item` : all items read back;
* `length_flatMap_item` : each item takes four bytes more than it has.
-/

namespace SealedPoll.Frame

/-! ## Writing -/

@[simp] theorem length_item (bs : Bytes) : (item bs).length = bs.length + 4 := by
  simp [item, Nat.add_comm]

theorem length_flatMap_item (items : List Bytes) :
    (items.flatMap item).length = (items.map fun bs => bs.length + 4).sum := by
  simp [List.length_flatMap]

/-- Items that all fit are written one after the other. -/
theorem encodeFrom_of_lt {items : List Bytes} (h : ∀ bs ∈ items, bs.length < itemBound)
    (index : Nat) : encodeFrom index items = .ok (items.flatMap item) := by
  induction items generalizing index with
  | nil => rfl
  | cons bs rest ih =>
    have hbs : bs.length < itemBound := h bs (by simp)
    have hrest := ih (fun x hx => h x (by simp [hx])) (index + 1)
    rw [encodeFrom, if_pos hbs, hrest]
    rfl

/-- The first item that does not fit is named. -/
theorem encodeFrom_of_le {front : List Bytes} {bs : Bytes}
    (hfront : ∀ x ∈ front, x.length < itemBound) (hbs : itemBound ≤ bs.length) (back : List Bytes)
    (index : Nat) :
    encodeFrom index (front ++ bs :: back) = .error (.plaintextTooLarge (index + front.length)) := by
  induction front generalizing index with
  | nil =>
    rw [List.nil_append, encodeFrom, if_neg (Nat.not_lt.2 hbs)]
    rfl
  | cons x front ih =>
    have hx : x.length < itemBound := hfront x (by simp)
    have hrest := ih (fun y hy => hfront y (by simp [hy])) (index + 1)
    rw [List.cons_append, encodeFrom, if_pos hx, hrest, List.length_cons,
      show index + 1 + front.length = index + (front.length + 1) by omega]
    rfl

/-! ## Reading -/

theorem splitItem_item_append {bs : Bytes} (h : bs.length < itemBound) (rest : Bytes) :
    splitItem (item bs ++ rest) = .ok (bs, rest) := by
  have hsize : Bytes.toNatBE (Bytes.ofNatBE 4 bs.length) = bs.length := by
    rw [Bytes.toNatBE_ofNatBE, Nat.mod_eq_of_lt (by simpa [itemBound] using h)]
  have hhead : (item bs ++ rest).take 4 = Bytes.ofNatBE 4 bs.length := by
    simp [item]
  have htail : (item bs ++ rest).drop 4 = bs ++ rest := by
    simp [item]
  simp [splitItem, hhead, htail, hsize]

theorem decode_of_splitItem {frame first rest : Bytes} (hne : frame ≠ [])
    (h : splitItem frame = .ok (first, rest)) : decode frame = (decode rest).map (first :: ·) := by
  rw [decode, if_neg hne]
  split
  · next e he => rw [h] at he; cases he
  · next first' rest' he =>
    rw [h] at he
    cases he
    rfl

theorem decode_item_append {bs : Bytes} (h : bs.length < itemBound) (rest : Bytes) :
    decode (item bs ++ rest) = (decode rest).map (bs :: ·) := by
  apply decode_of_splitItem
  · intro hnil
    have hlen := congrArg List.length hnil
    simp at hlen
  · exact splitItem_item_append h rest

theorem decode_flatMap_item {items : List Bytes} (h : ∀ bs ∈ items, bs.length < itemBound) :
    decode (items.flatMap item) = .ok items := by
  induction items with
  | nil => rw [List.flatMap_nil, decode, if_pos rfl]
  | cons bs rest ih =>
    rw [List.flatMap_cons, decode_item_append (h bs (by simp)),
      ih fun x hx => h x (by simp [hx])]
    rfl

end SealedPoll.Frame
