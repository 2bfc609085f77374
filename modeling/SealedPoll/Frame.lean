import SealedPoll.Bytes.Endian
import SealedPoll.Error

/-!
# Frames

A frame writes a list of byte strings as one: each item follows its length, four bytes most
significant first. The empty list is the empty frame.

* `Frame.encode` : refused if an item is too long for its length to fit, naming the first such item;
* `Frame.decode` : the items of a frame; what is not a whole number of items is refused.
-/

namespace SealedPoll.Frame
open scoped NatPower

/-- No item is this long. -/
def itemBound : Nat := 2 ^ (32 : Nat)

/-- An item after its length. -/
def item (bs : Bytes) : Bytes := Bytes.ofNatBE 4 bs.length ++ bs

/-- The frame of items, the first of which has position `index`. -/
def encodeFrom (index : Nat) : List Bytes → Except Error Bytes
  | [] => .ok []
  | bs :: rest =>
    if bs.length < itemBound then (encodeFrom (index + 1) rest).map (item bs ++ ·)
    else .error (.plaintextTooLarge index)

/-- The frame of a list of items. -/
def encode (items : List Bytes) : Except Error Bytes := encodeFrom 0 items

/-- The first item of a frame that is not empty, and what follows it. -/
def splitItem (frame : Bytes) : Except Error (Bytes × Bytes) :=
  let head := frame.take 4
  if head.length < 4 then .error .malformedFrame
  else
    let size := Bytes.toNatBE head
    let rest := frame.drop 4
    let first := rest.take size
    if first.length < size then .error .malformedFrame else .ok (first, rest.drop size)

theorem length_of_splitItem {frame first rest : Bytes} (h : splitItem frame = .ok (first, rest)) :
    rest.length < frame.length := by
  unfold splitItem at h
  grind

/-- The items of a frame. -/
def decode (frame : Bytes) : Except Error (List Bytes) :=
  if frame = [] then .ok []
  else match h : splitItem frame with
    | .error e => .error e
    | .ok (first, rest) =>
      have := length_of_splitItem h
      (decode rest).map (first :: ·)
termination_by frame.length

end SealedPoll.Frame
