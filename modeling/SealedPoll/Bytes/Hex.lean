import SealedPoll.Bytes.Basic
import SealedPoll.Text

/-!
# Hexadecimal text

* `Hex.encode` : two lower-case digits a byte;
* `Hex.decodeBytes`, `Hex.decode` : reads digits of either case. A text of odd length is refused
  first, else the least position that holds no digit is reported, lengths and positions in bytes of
  the text;
* `Hex.Fault.message` : the wording of a refusal.
-/

namespace SealedPoll.Hex

/-- Why a text is no hexadecimal form of bytes. -/
inductive Fault
  | oddLength
  | badDigit (byte : UInt8) (position : Nat)
deriving DecidableEq

/-- The wording of a refusal; the offending byte shows as the character of the same number. -/
def Fault.message : Fault → String
  | oddLength => "Odd number of digits"
  | badDigit byte position =>
    "Invalid character " ++ Text.quoteChar (Char.ofNat byte.toNat) ++ " at position " ++
      position.repr

/-- The lower-case digit of a value below 16. -/
def digit (n : Nat) : UInt8 := UInt8.ofNat (if n < 10 then 48 + n else 87 + n)

/-- The value of a digit of either case. -/
def digitValue? (b : UInt8) : Option Nat :=
  if 48 ≤ b.toNat ∧ b.toNat ≤ 57 then some (b.toNat - 48)
  else if 97 ≤ b.toNat ∧ b.toNat ≤ 102 then some (b.toNat - 87)
  else if 65 ≤ b.toNat ∧ b.toNat ≤ 70 then some (b.toNat - 55)
  else none

/-- Two digits a byte, the high half first. -/
def digits (bs : Bytes) : Bytes :=
  bs.flatMap fun b => [digit (b.toNat / 16), digit (b.toNat % 16)]

/-- The bytes of pairs of digits, the first of which stands at `position`. -/
def decodePairs (position : Nat) : Bytes → Except Fault Bytes
  | hi :: lo :: rest =>
    match digitValue? hi, digitValue? lo with
    | none, _ => .error (.badDigit hi position)
    | some _, none => .error (.badDigit lo (position + 1))
    | some h, some l => (decodePairs (position + 2) rest).map (UInt8.ofNat (16 * h + l) :: ·)
  | _ => .ok []

/-- The bytes that hexadecimal digits denote. -/
def decodeBytes (ds : Bytes) : Except Fault Bytes :=
  if ds.length % 2 = 1 then .error .oddLength else decodePairs 0 ds

/-- The hexadecimal text of bytes. -/
def encode (bs : Bytes) : String :=
  String.ofList ((digits bs).map fun d => Char.ofNat d.toNat)

/-- The bytes that a hexadecimal text denotes. -/
def decode (s : String) : Except Fault Bytes := decodeBytes (Text.utf8 s)

end SealedPoll.Hex
