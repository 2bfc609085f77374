import SealedPoll.Bytes.Basic
import SealedPoll.Json.Scan

/-!
# JSON numbers

* `Numeral` : the parts of a number, read by `Numeral.scan`;
* `Numeral.quantity?` : what it is worth, a whole number of at most 64 bits or a floating point
  number, unless it is out of range. Digits past the first 64 bits only shift the exponent, and the
  power of ten is applied to the floating point form of the others.
-/

namespace SealedPoll.Json
open scoped NatPower

/-- The parts of a number. -/
structure Numeral where
  negative : Bool
  whole : List Char
  /-- The digits after the point, if there is one. -/
  fraction? : Option (List Char)
  /-- The sign and the digits of the exponent, if there is one. -/
  exponent? : Option (Bool × List Char)
deriving DecidableEq

namespace Numeral

/-- One or more digits; `atEnd` is reported if the text has ended. -/
def scanDigits (atEnd : Fault) (cs : List Char) : Except Fault (List Char × List Char) :=
  match cs with
  | [] => .error atEnd
  | c :: _ =>
    if c.isDigit then .ok (cs.takeWhile Char.isDigit, cs.dropWhile Char.isDigit)
    else .error .malformed

/-- Digits without a needless zero in front. -/
def scanWhole (atEnd : Fault) (cs : List Char) : Except Fault (List Char × List Char) :=
  match scanDigits atEnd cs with
  | .error fault => .error fault
  | .ok (digits, rest) =>
    if digits.head? = some '0' ∧ digits ≠ ['0'] then .error .malformed else .ok (digits, rest)

/-- A point with digits, if there is a point. -/
def scanFraction (atEnd : Fault) : List Char → Except Fault (Option (List Char) × List Char)
  | [] => .ok (none, [])
  | c :: cs =>
    if c = '.' then
      match scanDigits atEnd cs with
      | .error fault => .error fault
      | .ok (digits, rest) => .ok (some digits, rest)
    else .ok (none, c :: cs)

/-- Whether there is a minus sign, and what is left after a sign. -/
def scanSign : List Char → Bool × List Char
  | [] => (false, [])
  | c :: cs => if c = '-' then (true, cs) else if c = '+' then (false, cs) else (false, c :: cs)

/-- A mark with an exponent, if there is a mark. -/
def scanExponent (atEnd : Fault) :
    List Char → Except Fault (Option (Bool × List Char) × List Char)
  | [] => .ok (none, [])
  | c :: cs =>
    if c = 'e' ∨ c = 'E' then
      match scanDigits atEnd (scanSign cs).2 with
      | .error fault => .error fault
      | .ok (digits, rest) => .ok (some ((scanSign cs).1, digits), rest)
    else .ok (none, c :: cs)

/-- The parts of a number after its sign. -/
def scanUnsigned (atEnd : Fault) (negative : Bool) (cs : List Char) :
    Except Fault (Numeral × List Char) :=
  match scanWhole atEnd cs with
  | .error fault => .error fault
  | .ok (whole, cs) =>
    match scanFraction atEnd cs with
    | .error fault => .error fault
    | .ok (fraction?, cs) =>
      match scanExponent atEnd cs with
      | .error fault => .error fault
      | .ok (exponent?, cs) => .ok (⟨negative, whole, fraction?, exponent?⟩, cs)

/-- The parts of a number; `atEnd` is reported if the text ends inside it. -/
def scan (atEnd : Fault) : List Char → Except Fault (Numeral × List Char)
  | [] => .error atEnd
  | c :: cs => if c = '-' then scanUnsigned atEnd true cs else scanUnsigned atEnd false (c :: cs)

theorem length_of_scanDigits {atEnd : Fault} {cs digits rest : List Char}
    (h : scanDigits atEnd cs = .ok (digits, rest)) : rest.length < cs.length := by
  unfold scanDigits at h
  split at h
  · simp at h
  · next c cs =>
    split at h
    · next hc =>
      have := (List.dropWhile_suffix (l := cs) Char.isDigit).length_le
      simp only [List.dropWhile_cons_of_pos hc, Except.ok.injEq, Prod.mk.injEq] at h
      rw [← h.2, List.length_cons]
      omega
    · simp at h

theorem length_of_scanWhole {atEnd : Fault} {cs digits rest : List Char}
    (h : scanWhole atEnd cs = .ok (digits, rest)) : rest.length < cs.length := by
  unfold scanWhole at h
  grind [→ length_of_scanDigits]

theorem length_of_scanFraction {atEnd : Fault} {cs rest : List Char}
    {digits? : Option (List Char)} (h : scanFraction atEnd cs = .ok (digits?, rest)) :
    rest.length ≤ cs.length := by
  unfold scanFraction at h
  grind [→ length_of_scanDigits]

theorem length_scanSign_le (cs : List Char) : (scanSign cs).2.length ≤ cs.length := by
  unfold scanSign
  grind

theorem length_of_scanExponent {atEnd : Fault} {cs rest : List Char}
    {exponent? : Option (Bool × List Char)} (h : scanExponent atEnd cs = .ok (exponent?, rest)) :
    rest.length ≤ cs.length := by
  unfold scanExponent at h
  grind [→ length_of_scanDigits, length_scanSign_le]

theorem length_of_scan {atEnd : Fault} {cs rest : List Char} {n : Numeral}
    (h : scan atEnd cs = .ok (n, rest)) : rest.length < cs.length := by
  unfold scan scanUnsigned at h
  grind [→ length_of_scanWhole, → length_of_scanFraction, → length_of_scanExponent]

/-- The value of digits read after others of value `value` as far as it stays below `2 ^ 64`, and
the number of digits left over. -/
def absorb : Nat → List Char → Nat × Nat
  | value, [] => (value, 0)
  | value, c :: cs =>
    let next := 10 * value + (c.toNat - '0'.toNat)
    if next < 2 ^ (64 : Nat) then absorb next cs else (value, cs.length + 1)

/-- What a number is worth. -/
inductive Quantity
  | integer (value : Int)
  /-- The bits of a number of double precision. -/
  | float (bits : UInt64)
deriving DecidableEq

/-- A power of ten of double precision, at most `10 ^ 308`. -/
def powerOfTen (n : Nat) : Float := Float.ofScientific 1 false n

/-- A number times a power of ten, unless the product is too large. -/
def scaleByTen (x : Float) (exponent : Int) : Option Float :=
  if -308 ≤ exponent ∧ exponent < 0 then some (x / powerOfTen exponent.natAbs)
  else if 0 ≤ exponent ∧ exponent ≤ 308 then
    let product := x * powerOfTen exponent.toNat
    if product.isInf then none else some product
  else if x == 0 then some x
  else if 0 ≤ exponent then none
  else scaleByTen (x / powerOfTen 308) (exponent + 308)
termination_by (-exponent).toNat

/-- A number of double precision with a sign. -/
def signed (negative : Bool) (x : Float) : Quantity := .float (if negative then -x else x).toBits

/-- The value of an exponent, zero if there is none. -/
def exponentValue : Option (Bool × List Char) → Int
  | none => 0
  | some (negative, digits) =>
    let value := Int.ofNat (digits.foldl (fun v c => 10 * v + (c.toNat - '0'.toNat)) 0)
    if negative then -value else value

/-- What a number is worth, unless it is out of range. Zero with a minus sign is no integer. -/
def quantity? (n : Numeral) : Option Quantity :=
  let (value, left) := absorb 0 n.whole
  if left = 0 ∧ n.fraction? = none ∧ n.exponent? = none then
    if !n.negative then some (.integer value)
    else if 0 < value ∧ value ≤ 2 ^ (63 : Nat) then some (.integer (-value))
    else some (signed true (UInt64.ofNat value).toFloat)
  else
    let fraction := n.fraction?.getD []
    let (value, ignored) := absorb value fraction
    let shift := Int.ofNat left - Int.ofNat (fraction.length - ignored)
    let exponent := shift + exponentValue n.exponent?
    (scaleByTen (UInt64.ofNat value).toFloat exponent).map (signed n.negative)

end Numeral

end SealedPoll.Json
