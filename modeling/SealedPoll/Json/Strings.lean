import SealedPoll.Json.Scan

/-!
# JSON strings

The scanners start after the opening quotation mark.

* `readPiece` : the next character, escape or closing mark;
* `readString` : the characters that a string denotes, and what is left after it; code units of a
  surrogate pair have to come in pairs;
* `skipString` : what is left after a string, whatever its code units are.
-/

namespace SealedPoll.Json

/-- A piece of a string. -/
inductive Piece
  /-- The closing mark. -/
  | close
  | char (c : Char)
  /-- A code unit of 16 bits written with four digits. -/
  | unit (value : Nat)
deriving DecidableEq

/-- The value of a hexadecimal digit of either case. -/
def hexValue? (c : Char) : Option Nat :=
  if '0' ≤ c ∧ c ≤ '9' then some (c.toNat - 48)
  else if 'a' ≤ c ∧ c ≤ 'f' then some (c.toNat - 87)
  else if 'A' ≤ c ∧ c ≤ 'F' then some (c.toNat - 55)
  else none

/-- The value of hexadecimal digits read after others of value `value`. -/
def hexValues? : Nat → List Char → Option Nat
  | value, [] => some value
  | value, c :: cs => (hexValue? c).bind fun d => hexValues? (16 * value + d) cs

-- The zero of the sum is the numeral's.
attribute [local instance (2000)] Zero.ofOfNat0 in
/-- A code unit from its four digits; the text is cut off if less than four bytes are left. -/
def readUnit (cs : List Char) : Except Fault (Nat × List Char) :=
  if ((cs.take 4).map Char.utf8Size).sum < 4 then .error .cutOff
  else match hexValues? 0 (cs.take 4) with
    | some value => .ok (value, cs.drop 4)
    | none => .error .malformed

/-- The character that a letter stands for after a backslash. -/
def shortEscape? (c : Char) : Option Char :=
  if c = '\x22' ∨ c = '\x5c' ∨ c = '/' then some c
  else if c = 'b' then some '\x08'
  else if c = 'f' then some '\x0c'
  else if c = 'n' then some '\n'
  else if c = 'r' then some '\r'
  else if c = 't' then some '\t'
  else none

/-- The piece that follows a backslash. -/
def readEscape : List Char → Except Fault (Piece × List Char)
  | [] => .error .cutOff
  | c :: cs =>
    if c = 'u' then
      match readUnit cs with
      | .error fault => .error fault
      | .ok (value, rest) => .ok (.unit value, rest)
    else match shortEscape? c with
      | some escaped => .ok (.char escaped, cs)
      | none => .error .malformed

/-- The first piece of the rest of a string. -/
def readPiece : List Char → Except Fault (Piece × List Char)
  | [] => .error .cutOff
  | c :: cs =>
    if c = '\x22' then .ok (.close, cs)
    else if c = '\x5c' then readEscape cs
    else if c < ' ' then .error .malformed
    else .ok (.char c, cs)

/-- The first half of a surrogate pair. -/
def isHighSurrogate (value : Nat) : Bool := 0xd800 ≤ value && value < 0xdc00

/-- The second half of a surrogate pair. -/
def isLowSurrogate (value : Nat) : Bool := 0xdc00 ≤ value && value < 0xe000

/-- The character of a surrogate pair. -/
def pairChar (high low : Nat) : Char :=
  Char.ofNat ((high - 0xd800) * 0x400 + (low - 0xdc00) + 0x10000)

/-- The escape of a second half, which has to follow that of a first half. -/
def readLowSurrogate (cs : List Char) : Except Fault (Nat × List Char) :=
  match expectWord ['\x5c', 'u'] cs with
  | .error fault => .error fault
  | .ok rest =>
    match readUnit rest with
    | .error fault => .error fault
    | .ok (value, rest) => if isLowSurrogate value then .ok (value, rest) else .error .malformed

/-- The character that starts with a code unit, and what is left after it. -/
def readUnitChar (value : Nat) (cs : List Char) : Except Fault (Char × List Char) :=
  if isLowSurrogate value then .error .malformed
  else if isHighSurrogate value then
    match readLowSurrogate cs with
    | .error fault => .error fault
    | .ok (low, rest) => .ok (pairChar value low, rest)
  else .ok (Char.ofNat value, cs)

/-- The first character of the rest of a string, or none at its end. -/
def readChar (cs : List Char) : Except Fault (Option Char × List Char) :=
  match readPiece cs with
  | .error fault => .error fault
  | .ok (.close, rest) => .ok (none, rest)
  | .ok (.char c, rest) => .ok (some c, rest)
  | .ok (.unit value, rest) =>
    match readUnitChar value rest with
    | .error fault => .error fault
    | .ok (c, rest) => .ok (some c, rest)

theorem length_of_readUnit {cs rest : List Char} {value : Nat}
    (h : readUnit cs = .ok (value, rest)) : rest.length ≤ cs.length := by
  unfold readUnit at h
  grind

theorem length_of_readEscape {cs rest : List Char} {piece : Piece}
    (h : readEscape cs = .ok (piece, rest)) : rest.length < cs.length := by
  unfold readEscape at h
  grind [→ length_of_readUnit]

theorem length_of_readPiece {cs rest : List Char} {piece : Piece}
    (h : readPiece cs = .ok (piece, rest)) : rest.length < cs.length := by
  unfold readPiece at h
  grind [→ length_of_readEscape]

theorem length_of_readLowSurrogate {cs rest : List Char} {value : Nat}
    (h : readLowSurrogate cs = .ok (value, rest)) : rest.length ≤ cs.length := by
  unfold readLowSurrogate at h
  grind [→ length_of_readUnit, → length_of_expectWord]

theorem length_of_readUnitChar {value : Nat} {cs rest : List Char} {c : Char}
    (h : readUnitChar value cs = .ok (c, rest)) : rest.length ≤ cs.length := by
  unfold readUnitChar at h
  grind [→ length_of_readLowSurrogate]

theorem length_of_readChar {cs rest : List Char} {c : Option Char}
    (h : readChar cs = .ok (c, rest)) : rest.length < cs.length := by
  unfold readChar at h
  grind [→ length_of_readPiece, → length_of_readUnitChar]

/-- The characters that the rest of a string denotes, and what is left after it. -/
def readString (cs : List Char) : Except Fault (List Char × List Char) :=
  match h : readChar cs with
  | .error fault => .error fault
  | .ok (none, rest) => .ok ([], rest)
  | .ok (some c, rest) =>
    have := length_of_readChar h
    match readString rest with
    | .error fault => .error fault
    | .ok (text, rest) => .ok (c :: text, rest)
termination_by cs.length

/-- What is left after the rest of a string. -/
def skipString (cs : List Char) : Except Fault (List Char) :=
  match h : readPiece cs with
  | .error fault => .error fault
  | .ok (.close, rest) => .ok rest
  | .ok (.char _, rest) =>
    have := length_of_readPiece h
    skipString rest
  | .ok (.unit _, rest) =>
    have := length_of_readPiece h
    skipString rest
termination_by cs.length

theorem length_of_readString {cs text rest : List Char} (h : readString cs = .ok (text, rest)) :
    rest.length < cs.length := by
  fun_induction readString cs generalizing text with
  | case1 => simp at h
  | case2 cs rest hchar => grind [→ length_of_readChar]
  | case3 => simp at h
  | case4 cs c rest hchar hlt text rest hrest ih => grind

theorem length_of_skipString {cs rest : List Char} (h : skipString cs = .ok rest) :
    rest.length < cs.length := by
  fun_induction skipString cs with
  | case1 => simp at h
  | case2 cs rest hpiece => grind [→ length_of_readPiece]
  | case3 cs c rest hpiece hlt ih => grind
  | case4 cs value rest hpiece hlt ih => grind

end SealedPoll.Json
