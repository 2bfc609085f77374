import SealedPoll.Bytes.Basic
import SealedPoll.Text.Properties

/-!
# Texts

* `utf8` : the UTF-8 form of a text, which determines it (`utf8_injective`); `ofUtf8?` reads the
  form back (`ofUtf8?_utf8`) and nothing else (`ofUtf8?_eq_some_iff`);
* `trim` : the text without the blanks at both ends;
* `readCount?` : reads a count, an optional plus sign and one or more ASCII digits, leading zeros
  included, of a value below `2 ^ 64`;
* `quoteText`, `quoteChar` : a text between two quotation marks, a character between two apostrophes.
  Inside, the mark, the backslash, NUL, tab, line feed and carriage return are escaped by a
  backslash, a character that cannot be seen by itself (`isInvisible`) is written by its code point
  in hexadecimal, and all others stand for themselves.
-/

namespace SealedPoll.Text
open scoped NatPower

/-! ## Bytes -/

/-- The UTF-8 form of a text. -/
def utf8 (s : String) : Bytes := s.toUTF8.data.toList

/-- The text with this UTF-8 form, if there is one. -/
def ofUtf8? (bs : Bytes) : Option String := String.fromUTF8? ⟨bs.toArray⟩

/-- The bytes are the UTF-8 form of some text. -/
def isUtf8 (bs : Bytes) : Bool := (ofUtf8? bs).isSome

@[simp] theorem ofUtf8?_utf8 (s : String) : ofUtf8? (utf8 s) = some s := by
  have h : (⟨s.toUTF8.data.toList.toArray⟩ : ByteArray) = s.toByteArray := rfl
  rw [ofUtf8?, utf8, h, String.fromUTF8?, dif_pos s.isValidUTF8]
  rfl

theorem ofUtf8?_eq_some_iff {bs : Bytes} {s : String} : ofUtf8? bs = some s ↔ bs = utf8 s := by
  constructor
  · intro h
    unfold ofUtf8? String.fromUTF8? at h
    split at h
    · obtain rfl := Option.some.inj h
      rfl
    · cases h
  · rintro rfl
    exact ofUtf8?_utf8 s

theorem utf8_injective {s t : String} (h : utf8 s = utf8 t) : s = t := by
  have := congrArg ofUtf8? h
  simpa using this

/-! ## Blanks -/

/-- The characters without the blanks at both ends. -/
def trimChars (cs : List Char) : List Char :=
  ((cs.dropWhile isBlank).reverse.dropWhile isBlank).reverse

/-- The text without the blanks at both ends. -/
def trim (s : String) : String := String.ofList (trimChars s.toList)

@[simp] theorem toList_trim (s : String) : (trim s).toList = trimChars s.toList := by
  simp [trim]

/-! ## Counts -/

/-- The value of an ASCII digit. -/
def digitValue? (c : Char) : Option Nat :=
  if '0' ≤ c ∧ c ≤ '9' then some (c.toNat - '0'.toNat) else none

/-- The value of digits read after others of value `value`. -/
def readDigits? : Nat → List Char → Option Nat
  | value, [] => some value
  | value, c :: cs => (digitValue? c).bind fun d => readDigits? (10 * value + d) cs

/-- The digits of a count without its sign. -/
def dropPlus : List Char → List Char
  | '+' :: cs => cs
  | cs => cs

/-- The value of a count, if the text is one. -/
def readCount? (cs : List Char) : Option UInt64 :=
  if dropPlus cs = [] then none
  else (readDigits? 0 (dropPlus cs)).bind fun n =>
    if n < 2 ^ (64 : Nat) then some (UInt64.ofNat n) else none

/-! ## Quotation -/

/-- The two sound marks of halfwidth katakana. They extend a grapheme, but they are letters with a
width of their own. -/
def isSoundMark (c : Char) : Bool := c = '\uff9e' || c = '\uff9f'

/-- The character cannot be seen by itself: it is unprintable or ignorable, or a mark that extends
the grapheme before it. -/
def isInvisible (c : Char) : Bool :=
  isUnprintable c || isIgnorable c || (isGraphemeExtend c && !isSoundMark c)

/-- A character between two marks, escaped where it needs to be. -/
def escapeChar (mark c : Char) : List Char :=
  if c = mark ∨ c = '\x5c' then ['\x5c', c]
  else if c = '\x00' then ['\x5c', '0']
  else if c = '\t' then ['\x5c', 't']
  else if c = '\n' then ['\x5c', 'n']
  else if c = '\r' then ['\x5c', 'r']
  else if isInvisible c then
    ['\x5c', 'u', '\x7b'] ++ Nat.toDigits 16 c.toNat ++ ['\x7d']
  else [c]

/-- The characters between two marks. -/
def quote (mark : Char) (cs : List Char) : List Char :=
  mark :: cs.flatMap (escapeChar mark) ++ [mark]

/-- A text in double quotation marks. -/
def quoteText (s : String) : String := String.ofList (quote '\x22' s.toList)

/-- A character in apostrophes. -/
def quoteChar (c : Char) : String := String.ofList (quote '\x27' [c])

end SealedPoll.Text
