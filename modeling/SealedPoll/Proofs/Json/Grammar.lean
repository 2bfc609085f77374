import SealedPoll.Json.Skip
import SealedPoll.Proofs.Bytes.Hex

/-!
# The grammar of JSON

Texts as lists of characters, put together from their parts.

* `IsBlanks`, `IsNumber` : blanks and numbers;
* `IsText`, `Spells` : what stands between the marks of a string, and the characters that it
  denotes. Code units of a surrogate pair that stand alone are a text but spell nothing;
* `IsValue` : values, nested to any depth.
-/

namespace SealedPoll.Json

/-- Spaces, tabs and ends of lines. -/
def IsBlanks (w : List Char) : Prop := ∀ c ∈ w, c ∈ [' ', '\t', '\n', '\r']

/-! ## Numbers -/

/-- One or more digits. -/
def IsDigits (w : List Char) : Prop := w ≠ [] ∧ ∀ c ∈ w, c.isDigit

/-- Digits without a needless zero in front. -/
def IsWhole (w : List Char) : Prop := IsDigits w ∧ (w.head? = some '0' → w = ['0'])

inductive IsFraction : List Char → Prop
  | none : IsFraction []
  | digits {ds : List Char} : IsDigits ds → IsFraction ('.' :: ds)

inductive IsExponent : List Char → Prop
  | none : IsExponent []
  | digits {mark : Char} {sign ds : List Char} :
      mark ∈ ['e', 'E'] → sign ∈ [[], ['+'], ['-']] → IsDigits ds →
        IsExponent (mark :: sign ++ ds)

inductive IsNumber : List Char → Prop
  | parts {sign whole fraction exponent : List Char} :
      sign ∈ [[], ['-']] → IsWhole whole → IsFraction fraction → IsExponent exponent →
        IsNumber (sign ++ whole ++ fraction ++ exponent)

/-! ## Strings -/

/-- Four hexadecimal digits and the code unit that they denote. -/
inductive IsUnit : List Char → Nat → Prop
  | digits {a b c d : Char} {x y z w : Nat} :
      Hex.IsDigit a x → Hex.IsDigit b y → Hex.IsDigit c z → Hex.IsDigit d w →
        IsUnit [a, b, c, d] (16 * (16 * (16 * x + y) + z) + w)

/-- The letters that follow a backslash, with the characters that they stand for. -/
def shortEscapes : List (Char × Char) :=
  [('\x22', '\x22'), ('\x5c', '\x5c'), ('/', '/'), ('b', '\x08'), ('f', '\x0c'), ('n', '\n'),
    ('r', '\r'), ('t', '\t')]

/-- How a piece of a string is written. -/
inductive IsPiece : List Char → Piece → Prop
  | plain {c : Char} : ' ' ≤ c → c ≠ '\x22' → c ≠ '\x5c' → IsPiece [c] (.char c)
  | escape {letter c : Char} : (letter, c) ∈ shortEscapes → IsPiece ['\x5c', letter] (.char c)
  | unit {ds : List Char} {value : Nat} :
      IsUnit ds value → IsPiece ('\x5c' :: 'u' :: ds) (.unit value)

/-- What stands between the marks of a string. -/
inductive IsText : List Char → Prop
  | nil : IsText []
  | cons {w more : List Char} {piece : Piece} : IsPiece w piece → IsText more → IsText (w ++ more)

/-- How a character is written: one beyond 16 bits as a surrogate pair, if it is not written
plainly. -/
inductive SpellsChar : List Char → Char → Prop
  | char {w : List Char} {c : Char} : IsPiece w (.char c) → SpellsChar w c
  | unit {w : List Char} {value : Nat} :
      IsPiece w (.unit value) → value < 0xd800 ∨ 0xe000 ≤ value → SpellsChar w (Char.ofNat value)
  | pair {v w : List Char} {high low : Nat} :
      IsPiece v (.unit high) → 0xd800 ≤ high → high < 0xdc00 →
      IsPiece w (.unit low) → 0xdc00 ≤ low → low < 0xe000 →
        SpellsChar (v ++ w) (Char.ofNat (0x10000 + 0x400 * (high - 0xd800) + (low - 0xdc00)))

/-- The characters that stand between the marks of a string, and those that the string denotes. -/
inductive Spells : List Char → List Char → Prop
  | nil : Spells [] []
  | cons {w more text : List Char} {c : Char} :
      SpellsChar w c → Spells more text → Spells (w ++ more) (c :: text)

/-- A string with its marks, and the characters that it denotes. -/
inductive IsString : List Char → List Char → Prop
  | quoted {body text : List Char} :
      Spells body text → IsString ('\x22' :: body ++ ['\x22']) text

/-! ## Values -/

inductive IsScalar : List Char → Prop
  | word {w : String} : w ∈ ["null", "true", "false"] → IsScalar w.toList
  | number {w : List Char} : IsNumber w → IsScalar w
  | text {body : List Char} : IsText body → IsScalar ('\x22' :: body ++ ['\x22'])

/-- An item between brackets: what comes before its value, and its value with the blanks around. -/
structure Item where
  label : List Char
  before : List Char
  value : List Char
  after : List Char

namespace Item

def text (item : Item) : List Char := item.label ++ item.before ++ item.value ++ item.after

/-- Items with a comma in front of each. -/
def further (items : List Item) : List Char := items.flatMap fun item => ',' :: item.text

/-- The items of a map have names, those of a sequence do not. -/
def IsLabel : Bracket → List Char → Prop
  | .square, label => label = []
  | .curly, label => ∃ before body after, IsBlanks before ∧ IsText body ∧ IsBlanks after ∧
      label = before ++ '\x22' :: body ++ '\x22' :: after ++ [':']

/-- Everything of an item is as it has to be inside the brackets, leaving its value aside. -/
structure Fits (b : Bracket) (item : Item) : Prop where
  label : IsLabel b item.label
  before : IsBlanks item.before
  after : IsBlanks item.after

end Item

/-- The opening bracket. -/
def Bracket.opening : Bracket → Char
  | square => '['
  | curly => '\x7b'

inductive IsValue : List Char → Prop
  | scalar {w : List Char} : IsScalar w → IsValue w
  | empty {b : Bracket} {blanks : List Char} :
      IsBlanks blanks → IsValue (b.opening :: blanks ++ [b.close])
  | items {b : Bracket} {first : Item} {more : List Item} :
      (∀ item ∈ first :: more, item.Fits b) → (∀ item ∈ first :: more, IsValue item.value) →
        IsValue (b.opening :: first.text ++ Item.further more ++ [b.close])

theorem SpellsChar.isText {w : List Char} {c : Char} (h : SpellsChar w c) {more : List Char}
    (hmore : IsText more) : IsText (w ++ more) := by
  cases h with
  | char hc => exact .cons hc hmore
  | unit hu _ => exact .cons hu hmore
  | pair hhigh _ _ hlow _ _ =>
    rw [List.append_assoc]
    exact .cons hhigh (.cons hlow hmore)

theorem Spells.isText {body text : List Char} (h : Spells body text) : IsText body := by
  induction h with
  | nil => exact .nil
  | cons hc _ ih => exact hc.isText ih

theorem IsString.isValue {w text : List Char} (h : IsString w text) : IsValue w := by
  cases h with
  | quoted h => exact .scalar (.text h.isText)

end SealedPoll.Json
