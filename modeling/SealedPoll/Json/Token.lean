import SealedPoll.Decimal.Shortest
import SealedPoll.Json.Numeral
import SealedPoll.Json.Strings
import SealedPoll.Text

/-!
# What a JSON value starts with

* `Token` : a scalar, or the opening bracket of a sequence or a map;
* `Token.read` : the first token of a text without blanks in front;
* `Token.describe` : how a token is called where another was expected.
-/

namespace SealedPoll.Json

/-- What a JSON value starts with. -/
inductive Token
  | null
  | boolean (value : Bool)
  | number (value : Numeral.Quantity)
  | string (text : List Char)
  | sequence
  | map
deriving DecidableEq

namespace Token

/-- The token, if the word that it has to end with follows. -/
def afterWord (token : Token) (word cs : List Char) : Except Fault Token :=
  match expectWord word cs with
  | .error fault => .error fault
  | .ok _ => .ok token

/-- The token of a number, which has to be in range. -/
def readNumber (cs : List Char) : Except Fault Token :=
  match Numeral.scan .cutOff cs with
  | .error fault => .error fault
  | .ok (n, _) =>
    match n.quantity? with
    | some value => .ok (.number value)
    | none => .error .malformed

/-- The first token of a text without blanks in front. -/
def read : List Char → Except Fault Token
  | [] => .error .cutOff
  | c :: cs =>
    if c = '\x22' then
      match readString cs with
      | .error fault => .error fault
      | .ok (text, _) => .ok (.string text)
    else if c = 'n' then afterWord .null ['u', 'l', 'l'] cs
    else if c = 't' then afterWord (.boolean true) ['r', 'u', 'e'] cs
    else if c = 'f' then afterWord (.boolean false) ['a', 'l', 's', 'e'] cs
    else if c = '-' ∨ c.isDigit then readNumber (c :: cs)
    else if c = '[' then .ok .sequence
    else if c = '\x7b' then .ok .map
    else .error .malformed

/-- Floating point numbers are written without exponent from `1e-5` up to `1e16`. -/
def floatStyle : Decimal.Style := ⟨-5, 15, ['e', '+'], ['e', '-']⟩

/-- How a token is called. -/
def describe : Token → String
  | null => "null"
  | boolean value => "boolean `" ++ (if value then "true" else "false") ++ "`"
  | number (.integer value) => "integer `" ++ value.repr ++ "`"
  | number (.float bits) =>
    "floating point `" ++ String.ofList (Decimal.printBits floatStyle bits) ++ "`"
  | string text => "string " ++ Text.quoteText (String.ofList text)
  | sequence => "sequence"
  | map => "map"

end Token

end SealedPoll.Json
