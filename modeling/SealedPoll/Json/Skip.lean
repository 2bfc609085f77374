import SealedPoll.Json.Numeral
import SealedPoll.Json.Strings

/-!
# Skipping JSON values

`skipValue` goes past one value of any shape, nested to any depth. Only its form is looked at:
numbers have no range, code units need not come in pairs, and names may be repeated.
-/

namespace SealedPoll.Json

/-- The brackets of a sequence or of a map. -/
inductive Bracket
  | square
  | curly
deriving DecidableEq

/-- The closing bracket. -/
def Bracket.close : Bracket → Char
  | square => ']'
  | curly => '\x7d'

/-- What is expected inside brackets. -/
inductive Expected
  /-- The first item or the closing bracket. -/
  | first
  /-- A comma or the closing bracket. -/
  | next
  | value
deriving DecidableEq

/-- What is left after a literal, a number or a string. -/
def skipScalar : List Char → Except Fault (List Char)
  | [] => .error .cutOff
  | c :: cs =>
    if c = '\x22' then skipString cs
    else if c = 'n' then expectWord ['u', 'l', 'l'] cs
    else if c = 't' then expectWord ['r', 'u', 'e'] cs
    else if c = 'f' then expectWord ['a', 'l', 's', 'e'] cs
    else if c = '-' ∨ c.isDigit then
      match Numeral.scan .malformed (c :: cs) with
      | .error fault => .error fault
      | .ok (_, rest) => .ok rest
    else .error .malformed

/-- What is left after the name of an item and the colon; sequences have no names. -/
def skipName (b : Bracket) (cs : List Char) : Except Fault (List Char) :=
  match b with
  | .square => .ok cs
  | .curly =>
    match expectMark '\x22' cs with
    | .error fault => .error fault
    | .ok cs =>
      match skipString cs with
      | .error fault => .error fault
      | .ok cs => expectMark ':' cs

theorem length_of_skipScalar {cs rest : List Char} (h : skipScalar cs = .ok rest) :
    rest.length < cs.length := by
  unfold skipScalar at h
  grind [→ length_of_skipString, → length_of_expectWord, → Numeral.length_of_scan]

theorem length_of_skipName {b : Bracket} {cs rest : List Char} (h : skipName b cs = .ok rest) :
    rest.length ≤ cs.length := by
  unfold skipName at h
  grind [→ length_of_skipString, → length_of_expectMark]

/-- What is left after a value, or the rest of one, inside brackets of which the innermost comes
first. -/
def skipInside (expected : Expected) (opened : List Bracket) (cs : List Char) :
    Except Fault (List Char) :=
  match expected, opened with
  | .value, _ =>
    match hc : skipBlanks cs with
    | [] => .error .cutOff
    | c :: rest =>
      have := length_of_skipBlanks hc
      if c = '[' then skipInside .first (.square :: opened) rest
      else if c = '\x7b' then skipInside .first (.curly :: opened) rest
      else match hs : skipScalar (c :: rest) with
        | .error fault => .error fault
        | .ok left =>
          have := length_of_skipScalar hs
          skipInside .next opened left
  | .first, [] => .ok cs
  | .next, [] => .ok cs
  | .first, b :: outer =>
    match hc : skipBlanks cs with
    | [] => .error .cutOff
    | c :: rest =>
      have := length_of_skipBlanks hc
      if c = b.close then skipInside .next outer rest
      else match hn : skipName b (c :: rest) with
        | .error fault => .error fault
        | .ok left =>
          have := length_of_skipName hn
          skipInside .value opened left
  | .next, b :: outer =>
    match hc : skipBlanks cs with
    | [] => .error .cutOff
    | c :: rest =>
      have := length_of_skipBlanks hc
      if c = b.close then skipInside .next outer rest
      else if c = ',' then
        match hn : skipName b rest with
        | .error fault => .error fault
        | .ok left =>
          have := length_of_skipName hn
          skipInside .value opened left
      else .error .malformed
termination_by 2 * cs.length + if expected = .first then 1 else 0
decreasing_by all_goals simp_all; try omega

/-- What is left after a value. -/
def skipValue (cs : List Char) : Except Fault (List Char) := skipInside .value [] cs

theorem length_of_skipInside {expected : Expected} {opened : List Bracket} {cs rest : List Char}
    (h : skipInside expected opened cs = .ok rest) : rest.length ≤ cs.length := by
  fun_induction skipInside expected opened cs <;> grind

theorem length_of_skipValue {cs rest : List Char} (h : skipValue cs = .ok rest) :
    rest.length ≤ cs.length :=
  length_of_skipInside h

end SealedPoll.Json
