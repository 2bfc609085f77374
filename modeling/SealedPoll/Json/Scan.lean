/-!
# Scanning JSON text

A scanner takes the characters that are left and answers those left after what it has read, or a
`Fault`.

* `skipBlanks` : the blanks of JSON;
* `expectWord` : the characters of a literal.
-/

namespace SealedPoll.Json

/-- Why a text is no JSON. -/
inductive Fault
  /-- No continuation of what has been read is JSON. -/
  | malformed
  /-- The text ends too early. -/
  | cutOff
deriving DecidableEq

/-- A space, a tab, or the end of a line. -/
def isBlank (c : Char) : Bool := c = ' ' || c = '\n' || c = '\t' || c = '\r'

/-- What is left after the blanks at the front. -/
def skipBlanks (cs : List Char) : List Char := cs.dropWhile isBlank

/-- What is left after the characters of a word. -/
def expectWord : List Char → List Char → Except Fault (List Char)
  | [], cs => .ok cs
  | _ :: _, [] => .error .cutOff
  | w :: ws, c :: cs => if c = w then expectWord ws cs else .error .malformed

/-- What is left after blanks and the character `mark`. -/
def expectMark (mark : Char) (cs : List Char) : Except Fault (List Char) :=
  match skipBlanks cs with
  | [] => .error .cutOff
  | c :: rest => if c = mark then .ok rest else .error .malformed

theorem length_skipBlanks_le (cs : List Char) : (skipBlanks cs).length ≤ cs.length :=
  (List.dropWhile_suffix isBlank).length_le

theorem length_of_skipBlanks {cs rest : List Char} {c : Char} (h : skipBlanks cs = c :: rest) :
    rest.length < cs.length := by
  have hle := length_skipBlanks_le cs
  rw [h, List.length_cons] at hle
  omega

theorem length_of_expectWord {word cs rest : List Char} (h : expectWord word cs = .ok rest) :
    rest.length ≤ cs.length := by
  induction word generalizing cs with
  | nil => simp_all [expectWord]
  | cons w ws ih =>
    cases cs with
    | nil => simp [expectWord] at h
    | cons c cs =>
      simp only [expectWord] at h
      split at h
      · have := ih h
        simp only [List.length_cons]
        omega
      · simp at h

theorem length_of_expectMark {mark : Char} {cs rest : List Char}
    (h : expectMark mark cs = .ok rest) : rest.length < cs.length := by
  unfold expectMark at h
  split at h
  · simp at h
  · next hblank =>
    split at h
    · injection h with h
      subst h
      exact length_of_skipBlanks hblank
    · simp at h

end SealedPoll.Json
