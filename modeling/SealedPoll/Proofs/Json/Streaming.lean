import SealedPoll.Json.Token
import SealedPoll.Proofs.Json.Values

/-!
# Texts are read front to back

What a scanner has read stays read when the text goes on, and a text that ends inside what a scanner
reads is cut off.

* `expectWord_extend`, `readString_extend`, `skipName_extend` : scanners that know where to stop;
* `scan_extend`, `skipValue_extend` : a number may go on, so something has to be left after it;
* `Token.read_extend` : the first token, if it is no number;
* `Cuts`, `cuts_append` : a text is cut off wherever it ends too early;
* `Spells.cuts` : strings are.
-/

namespace SealedPoll.Json

variable {cs rest : List Char}

/-! ## Longer texts -/

theorem skipBlanks_extend {c : Char} (h : skipBlanks cs = c :: rest) (more : List Char) :
    skipBlanks (cs ++ more) = c :: (rest ++ more) := by
  obtain ⟨hc, w, hw, rfl⟩ := skipBlanks_eq_cons_iff.1 h
  rw [List.append_assoc, List.cons_append, skipBlanks_append_cons hw hc]

theorem expectWord_extend {word : List Char} (h : expectWord word cs = .ok rest)
    (more : List Char) : expectWord word (cs ++ more) = .ok (rest ++ more) := by
  obtain rfl := expectWord_eq_ok_iff.1 h
  exact expectWord_eq_ok_iff.2 (List.append_assoc ..)

theorem expectMark_extend {mark : Char} (hmark : isBlank mark = false)
    (h : expectMark mark cs = .ok rest) (more : List Char) :
    expectMark mark (cs ++ more) = .ok (rest ++ more) := by
  obtain ⟨w, hw, rfl⟩ := (expectMark_eq_ok_iff hmark).1 h
  exact (expectMark_eq_ok_iff hmark).2 ⟨w, hw, List.append_assoc ..⟩

theorem readString_extend {text : List Char} (h : readString cs = .ok (text, rest))
    (more : List Char) : readString (cs ++ more) = .ok (text, rest ++ more) := by
  obtain ⟨body, hbody, rfl⟩ := readString_eq_ok_iff.1 h
  exact readString_eq_ok_iff.2 ⟨body, hbody, List.append_assoc ..⟩

theorem skipString_extend (h : skipString cs = .ok rest) (more : List Char) :
    skipString (cs ++ more) = .ok (rest ++ more) := by
  obtain ⟨body, hbody, rfl⟩ := skipString_eq_ok_iff.1 h
  exact skipString_eq_ok_iff.2 ⟨body, hbody, List.append_assoc ..⟩

theorem skipName_extend {b : Bracket} (h : skipName b cs = .ok rest) (more : List Char) :
    skipName b (cs ++ more) = .ok (rest ++ more) := by
  obtain ⟨label, hlabel, rfl⟩ := skipName_eq_ok_iff.1 h
  exact skipName_eq_ok_iff.2 ⟨label, hlabel, List.append_assoc ..⟩

/-! ### Numbers -/

namespace Numeral

variable {atEnd : Fault}

theorem noDigit_extend (h : NoDigit rest) (hne : rest ≠ []) (more : List Char) :
    NoDigit (rest ++ more) := by
  obtain ⟨c, tail, rfl⟩ := List.exists_cons_of_ne_nil hne
  exact h

theorem scanDigits_extend {digits : List Char} (h : scanDigits atEnd cs = .ok (digits, rest))
    (hne : rest ≠ []) (more : List Char) :
    scanDigits atEnd (cs ++ more) = .ok (digits, rest ++ more) := by
  obtain ⟨hdigits, rfl, hrest⟩ := scanDigits_eq_ok_iff.1 h
  exact scanDigits_eq_ok_iff.2 ⟨hdigits, List.append_assoc .., noDigit_extend hrest hne more⟩

theorem scanWhole_extend {digits : List Char} (h : scanWhole atEnd cs = .ok (digits, rest))
    (hne : rest ≠ []) (more : List Char) :
    scanWhole atEnd (cs ++ more) = .ok (digits, rest ++ more) := by
  obtain ⟨hdigits, rfl, hrest⟩ := scanWhole_eq_ok_iff.1 h
  exact scanWhole_eq_ok_iff.2 ⟨hdigits, List.append_assoc .., noDigit_extend hrest hne more⟩

theorem scanFraction_extend {digits? : Option (List Char)}
    (h : scanFraction atEnd cs = .ok (digits?, rest)) (hne : rest ≠ []) (more : List Char) :
    scanFraction atEnd (cs ++ more) = .ok (digits?, rest ++ more) := by
  unfold scanFraction at h
  split at h
  · obtain ⟨-, rfl⟩ := Prod.mk.inj (Except.ok.inj h)
    exact absurd rfl hne
  · next c cs =>
    rw [List.cons_append, scanFraction]
    split at h
    · next hc =>
      split at h
      · cases h
      · next digits left hdigits =>
        obtain ⟨rfl, rfl⟩ := Prod.mk.inj (Except.ok.inj h)
        rw [if_pos hc, scanDigits_extend hdigits hne]
    · next hc =>
      obtain ⟨rfl, rfl⟩ := Prod.mk.inj (Except.ok.inj h)
      rw [if_neg hc]
      rfl

theorem scanSign_extend (hne : cs ≠ []) (more : List Char) :
    scanSign (cs ++ more) = ((scanSign cs).1, (scanSign cs).2 ++ more) := by
  obtain ⟨c, tail, rfl⟩ := List.exists_cons_of_ne_nil hne
  simp only [List.cons_append, scanSign]
  split
  · rfl
  · split <;> rfl

theorem scanExponent_extend {exponent? : Option (Bool × List Char)}
    (h : scanExponent atEnd cs = .ok (exponent?, rest)) (hne : rest ≠ []) (more : List Char) :
    scanExponent atEnd (cs ++ more) = .ok (exponent?, rest ++ more) := by
  unfold scanExponent at h
  split at h
  · obtain ⟨-, rfl⟩ := Prod.mk.inj (Except.ok.inj h)
    exact absurd rfl hne
  · next c cs =>
    rw [List.cons_append, scanExponent]
    split at h
    · next hc =>
      split at h
      · cases h
      · next digits left hdigits =>
        obtain ⟨rfl, rfl⟩ := Prod.mk.inj (Except.ok.inj h)
        have hsign : cs ≠ [] := by
          rintro rfl
          cases hdigits
        rw [if_pos hc, scanSign_extend hsign, scanDigits_extend hdigits hne]
    · next hc =>
      obtain ⟨rfl, rfl⟩ := Prod.mk.inj (Except.ok.inj h)
      rw [if_neg hc]
      rfl

theorem scanUnsigned_extend {negative : Bool} {n : Numeral}
    (h : scanUnsigned atEnd negative cs = .ok (n, rest)) (hne : rest ≠ []) (more : List Char) :
    scanUnsigned atEnd negative (cs ++ more) = .ok (n, rest ++ more) := by
  unfold scanUnsigned at h
  split at h
  · cases h
  · next whole left₁ h₁ =>
    split at h
    · cases h
    · next fraction? left₂ h₂ =>
      split at h
      · cases h
      · next exponent? left₃ h₃ =>
        obtain ⟨rfl, rfl⟩ := Prod.mk.inj (Except.ok.inj h)
        -- what is left at the end was left after each part
        have hle₃ := length_of_scanExponent h₃
        have hle₂ := length_of_scanFraction h₂
        have hlen := List.length_pos_iff.2 hne
        have hne₂ : left₂ ≠ [] := List.ne_nil_of_length_pos (by omega)
        have hne₁ : left₁ ≠ [] := List.ne_nil_of_length_pos (by omega)
        simp only [scanUnsigned, scanWhole_extend h₁ hne₁, scanFraction_extend h₂ hne₂,
          scanExponent_extend h₃ hne]

theorem scan_extend {n : Numeral} (h : scan atEnd cs = .ok (n, rest)) (hne : rest ≠ [])
    (more : List Char) : scan atEnd (cs ++ more) = .ok (n, rest ++ more) := by
  unfold scan at h
  split at h
  · cases h
  · next c cs =>
    rw [List.cons_append, scan]
    split at h
    · next hc => rw [if_pos hc, scanUnsigned_extend h hne]
    · next hc => rw [if_neg hc, ← List.cons_append, scanUnsigned_extend h hne]

end Numeral

/-! ### Values -/

theorem skipScalar_extend (h : skipScalar cs = .ok rest) (hne : rest ≠ []) (more : List Char) :
    skipScalar (cs ++ more) = .ok (rest ++ more) := by
  cases cs with
  | nil => cases h
  | cons c cs =>
    simp only [skipScalar] at h
    rw [List.cons_append, skipScalar]
    split_ifs at h with hquote hnull htrue hfalse hnumber
    · rw [if_pos hquote, skipString_extend h]
    · rw [if_neg hquote, if_pos hnull, expectWord_extend h]
    · rw [if_neg hquote, if_neg hnull, if_pos htrue, expectWord_extend h]
    · rw [if_neg hquote, if_neg hnull, if_neg htrue, if_pos hfalse, expectWord_extend h]
    · rw [if_neg hquote, if_neg hnull, if_neg htrue, if_neg hfalse, if_pos hnumber]
      split at h
      · cases h
      · next n left hscan =>
        obtain rfl := Except.ok.inj h
        rw [← List.cons_append, Numeral.scan_extend hscan hne]

/-- Something is left after what has been passed first if something is left at the end. -/
theorem ne_nil_of_skipInside {expected : Expected} {opened : List Bracket}
    (h : skipInside expected opened cs = .ok rest) (hne : rest ≠ []) : cs ≠ [] := by
  rintro rfl
  exact hne (List.length_eq_zero_iff.1 (Nat.le_zero.1 (length_of_skipInside h)))

theorem skipInside_extend {expected : Expected} {opened : List Bracket}
    (h : skipInside expected opened cs = .ok rest) (hne : rest ≠ []) (more : List Char) :
    skipInside expected opened (cs ++ more) = .ok (rest ++ more) := by
  fun_induction skipInside expected opened cs with
  | case1 => cases h
  | case2 opened cs left hopening _ ih =>
    rw [skipInside_value_of_opening (b := .square) (skipBlanks_extend hopening more)]
    exact ih h
  | case3 opened cs left hopening _ _ ih =>
    rw [skipInside_value_of_opening (b := .curly) (skipBlanks_extend hopening more)]
    exact ih h
  | case4 => cases h
  | case5 opened cs c tail hfirst _ hsquare hcurly left hscalar _ ih =>
    have hscalar' := skipScalar_extend hscalar (ne_nil_of_skipInside h hne) more
    rw [skipInside_value_of_scalar (skipBlanks_extend hfirst more) ⟨hsquare, hcurly⟩ hscalar']
    exact ih h
  | case6 cs =>
    obtain rfl := Except.ok.inj h
    rw [skipInside]
  | case7 cs =>
    obtain rfl := Except.ok.inj h
    rw [skipInside]
  | case8 => cases h
  | case9 cs b outer left hclose _ ih =>
    rw [skipInside_first_of_close (skipBlanks_extend hclose more)]
    exact ih h
  | case10 => cases h
  | case11 cs b outer c tail hfirst _ hclose left hname _ ih =>
    rw [skipInside_first_of_label (skipBlanks_extend hfirst more) hclose
      (skipName_extend hname more)]
    exact ih h
  | case12 => cases h
  | case13 cs b outer left hclose _ ih =>
    rw [skipInside_next_of_close (skipBlanks_extend hclose more)]
    exact ih h
  | case14 => cases h
  | case15 cs b outer tail left hname _ hcomma _ _ ih =>
    rw [skipInside_next_of_comma (skipBlanks_extend hcomma more) (skipName_extend hname more)]
    exact ih h
  | case16 => cases h

theorem skipValue_extend (h : skipValue cs = .ok rest) (hne : rest ≠ []) (more : List Char) :
    skipValue (cs ++ more) = .ok (rest ++ more) :=
  skipInside_extend h hne more

/-! ### Tokens -/

namespace Token

theorem afterWord_extend {token found : Token} {word : List Char}
    (h : afterWord token word cs = .ok found) (more : List Char) :
    afterWord token word (cs ++ more) = .ok found := by
  unfold afterWord at h
  split at h
  · cases h
  · next left hword =>
    rw [afterWord, expectWord_extend hword]
    exact h

theorem exists_of_readNumber {found : Token} (h : readNumber cs = .ok found) :
    ∃ value, found = .number value := by
  unfold readNumber at h
  split at h
  · cases h
  · split at h
    · exact ⟨_, (Except.ok.inj h).symm⟩
    · cases h

/-- More digits may follow a number, but any other token is complete. -/
theorem read_extend {found : Token} (h : read cs = .ok found)
    (hfound : ∀ value, found ≠ .number value) (more : List Char) :
    read (cs ++ more) = .ok found := by
  cases cs with
  | nil => cases h
  | cons c cs =>
    simp only [read] at h
    rw [List.cons_append, read]
    split_ifs at h with hquote hnull htrue hfalse hnumber hsquare hcurly
    · rw [if_pos hquote]
      split at h
      · cases h
      · next text left hstring =>
        rw [readString_extend hstring]
        exact h
    · rw [if_neg hquote, if_pos hnull, afterWord_extend h]
    · rw [if_neg hquote, if_neg hnull, if_pos htrue, afterWord_extend h]
    · rw [if_neg hquote, if_neg hnull, if_neg htrue, if_pos hfalse, afterWord_extend h]
    · obtain ⟨value, rfl⟩ := exists_of_readNumber h
      exact absurd rfl (hfound value)
    · rw [if_neg hquote, if_neg hnull, if_neg htrue, if_neg hfalse, if_neg hnumber, if_pos hsquare]
      exact h
    · rw [if_neg hquote, if_neg hnull, if_neg htrue, if_neg hfalse, if_neg hnumber,
        if_neg hsquare, if_pos hcurly]
      exact h

end Token

/-! ## Texts that end too early -/

section Cuts

variable {α ε : Type} {f : List Char → Except ε α} {fault : ε} {v w : List Char}

/-- A text that ends before the end of `w` is refused. -/
def Cuts (f : List Char → Except ε α) (fault : ε) (w : List Char) : Prop :=
  ∀ p q, w = p ++ q → q ≠ [] → f p = .error fault

theorem cuts_append (hv : Cuts f fault v)
    (hw : ∀ p q, w = p ++ q → q ≠ [] → f (v ++ p) = .error fault) : Cuts f fault (v ++ w) := by
  intro p q h hq
  rcases List.append_eq_append_iff.1 h with ⟨p', rfl, hp'⟩ | ⟨q', rfl, rfl⟩
  · exact hw p' q hp' hq
  · cases q' with
    | nil => simpa using hw [] w rfl hq
    | cons c q' => exact hv p (c :: q') rfl (List.cons_ne_nil c q')

theorem cuts_cons {c : Char} (hnil : f [] = .error fault)
    (hw : ∀ p q, w = p ++ q → q ≠ [] → f (c :: p) = .error fault) : Cuts f fault (c :: w) := by
  refine cuts_append (v := [c]) (fun p q h hq => ?_) hw
  cases p with
  | nil => exact hnil
  | cons d p =>
    obtain ⟨-, hpq⟩ := List.cons.inj h
    exact absurd (List.append_eq_nil_iff.1 hpq.symm).2 hq

theorem cuts_singleton {c : Char} (h : f [] = .error fault) : Cuts f fault [c] :=
  cuts_cons h fun _ _ hpq hq => absurd (List.append_eq_nil_iff.1 hpq.symm).2 hq

end Cuts

theorem isBlanks_of_append {v w : List Char} (h : IsBlanks (v ++ w)) : IsBlanks v :=
  (List.forall_mem_append.1 h).1

theorem ends_of_append {v w : List Char} (h : Ends (v ++ w)) : Ends v := by
  cases v with
  | nil => simp [Ends]
  | cons c v => exact h

theorem expectMark_of_blanks {w : List Char} (hw : IsBlanks w) (mark : Char) :
    expectMark mark w = .error .cutOff := by
  rw [expectMark, skipBlanks_eq_nil_iff.2 hw]

/-! ### Strings -/

theorem IsUnit.cuts {ds : List Char} {value : Nat} (h : IsUnit ds value) :
    Cuts readUnit .cutOff ds := by
  cases h with
  | @digits a b c d x y z w ha hb hc hd =>
    have hone := And.intro (utf8Size_of_isDigit ha)
      (And.intro (utf8Size_of_isDigit hb) (utf8Size_of_isDigit hc))
    intro p q h hq
    -- fewer than four digits are fewer than four bytes
    match p with
    | [] => simp [readUnit]
    | [_] => simp_all [readUnit]
    | [_, _] => simp_all [readUnit]
    | [_, _, _] => simp_all [readUnit]
    | _ :: _ :: _ :: _ :: p => simp_all

theorem IsUnit.cuts_readEscape {ds : List Char} {value : Nat} (h : IsUnit ds value) :
    Cuts readEscape .cutOff ('u' :: ds) := by
  refine cuts_cons rfl fun p q hds hq => ?_
  simp [readEscape, h.cuts p q hds hq]

theorem IsPiece.cuts {w : List Char} {piece : Piece} (h : IsPiece w piece) :
    Cuts readPiece .cutOff w := by
  have hescape : ∀ {ds : List Char}, Cuts readEscape .cutOff ds →
      Cuts readPiece .cutOff ('\x5c' :: ds) := by
    intro ds hds
    refine cuts_cons rfl fun p q hpq hq => ?_
    simp [readPiece, hds p q hpq hq]
  cases h with
  | plain _ _ _ => exact cuts_singleton rfl
  | escape _ => exact hescape (cuts_singleton rfl)
  | unit hds => exact hescape hds.cuts_readEscape

theorem IsPiece.cuts_readLowSurrogate {w : List Char} {low : Nat} (h : IsPiece w (.unit low)) :
    Cuts readLowSurrogate .cutOff w := by
  cases h with
  | @unit ds value hds =>
    refine cuts_cons rfl (cuts_cons ?_ fun p q hpq hq => ?_)
    · simp [readLowSurrogate, expectWord]
    · simp [readLowSurrogate, expectWord, hds.cuts p q hpq hq]

theorem SpellsChar.cuts {w : List Char} {c : Char} (h : SpellsChar w c) :
    Cuts readChar .cutOff w := by
  have hpiece : ∀ {w : List Char} {piece : Piece}, IsPiece w piece → Cuts readChar .cutOff w := by
    intro w piece hw p q hpq hq
    simp [readChar, hw.cuts p q hpq hq]
  cases h with
  | char hw => exact hpiece hw
  | unit hw _ => exact hpiece hw
  | @pair v w high low hv hle hlt hw hlow hlow' =>
    refine cuts_append (hpiece hv) fun p q hpq hq => ?_
    -- the second half has to follow the first
    have hnot : isLowSurrogate high = false := by simp [isLowSurrogate]; omega
    have hhigh : isHighSurrogate high = true := by simp [isHighSurrogate, hle, hlt]
    simp [readChar, hv.read, readUnitChar, hnot, hhigh, hw.cuts_readLowSurrogate p q hpq hq]

theorem readString_of_char_error {cs : List Char} {fault : Fault}
    (h : readChar cs = .error fault) : readString cs = .error fault := by
  rw [readString]
  split <;> simp_all

theorem readString_of_rest_error {cs left : List Char} {c : Char} {fault : Fault}
    (hchar : readChar cs = .ok (some c, left)) (hleft : readString left = .error fault) :
    readString cs = .error fault := by
  rw [readString]
  split <;> simp_all

/-- A string is read up to its closing mark. -/
theorem Spells.cuts {body text : List Char} (h : Spells body text) :
    Cuts readString .cutOff (body ++ ['\x22']) := by
  induction h with
  | nil => exact cuts_singleton (readString_of_char_error rfl)
  | @cons w more text c hc _ ih =>
    rw [List.append_assoc]
    refine cuts_append (fun p q hpq hq => readString_of_char_error (hc.cuts p q hpq hq)) ?_
    intro p q hpq hq
    exact readString_of_rest_error (readChar_eq_some_iff.2 ⟨w, hc, rfl⟩) (ih p q hpq hq)

end SealedPoll.Json
