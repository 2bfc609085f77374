import Mathlib.Data.List.TakeWhile
import SealedPoll.Proofs.Json.Grammar

/-!
# Blanks, words and strings are read by the grammar

* `skipBlanks_append_cons`, `skipBlanks_eq_cons_iff` : blanks at the front;
* `expectWord_eq_ok_iff`, `expectMark_eq_ok_iff` : words, and a mark after blanks;
* `readString_eq_ok_iff`, `skipString_eq_ok_iff` : strings that denote characters, and strings of
  any code units.
-/

namespace SealedPoll.Json

/-! ## Blanks and words -/

theorem isBlanks_iff {w : List Char} : IsBlanks w ↔ ∀ c ∈ w, isBlank c = true := by
  have hblank : ∀ c, isBlank c = true ↔ c ∈ [' ', '\t', '\n', '\r'] := by
    intro c
    simp only [isBlank, Bool.or_eq_true, decide_eq_true_eq, List.mem_cons, List.not_mem_nil]
    grind
  simp only [IsBlanks, hblank]

theorem isBlanks_nil : IsBlanks [] := by simp [IsBlanks]

theorem skipBlanks_append {w : List Char} (hw : IsBlanks w) (cs : List Char) :
    skipBlanks (w ++ cs) = skipBlanks cs :=
  List.dropWhile_append_of_pos (isBlanks_iff.1 hw)

theorem skipBlanks_cons {c : Char} (hc : isBlank c = false) (cs : List Char) :
    skipBlanks (c :: cs) = c :: cs :=
  List.dropWhile_cons_of_neg (by simp [hc])

theorem skipBlanks_append_cons {w : List Char} {c : Char} (hw : IsBlanks w)
    (hc : isBlank c = false) (cs : List Char) : skipBlanks (w ++ c :: cs) = c :: cs := by
  rw [skipBlanks_append hw, skipBlanks_cons hc]

theorem exists_blanks (cs : List Char) : ∃ w, IsBlanks w ∧ cs = w ++ skipBlanks cs :=
  ⟨cs.takeWhile isBlank, isBlanks_iff.2 fun _ hc => List.mem_takeWhile_imp hc,
    (List.takeWhile_append_dropWhile).symm⟩

theorem skipBlanks_eq_cons_iff {c : Char} {cs rest : List Char} :
    skipBlanks cs = c :: rest ↔ isBlank c = false ∧ ∃ w, IsBlanks w ∧ cs = w ++ c :: rest := by
  constructor
  · intro h
    obtain ⟨w, hw, hcs⟩ := exists_blanks cs
    have hdrop : cs.dropWhile isBlank = c :: rest := h
    have hfirst := List.dropWhile_get_zero_not isBlank cs (by rw [hdrop]; simp)
    exact ⟨by simpa [hdrop] using hfirst, w, hw, h ▸ hcs⟩
  · rintro ⟨hc, w, hw, rfl⟩
    exact skipBlanks_append_cons hw hc rest

theorem skipBlanks_eq_nil_iff {cs : List Char} : skipBlanks cs = [] ↔ IsBlanks cs := by
  rw [isBlanks_iff, skipBlanks, List.dropWhile_eq_nil_iff]

theorem expectWord_eq_ok_iff {word cs rest : List Char} :
    expectWord word cs = .ok rest ↔ cs = word ++ rest := by
  induction word generalizing cs with
  | nil => simp [expectWord]
  | cons w ws ih =>
    cases cs with
    | nil => simp [expectWord]
    | cons c cs =>
      by_cases hc : c = w
      · simp [expectWord, hc, ih]
      · simp [expectWord, hc]

theorem expectMark_eq_ok_iff {mark : Char} (hmark : isBlank mark = false) {cs rest : List Char} :
    expectMark mark cs = .ok rest ↔ ∃ w, IsBlanks w ∧ cs = w ++ mark :: rest := by
  have hskip : expectMark mark cs = .ok rest ↔ skipBlanks cs = mark :: rest := by
    unfold expectMark
    grind
  rw [hskip, skipBlanks_eq_cons_iff]
  simp [hmark]

/-! ## Code units -/

theorem hexValue?_eq_none_of_le {c : Char} (hc : 128 ≤ c.toNat) : hexValue? c = none := by
  have hnot : ∀ d : Char, d.toNat < 128 → ¬ c ≤ d := by
    intro d hd hle
    have hle : c.toNat ≤ d.toNat := hle
    omega
  simp [hexValue?, hnot]

theorem hexValue?_eq_some_iff {c : Char} {value : Nat} :
    hexValue? c = some value ↔ Hex.IsDigit c value := by
  by_cases hc : c.toNat < 128
  · have hall : ∀ n < 128, hexValue? (Char.ofNat n) = Hex.digitValue? (UInt8.ofNat n) := by
      decide
    rw [Hex.isDigit_iff_of_ascii hc, ← hall c.toNat hc, Char.ofNat_toNat]
  · rw [hexValue?_eq_none_of_le (Nat.not_lt.1 hc)]
    constructor
    · intro h
      cases h
    · intro h
      exact absurd h.ascii hc

theorem hexValues?_cons_eq_some_iff {value result : Nat} {c : Char} {cs : List Char} :
    hexValues? value (c :: cs) = some result ↔
      ∃ d, Hex.IsDigit c d ∧ hexValues? (16 * value + d) cs = some result := by
  simp only [hexValues?, Option.bind_eq_some_iff, hexValue?_eq_some_iff]

theorem utf8Size_of_isDigit {c : Char} {value : Nat} (h : Hex.IsDigit c value) :
    c.utf8Size = 1 := by
  have hle : c.val.toNat ≤ 127 := Nat.le_of_lt_succ h.ascii
  exact Char.utf8Size_eq_one_iff.2 hle

theorem utf8Size_of_hexValues? {value result : Nat} {ds : List Char}
    (h : hexValues? value ds = some result) : ∀ c ∈ ds, c.utf8Size = 1 := by
  induction ds generalizing value with
  | nil => simp
  | cons c ds ih =>
    obtain ⟨d, hc, hds⟩ := hexValues?_cons_eq_some_iff.1 h
    exact List.forall_mem_cons.2 ⟨utf8Size_of_isDigit hc, ih hds⟩

theorem readUnit_eq_ok_iff {cs rest : List Char} {value : Nat} :
    readUnit cs = .ok (value, rest) ↔ ∃ ds, IsUnit ds value ∧ cs = ds ++ rest := by
  constructor
  · intro h
    unfold readUnit at h
    split at h
    · cases h
    · next hsize =>
      split at h
      · next v hv =>
        obtain ⟨rfl, rfl⟩ := Prod.mk.inj (Except.ok.inj h)
        -- a digit takes one byte, so four bytes of digits are four digits
        have hone := utf8Size_of_hexValues? hv
        match cs with
        | [] => simp at hsize
        | [a] => simp at hone hsize; omega
        | [a, b] => simp at hone hsize; omega
        | [a, b, c] => simp at hone hsize; omega
        | a :: b :: c :: d :: rest =>
          simp only [List.take_succ_cons, List.take_zero, hexValues?_cons_eq_some_iff] at hv
          obtain ⟨x, ha, y, hb, z, hc, w, hd, hv⟩ := hv
          obtain rfl := Option.some.inj hv
          exact ⟨[a, b, c, d], by simpa using IsUnit.digits ha hb hc hd, rfl⟩
      · cases h
  · rintro ⟨ds, h, rfl⟩
    cases h with
    | @digits a b c d x y z w ha hb hc hd =>
      have hvalue : hexValues? 0 [a, b, c, d] = some (16 * (16 * (16 * x + y) + z) + w) := by
        simp only [hexValues?_cons_eq_some_iff]
        exact ⟨x, ha, y, hb, z, hc, w, hd, by simp [hexValues?]⟩
      have hone := utf8Size_of_hexValues? hvalue
      simp only [List.forall_mem_cons] at hone
      simp [readUnit, hone, hvalue]

/-! ## Pieces -/

theorem shortEscape?_eq_some_iff {letter c : Char} :
    shortEscape? letter = some c ↔ (letter, c) ∈ shortEscapes := by
  constructor
  · intro h
    unfold shortEscape? at h
    simp only [shortEscapes, List.mem_cons, Prod.mk.injEq]
    repeat' split at h
    all_goals grind
  · have hall : ∀ p ∈ shortEscapes, shortEscape? p.1 = some p.2 := by decide
    exact hall (letter, c)

theorem ne_u_of_shortEscape? {letter c : Char} (h : shortEscape? letter = some c) :
    letter ≠ 'u' := by
  rintro rfl
  cases h

theorem readEscape_eq_ok_iff {cs rest : List Char} {piece : Piece} :
    readEscape cs = .ok (piece, rest) ↔ ∃ w, IsPiece ('\x5c' :: w) piece ∧ cs = w ++ rest := by
  constructor
  · intro h
    unfold readEscape at h
    split at h
    · cases h
    · next letter cs =>
      split at h
      · next hletter =>
        subst hletter
        split at h
        · cases h
        · next value left hunit =>
          obtain ⟨rfl, rfl⟩ := Prod.mk.inj (Except.ok.inj h)
          obtain ⟨ds, hds, rfl⟩ := readUnit_eq_ok_iff.1 hunit
          exact ⟨'u' :: ds, .unit hds, rfl⟩
      · split at h
        · next c hc =>
          obtain ⟨rfl, rfl⟩ := Prod.mk.inj (Except.ok.inj h)
          exact ⟨[letter], .escape (shortEscape?_eq_some_iff.1 hc), rfl⟩
        · cases h
  · rintro ⟨w, h, rfl⟩
    cases h with
    | plain _ _ hne => exact absurd rfl hne
    | @escape letter c hmem =>
      have hc := shortEscape?_eq_some_iff.2 hmem
      simp [readEscape, hc, ne_u_of_shortEscape? hc]
    | @unit ds value hds =>
      have hunit : readUnit (ds ++ rest) = .ok (value, rest) := readUnit_eq_ok_iff.2 ⟨ds, hds, rfl⟩
      simp [readEscape, hunit]

theorem readPiece_eq_ok_iff {cs rest : List Char} {piece : Piece} :
    readPiece cs = .ok (piece, rest) ↔
      (piece = .close ∧ cs = '\x22' :: rest) ∨ ∃ w, IsPiece w piece ∧ cs = w ++ rest := by
  constructor
  · intro h
    unfold readPiece at h
    split at h
    · cases h
    · next c cs =>
      split at h
      · next hc =>
        obtain ⟨rfl, rfl⟩ := Prod.mk.inj (Except.ok.inj h)
        exact Or.inl ⟨rfl, by rw [hc]⟩
      · next hquote =>
        split at h
        · next hc =>
          obtain ⟨w, hw, rfl⟩ := readEscape_eq_ok_iff.1 h
          exact Or.inr ⟨'\x5c' :: w, hw, by rw [hc]; rfl⟩
        · next hslash =>
          split at h
          · cases h
          · next hc =>
            obtain ⟨rfl, rfl⟩ := Prod.mk.inj (Except.ok.inj h)
            exact Or.inr ⟨[c], .plain (Char.not_lt.1 hc) hquote hslash, rfl⟩
  · rintro (⟨rfl, rfl⟩ | ⟨w, h, rfl⟩)
    · simp [readPiece]
    · cases h with
      | plain hle hquote hslash =>
        simp [readPiece, hquote, hslash, Char.not_lt.2 hle]
      | @escape letter c hmem =>
        have hescape : readEscape ([letter] ++ rest) = .ok (.char c, rest) :=
          readEscape_eq_ok_iff.2 ⟨[letter], .escape hmem, rfl⟩
        simpa [readPiece] using hescape
      | @unit ds value hds =>
        have hescape : readEscape ('u' :: ds ++ rest) = .ok (.unit value, rest) :=
          readEscape_eq_ok_iff.2 ⟨'u' :: ds, .unit hds, rfl⟩
        simpa [readPiece] using hescape

theorem IsPiece.read {w : List Char} {piece : Piece} (h : IsPiece w piece) (rest : List Char) :
    readPiece (w ++ rest) = .ok (piece, rest) :=
  readPiece_eq_ok_iff.2 (Or.inr ⟨w, h, rfl⟩)

theorem exists_isPiece {cs rest : List Char} {piece : Piece} (h : readPiece cs = .ok (piece, rest))
    (hne : piece ≠ .close) : ∃ w, IsPiece w piece ∧ cs = w ++ rest :=
  (readPiece_eq_ok_iff.1 h).resolve_left fun hclose => hne hclose.1

theorem not_isPiece_close {w : List Char} : ¬ IsPiece w .close := by
  rintro ⟨⟩

/-! ## Characters and strings -/

theorem readLowSurrogate_eq_ok_iff {cs rest : List Char} {low : Nat} :
    readLowSurrogate cs = .ok (low, rest) ↔
      (0xdc00 ≤ low ∧ low < 0xe000) ∧ ∃ w, IsPiece w (.unit low) ∧ cs = w ++ rest := by
  constructor
  · intro h
    unfold readLowSurrogate at h
    split at h
    · cases h
    · next left hword =>
      obtain rfl := expectWord_eq_ok_iff.1 hword
      split at h
      · cases h
      · next value rest' hunit =>
        split at h
        · next hlow =>
          obtain ⟨rfl, rfl⟩ := Prod.mk.inj (Except.ok.inj h)
          obtain ⟨ds, hds, rfl⟩ := readUnit_eq_ok_iff.1 hunit
          exact ⟨by simpa [isLowSurrogate] using hlow, _, .unit hds, rfl⟩
        · cases h
  · rintro ⟨hlow, w, h, rfl⟩
    cases h with
    | @unit ds value hds =>
      have hunit : readUnit (ds ++ rest) = .ok (low, rest) := readUnit_eq_ok_iff.2 ⟨ds, hds, rfl⟩
      simp [readLowSurrogate, expectWord, hunit, isLowSurrogate, hlow]

theorem pairChar_eq (high low : Nat) :
    pairChar high low = Char.ofNat (0x10000 + 0x400 * (high - 0xd800) + (low - 0xdc00)) := by
  have hsum : (high - 0xd800) * 0x400 + (low - 0xdc00) + 0x10000 =
      0x10000 + 0x400 * (high - 0xd800) + (low - 0xdc00) := by omega
  rw [pairChar, hsum]

/-- A code unit is a character, or the first half of one whose second half follows. -/
theorem readUnitChar_eq_ok_iff {value : Nat} {cs rest : List Char} {c : Char} :
    readUnitChar value cs = .ok (c, rest) ↔
      ((value < 0xd800 ∨ 0xe000 ≤ value) ∧ c = Char.ofNat value ∧ cs = rest) ∨
      ((0xd800 ≤ value ∧ value < 0xdc00) ∧
        ∃ low, readLowSurrogate cs = .ok (low, rest) ∧ c = pairChar value low) := by
  simp only [readUnitChar, isLowSurrogate, isHighSurrogate, Bool.and_eq_true, decide_eq_true_eq]
  grind

theorem readChar_eq_none_iff {cs rest : List Char} :
    readChar cs = .ok (none, rest) ↔ cs = '\x22' :: rest := by
  have hpiece : readChar cs = .ok (none, rest) ↔ readPiece cs = .ok (.close, rest) := by
    unfold readChar
    grind
  rw [hpiece, readPiece_eq_ok_iff]
  simp [not_isPiece_close]

theorem readChar_eq_some_iff {cs rest : List Char} {c : Char} :
    readChar cs = .ok (some c, rest) ↔ ∃ w, SpellsChar w c ∧ cs = w ++ rest := by
  constructor
  · intro h
    unfold readChar at h
    split at h
    · cases h
    · cases h
    · next d left hpiece =>
      obtain ⟨hc, rfl⟩ := Prod.mk.inj (Except.ok.inj h)
      obtain rfl := Option.some.inj hc
      obtain ⟨w, hw, rfl⟩ := exists_isPiece hpiece (by simp)
      exact ⟨w, .char hw, rfl⟩
    · next value left hpiece =>
      split at h
      · cases h
      · next d left hunit =>
        obtain ⟨hc, rfl⟩ := Prod.mk.inj (Except.ok.inj h)
        obtain rfl := Option.some.inj hc
        obtain ⟨v, hv, rfl⟩ := exists_isPiece hpiece (by simp)
        obtain ⟨hplain, rfl, rfl⟩ | ⟨⟨hle, hlt⟩, low, hread, hd⟩ := readUnitChar_eq_ok_iff.1 hunit
        · exact ⟨v, .unit hv hplain, rfl⟩
        · obtain ⟨⟨hlow, hlow'⟩, w, hw, rfl⟩ := readLowSurrogate_eq_ok_iff.1 hread
          rw [hd, pairChar_eq]
          exact ⟨v ++ w, .pair hv hle hlt hw hlow hlow', (List.append_assoc ..).symm⟩
  · rintro ⟨w, h, rfl⟩
    cases h with
    | char hw => simp [readChar, hw.read]
    | @unit w value hw hvalue =>
      have hunit : readUnitChar value rest = .ok (Char.ofNat value, rest) :=
        readUnitChar_eq_ok_iff.2 (Or.inl ⟨hvalue, rfl, rfl⟩)
      simp [readChar, hw.read, hunit]
    | @pair v w high low hv hle hlt hw hlow hlow' =>
      have hsecond : readLowSurrogate (w ++ rest) = .ok (low, rest) :=
        readLowSurrogate_eq_ok_iff.2 ⟨⟨hlow, hlow'⟩, w, hw, rfl⟩
      have hunit : readUnitChar high (w ++ rest) = .ok (pairChar high low, rest) :=
        readUnitChar_eq_ok_iff.2 (Or.inr ⟨⟨hle, hlt⟩, low, hsecond, rfl⟩)
      rw [← pairChar_eq, List.append_assoc, readChar, hv.read]
      simp only [hunit]

theorem readString_of_end (rest : List Char) : readString ('\x22' :: rest) = .ok ([], rest) := by
  have hend : readChar ('\x22' :: rest) = .ok (none, rest) := readChar_eq_none_iff.2 rfl
  rw [readString]
  split <;> simp_all

theorem readString_of_char {cs left text rest : List Char} {c : Char}
    (hchar : readChar cs = .ok (some c, left)) (hleft : readString left = .ok (text, rest)) :
    readString cs = .ok (c :: text, rest) := by
  rw [readString]
  split <;> simp_all

theorem readString_eq_ok_iff {cs text rest : List Char} :
    readString cs = .ok (text, rest) ↔ ∃ body, Spells body text ∧ cs = body ++ '\x22' :: rest := by
  constructor
  · intro h
    fun_induction readString cs generalizing text with
    | case1 => cases h
    | case2 cs left hchar =>
      obtain ⟨rfl, rfl⟩ := Prod.mk.inj (Except.ok.inj h)
      exact ⟨[], .nil, readChar_eq_none_iff.1 hchar⟩
    | case3 => cases h
    | case4 cs c left hchar _ tail after hleft ih =>
      obtain ⟨rfl, rfl⟩ := Prod.mk.inj (Except.ok.inj h)
      obtain ⟨w, hw, rfl⟩ := readChar_eq_some_iff.1 hchar
      obtain ⟨body, hbody, rfl⟩ := ih hleft
      exact ⟨w ++ body, .cons hw hbody, (List.append_assoc ..).symm⟩
  · rintro ⟨body, h, rfl⟩
    induction h with
    | nil => exact readString_of_end rest
    | @cons w more text c hc _ ih =>
      rw [List.append_assoc]
      exact readString_of_char (readChar_eq_some_iff.2 ⟨w, hc, rfl⟩) ih

theorem Spells.read {body text : List Char} (h : Spells body text) (rest : List Char) :
    readString (body ++ '\x22' :: rest) = .ok (text, rest) :=
  readString_eq_ok_iff.2 ⟨body, h, rfl⟩

theorem skipString_of_end (rest : List Char) : skipString ('\x22' :: rest) = .ok rest := by
  have hend : readPiece ('\x22' :: rest) = .ok (.close, rest) :=
    readPiece_eq_ok_iff.2 (Or.inl ⟨rfl, rfl⟩)
  rw [skipString]
  split <;> simp_all

theorem skipString_of_piece {w : List Char} {piece : Piece} (h : IsPiece w piece)
    (left : List Char) : skipString (w ++ left) = skipString left := by
  have hpiece := h.read left
  rw [skipString]
  split
  · simp_all
  · next hclose =>
    obtain ⟨rfl, -⟩ := Prod.mk.inj (Except.ok.inj (hpiece.symm.trans hclose))
    exact absurd h not_isPiece_close
  · simp_all
  · simp_all

theorem skipString_eq_ok_iff {cs rest : List Char} :
    skipString cs = .ok rest ↔ ∃ body, IsText body ∧ cs = body ++ '\x22' :: rest := by
  constructor
  · intro h
    fun_induction skipString cs with
    | case1 => cases h
    | case2 cs left hpiece =>
      obtain rfl := Except.ok.inj h
      obtain ⟨-, rfl⟩ | ⟨w, hw, -⟩ := readPiece_eq_ok_iff.1 hpiece
      · exact ⟨[], .nil, rfl⟩
      · exact absurd hw not_isPiece_close
    | case3 cs left c hpiece _ ih =>
      obtain ⟨w, hw, rfl⟩ := exists_isPiece hpiece (by simp)
      obtain ⟨body, hbody, rfl⟩ := ih h
      exact ⟨w ++ body, .cons hw hbody, (List.append_assoc ..).symm⟩
    | case4 cs left value hpiece _ ih =>
      obtain ⟨w, hw, rfl⟩ := exists_isPiece hpiece (by simp)
      obtain ⟨body, hbody, rfl⟩ := ih h
      exact ⟨w ++ body, .cons hw hbody, (List.append_assoc ..).symm⟩
  · rintro ⟨body, h, rfl⟩
    induction h with
    | nil => exact skipString_of_end rest
    | cons hpiece _ ih => rw [List.append_assoc, skipString_of_piece hpiece, ih]

end SealedPoll.Json
