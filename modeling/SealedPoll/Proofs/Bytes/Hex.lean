import SealedPoll.Bytes.Hex
import SealedPoll.Proofs.Text

/-!
# The grammar of hexadecimal text

* `IsDigit` : a digit of either case and its value;
* `IsText` : two digits a byte, the high half first;
* `decode_eq_ok_iff` : which texts are decoded, and to which bytes;
* `isText_encode`, `decode_encode` : what is written is such a text, and is read back;
* `isText_map_toLower_iff`, `IsText.trims` : letter case makes no difference, nor do blanks around;
* `Refused`, `decodeBytes_eq_error_iff` : which digits are refused, and why.
-/

namespace SealedPoll.Hex

/-- A digit of either case; its value is its place among the digits. -/
def IsDigit (c : Char) (value : Nat) : Prop :=
  "0123456789abcdef".toList[value]? = some c ∨ "0123456789ABCDEF".toList[value]? = some c

/-- Two digits a byte, the high half first. -/
inductive IsText : List Char → Bytes → Prop
  | nil : IsText [] []
  | cons {hi lo : Char} {h l : Nat} {text : List Char} {bs : Bytes} :
      IsDigit hi h → IsDigit lo l → IsText text bs →
        IsText (hi :: lo :: text) (UInt8.ofNat (16 * h + l) :: bs)

/-! ## Digits -/

instance (c : Char) (value : Nat) : Decidable (IsDigit c value) :=
  inferInstanceAs (Decidable (_ ∨ _))

theorem IsDigit.lt {c : Char} {value : Nat} (h : IsDigit c value) : value < 16 := by
  rcases h with h | h <;> exact (List.getElem?_eq_some_iff.1 h).1

theorem IsDigit.ascii {c : Char} {value : Nat} (h : IsDigit c value) : c.toNat < 128 := by
  have hall : ∀ d ∈ "0123456789abcdef".toList ++ "0123456789ABCDEF".toList, d.toNat < 128 := by
    simp
  rcases h with h | h
  · exact hall c (List.mem_append_left _ (List.mem_of_getElem? h))
  · exact hall c (List.mem_append_right _ (List.mem_of_getElem? h))

/-- Digits are ASCII characters, of which there are few enough to be looked at one by one. -/
theorem isDigit_iff_of_ascii {c : Char} (hc : c.toNat < 128) {value : Nat} :
    IsDigit c value ↔ digitValue? (UInt8.ofNat c.toNat) = some value := by
  have hall : ∀ n < 128, ∀ v < 16,
      IsDigit (Char.ofNat n) v ↔ digitValue? (UInt8.ofNat n) = some v := by decide +kernel
  by_cases hvalue : value < 16
  · simpa using hall c.toNat hc value hvalue
  · refine ⟨fun h => absurd h.lt hvalue, fun h => ?_⟩
    unfold digitValue? at h
    grind

theorem digitValue?_eq_none_of_le {b : UInt8} (h : 128 ≤ b.toNat) : digitValue? b = none := by
  unfold digitValue?
  grind

/-! ## Characters as bytes -/

theorem utf8_cons (c : Char) (text : List Char) :
    Text.utf8 (String.ofList (c :: text)) =
      String.utf8EncodeChar c ++ Text.utf8 (String.ofList text) := by
  simp [Text.utf8, String.toUTF8, List.utf8Encode]

theorem utf8_cons_of_ascii {c : Char} (hc : c.toNat < 128) (text : List Char) :
    Text.utf8 (String.ofList (c :: text)) =
      UInt8.ofNat c.toNat :: Text.utf8 (String.ofList text) := by
  have hval : c.val.toNat ≤ 127 := Nat.lt_succ_iff.1 hc
  rw [utf8_cons, String.utf8EncodeChar, if_pos hval]
  rfl

/-- The first byte of any other character is no ASCII character. -/
theorem exists_utf8EncodeChar_eq {c : Char} (hc : 128 ≤ c.toNat) :
    ∃ b more, String.utf8EncodeChar c = b :: more ∧ 128 ≤ b.toNat := by
  have hval : ¬ c.val.toNat ≤ 127 := Nat.not_le.2 hc
  simp only [String.utf8EncodeChar, if_neg hval]
  split
  · refine ⟨_, _, rfl, ?_⟩
    rw [UInt8.toNat_ofNat']
    omega
  · split
    · refine ⟨_, _, rfl, ?_⟩
      rw [UInt8.toNat_ofNat']
      omega
    · refine ⟨_, _, rfl, ?_⟩
      rw [UInt8.toNat_ofNat']
      omega

/-- A byte that is a digit is a character that is one. -/
theorem exists_digit_of_utf8 {text : List Char} {b : UInt8} {more : Bytes} {value : Nat}
    (htext : Text.utf8 (String.ofList text) = b :: more) (hb : digitValue? b = some value) :
    ∃ c rest, text = c :: rest ∧ IsDigit c value ∧ Text.utf8 (String.ofList rest) = more := by
  cases text with
  | nil => simp [Text.utf8, String.toUTF8] at htext
  | cons c rest =>
    by_cases hc : c.toNat < 128
    · rw [utf8_cons_of_ascii hc] at htext
      obtain ⟨rfl, rfl⟩ := List.cons.inj htext
      exact ⟨c, rest, rfl, (isDigit_iff_of_ascii hc).2 hb, rfl⟩
    · obtain ⟨b', tail, hbytes, hle⟩ := exists_utf8EncodeChar_eq (Nat.not_lt.1 hc)
      rw [utf8_cons, hbytes] at htext
      obtain ⟨rfl, -⟩ := List.cons.inj htext
      rw [digitValue?_eq_none_of_le hle] at hb
      cases hb

/-! ## Texts -/

theorem IsText.length_utf8 {text : List Char} {bs : Bytes} (h : IsText text bs) :
    (Text.utf8 (String.ofList text)).length = 2 * bs.length := by
  induction h with
  | nil => simp [Text.utf8, String.toUTF8]
  | cons hhi hlo _ ih =>
    rw [utf8_cons_of_ascii hhi.ascii, utf8_cons_of_ascii hlo.ascii]
    simp only [List.length_cons, ih]
    omega

theorem IsText.decodePairs {text : List Char} {bs : Bytes} (h : IsText text bs) (position : Nat) :
    Hex.decodePairs position (Text.utf8 (String.ofList text)) = .ok bs := by
  induction h generalizing position with
  | nil => simp [Text.utf8, String.toUTF8, Hex.decodePairs]
  | cons hhi hlo _ ih =>
    rw [utf8_cons_of_ascii hhi.ascii, utf8_cons_of_ascii hlo.ascii, Hex.decodePairs,
      (isDigit_iff_of_ascii hhi.ascii).1 hhi, (isDigit_iff_of_ascii hlo.ascii).1 hlo]
    simp only [ih]
    rfl

theorem isText_of_decodePairs {position : Nat} {ds bs : Bytes} {text : List Char}
    (htext : Text.utf8 (String.ofList text) = ds) (heven : ds.length % 2 = 0)
    (h : decodePairs position ds = .ok bs) : IsText text bs := by
  fun_induction decodePairs position ds generalizing text bs with
  | case1 => cases h
  | case2 => cases h
  | case3 position hi lo ds l' h' hlo hhi ih =>
    obtain ⟨c, rest, rfl, hc, hrest⟩ := exists_digit_of_utf8 htext hhi
    obtain ⟨d, rest, rfl, hd, hrest⟩ := exists_digit_of_utf8 hrest hlo
    cases hds : decodePairs (position + 2) ds with
    | error fault =>
      rw [hds] at h
      cases h
    | ok more =>
      rw [hds] at h
      cases h
      refine .cons hc hd (ih hrest ?_ hds)
      simp only [List.length_cons] at heven
      omega
  | case4 ds position hshort =>
    cases h
    match ds with
    | [] =>
      have hnil : String.ofList text = String.ofList [] := Text.utf8_injective htext
      rw [String.ofList_inj.1 hnil]
      exact .nil
    | [b] => simp at heven
    | hi :: lo :: rest => exact absurd rfl (hshort hi lo rest)

/-- **What is decoded.** Two digits a byte, each of either case, and nothing else. -/
theorem decode_eq_ok_iff {text : List Char} {bs : Bytes} :
    decode (String.ofList text) = .ok bs ↔ IsText text bs := by
  constructor
  · intro h
    unfold decode decodeBytes at h
    split at h
    · cases h
    · exact isText_of_decodePairs rfl (by omega) h
  · intro h
    have heven : ¬ (Text.utf8 (String.ofList text)).length % 2 = 1 := by
      rw [h.length_utf8]
      omega
    rw [decode, decodeBytes, if_neg heven, h.decodePairs]

theorem IsText.length_eq {text : List Char} {bs : Bytes} (h : IsText text bs) :
    text.length = 2 * bs.length := by
  induction h with
  | nil => rfl
  | cons _ _ _ ih =>
    simp only [List.length_cons, ih]
    omega

/-- Digits of an even number are the text of bytes. -/
theorem exists_isText {n : Nat} {text : List Char} (hlength : text.length = 2 * n)
    (hdigits : ∀ c ∈ text, ∃ value, IsDigit c value) : ∃ bs, IsText text bs := by
  induction n generalizing text with
  | zero => exact ⟨[], List.eq_nil_of_length_eq_zero hlength ▸ .nil⟩
  | succ n ih =>
    match text with
    | [] => simp at hlength
    | [c] =>
      simp only [List.length_singleton] at hlength
      omega
    | hi :: lo :: rest =>
      obtain ⟨⟨h, hhi⟩, hrest⟩ := List.forall_mem_cons.1 hdigits
      obtain ⟨⟨l, hlo⟩, hrest⟩ := List.forall_mem_cons.1 hrest
      simp only [List.length_cons] at hlength
      obtain ⟨bs, hbs⟩ := ih (by omega) hrest
      exact ⟨_, .cons hhi hlo hbs⟩

theorem IsText.isDigit {text : List Char} {bs : Bytes} (h : IsText text bs) :
    ∀ c ∈ text, ∃ value, IsDigit c value := by
  induction h with
  | nil => simp
  | cons hhi hlo _ ih => exact List.forall_mem_cons.2 ⟨⟨_, hhi⟩, List.forall_mem_cons.2 ⟨⟨_, hlo⟩, ih⟩⟩

theorem isDigit_digit {n : Nat} (h : n < 16) : IsDigit (Char.ofNat (digit n).toNat) n := by
  have hall : ∀ m < 16, IsDigit (Char.ofNat (digit m).toNat) m := by decide
  exact hall n h

theorem isText_encode (bs : Bytes) : IsText (encode bs).toList bs := by
  rw [encode, String.toList_ofList]
  induction bs with
  | nil => exact .nil
  | cons b bs ih =>
    have hb := b.toNat_lt
    have hbyte : UInt8.ofNat (16 * (b.toNat / 16) + b.toNat % 16) = b := by
      rw [Nat.div_add_mod, UInt8.ofNat_toNat]
    have htext := IsText.cons (isDigit_digit (n := b.toNat / 16) (by omega))
      (isDigit_digit (n := b.toNat % 16) (by omega)) ih
    rwa [hbyte] at htext

/-- What is written is read back. -/
theorem decode_encode (bs : Bytes) : decode (encode bs) = .ok bs := by
  rw [← String.ofList_toList (s := encode bs), decode_eq_ok_iff]
  exact isText_encode bs

/-! ## Letter case -/

theorem isDigit_toLower_iff {c : Char} {value : Nat} : IsDigit c.toLower value ↔ IsDigit c value := by
  have hall : ∀ n < 128, ∀ v < 16,
      IsDigit (Char.ofNat n).toLower v ↔ IsDigit (Char.ofNat n) v := by decide +kernel
  by_cases hc : c.toNat < 128
  · by_cases hvalue : value < 16
    · simpa using hall c.toNat hc value hvalue
    · exact ⟨fun h => absurd h.lt hvalue, fun h => absurd h.lt hvalue⟩
  · have hupper : ¬ (c.val ≥ 'A'.val ∧ c.val ≤ 'Z'.val) := fun h =>
      hc (Nat.lt_of_le_of_lt (UInt32.le_iff_toNat_le.1 h.2) (by decide))
    have hsame : c.toLower = c := dif_neg hupper
    rw [hsame]

theorem IsText.toLower {text : List Char} {bs : Bytes} (h : IsText text bs) :
    IsText (text.map Char.toLower) bs := by
  induction h with
  | nil => exact .nil
  | cons hhi hlo _ ih => exact .cons (isDigit_toLower_iff.2 hhi) (isDigit_toLower_iff.2 hlo) ih

/-- Bytes are read from their text in any mix of letter case. -/
theorem isText_map_toLower_iff {text : List Char} {bs : Bytes} :
    IsText (text.map Char.toLower) bs ↔ IsText text bs := by
  refine ⟨fun h => ?_, IsText.toLower⟩
  generalize hlower : text.map Char.toLower = lower at h
  induction h generalizing text with
  | nil =>
    obtain rfl := List.map_eq_nil_iff.1 hlower
    exact .nil
  | cons hhi hlo _ ih =>
    obtain ⟨c, rest, rfl, rfl, hrest⟩ := List.map_eq_cons_iff.1 hlower
    obtain ⟨d, rest, rfl, rfl, htail⟩ := List.map_eq_cons_iff.1 hrest
    exact .cons (isDigit_toLower_iff.1 hhi) (isDigit_toLower_iff.1 hlo) (ih htail)

/-! ## Blanks around -/

theorem IsDigit.not_blank {c : Char} {value : Nat} (h : IsDigit c value) :
    Text.isBlank c = false := by
  have hall : ∀ n < 128, ∀ v < 16, IsDigit (Char.ofNat n) v → Text.isBlank (Char.ofNat n) = false :=
    by decide +kernel
  simpa using hall c.toNat h.ascii value h.lt (by simpa using h)

/-- Digits are found between blanks. -/
theorem IsText.trims {text : List Char} {bs : Bytes} (h : IsText text bs) {front back : List Char}
    (hfront : ∀ c ∈ front, Text.isBlank c = true) (hback : ∀ c ∈ back, Text.isBlank c = true) :
    Text.Trims (String.ofList (front ++ text ++ back)) (String.ofList text) := by
  have hdigits : ∀ c ∈ text, Text.isBlank c = false := fun c hc =>
    (h.isDigit c hc).elim fun _ hdigit => hdigit.not_blank
  refine ⟨⟨front, back, by simp, hfront, hback⟩, fun c hc => ?_, fun c hc => ?_⟩
  · rw [String.toList_ofList] at hc
    exact hdigits c (List.mem_of_mem_head? hc)
  · rw [String.toList_ofList] at hc
    exact hdigits c (List.mem_of_getLast? hc)

/-! ## Refusals -/

/-- The byte is a digit as a character. -/
def IsDigitByte (b : UInt8) : Prop := ∃ value, IsDigit (Char.ofNat b.toNat) value

/-- The byte at this position is no digit, and all before it are. -/
structure IsFirstBad (ds : Bytes) (position : Nat) (b : UInt8) : Prop where
  byte : ds[position]? = some b
  bad : ¬ IsDigitByte b
  digits : ∀ i < position, ∀ d, ds[i]? = some d → IsDigitByte d

theorem toNat_ofNat_byte (b : UInt8) : (Char.ofNat b.toNat).toNat = b.toNat := by
  have hall : ∀ n < 256, (Char.ofNat n).toNat = n := by decide +kernel
  exact hall b.toNat b.toNat_lt

theorem digitValue?_eq_some_iff_byte {b : UInt8} {value : Nat} :
    digitValue? b = some value ↔ IsDigit (Char.ofNat b.toNat) value := by
  by_cases hb : b.toNat < 128
  · rw [isDigit_iff_of_ascii (by rwa [toNat_ofNat_byte]), toNat_ofNat_byte, UInt8.ofNat_toNat]
  · rw [digitValue?_eq_none_of_le (Nat.not_lt.1 hb)]
    refine ⟨fun h => (by cases h), fun h => absurd h.ascii ?_⟩
    rwa [toNat_ofNat_byte]

theorem isDigitByte_iff {b : UInt8} : IsDigitByte b ↔ ∃ value, digitValue? b = some value :=
  exists_congr fun _ => digitValue?_eq_some_iff_byte.symm

theorem not_isDigitByte_iff {b : UInt8} : ¬ IsDigitByte b ↔ digitValue? b = none := by
  rw [isDigitByte_iff, ← Option.isSome_iff_exists, Bool.not_eq_true, Option.isSome_eq_false_iff,
    Option.isNone_iff_eq_none]

theorem isFirstBad_zero {b : UInt8} {ds : Bytes} (h : ¬ IsDigitByte b) :
    IsFirstBad (b :: ds) 0 b :=
  ⟨rfl, h, fun i hi => absurd hi (Nat.not_lt_zero i)⟩

theorem IsFirstBad.cons {b d : UInt8} {ds : Bytes} {position : Nat} (hd : IsDigitByte d)
    (h : IsFirstBad ds position b) : IsFirstBad (d :: ds) (position + 1) b := by
  refine ⟨by simpa using h.byte, h.bad, fun i hi e he => ?_⟩
  cases i with
  | zero =>
    obtain rfl := Option.some.inj he
    exact hd
  | succ i => exact h.digits i (Nat.lt_of_succ_lt_succ hi) e (by simpa using he)

theorem IsFirstBad.eq {ds : Bytes} {p q : Nat} {b c : UInt8} (h : IsFirstBad ds p b)
    (h' : IsFirstBad ds q c) : p = q ∧ b = c := by
  rcases Nat.lt_trichotomy p q with hlt | rfl | hlt
  · exact absurd (h'.digits p hlt b h.byte) h.bad
  · exact ⟨rfl, Option.some.inj (h.byte.symm.trans h'.byte)⟩
  · exact absurd (h.digits q hlt c h'.byte) h'.bad

/-- Why digits are refused: an odd number of them before all else, then the first that is none. -/
inductive Refused (ds : Bytes) : Fault → Prop
  | oddLength : ds.length % 2 = 1 → Refused ds .oddLength
  | badDigit {b : UInt8} {position : Nat} :
      ds.length % 2 = 0 → IsFirstBad ds position b → Refused ds (.badDigit b position)

/-- Pairs of digits are either all read or stopped at, at the first byte that is none. -/
theorem decodePairs_settled (position : Nat) {ds : Bytes} (heven : ds.length % 2 = 0) :
    (∃ bs, decodePairs position ds = .ok bs ∧ ∀ d ∈ ds, IsDigitByte d) ∨
      ∃ i b, decodePairs position ds = .error (.badDigit b (position + i)) ∧ IsFirstBad ds i b := by
  fun_induction decodePairs position ds with
  | case1 position hi lo rest hhi =>
    exact .inr ⟨0, hi, rfl, isFirstBad_zero (not_isDigitByte_iff.2 hhi)⟩
  | case2 position hi lo rest h hlo hhi =>
    refine .inr ⟨1, lo, rfl, .cons (isDigitByte_iff.2 ⟨h, hhi⟩) ?_⟩
    exact isFirstBad_zero (not_isDigitByte_iff.2 hlo)
  | case3 position hi lo rest l h hlo hhi ih =>
    have hhi : IsDigitByte hi := isDigitByte_iff.2 ⟨_, hhi⟩
    have hlo : IsDigitByte lo := isDigitByte_iff.2 ⟨_, hlo⟩
    have hrest : rest.length % 2 = 0 := by
      simp only [List.length_cons] at heven
      omega
    rcases ih hrest with ⟨bs, hbs, hall⟩ | ⟨i, b, herror, hbad⟩
    · exact .inl ⟨_, by rw [hbs]; rfl,
        List.forall_mem_cons.2 ⟨hhi, List.forall_mem_cons.2 ⟨hlo, hall⟩⟩⟩
    · refine .inr ⟨i + 2, b, ?_, .cons hhi (.cons hlo hbad)⟩
      rw [herror, Nat.add_assoc, Nat.add_comm 2 i]
      rfl
  | case4 ds position hshort =>
    match ds with
    | [] => exact .inl ⟨[], rfl, by simp⟩
    | [b] => simp at heven
    | hi :: lo :: rest => exact absurd rfl (hshort hi lo rest)

theorem refused_of_decodeBytes {ds : Bytes} {fault : Fault} (h : decodeBytes ds = .error fault) :
    Refused ds fault := by
  unfold decodeBytes at h
  split at h
  · next hodd =>
    obtain rfl := Except.error.inj h
    exact .oddLength hodd
  · next hodd =>
    have heven : ds.length % 2 = 0 := by omega
    rcases decodePairs_settled 0 heven with ⟨bs, hbs, -⟩ | ⟨i, b, herror, hbad⟩
    · rw [hbs] at h
      cases h
    · rw [herror, Nat.zero_add] at h
      obtain rfl := Except.error.inj h
      exact .badDigit heven hbad

/-- **What is refused, and why.** -/
theorem decodeBytes_eq_error_iff {ds : Bytes} {fault : Fault} :
    decodeBytes ds = .error fault ↔ Refused ds fault := by
  refine ⟨refused_of_decodeBytes, fun h => ?_⟩
  cases h with
  | oddLength hodd => rw [decodeBytes, if_pos hodd]
  | @badDigit b position heven hbad =>
    rw [decodeBytes, if_neg (by omega)]
    rcases decodePairs_settled 0 heven with ⟨bs, -, hall⟩ | ⟨i, c, herror, hbad'⟩
    · exact absurd (hall b (List.mem_of_getElem? hbad.byte)) hbad.bad
    · obtain ⟨rfl, rfl⟩ := hbad.eq hbad'
      rw [herror, Nat.zero_add]

end SealedPoll.Hex
