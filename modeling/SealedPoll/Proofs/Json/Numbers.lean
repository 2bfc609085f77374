import SealedPoll.Proofs.Json.Strings

/-!
# Numbers are read by the grammar

A number is read as far as it goes, so what follows it must not continue it (`Ends`).

* `scanDigits_eq_ok_iff`, `scanWhole_eq_ok_iff` : digits;
* `exists_isNumber`, `exists_scan_append` : numbers, once what follows is looked at.
-/

namespace SealedPoll.Json

/-- No digit comes first. -/
def NoDigit (cs : List Char) : Prop := ∀ c ∈ cs.head?, c.isDigit = false

/-- Nothing that comes first continues a number. -/
def Ends (cs : List Char) : Prop := ∀ c ∈ cs.head?, c.isDigit = false ∧ c ∉ ['.', 'e', 'E']

theorem Ends.noDigit {cs : List Char} (h : Ends cs) : NoDigit cs := fun c hc => (h c hc).1

theorem IsDigits.head {ds : List Char} (h : IsDigits ds) :
    ∃ d more, ds = d :: more ∧ d.isDigit = true := by
  obtain ⟨d, more, rfl⟩ := List.exists_cons_of_ne_nil h.1
  exact ⟨d, more, rfl, h.2 d (by simp)⟩

namespace Numeral

variable {atEnd : Fault} {cs rest : List Char}

/-! ## Digits -/

theorem scanDigits_eq_ok_iff {digits : List Char} :
    scanDigits atEnd cs = .ok (digits, rest) ↔
      IsDigits digits ∧ cs = digits ++ rest ∧ NoDigit rest := by
  constructor
  · intro h
    unfold scanDigits at h
    split at h
    · cases h
    · next c cs =>
      split at h
      · next hc =>
        obtain ⟨rfl, rfl⟩ := Prod.mk.inj (Except.ok.inj h)
        refine ⟨⟨by simp [hc], fun d hd => List.mem_takeWhile_imp hd⟩,
          (List.takeWhile_append_dropWhile).symm, fun d hd => ?_⟩
        have := List.head?_dropWhile_not Char.isDigit (c :: cs)
        simp_all
      · cases h
  · rintro ⟨hdigits, rfl, hrest⟩
    have hstop : rest.takeWhile Char.isDigit = [] ∧ rest.dropWhile Char.isDigit = rest := by
      cases rest <;> simp_all [NoDigit]
    have htake : (digits ++ rest).takeWhile Char.isDigit = digits := by
      rw [List.takeWhile_append_of_pos hdigits.2, hstop.1, List.append_nil]
    have hdrop : (digits ++ rest).dropWhile Char.isDigit = rest := by
      rw [List.dropWhile_append_of_pos hdigits.2, hstop.2]
    obtain ⟨d, more, rfl, hd⟩ := hdigits.head
    simp only [List.cons_append] at htake hdrop ⊢
    simp only [scanDigits, hd, htake, hdrop, if_true]

theorem scanWhole_eq_ok_iff {digits : List Char} :
    scanWhole atEnd cs = .ok (digits, rest) ↔
      IsWhole digits ∧ cs = digits ++ rest ∧ NoDigit rest := by
  have hdigits : scanWhole atEnd cs = .ok (digits, rest) ↔
      scanDigits atEnd cs = .ok (digits, rest) ∧ (digits.head? = some '0' → digits = ['0']) := by
    unfold scanWhole
    grind
  rw [hdigits, scanDigits_eq_ok_iff, IsWhole]
  grind

/-! ## Fractions and exponents -/

theorem exists_isFraction {digits? : Option (List Char)}
    (h : scanFraction atEnd cs = .ok (digits?, rest)) : ∃ w, IsFraction w ∧ cs = w ++ rest := by
  unfold scanFraction at h
  split at h
  · obtain ⟨-, rfl⟩ := Prod.mk.inj (Except.ok.inj h)
    exact ⟨[], .none, rfl⟩
  · next c cs =>
    split at h
    · next hc =>
      split at h
      · cases h
      · next ds left hdigits =>
        obtain ⟨-, rfl⟩ := Prod.mk.inj (Except.ok.inj h)
        obtain ⟨hds, rfl, -⟩ := scanDigits_eq_ok_iff.1 hdigits
        exact ⟨'.' :: ds, .digits hds, by rw [hc]; rfl⟩
    · obtain ⟨-, rfl⟩ := Prod.mk.inj (Except.ok.inj h)
      exact ⟨[], .none, rfl⟩

theorem exists_scanFraction_append (atEnd : Fault) {w : List Char} (h : IsFraction w)
    (hrest : ∀ c ∈ rest.head?, c.isDigit = false ∧ c ≠ '.') :
    ∃ digits?, scanFraction atEnd (w ++ rest) = .ok (digits?, rest) := by
  cases h with
  | none =>
    refine ⟨none, ?_⟩
    cases rest <;> simp_all [scanFraction]
  | @digits ds hds =>
    have hdigits : scanDigits atEnd (ds ++ rest) = .ok (ds, rest) :=
      scanDigits_eq_ok_iff.2 ⟨hds, rfl, fun c hc => (hrest c hc).1⟩
    exact ⟨some ds, by simp [scanFraction, hdigits]⟩

theorem exists_sign (cs : List Char) :
    ∃ sign ∈ [[], ['+'], ['-']], cs = sign ++ (scanSign cs).2 := by
  unfold scanSign
  split
  · exact ⟨[], by simp, rfl⟩
  · next c cs =>
    split
    · next hc => exact ⟨['-'], by simp, by rw [hc]; rfl⟩
    · split
      · next hc => exact ⟨['+'], by simp, by rw [hc]; rfl⟩
      · exact ⟨[], by simp, rfl⟩

theorem scanSign_append {sign ds : List Char} (hsign : sign ∈ [[], ['+'], ['-']])
    (hds : IsDigits ds) : (scanSign (sign ++ ds ++ rest)).2 = ds ++ rest := by
  obtain ⟨d, more, rfl, hd⟩ := hds.head
  have hminus : d ≠ '-' := by rintro rfl; cases hd
  have hplus : d ≠ '+' := by rintro rfl; cases hd
  simp only [List.mem_cons, List.not_mem_nil, or_false] at hsign
  obtain rfl | rfl | rfl := hsign <;> simp [scanSign, hminus, hplus]

theorem exists_isExponent {exponent? : Option (Bool × List Char)}
    (h : scanExponent atEnd cs = .ok (exponent?, rest)) : ∃ w, IsExponent w ∧ cs = w ++ rest := by
  unfold scanExponent at h
  split at h
  · obtain ⟨-, rfl⟩ := Prod.mk.inj (Except.ok.inj h)
    exact ⟨[], .none, rfl⟩
  · next mark cs =>
    split at h
    · next hmark =>
      split at h
      · cases h
      · next ds left hdigits =>
        obtain ⟨-, rfl⟩ := Prod.mk.inj (Except.ok.inj h)
        obtain ⟨sign, hsign, hcs⟩ := exists_sign cs
        obtain ⟨hds, hleft, -⟩ := scanDigits_eq_ok_iff.1 hdigits
        refine ⟨mark :: sign ++ ds, .digits (by simpa using hmark) hsign hds, ?_⟩
        rw [hcs, hleft]
        simp
    · obtain ⟨-, rfl⟩ := Prod.mk.inj (Except.ok.inj h)
      exact ⟨[], .none, rfl⟩

theorem exists_scanExponent_append (atEnd : Fault) {w : List Char} (h : IsExponent w)
    (hrest : Ends rest) :
    ∃ exponent?, scanExponent atEnd (w ++ rest) = .ok (exponent?, rest) := by
  cases h with
  | none =>
    refine ⟨none, ?_⟩
    cases rest <;> simp_all [scanExponent, Ends]
  | @digits mark sign ds hmark hsign hds =>
    have hdigits : scanDigits atEnd (scanSign (sign ++ ds ++ rest)).2 = .ok (ds, rest) := by
      rw [scanSign_append hsign hds]
      exact scanDigits_eq_ok_iff.2 ⟨hds, rfl, hrest.noDigit⟩
    have hmark : mark = 'e' ∨ mark = 'E' := by simpa using hmark
    refine ⟨some ((scanSign (sign ++ ds ++ rest)).1, ds), ?_⟩
    simp only [List.cons_append, scanExponent, hmark, if_true, hdigits]

/-! ## Numbers -/

/-- What may follow the whole part of a number, given what may follow the number. -/
theorem noDigit_fraction_append {fraction exponent : List Char} (hfraction : IsFraction fraction)
    (hexponent : IsExponent exponent) (hrest : Ends rest) :
    NoDigit (fraction ++ (exponent ++ rest)) := by
  cases hfraction with
  | digits hds => simp [NoDigit]
  | none =>
    cases hexponent with
    | none => exact hrest.noDigit
    | digits hmark _ _ =>
      simp only [List.mem_cons, List.not_mem_nil, or_false] at hmark
      obtain rfl | rfl := hmark <;> simp [NoDigit]

theorem exponent_append {exponent : List Char} (hexponent : IsExponent exponent)
    (hrest : Ends rest) : ∀ c ∈ (exponent ++ rest).head?, c.isDigit = false ∧ c ≠ '.' := by
  cases hexponent with
  | none =>
    intro c hc
    obtain ⟨hdigit, hmark⟩ := hrest c hc
    exact ⟨hdigit, fun h => hmark (by simp [h])⟩
  | digits hmark _ _ =>
    simp only [List.mem_cons, List.not_mem_nil, or_false] at hmark
    obtain rfl | rfl := hmark <;> simp

theorem exists_parts {negative : Bool} {n : Numeral}
    (h : scanUnsigned atEnd negative cs = .ok (n, rest)) :
    ∃ whole fraction exponent, IsWhole whole ∧ IsFraction fraction ∧ IsExponent exponent ∧
      cs = whole ++ fraction ++ exponent ++ rest := by
  unfold scanUnsigned at h
  split at h
  · cases h
  · next whole left h₁ =>
    split at h
    · cases h
    · next fraction? left h₂ =>
      split at h
      · cases h
      · next exponent? left h₃ =>
        obtain ⟨-, rfl⟩ := Prod.mk.inj (Except.ok.inj h)
        obtain ⟨hwhole, rfl, -⟩ := scanWhole_eq_ok_iff.1 h₁
        obtain ⟨fraction, hfraction, rfl⟩ := exists_isFraction h₂
        obtain ⟨exponent, hexponent, rfl⟩ := exists_isExponent h₃
        exact ⟨whole, fraction, exponent, hwhole, hfraction, hexponent, by simp⟩

theorem exists_scanUnsigned_append (atEnd : Fault) (negative : Bool)
    {whole fraction exponent : List Char} (hwhole : IsWhole whole)
    (hfraction : IsFraction fraction) (hexponent : IsExponent exponent) (hrest : Ends rest) :
    ∃ n, scanUnsigned atEnd negative (whole ++ (fraction ++ (exponent ++ rest))) =
      .ok (n, rest) := by
  have h₁ : scanWhole atEnd (whole ++ (fraction ++ (exponent ++ rest))) =
      .ok (whole, fraction ++ (exponent ++ rest)) :=
    scanWhole_eq_ok_iff.2 ⟨hwhole, rfl, noDigit_fraction_append hfraction hexponent hrest⟩
  obtain ⟨fraction?, h₂⟩ :=
    exists_scanFraction_append atEnd hfraction (exponent_append hexponent hrest)
  obtain ⟨exponent?, h₃⟩ := exists_scanExponent_append atEnd hexponent hrest
  exact ⟨⟨negative, whole, fraction?, exponent?⟩, by simp [scanUnsigned, h₁, h₂, h₃]⟩

theorem exists_isNumber {n : Numeral} (h : scan atEnd cs = .ok (n, rest)) :
    ∃ w, IsNumber w ∧ cs = w ++ rest := by
  unfold scan at h
  split at h
  · cases h
  · next c cs =>
    split at h
    · next hc =>
      obtain ⟨whole, fraction, exponent, hwhole, hfraction, hexponent, rfl⟩ := exists_parts h
      exact ⟨['-'] ++ whole ++ fraction ++ exponent,
        .parts (by simp) hwhole hfraction hexponent, by simp [hc]⟩
    · obtain ⟨whole, fraction, exponent, hwhole, hfraction, hexponent, hcs⟩ := exists_parts h
      exact ⟨[] ++ whole ++ fraction ++ exponent,
        .parts (by simp) hwhole hfraction hexponent, by simpa using hcs⟩

theorem exists_scan_append (atEnd : Fault) {w : List Char} (h : IsNumber w) (hrest : Ends rest) :
    ∃ n, scan atEnd (w ++ rest) = .ok (n, rest) := by
  obtain @⟨sign, whole, fraction, exponent, hsign, hwhole, hfraction, hexponent⟩ := h
  simp only [List.append_assoc]
  simp only [List.mem_cons, List.not_mem_nil, or_false] at hsign
  obtain rfl | rfl := hsign
  · obtain ⟨n, hn⟩ := exists_scanUnsigned_append atEnd false hwhole hfraction hexponent hrest
    refine ⟨n, ?_⟩
    obtain ⟨d, more, rfl, hd⟩ := hwhole.1.head
    have hminus : d ≠ '-' := by rintro rfl; cases hd
    simpa [scan, hminus] using hn
  · obtain ⟨n, hn⟩ := exists_scanUnsigned_append atEnd true hwhole hfraction hexponent hrest
    exact ⟨n, by simpa [scan] using hn⟩

end Numeral

end SealedPoll.Json
