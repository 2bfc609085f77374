import Mathlib.Data.List.TakeWhile
import SealedPoll.Text

/-!
# Trimmed texts and counts

* `Trims s core` : the text is `core` between blanks, and `core` neither begins nor ends with one.
  There is one such `core`, and `trim` finds it (`trim_eq_iff`);
* `IsCount` : an optional plus sign and one or more digits, with their value. These are the texts
  that are read, if the value is below `2 ^ 64` (`readCount?_eq_some_iff`).
-/

namespace SealedPoll.Text

/-! ## Blanks -/

/-- The text is `core` between blanks, of which `core` has none at its ends. -/
structure Trims (s core : String) : Prop where
  surrounded : ∃ front back : List Char, s.toList = front ++ core.toList ++ back ∧
    (∀ c ∈ front, isBlank c = true) ∧ ∀ c ∈ back, isBlank c = true
  head : ∀ c, core.toList.head? = some c → isBlank c = false
  last : ∀ c, core.toList.getLast? = some c → isBlank c = false

theorem dropWhile_isBlank {front rest : List Char} (hfront : ∀ c ∈ front, isBlank c = true)
    (hrest : ∀ c, rest.head? = some c → isBlank c = false) :
    (front ++ rest).dropWhile isBlank = rest := by
  rw [List.dropWhile_append_of_pos hfront]
  cases rest with
  | nil => rfl
  | cons c rest => exact List.dropWhile_cons_of_neg (by simp [hrest c rfl])

/-- What is left after blanks are dropped does not begin with one. -/
theorem isBlank_of_head?_dropWhile {cs : List Char} {c : Char}
    (h : (cs.dropWhile isBlank).head? = some c) : isBlank c = false := by
  have hnot := List.head?_dropWhile_not isBlank cs
  rw [h] at hnot
  simpa using hnot

theorem trimChars_append {front core back : List Char} (hfront : ∀ c ∈ front, isBlank c = true)
    (hback : ∀ c ∈ back, isBlank c = true) (hhead : ∀ c, core.head? = some c → isBlank c = false)
    (hlast : ∀ c, core.getLast? = some c → isBlank c = false) :
    trimChars (front ++ core ++ back) = core := by
  cases core with
  | nil =>
    have hall : ∀ c ∈ front ++ [] ++ back, isBlank c = true := by
      simpa [or_imp, forall_and] using ⟨hfront, hback⟩
    rw [trimChars, List.dropWhile_eq_nil_iff.2 hall]
    rfl
  | cons c core =>
    have hleft : (front ++ (c :: core) ++ back).dropWhile isBlank = c :: core ++ back := by
      rw [List.append_assoc]
      exact dropWhile_isBlank hfront hhead
    have hright : (c :: core ++ back).reverse.dropWhile isBlank = (c :: core).reverse := by
      rw [List.reverse_append]
      refine dropWhile_isBlank (fun d hd => hback d (List.mem_reverse.1 hd)) fun d hd => hlast d ?_
      rwa [List.head?_reverse] at hd
    rw [trimChars, hleft, hright, List.reverse_reverse]

theorem trims_trim (s : String) : Trims s (trim s) := by
  let rest := s.toList.dropWhile isBlank
  let core := (rest.reverse.dropWhile isBlank).reverse
  let back := (rest.reverse.takeWhile isBlank).reverse
  have hcore : (trim s).toList = core := toList_trim s
  have hrest : rest = core ++ back := by
    rw [← List.reverse_append, List.takeWhile_append_dropWhile, List.reverse_reverse]
  refine ⟨⟨s.toList.takeWhile isBlank, back, ?_, ?_, ?_⟩, fun c hc => ?_, fun c hc => ?_⟩
  · rw [hcore, List.append_assoc, ← hrest, List.takeWhile_append_dropWhile]
  · exact fun c => List.mem_takeWhile_imp
  · exact fun c hc => List.mem_takeWhile_imp (List.mem_reverse.1 hc)
  · have hhead : rest.head? = some c := by rw [hrest, List.head?_append, ← hcore, hc]; rfl
    exact isBlank_of_head?_dropWhile hhead
  · rw [hcore, List.getLast?_reverse] at hc
    exact isBlank_of_head?_dropWhile hc

theorem trim_eq_iff {s core : String} : trim s = core ↔ Trims s core := by
  refine ⟨fun h => h ▸ trims_trim s, fun h => ?_⟩
  obtain ⟨front, back, hs, hfront, hback⟩ := h.surrounded
  rw [trim, hs, trimChars_append hfront hback h.head h.last, String.ofList_toList]

/-! ## Counts -/

/-- An optional plus sign and one or more digits, any number of zeros first. -/
inductive IsCount : List Char → Nat → Prop
  | digits {sign ds : List Char} : sign ∈ [[], ['+']] → ds ≠ [] → (∀ c ∈ ds, c.isDigit) →
      IsCount (sign ++ ds) (Nat.ofDigitChars 10 ds 0)

theorem isDigit_iff {c : Char} : c.isDigit = true ↔ '0' ≤ c ∧ c ≤ '9' := by
  simp only [Char.isDigit, Bool.and_eq_true, decide_eq_true_eq]
  rfl

theorem digitValue?_eq_some_iff {c : Char} {d : Nat} :
    digitValue? c = some d ↔ c.isDigit ∧ c.toNat - '0'.toNat = d := by
  rw [isDigit_iff, digitValue?]
  split
  · next h => rw [Option.some.injEq, and_iff_right h]
  · next h => simp [h]

theorem readDigits?_eq_some_iff {ds : List Char} {value n : Nat} :
    readDigits? value ds = some n ↔
      (∀ c ∈ ds, c.isDigit) ∧ Nat.ofDigitChars 10 ds value = n := by
  induction ds generalizing value with
  | nil => simp [readDigits?]
  | cons c ds ih =>
    rw [readDigits?, Option.bind_eq_some_iff, Nat.ofDigitChars_cons]
    constructor
    · rintro ⟨d, hd, hrest⟩
      obtain ⟨hc, rfl⟩ := digitValue?_eq_some_iff.1 hd
      obtain ⟨hds, hvalue⟩ := ih.1 hrest
      exact ⟨List.forall_mem_cons.2 ⟨hc, hds⟩, hvalue⟩
    · rintro ⟨hall, hvalue⟩
      obtain ⟨hc, hds⟩ := List.forall_mem_cons.1 hall
      exact ⟨_, digitValue?_eq_some_iff.2 ⟨hc, rfl⟩, ih.2 ⟨hds, hvalue⟩⟩

theorem dropPlus_of_digits {ds : List Char} (hds : ∀ c ∈ ds, c.isDigit) : dropPlus ds = ds := by
  unfold dropPlus
  split
  · exact absurd (hds '+' (by simp)) (by decide)
  · rfl

theorem exists_sign (cs : List Char) : ∃ sign ∈ [[], ['+']], cs = sign ++ dropPlus cs := by
  unfold dropPlus
  split
  · exact ⟨['+'], by simp, rfl⟩
  · exact ⟨[], by simp, rfl⟩

theorem IsCount.exists_digits {cs : List Char} {n : Nat} (h : IsCount cs n) :
    dropPlus cs ≠ [] ∧ readDigits? 0 (dropPlus cs) = some n := by
  cases h with
  | @digits sign ds hsign hne hds =>
    have hdrop : dropPlus (sign ++ ds) = ds := by
      rcases List.mem_cons.1 hsign with rfl | hplus
      · exact dropPlus_of_digits hds
      · obtain rfl := List.mem_singleton.1 hplus
        rfl
    rw [hdrop]
    exact ⟨hne, readDigits?_eq_some_iff.2 ⟨hds, rfl⟩⟩

theorem isCount_of_digits {cs : List Char} {n : Nat} (hne : dropPlus cs ≠ [])
    (h : readDigits? 0 (dropPlus cs) = some n) : IsCount cs n := by
  obtain ⟨hds, rfl⟩ := readDigits?_eq_some_iff.1 h
  obtain ⟨sign, hsign, hcs⟩ := exists_sign cs
  generalize dropPlus cs = ds at *
  subst hcs
  exact .digits hsign hne hds

/-- **What is read as a count.** A sign and digits of a value that fits a word of 64 bits. -/
theorem readCount?_eq_some_iff {cs : List Char} {n : UInt64} :
    readCount? cs = some n ↔ IsCount cs n.toNat := by
  constructor
  · intro h
    unfold readCount? at h
    split at h
    · cases h
    · next hne =>
      obtain ⟨value, hvalue, hbound⟩ := Option.bind_eq_some_iff.1 h
      split at hbound
      · next hlt =>
        obtain rfl := Option.some.inj hbound
        rw [UInt64.toNat_ofNat_of_lt' hlt]
        exact isCount_of_digits hne hvalue
      · cases hbound
  · intro h
    obtain ⟨hne, hvalue⟩ := h.exists_digits
    rw [readCount?, if_neg hne, hvalue, Option.bind_some, if_pos n.toNat_lt, UInt64.ofNat_toNat]

end SealedPoll.Text
