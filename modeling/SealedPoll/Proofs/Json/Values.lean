import SealedPoll.Proofs.Json.Numbers

/-!
# Values are skipped by the grammar

* `exists_isScalar`, `IsScalar.skip` : literals, numbers and strings;
* `skipName_eq_ok_iff` : what comes before the value of an item;
* `IsValue.skipInside` : a value inside any brackets is passed, by induction on the value;
* `passed_of_skipInside` : whatever is passed is by the grammar, by induction along the scanner.
  Inside brackets the text has to close each of them (`Closes`);
* `IsValue.skip`, `exists_isValue` : both for a value that stands alone.
-/

namespace SealedPoll.Json

variable {cs rest : List Char}

/-! ## Scalars -/

theorem exists_isScalar (h : skipScalar cs = .ok rest) : ∃ w, IsScalar w ∧ cs = w ++ rest := by
  unfold skipScalar at h
  split at h
  · cases h
  · next c cs =>
    split at h
    · next hc =>
      obtain ⟨body, hbody, rfl⟩ := skipString_eq_ok_iff.1 h
      exact ⟨_, .text hbody, by simp [hc]⟩
    · split at h
      · next hc =>
        obtain rfl := expectWord_eq_ok_iff.1 h
        exact ⟨"null".toList, .word (by simp), by rw [hc]; rfl⟩
      · split at h
        · next hc =>
          obtain rfl := expectWord_eq_ok_iff.1 h
          exact ⟨"true".toList, .word (by simp), by rw [hc]; rfl⟩
        · split at h
          · next hc =>
            obtain rfl := expectWord_eq_ok_iff.1 h
            exact ⟨"false".toList, .word (by simp), by rw [hc]; rfl⟩
          · split at h
            · split at h
              · cases h
              · next n left hscan =>
                obtain rfl := Except.ok.inj h
                obtain ⟨w, hw, hcs⟩ := Numeral.exists_isNumber hscan
                exact ⟨w, .number hw, hcs⟩
            · cases h

theorem IsNumber.head {w : List Char} (h : IsNumber w) :
    ∃ c more, w = c :: more ∧ (c = '-' ∨ c.isDigit = true) := by
  obtain @⟨sign, whole, fraction, exponent, hsign, hwhole, -, -⟩ := h
  obtain ⟨d, more, rfl, hd⟩ := hwhole.1.head
  simp only [List.mem_cons, List.not_mem_nil, or_false] at hsign
  obtain rfl | rfl := hsign
  · exact ⟨d, _, rfl, Or.inr hd⟩
  · exact ⟨'-', _, rfl, Or.inl rfl⟩

theorem IsScalar.skip {w : List Char} (h : IsScalar w) (hrest : Ends rest) :
    skipScalar (w ++ rest) = .ok rest := by
  cases h with
  | @word w hw =>
    simp only [List.mem_cons, List.not_mem_nil, or_false] at hw
    obtain rfl | rfl | rfl := hw <;> simp [skipScalar, expectWord]
  | number hw =>
    obtain ⟨n, hn⟩ := Numeral.exists_scan_append .malformed hw hrest
    obtain ⟨c, more, rfl, hc⟩ := hw.head
    have hfirst : c ≠ '\x22' ∧ c ≠ 'n' ∧ c ≠ 't' ∧ c ≠ 'f' := by
      refine ⟨?_, ?_, ?_, ?_⟩ <;> rintro rfl <;> simp at hc
    simp only [List.cons_append] at hn ⊢
    simp [skipScalar, hfirst, hc, hn]
  | @text body hbody =>
    have hskip : skipString (body ++ '\x22' :: rest) = .ok rest :=
      skipString_eq_ok_iff.2 ⟨body, hbody, rfl⟩
    simpa [skipScalar] using hskip

theorem isBlank_of_isDigit {c : Char} (h : c.isDigit = true) : isBlank c = false := by
  by_contra hne
  simp only [Bool.not_eq_false, isBlank, Bool.or_eq_true, decide_eq_true_eq] at hne
  obtain ((rfl | rfl) | rfl) | rfl := hne <;> cases h

theorem IsScalar.head {w : List Char} (h : IsScalar w) :
    ∃ c more, w = c :: more ∧ isBlank c = false ∧ c ∉ ['[', '\x7b', ']'] := by
  cases h with
  | @word w hw =>
    simp only [List.mem_cons, List.not_mem_nil, or_false] at hw
    obtain rfl | rfl | rfl := hw
    · exact ⟨'n', _, rfl, by decide, by decide⟩
    · exact ⟨'t', _, rfl, by decide, by decide⟩
    · exact ⟨'f', _, rfl, by decide, by decide⟩
  | number hw =>
    obtain ⟨c, more, rfl, hc⟩ := hw.head
    refine ⟨c, more, rfl, ?_, ?_⟩
    · obtain rfl | hc := hc
      · rfl
      · exact isBlank_of_isDigit hc
    · simp only [List.mem_cons, List.not_mem_nil, or_false]
      rintro (rfl | rfl | rfl) <;> simp at hc
  | text _ => exact ⟨'\x22', _, rfl, by decide, by decide⟩

theorem IsValue.head {v : List Char} (h : IsValue v) :
    ∃ c more, v = c :: more ∧ isBlank c = false ∧ c ≠ ']' := by
  cases h with
  | scalar hw =>
    obtain ⟨c, more, rfl, hblank, hc⟩ := hw.head
    exact ⟨c, more, rfl, hblank, fun h => hc (by simp [h])⟩
  | @empty b blanks _ => cases b <;> exact ⟨_, _, rfl, by decide, by decide⟩
  | @items b first more _ _ => cases b <;> exact ⟨_, _, rfl, by decide, by decide⟩

/-! ## Labels -/

theorem skipName_eq_ok_iff {b : Bracket} :
    skipName b cs = .ok rest ↔ ∃ label, Item.IsLabel b label ∧ cs = label ++ rest := by
  cases b with
  | square => simp [skipName, Item.IsLabel]
  | curly =>
    constructor
    · intro h
      simp only [skipName] at h
      split at h
      · cases h
      · next left hquote =>
        split at h
        · cases h
        · next after htext =>
          obtain ⟨w, hw, rfl⟩ := (expectMark_eq_ok_iff (by decide)).1 hquote
          obtain ⟨body, hbody, rfl⟩ := skipString_eq_ok_iff.1 htext
          obtain ⟨gap, hgap, rfl⟩ := (expectMark_eq_ok_iff (by decide)).1 h
          exact ⟨_, ⟨w, body, gap, hw, hbody, hgap, rfl⟩, by simp⟩
    · rintro ⟨label, ⟨w, body, gap, hw, hbody, hgap, rfl⟩, rfl⟩
      have hquote : expectMark '\x22' (w ++ '\x22' :: (body ++ '\x22' :: (gap ++ ':' :: rest))) =
          .ok (body ++ '\x22' :: (gap ++ ':' :: rest)) :=
        (expectMark_eq_ok_iff (by decide)).2 ⟨w, hw, rfl⟩
      have htext : skipString (body ++ '\x22' :: (gap ++ ':' :: rest)) = .ok (gap ++ ':' :: rest) :=
        skipString_eq_ok_iff.2 ⟨body, hbody, rfl⟩
      have hcolon : expectMark ':' (gap ++ ':' :: rest) = .ok rest :=
        (expectMark_eq_ok_iff (by decide)).2 ⟨gap, hgap, rfl⟩
      simp [skipName, hquote, htext, hcolon]

theorem Item.IsLabel.skipName {b : Bracket} {label : List Char} (h : Item.IsLabel b label)
    (rest : List Char) : skipName b (label ++ rest) = .ok rest :=
  skipName_eq_ok_iff.2 ⟨label, h, rfl⟩

/-- The name of an item of a map without the blanks in front of it. -/
theorem Item.IsLabel.trim {label : List Char} (h : Item.IsLabel .curly label) :
    ∃ w name, IsBlanks w ∧ Item.IsLabel .curly ('\x22' :: name) ∧ label = w ++ '\x22' :: name := by
  obtain ⟨w, body, gap, hw, hbody, hgap, rfl⟩ := h
  exact ⟨w, body ++ '\x22' :: gap ++ [':'], hw, ⟨[], body, gap, isBlanks_nil, hbody, hgap, rfl⟩,
    by simp⟩

/-! ## One step of the scanner -/

section Step

variable {b : Bracket} {outer opened : List Bracket} {blanks : List Char}

theorem isBlank_opening (b : Bracket) : isBlank b.opening = false := by cases b <;> rfl

theorem isBlank_close (b : Bracket) : isBlank b.close = false := by cases b <;> rfl

theorem skipInside_value_of_opening (h : skipBlanks cs = b.opening :: rest) :
    skipInside .value opened cs = skipInside .first (b :: opened) rest := by
  rw [skipInside]
  cases b <;> split <;> simp_all [Bracket.opening]

theorem skipInside_value_of_scalar {c : Char} {more : List Char}
    (h : skipBlanks cs = c :: more) (hc : c ≠ '[' ∧ c ≠ '\x7b')
    (hscalar : skipScalar (c :: more) = .ok rest) :
    skipInside .value opened cs = skipInside .next opened rest := by
  rw [skipInside]
  split
  · simp_all
  · next d tail hd =>
    obtain ⟨rfl, rfl⟩ := List.cons.inj (hd.symm.trans h)
    rw [if_neg hc.1, if_neg hc.2]
    split <;> simp_all

theorem skipInside_first_of_close (h : skipBlanks cs = b.close :: rest) :
    skipInside .first (b :: outer) cs = skipInside .next outer rest := by
  rw [skipInside]
  split <;> simp_all

theorem skipInside_first_of_label {c : Char} {more : List Char}
    (h : skipBlanks cs = c :: more) (hc : c ≠ b.close) (hname : skipName b (c :: more) = .ok rest) :
    skipInside .first (b :: outer) cs = skipInside .value (b :: outer) rest := by
  conv => lhs; rw [skipInside]
  split
  · simp_all
  · next d tail hd =>
    obtain ⟨rfl, rfl⟩ := List.cons.inj (hd.symm.trans h)
    rw [if_neg hc]
    split
    · simp_all
    · next left hleft =>
      obtain rfl := Except.ok.inj (hleft.symm.trans hname)
      rfl

theorem skipInside_next_of_close (h : skipBlanks cs = b.close :: rest) :
    skipInside .next (b :: outer) cs = skipInside .next outer rest := by
  rw [skipInside]
  split <;> simp_all

theorem skipInside_next_of_comma {more : List Char} (h : skipBlanks cs = ',' :: more)
    (hname : skipName b more = .ok rest) :
    skipInside .next (b :: outer) cs = skipInside .value (b :: outer) rest := by
  have hclose : ',' ≠ b.close := by cases b <;> decide
  conv => lhs; rw [skipInside]
  split
  · simp_all
  · next d tail hd =>
    obtain ⟨rfl, rfl⟩ := List.cons.inj (hd.symm.trans h)
    rw [if_neg hclose, if_pos rfl]
    split
    · simp_all
    · next left hleft =>
      obtain rfl := Except.ok.inj (hleft.symm.trans hname)
      rfl

end Step

/-! ## Whatever is a value is passed -/

theorem Ends.append {blanks : List Char} (hblanks : IsBlanks blanks) (h : Ends rest) :
    Ends (blanks ++ rest) := by
  cases blanks with
  | nil => exact h
  | cons c blanks =>
    have hblank : ∀ d ∈ [' ', '\t', '\n', '\r'], d.isDigit = false ∧ d ∉ ['.', 'e', 'E'] := by
      simp
    simpa [Ends] using hblank c (hblanks c (by simp))

theorem ends_comma (cs : List Char) : Ends (',' :: cs) := by simp [Ends]

theorem ends_close (b : Bracket) (cs : List Char) : Ends (b.close :: cs) := by
  cases b <;> simp [Ends, Bracket.close]

theorem ends_further (b : Bracket) (items : List Item) (cs : List Char) :
    Ends (Item.further items ++ b.close :: cs) := by
  cases items with
  | nil => exact ends_close b cs
  | cons item items => exact ends_comma _

/-- A value with blanks in front is passed, inside any brackets. -/
def Passes (v : List Char) : Prop :=
  ∀ (opened : List Bracket) (before rest : List Char), IsBlanks before → Ends rest →
    skipInside .value opened (before ++ (v ++ rest)) = skipInside .next opened rest

theorem IsScalar.passes {w : List Char} (h : IsScalar w) : Passes w := by
  intro opened before rest hbefore hrest
  have hskip := h.skip hrest
  obtain ⟨c, more, rfl, hblank, hc⟩ := h.head
  simp only [List.mem_cons, List.not_mem_nil, or_false, not_or] at hc
  have hfirst : skipBlanks (before ++ (c :: more ++ rest)) = c :: (more ++ rest) :=
    skipBlanks_append_cons hbefore hblank (more ++ rest)
  exact skipInside_value_of_scalar hfirst ⟨hc.1, hc.2.1⟩ hskip

section Items

variable {b : Bracket} {outer : List Bracket}

theorem skipInside_first_of_item {item : Item} (hfits : item.Fits b) (hvalue : IsValue item.value)
    (hpasses : Passes item.value) (hrest : Ends rest) :
    skipInside .first (b :: outer) (item.text ++ rest) =
      skipInside .next (b :: outer) (item.after ++ rest) := by
  obtain ⟨hlabel, hbefore, hafter⟩ := hfits
  have hends := hrest.append hafter
  have htext : item.text ++ rest =
      item.label ++ (item.before ++ (item.value ++ (item.after ++ rest))) := by simp [Item.text]
  rw [htext]
  cases b with
  | square =>
    -- the blanks in front of the value are passed together with those after the bracket
    obtain ⟨c, more, hhead, hblank, hc⟩ := hvalue.head
    have hskip : skipBlanks (item.label ++ (item.before ++ (item.value ++ (item.after ++ rest)))) =
        c :: (more ++ (item.after ++ rest)) := by
      rw [show item.label = [] from hlabel, List.nil_append, hhead, List.cons_append,
        skipBlanks_append_cons hbefore hblank]
    have hclose : c ≠ Bracket.square.close := hc
    rw [skipInside_first_of_label hskip hclose rfl]
    have hpassed := hpasses (.square :: outer) [] (item.after ++ rest) isBlanks_nil hends
    rwa [hhead] at hpassed
  | curly =>
    obtain ⟨w, name, hw, hname, hlabel⟩ := hlabel.trim
    have hfirst := skipBlanks_append_cons (c := '\x22') hw rfl
      (name ++ (item.before ++ (item.value ++ (item.after ++ rest))))
    rw [hlabel, List.append_assoc, List.cons_append,
      skipInside_first_of_label hfirst (by decide) (hname.skipName _)]
    exact hpasses _ _ _ hbefore hends

theorem skipInside_next_of_items {items : List Item} (hfits : ∀ item ∈ items, item.Fits b)
    (hpasses : ∀ item ∈ items, Passes item.value) {blanks : List Char} (hblanks : IsBlanks blanks) :
    skipInside .next (b :: outer) (blanks ++ (Item.further items ++ b.close :: rest)) =
      skipInside .next outer rest := by
  induction items generalizing blanks with
  | nil =>
    exact skipInside_next_of_close (skipBlanks_append_cons hblanks (isBlank_close b) rest)
  | cons item items ih =>
    obtain ⟨hlabel, hbefore, hafter⟩ := hfits item (by simp)
    have htext : Item.further (item :: items) ++ b.close :: rest =
        ',' :: (item.label ++ (item.before ++ (item.value ++
          (item.after ++ (Item.further items ++ b.close :: rest))))) := by
      simp [Item.further, Item.text]
    rw [htext, skipInside_next_of_comma (skipBlanks_append_cons hblanks rfl _)
      (hlabel.skipName _), hpasses item (by simp) _ _ _ hbefore ((ends_further b _ _).append hafter)]
    exact ih (fun x hx => hfits x (by simp [hx])) (fun x hx => hpasses x (by simp [hx])) hafter

end Items

theorem IsValue.passes {v : List Char} (h : IsValue v) : Passes v := by
  induction h with
  | scalar hw => exact hw.passes
  | @empty b blanks hblanks =>
    intro opened before rest hbefore hrest
    have htext : before ++ (b.opening :: blanks ++ [b.close] ++ rest) =
        before ++ b.opening :: (blanks ++ b.close :: rest) := by simp
    rw [htext,
      skipInside_value_of_opening (skipBlanks_append_cons hbefore (isBlank_opening b) _),
      skipInside_first_of_close (skipBlanks_append_cons hblanks (isBlank_close b) rest)]
  | @items b first more hfits hvalues ih =>
    intro opened before rest hbefore hrest
    have htext : before ++ (b.opening :: first.text ++ Item.further more ++ [b.close] ++ rest) =
        before ++ b.opening :: (first.text ++ (Item.further more ++ b.close :: rest)) := by simp
    rw [htext,
      skipInside_value_of_opening (skipBlanks_append_cons hbefore (isBlank_opening b) _),
      skipInside_first_of_item (hfits first (by simp)) (hvalues first (by simp))
        (ih first (by simp)) (ends_further b more rest),
      skipInside_next_of_items (fun x hx => hfits x (by simp [hx]))
        (fun x hx => ih x (by simp [hx])) (hfits first (by simp)).after]

/-! ## Whatever is passed is a value -/

/-- What follows a value inside brackets, of which the innermost comes first: for each, further
items and its closing bracket. -/
def Closes : List Bracket → List Char → List Char → Prop
  | [], cs, rest => cs = rest
  | b :: outer, cs, rest => ∃ blanks items tail, IsBlanks blanks ∧
      (∀ item ∈ items, item.Fits b) ∧ (∀ item ∈ items, IsValue item.value) ∧
      cs = blanks ++ Item.further items ++ b.close :: tail ∧ Closes outer tail rest

/-- What has been passed, by what was expected. The opening bracket of a value whose first item is
expected has been read before. -/
def Passed : Expected → List Bracket → List Char → List Char → Prop
  | .value, opened, cs, rest => ∃ before v tail, IsBlanks before ∧ IsValue v ∧
      cs = before ++ v ++ tail ∧ Closes opened tail rest
  | .first, [], cs, rest => cs = rest
  | .first, b :: outer, cs, rest => ∃ v tail, IsValue v ∧ b.opening :: cs = v ++ tail ∧
      Closes outer tail rest
  | .next, opened, cs, rest => Closes opened cs rest

theorem passed_value_of_opening {b : Bracket} {opened : List Bracket} {more : List Char}
    (h : skipBlanks cs = b.opening :: more) (hpassed : Passed .first (b :: opened) more rest) :
    Passed .value opened cs rest := by
  obtain ⟨w, hw, rfl⟩ := (skipBlanks_eq_cons_iff.1 h).2
  obtain ⟨v, tail, hv, hmore, hcloses⟩ := hpassed
  exact ⟨w, v, tail, hw, hv, by rw [hmore, List.append_assoc], hcloses⟩

/-- Blanks in front of the first item are in front of its name, if it has one, or of its value. -/
theorem Item.exists_fits {b : Bracket} {w label before after : List Char} (hw : IsBlanks w)
    (hlabel : Item.IsLabel b label) (hbefore : IsBlanks before) (hafter : IsBlanks after)
    (v : List Char) : ∃ item : Item, item.Fits b ∧ item.value = v ∧
      item.text = w ++ label ++ before ++ v ++ after := by
  cases b with
  | square =>
    obtain rfl : label = [] := hlabel
    refine ⟨⟨[], w ++ before, v, after⟩, ⟨rfl, ?_, hafter⟩, rfl, by simp [Item.text]⟩
    exact List.forall_mem_append.2 ⟨hw, hbefore⟩
  | curly =>
    obtain ⟨w', body, gap, hw', hbody, hgap, rfl⟩ := hlabel
    refine ⟨⟨w ++ (w' ++ '\x22' :: body ++ '\x22' :: gap ++ [':']), before, v, after⟩,
      ⟨⟨w ++ w', body, gap, ?_, hbody, hgap, by simp⟩, hbefore, hafter⟩, rfl, by simp [Item.text]⟩
    exact List.forall_mem_append.2 ⟨hw, hw'⟩

theorem passed_of_skipInside {expected : Expected} {opened : List Bracket}
    (h : skipInside expected opened cs = .ok rest) : Passed expected opened cs rest := by
  fun_induction skipInside expected opened cs with
  | case1 => cases h
  | case2 opened cs more hopening _ ih =>
    exact passed_value_of_opening (b := .square) hopening (ih h)
  | case3 opened cs more hopening _ _ ih =>
    exact passed_value_of_opening (b := .curly) hopening (ih h)
  | case4 => cases h
  | case5 opened cs c more hfirst _ _ _ left hscalar _ ih =>
    obtain ⟨w, hw, rfl⟩ := (skipBlanks_eq_cons_iff.1 hfirst).2
    obtain ⟨v, hv, hmore⟩ := exists_isScalar hscalar
    exact ⟨w, v, left, hw, .scalar hv, by rw [hmore, List.append_assoc], ih h⟩
  | case6 cs => exact Except.ok.inj h
  | case7 cs => exact Except.ok.inj h
  | case8 => cases h
  | case9 cs b outer more hclose _ ih =>
    obtain ⟨w, hw, rfl⟩ := (skipBlanks_eq_cons_iff.1 hclose).2
    exact ⟨b.opening :: w ++ [b.close], more, .empty hw, by simp, ih h⟩
  | case10 => cases h
  | case11 cs b outer c more hfirst _ _ left hname _ ih =>
    -- the first item's value comes next, and behind it whatever closes its brackets
    obtain ⟨w, hw, rfl⟩ := (skipBlanks_eq_cons_iff.1 hfirst).2
    obtain ⟨label, hlabel, hmore⟩ := skipName_eq_ok_iff.1 hname
    obtain ⟨before, v, _, hbefore, hv, rfl, blanks, items, tail, hblanks, hfits, hvalues, rfl,
      hcloses⟩ := ih h
    obtain ⟨item, hitem, hvalue, htext⟩ := Item.exists_fits hw hlabel hbefore hblanks v
    refine ⟨_, tail, .items (List.forall_mem_cons.2 ⟨hitem, hfits⟩)
      (List.forall_mem_cons.2 ⟨hvalue ▸ hv, hvalues⟩), ?_, hcloses⟩
    rw [htext, hmore]
    simp
  | case12 => cases h
  | case13 cs b outer more hclose _ ih =>
    obtain ⟨w, hw, rfl⟩ := (skipBlanks_eq_cons_iff.1 hclose).2
    exact ⟨w, [], more, hw, by simp, by simp, by simp [Item.further], ih h⟩
  | case14 => cases h
  | case15 cs b outer more left hname _ hcomma _ _ ih =>
    obtain ⟨w, hw, rfl⟩ := (skipBlanks_eq_cons_iff.1 hcomma).2
    obtain ⟨label, hlabel, rfl⟩ := skipName_eq_ok_iff.1 hname
    obtain ⟨before, v, _, hbefore, hv, rfl, blanks, items, tail, hblanks, hfits, hvalues, rfl,
      hcloses⟩ := ih h
    refine ⟨w, ⟨label, before, v, blanks⟩ :: items, tail, hw,
      List.forall_mem_cons.2 ⟨⟨hlabel, hbefore, hblanks⟩, hfits⟩,
      List.forall_mem_cons.2 ⟨hv, hvalues⟩, ?_, hcloses⟩
    simp [Item.further, Item.text]
  | case16 => cases h

/-! ## Values that stand alone -/

theorem IsValue.skip {v before : List Char} (h : IsValue v) (hbefore : IsBlanks before)
    (hrest : Ends rest) : skipValue (before ++ (v ++ rest)) = .ok rest := by
  rw [skipValue, h.passes [] before rest hbefore hrest, skipInside]

theorem exists_isValue (h : skipValue cs = .ok rest) :
    ∃ before v, IsBlanks before ∧ IsValue v ∧ cs = before ++ v ++ rest := by
  obtain ⟨before, v, tail, hbefore, hv, hcs, rfl⟩ := passed_of_skipInside h
  exact ⟨before, v, hbefore, hv, hcs⟩

end SealedPoll.Json
