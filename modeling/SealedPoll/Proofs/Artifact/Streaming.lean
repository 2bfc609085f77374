import SealedPoll.Proofs.Artifact.Reader
import SealedPoll.Proofs.Json.Streaming

/-!
# Artifacts are read front to back

* `readHex_extend`, `readField_extend`, `readMember_extend` : what has been read of a longer text;
* `Misfit.Settled` : a misfit that is no number, to which digits may be added;
* `readHex_misfit_extend` up to `readValue_misfit_extend` : a settled misfit is found again in every
  longer text;
* `misfit_settled` : so nothing that is appended to a text changes its refusal.
-/

namespace SealedPoll.Artifact

open Json (skipBlanks_extend expectMark_extend readString_extend)

variable {cs rest : List Char} {reason : Misfit}

/-- The misfit does not lie in a number, to which more digits may be added. -/
def Misfit.Settled (reason : Misfit) : Prop :=
  ∀ value wanted, reason ≠ .wrongType (.number value) wanted

theorem Refusal.ofFault_ne_misfit (fault : Json.Fault) (reason : Misfit) :
    Refusal.ofFault fault ≠ .misfit reason := by
  cases fault <;> simp [Refusal.ofFault]

theorem error_ofFault_ne_misfit {α : Type} {fault : Json.Fault} :
    (.error (.ofFault fault) : Except Refusal α) ≠ .error (.misfit reason) :=
  fun h => Refusal.ofFault_ne_misfit fault reason (Except.error.inj h)

/-! ## The values of the fields -/

theorem unexpected_extend {wanted : Wanted} (h : unexpected wanted cs = .misfit reason)
    (hsettled : reason.Settled) (more : List Char) :
    unexpected wanted (cs ++ more) = .misfit reason := by
  unfold unexpected at h
  split at h
  · exact absurd h (Refusal.ofFault_ne_misfit _ _)
  · next found hfound =>
    obtain rfl := Refusal.misfit.inj h
    have hread := Json.Token.read_extend hfound (by
      rintro value rfl
      exact hsettled value wanted rfl) more
    rw [unexpected, hread]

theorem readHex_extend {bs : Bytes} (h : readHex cs = .ok (bs, rest)) (more : List Char) :
    readHex (cs ++ more) = .ok (bs, rest ++ more) := by
  obtain ⟨before, v, hbefore, hv, rfl⟩ := readHex_eq_ok_iff.1 h
  exact readHex_eq_ok_iff.2 ⟨before, v, hbefore, hv, by simp⟩

theorem readHex_misfit_extend (h : readHex cs = .error (.misfit reason))
    (hsettled : reason.Settled) (more : List Char) :
    readHex (cs ++ more) = .error (.misfit reason) := by
  unfold readHex at h
  split at h
  · cases h
  · next c tail hfirst =>
    simp only [readHex, skipBlanks_extend hfirst]
    split_ifs at h with hquote
    · rw [if_pos hquote]
      split at h
      · exact absurd h error_ofFault_ne_misfit
      · next text left hstring =>
        rw [readString_extend hstring]
        split at h
        · next fault hhex => simpa [hhex] using h
        · cases h
    · rw [if_neg hquote, ← List.cons_append,
        unexpected_extend (Except.error.inj h) hsettled]

theorem readSignature_misfit_extend (h : readSignature cs = .error (.misfit reason))
    (hsettled : reason.Settled) (more : List Char) :
    readSignature (cs ++ more) = .error (.misfit reason) := by
  unfold readSignature at h
  split at h
  · next refusal hhex =>
    obtain rfl := Except.error.inj h
    rw [readSignature, readHex_misfit_extend hhex hsettled]
  · next bs left hhex =>
    rw [readSignature, readHex_extend hhex]
    split at h
    · next hlength => simpa [hlength] using h
    · cases h

theorem readField_extend {draft after : Draft} {field : Field}
    (h : readField draft field cs = .ok (after, rest)) (more : List Char) :
    readField draft field (cs ++ more) = .ok (after, rest ++ more) := by
  obtain ⟨bs, hhex, hfills⟩ := readField_eq_ok_iff.1 h
  exact readField_eq_ok_iff.2 ⟨bs, readHex_extend hhex more, hfills⟩

theorem readField_misfit_extend {draft : Draft} {field : Field}
    (h : readField draft field cs = .error (.misfit reason)) (hsettled : reason.Settled)
    (more : List Char) : readField draft field (cs ++ more) = .error (.misfit reason) := by
  cases field with
  | payload =>
    simp only [readField] at h ⊢
    split at h
    · next refusal hhex =>
      obtain rfl := Except.error.inj h
      rw [readHex_misfit_extend hhex hsettled]
    · cases h
  | signature =>
    simp only [readField] at h ⊢
    split at h
    · next refusal hhex =>
      obtain rfl := Except.error.inj h
      rw [readSignature_misfit_extend hhex hsettled]
    · cases h

/-! ## Maps -/

theorem readMember_extend {draft after : Draft} (h : readMember draft cs = .ok (after, rest))
    (hne : rest ≠ []) (more : List Char) :
    readMember draft (cs ++ more) = .ok (after, rest ++ more) := by
  unfold readMember at h
  split at h
  · cases h
  · next name left hname =>
    rw [readMember, readString_extend hname]
    split at h
    · next hnone =>
      split at h
      · cases h
      · next left' hcolon =>
        split at h
        · cases h
        · next left'' hskip =>
          obtain ⟨rfl, rfl⟩ := Prod.mk.inj (Except.ok.inj h)
          simp only [hnone, expectMark_extend (by decide) hcolon,
            Json.skipValue_extend hskip hne]
    · next field hfield =>
      split_ifs at h with hhas
      split at h
      · cases h
      · next left' hcolon =>
        simp only [hfield, if_neg hhas, expectMark_extend (by decide) hcolon,
          readField_extend h]

theorem readMember_misfit_extend {draft : Draft}
    (h : readMember draft cs = .error (.misfit reason)) (hsettled : reason.Settled)
    (more : List Char) : readMember draft (cs ++ more) = .error (.misfit reason) := by
  unfold readMember at h
  split at h
  · exact absurd h error_ofFault_ne_misfit
  · next name left hname =>
    rw [readMember, readString_extend hname]
    split at h
    · split at h
      · exact absurd h error_ofFault_ne_misfit
      · split at h
        · exact absurd h error_ofFault_ne_misfit
        · cases h
    · next field hfield =>
      simp only [hfield]
      split_ifs at h with hhas
      · rw [if_pos hhas]
        exact h
      · rw [if_neg hhas]
        split at h
        · exact absurd h error_ofFault_ne_misfit
        · next left' hcolon =>
          rw [expectMark_extend (by decide) hcolon]
          exact readField_misfit_extend h hsettled more

theorem nextMember_extend {first : Bool} {c : Char} (h : nextMember first c cs = .ok rest)
    (more : List Char) : nextMember first c (cs ++ more) = .ok (rest ++ more) := by
  unfold nextMember at h ⊢
  split_ifs at h ⊢
  · obtain rfl := Except.ok.inj h
    rfl
  · exact expectMark_extend (by decide) h more

theorem readMembers_of_member_error {first : Bool} {draft : Draft} {c : Char}
    {tail left : List Char} {refusal : Refusal} (hfirst : Json.skipBlanks cs = c :: tail)
    (hc : c ≠ '\x7d') (hnext : nextMember first c tail = .ok left)
    (hmember : readMember draft left = .error refusal) :
    readMembers first draft cs = .error refusal := by
  simp only [readMembers_of_cons hfirst, if_neg hc, hnext, hmember]

theorem finish_misfit_extend {draft : Draft}
    (h : (draft.finish.map fun artifact => (artifact, rest)) = .error (.misfit reason))
    (more : List Char) :
    (draft.finish.map fun artifact => (artifact, rest ++ more)) = .error (.misfit reason) := by
  cases hfinish : draft.finish with
  | error refusal =>
    rw [hfinish] at h
    exact h
  | ok artifact =>
    rw [hfinish] at h
    cases h

theorem readMembers_misfit_extend {first : Bool} {draft : Draft}
    (h : readMembers first draft cs = .error (.misfit reason)) (hsettled : reason.Settled)
    (more : List Char) : readMembers first draft (cs ++ more) = .error (.misfit reason) := by
  fun_induction readMembers first draft cs with
  | case1 => cases h
  | case2 first draft cs left hclose _ =>
    rw [readMembers_of_cons (skipBlanks_extend hclose more), if_pos rfl]
    exact finish_misfit_extend h more
  | case3 => exact absurd h error_ofFault_ne_misfit
  | case4 first draft cs c tail hfirst _ hc left hnext _ refusal hmember =>
    obtain rfl := Except.error.inj h
    exact readMembers_of_member_error (skipBlanks_extend hfirst more) hc
      (nextMember_extend hnext more) (readMember_misfit_extend hmember hsettled more)
  | case5 first draft cs c tail hfirst _ hc left hnext _ after left' hmember _ ih =>
    -- a text that ends behind a member is cut off, so the member is read again as it was
    have hne : left' ≠ [] := by
      rintro rfl
      rw [readMembers] at h
      cases h
    rw [readMembers_of_member (skipBlanks_extend hfirst more) hc (nextMember_extend hnext more)
      (readMember_extend hmember hne more)]
    exact ih h

/-! ## Sequences and texts -/

theorem nextItem_extend {count : Nat} {start? : Option (List Char)}
    (h : nextItem count cs = .ok start?) (more : List Char) :
    nextItem count (cs ++ more) = .ok (start?.map (· ++ more)) := by
  unfold nextItem at h
  split at h
  · cases h
  · next c tail hfirst =>
    simp only [nextItem, skipBlanks_extend hfirst]
    split_ifs at h with hclose hcount hcomma
    · rw [if_pos hclose, ← Except.ok.inj h]
      rfl
    · rw [if_neg hclose, if_pos hcount, ← Except.ok.inj h]
      rfl
    · rw [if_neg hclose, if_neg hcount, if_pos hcomma]
      split at h
      · cases h
      · next d left hsecond =>
        simp only [skipBlanks_extend hsecond]
        split_ifs at h with hempty
        rw [if_neg hempty, ← Except.ok.inj h]
        rfl

theorem readItems_misfit_extend (h : readItems cs = .error (.misfit reason))
    (hsettled : reason.Settled) (more : List Char) :
    readItems (cs ++ more) = .error (.misfit reason) := by
  unfold readItems at h
  split at h
  · exact absurd h error_ofFault_ne_misfit
  · next hnone =>
    simpa [readItems, nextItem_extend hnone] using h
  · next left hitem =>
    simp only [readItems, nextItem_extend hitem, Option.map_some]
    split at h
    · next refusal hpayload =>
      obtain rfl := Except.error.inj h
      rw [readHex_misfit_extend hpayload hsettled]
    · next payload left hpayload =>
      simp only [readHex_extend hpayload]
      split at h
      · exact absurd h error_ofFault_ne_misfit
      · next hnone => simpa [nextItem_extend hnone] using h
      · next left hitem =>
        simp only [nextItem_extend hitem, Option.map_some]
        split at h
        · next refusal hsignature =>
          obtain rfl := Except.error.inj h
          rw [readSignature_misfit_extend hsignature hsettled]
        · split at h
          · exact absurd h error_ofFault_ne_misfit
          · cases h

theorem readValue_misfit_extend (h : readValue cs = .error (.misfit reason))
    (hsettled : reason.Settled) (more : List Char) :
    readValue (cs ++ more) = .error (.misfit reason) := by
  unfold readValue at h
  split at h
  · cases h
  · next c tail hfirst =>
    simp only [readValue, skipBlanks_extend hfirst]
    split_ifs at h with hsquare hcurly
    · rw [if_pos hsquare, readItems_misfit_extend h hsettled]
    · rw [if_neg hsquare, if_pos hcurly, readMembers_misfit_extend h hsettled]
    · rw [if_neg hsquare, if_neg hcurly, ← List.cons_append,
        unexpected_extend (Except.error.inj h) hsettled]

/-- A misfit comes from the value; what is left behind an artifact is malformed. -/
theorem parse_eq_misfit_iff {s : String} :
    parse s = .error (.misfit reason) ↔ readValue s.toList = .error (.misfit reason) := by
  unfold parse
  split
  · next refusal hvalue => simp [hvalue]
  · next artifact left hvalue =>
    rw [hvalue]
    split_ifs <;> simp

/-- **A text is judged front to back.** A text that is refused as JSON of the wrong shape is refused
for the same reason whatever is appended to it, unless it ends in a number, to which more digits may be
added. -/
theorem misfit_settled (text more : String) (reason : Misfit)
    (h : parse text = .error (.misfit reason)) (hsettled : reason.Settled) :
    parse (text ++ more) = .error (.misfit reason) := by
  rw [parse_eq_misfit_iff, String.toList_append]
  exact readValue_misfit_extend (parse_eq_misfit_iff.1 h) hsettled more.toList

/-- A payload that is met the second time, behind a member that is skipped, and what would have made a
map of it. -/
theorem second_payload_settled :
    let text := "\x7b\x22note\x22:[1.5],\x22payload\x22:\x22de\x22,\x22payload\x22"
    parse text = .error (.misfit (.duplicateField .payload)) ∧
      parse (text ++ ":\x22ad\x22\x7d") = .error (.misfit (.duplicateField .payload)) := by
  intro text
  have htext : parse text = .error (.misfit (.duplicateField .payload)) := by decide +kernel
  exact ⟨htext, misfit_settled text _ _ htext (by simp [Misfit.Settled])⟩

example : parse "5" = .error (.misfit (.wrongType (.number (.integer 5)) .artifact)) ∧
    parse ("5" ++ "6") = .error (.misfit (.wrongType (.number (.integer 56)) .artifact)) := by
  decide +kernel

end SealedPoll.Artifact
