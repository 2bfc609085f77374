import SealedPoll.Proofs.Artifact.Format

/-!
# Maps are read by the format

* `Draft.Takes` : what one member does to the fields met so far;
* `Draft.Completes` : the fields met so far and the members that follow make up an artifact;
  `Draft.completes_cons_iff` says so member by member;
* `nextMember_eq_ok_iff`, `readMembers_blank_eq_ok_iff` : members are read by the format.
-/

namespace SealedPoll.Artifact

open Json (Item IsBlanks IsValue IsString Spells)

variable {cs rest : List Char} {artifact : Artifact}

/-! ## Which members hold a field -/

theorem Field.ofName?_eq_some_iff {name : List Char} {field : Field} :
    Field.ofName? name = some field ↔ name = field.name.toList := by
  constructor
  · intro h
    have hfound : field.name.toList = name := by simpa using List.find?_some h
    exact hfound.symm
  · rintro rfl
    cases field <;> decide

theorem Field.ofName?_eq_none_iff {name : List Char} :
    Field.ofName? name = none ↔ ∀ field : Field, name ≠ field.name.toList := by
  rw [← Option.not_isSome_iff_eq_none, Option.isSome_iff_exists]
  simp [Field.ofName?_eq_some_iff]

theorem Field.name_injective {f field : Field} (h : f.name.toList = field.name.toList) :
    f = field :=
  Option.some.inj ((ofName?_eq_some_iff.2 rfl).symm.trans (ofName?_eq_some_iff.2 h))

theorem not_supplies_nil {field : Field} {bs : Bytes} : ¬ Supplies field [] bs := by
  rintro ⟨m, h, -⟩
  cases h

section Cons

variable {field : Field} {m : Member} {members : List Member} {bs : Bytes}

theorem supplies_cons_of_ne (h : m.name ≠ field.name.toList) :
    Supplies field (m :: members) bs ↔ Supplies field members bs := by
  simp [Supplies, h]

theorem supplies_cons_of_eq (h : m.name = field.name.toList) :
    Supplies field (m :: members) bs ↔
      IsHexString m.item.value bs ∧ ∀ x ∈ members, x.name ≠ field.name.toList := by
  have hfilter : (m :: members).filter (fun x => x.name = field.name.toList) =
      m :: members.filter (fun x => x.name = field.name.toList) :=
    List.filter_cons_of_pos (by simpa using h)
  unfold Supplies
  rw [hfilter]
  constructor
  · rintro ⟨m', hm', hhex⟩
    obtain ⟨rfl, hothers⟩ := List.cons.inj hm'
    exact ⟨hhex, by simpa using hothers⟩
  · rintro ⟨hhex, hothers⟩
    exact ⟨m, by simpa using hothers, hhex⟩

end Cons

namespace Draft

/-- A member of another name is passed over; one with the name of a field fills the field, which
must not have been met. -/
def Takes (draft : Draft) (name value : List Char) (after : Draft) : Prop :=
  match Field.ofName? name with
  | none => after = draft
  | some field => draft.bytes? field = none ∧
      ∃ bs, IsHexString value bs ∧ draft.Fills field bs after

/-- Each field has been met with its bytes and is not met again, or one of the members has it. -/
def Completes (draft : Draft) (members : List Member) (artifact : Artifact) : Prop :=
  ∀ field,
    (draft.bytes? field = some (artifact.bytesOf field) ∧
      ∀ m ∈ members, m.name ≠ field.name.toList) ∨
    (draft.bytes? field = none ∧ Supplies field members (artifact.bytesOf field))

theorem has_eq_false_iff {draft : Draft} {field : Field} :
    draft.has field = false ↔ draft.bytes? field = none := by
  cases field <;> simp [has, bytes?]

theorem completes_blank_iff {members : List Member} :
    blank.Completes members artifact ↔
      ∀ field, Supplies field members (artifact.bytesOf field) := by
  have hnone : ∀ field, blank.bytes? field = none := by rintro ⟨⟩ <;> rfl
  simp [Completes, hnone]

theorem finish_eq_ok_iff {draft : Draft} :
    draft.finish = .ok artifact ↔ draft.Completes [] artifact := by
  have hfields : draft.Completes [] artifact ↔
      ∀ field, draft.bytes? field = some (artifact.bytesOf field) := by
    simp [Completes, not_supplies_nil]
  rw [hfields]
  constructor
  · intro h
    unfold finish at h
    split at h
    · cases h
    · cases h
    · next payload signature hpayload hsignature =>
      obtain rfl := Except.ok.inj h
      rintro ⟨⟩ <;> simp [bytes?, bytesOf, hpayload, hsignature]
  · intro h
    have hpayload : draft.payload? = some artifact.payload := h .payload
    have hsignature : draft.signature? = some artifact.signature := by
      obtain ⟨signature, hdraft, heq⟩ := Option.map_eq_some_iff.1 (h .signature)
      rw [hdraft, Octets.ext heq]
    simp [finish, hpayload, hsignature]

theorem exists_fills (draft : Draft) (field : Field) (artifact : Artifact) :
    ∃ after, draft.Fills field (artifact.bytesOf field) after := by
  cases field with
  | payload => exact ⟨_, fills_payload_iff.2 rfl⟩
  | signature => exact ⟨_, fills_signature_iff.2 rfl⟩

theorem completes_cons_iff {draft : Draft} {m : Member} {members : List Member} :
    draft.Completes (m :: members) artifact ↔
      ∃ after, draft.Takes m.name m.item.value after ∧ after.Completes members artifact := by
  unfold Takes
  cases hname : Field.ofName? m.name with
  | none =>
    have hne := Field.ofName?_eq_none_iff.1 hname
    simp [Completes, hne, supplies_cons_of_ne (hne _)]
  | some field =>
    have hm := Field.ofName?_eq_some_iff.1 hname
    have hne : ∀ f ≠ field, m.name ≠ f.name.toList := fun f hf h =>
      hf (Field.name_injective (h.symm.trans hm))
    constructor
    · intro h
      obtain ⟨-, hmet⟩ | ⟨hnone, hsupplies⟩ := h field
      · exact absurd hm (hmet m (by simp))
      · obtain ⟨hhex, hothers⟩ := (supplies_cons_of_eq hm).1 hsupplies
        obtain ⟨after, hafter⟩ := exists_fills draft field artifact
        refine ⟨after, ⟨hnone, _, hhex, hafter⟩, fun f => ?_⟩
        by_cases hf : f = field
        · subst hf
          exact Or.inl ⟨by rw [hafter, if_pos rfl], hothers⟩
        · have hf' := h f
          rw [supplies_cons_of_ne (hne f hf)] at hf'
          rw [hafter, if_neg hf]
          simpa [hne f hf] using hf'
    · rintro ⟨after, ⟨hnone, bs, hhex, hfills⟩, h⟩ f
      by_cases hf : f = field
      · subst hf
        have hmet := h f
        rw [hfills, if_pos rfl] at hmet
        obtain ⟨hbs, hothers⟩ | ⟨hbs, -⟩ := hmet
        · obtain rfl := Option.some.inj hbs
          exact Or.inr ⟨hnone, (supplies_cons_of_eq hm).2 ⟨hhex, hothers⟩⟩
        · cases hbs
      · have hf' := h f
        rw [hfills, if_neg hf] at hf'
        rw [supplies_cons_of_ne (hne f hf)]
        simpa [hne f hf] using hf'

end Draft

/-! ## Reading -/

theorem exists_of_readMember {draft after : Draft} (h : readMember draft cs = .ok (after, rest)) :
    ∃ body name gap before v, Spells body name ∧ IsBlanks gap ∧ IsBlanks before ∧ IsValue v ∧
      cs = body ++ '\x22' :: (gap ++ ':' :: (before ++ (v ++ rest))) ∧
      draft.Takes name v after := by
  unfold readMember at h
  split at h
  · cases h
  · next name left hstring =>
    obtain ⟨body, hbody, rfl⟩ := Json.readString_eq_ok_iff.1 hstring
    split at h
    · next hname =>
      split at h
      · cases h
      · next left' hcolon =>
        obtain ⟨gap, hgap, rfl⟩ := (Json.expectMark_eq_ok_iff (by decide)).1 hcolon
        split at h
        · cases h
        · next left'' hskip =>
          obtain ⟨rfl, rfl⟩ := Prod.mk.inj (Except.ok.inj h)
          obtain ⟨before, v, hbefore, hv, rfl⟩ := Json.exists_isValue hskip
          exact ⟨body, name, gap, before, v, hbody, hgap, hbefore, hv, by simp,
            by simp [Draft.Takes, hname]⟩
    · next field hname =>
      split at h
      · cases h
      · next hhas =>
        split at h
        · cases h
        · next left' hcolon =>
          obtain ⟨gap, hgap, rfl⟩ := (Json.expectMark_eq_ok_iff (by decide)).1 hcolon
          obtain ⟨bs, hhex, hfills⟩ := readField_eq_ok_iff.1 h
          obtain ⟨before, v, hbefore, hv, rfl⟩ := readHex_eq_ok_iff.1 hhex
          have hnone := Draft.has_eq_false_iff.1 (Bool.eq_false_iff.2 hhas)
          refine ⟨body, name, gap, before, v, hbody, hgap, hbefore, hv.isValue, rfl, ?_⟩
          simpa [Draft.Takes, hname] using ⟨hnone, bs, hv, hfills⟩

theorem readMember_append {draft after : Draft} {body name gap before v : List Char}
    (hbody : Spells body name) (hgap : IsBlanks gap) (hbefore : IsBlanks before) (hv : IsValue v)
    (hrest : Json.Ends rest) (h : draft.Takes name v after) :
    readMember draft (body ++ '\x22' :: (gap ++ ':' :: (before ++ (v ++ rest)))) =
      .ok (after, rest) := by
  have hcolon : Json.expectMark ':' (gap ++ ':' :: (before ++ (v ++ rest))) =
      .ok (before ++ (v ++ rest)) :=
    (Json.expectMark_eq_ok_iff (by decide)).2 ⟨gap, hgap, rfl⟩
  unfold Draft.Takes at h
  rw [readMember, hbody.read]
  cases hname : Field.ofName? name with
  | none =>
    rw [hname] at h
    obtain rfl := h
    simp [hname, hcolon, hv.skip hbefore hrest]
  | some field =>
    rw [hname] at h
    obtain ⟨hnone, bs, hhex, hfills⟩ := h
    have hread : readField draft field (before ++ (v ++ rest)) = .ok (after, rest) :=
      readField_eq_ok_iff.2 ⟨bs, readHex_eq_ok_iff.2 ⟨before, v, hbefore, hhex, rfl⟩, hfills⟩
    simp [hname, Draft.has_eq_false_iff.2 hnone, hcolon, hread]

theorem nextMember_eq_ok_iff {first : Bool} {c : Char} :
    nextMember first c cs = .ok rest ↔
      if first then c = '\x22' ∧ cs = rest
      else c = ',' ∧ ∃ w, IsBlanks w ∧ cs = w ++ '\x22' :: rest := by
  have hquote : Json.isBlank '\x22' = false := rfl
  cases first with
  | true => by_cases hc : c = '\x22' <;> simp [nextMember, hc]
  | false => by_cases hc : c = ',' <;> simp [nextMember, hc, Json.expectMark_eq_ok_iff hquote]

/-- The parts of a member, in front of whatever follows it. -/
theorem Member.IsWritten.parts {m : Member} (h : m.IsWritten) :
    ∃ w body gap, IsBlanks w ∧ Spells body m.name ∧ IsBlanks gap ∧
      ∀ rest, m.item.text ++ rest = w ++ '\x22' :: (body ++ '\x22' ::
        (gap ++ ':' :: (m.item.before ++ (m.item.value ++ (m.item.after ++ rest))))) := by
  obtain ⟨w, name, gap, hw, ⟨hbody⟩, hgap, hlabel⟩ := h.label
  exact ⟨w, _, gap, hw, hbody, hgap, fun rest => by simp [Item.text, hlabel]⟩

theorem Member.IsWritten.of_parts {w body name gap before v after : List Char} (hw : IsBlanks w)
    (hbody : Spells body name) (hgap : IsBlanks gap) (hbefore : IsBlanks before) (hv : IsValue v)
    (hafter : IsBlanks after) :
    Member.IsWritten
      ⟨name, ⟨w ++ ('\x22' :: body ++ ['\x22']) ++ gap ++ [':'], before, v, after⟩⟩ :=
  ⟨⟨w, _, gap, hw, .quoted hbody, hgap, rfl⟩, hbefore, hv, hafter⟩

/-- What is read of a map from its next character on that is no blank. -/
theorem readMembers_of_cons {first : Bool} {draft : Draft} {c : Char} {tail : List Char}
    (hfirst : Json.skipBlanks cs = c :: tail) :
    readMembers first draft cs =
      if c = '\x7d' then draft.finish.map fun artifact => (artifact, tail)
      else match nextMember first c tail with
        | .error fault => .error (.ofFault fault)
        | .ok left =>
          match readMember draft left with
          | .error refusal => .error refusal
          | .ok (after, rest) => readMembers false after rest := by
  conv => lhs; rw [readMembers]
  split
  · simp_all
  · next d tail' hd =>
    obtain ⟨rfl, rfl⟩ := List.cons.inj (hd.symm.trans hfirst)
    split
    · rfl
    · split
      · next hnext => rw [hnext]
      · next left hnext =>
        simp only [hnext]
        split <;> next hmember => simp only [hmember]

theorem readMembers_of_end {first : Bool} {draft : Draft} {blanks : List Char}
    (hblanks : IsBlanks blanks) (h : draft.finish = .ok artifact) :
    readMembers first draft (blanks ++ '\x7d' :: rest) = .ok (artifact, rest) := by
  rw [readMembers_of_cons (Json.skipBlanks_append_cons hblanks rfl rest), if_pos rfl, h]
  rfl

theorem readMembers_of_member {first : Bool} {draft after : Draft} {c : Char}
    {more left tail : List Char} (hfirst : Json.skipBlanks cs = c :: more) (hc : c ≠ '\x7d')
    (hnext : nextMember first c more = .ok left)
    (hmember : readMember draft left = .ok (after, tail)) :
    readMembers first draft cs = readMembers false after tail := by
  simp only [readMembers_of_cons hfirst, if_neg hc, hnext, hmember]

/-- One member, right after the opening bracket or after a comma. -/
theorem readMembers_text {draft after : Draft} {m : Member} {tail : List Char} (hm : m.IsWritten)
    (htakes : draft.Takes m.name m.item.value after) (htail : Json.Ends tail) :
    readMembers true draft (m.item.text ++ tail) = readMembers false after (m.item.after ++ tail) ∧
    ∀ blanks, IsBlanks blanks → readMembers false draft (blanks ++ ',' :: (m.item.text ++ tail)) =
      readMembers false after (m.item.after ++ tail) := by
  obtain ⟨w, body, gap, hw, hbody, hgap, htext⟩ := hm.parts
  have hmember := readMember_append hbody hgap hm.before hm.value (htail.append hm.after) htakes
  rw [htext]
  constructor
  · exact readMembers_of_member (Json.skipBlanks_append_cons hw rfl _) (by decide)
      (nextMember_eq_ok_iff.2 ⟨rfl, rfl⟩) hmember
  · intro blanks hblanks
    exact readMembers_of_member (Json.skipBlanks_append_cons hblanks rfl _) (by decide)
      (nextMember_eq_ok_iff.2 ⟨rfl, w, hw, rfl⟩) hmember

theorem readMembers_further {members : List Member} (hwritten : ∀ m ∈ members, m.IsWritten)
    {draft : Draft} (h : draft.Completes members artifact) {blanks : List Char}
    (hblanks : IsBlanks blanks) :
    readMembers false draft
      (blanks ++ (Item.further (members.map Member.item) ++ '\x7d' :: rest)) =
        .ok (artifact, rest) := by
  induction members generalizing draft blanks with
  | nil => exact readMembers_of_end hblanks (Draft.finish_eq_ok_iff.2 h)
  | cons m members ih =>
    have hm := hwritten m (by simp)
    obtain ⟨after, htakes, hafter⟩ := Draft.completes_cons_iff.1 h
    have htail := Json.ends_further .curly (members.map Member.item) rest
    have hcs : Item.further ((m :: members).map Member.item) ++ '\x7d' :: rest =
        ',' :: (m.item.text ++ (Item.further (members.map Member.item) ++ '\x7d' :: rest)) := by
      simp [Item.further]
    rw [hcs]
    exact ((readMembers_text hm htakes htail).2 blanks hblanks).trans
      (ih (fun x hx => hwritten x (by simp [hx])) hafter hm.after)

/-- The rest of the text of a map whose members are still to be read, with or without one before
them. -/
def Continues : Bool → List Char → List Member → List Char → Prop
  | false, cs, members, rest => ∃ blanks, IsBlanks blanks ∧
      cs = blanks ++ Item.further (members.map Member.item) ++ '\x7d' :: rest
  | true, cs, [], rest => ∃ blanks, IsBlanks blanks ∧ cs = blanks ++ '\x7d' :: rest
  | true, cs, m :: more, rest =>
      cs = m.item.text ++ Item.further (more.map Member.item) ++ '\x7d' :: rest

theorem continues_nil_iff {first : Bool} :
    Continues first cs [] rest ↔ ∃ blanks, IsBlanks blanks ∧ cs = blanks ++ '\x7d' :: rest := by
  cases first <;> simp [Continues, Item.further]

theorem exists_of_readMembers {first : Bool} {draft : Draft}
    (h : readMembers first draft cs = .ok (artifact, rest)) :
      ∃ members, (∀ m ∈ members, m.IsWritten) ∧ Continues first cs members rest ∧
        draft.Completes members artifact := by
  fun_induction readMembers first draft cs with
  | case1 => cases h
  | case2 first draft cs more hend _ =>
    obtain ⟨w, hw, rfl⟩ := (Json.skipBlanks_eq_cons_iff.1 hend).2
    cases hfinish : draft.finish with
    | error refusal =>
      rw [hfinish] at h
      cases h
    | ok found =>
      rw [hfinish] at h
      cases h
      exact ⟨[], by simp, continues_nil_iff.2 ⟨w, hw, rfl⟩, Draft.finish_eq_ok_iff.1 hfinish⟩
  | case3 => cases h
  | case4 => cases h
  | case5 first draft cs c more hfirst _ _ left hnext _ after tail hmember _ ih =>
    obtain ⟨w, hw, rfl⟩ := (Json.skipBlanks_eq_cons_iff.1 hfirst).2
    obtain ⟨body, name, gap, before, v, hbody, hgap, hbefore, hv, rfl, htakes⟩ :=
      exists_of_readMember hmember
    obtain ⟨members, hwritten, ⟨blanks, hblanks, rfl⟩, hcompletes⟩ := ih h
    cases first with
    | true =>
      obtain ⟨rfl, rfl⟩ := nextMember_eq_ok_iff.1 hnext
      refine ⟨_, List.forall_mem_cons.2 ⟨.of_parts hw hbody hgap hbefore hv hblanks, hwritten⟩, ?_,
        Draft.completes_cons_iff.2 ⟨after, htakes, hcompletes⟩⟩
      simp [Continues, Item.text]
    | false =>
      obtain ⟨rfl, w', hw', rfl⟩ := nextMember_eq_ok_iff.1 hnext
      refine ⟨_, List.forall_mem_cons.2 ⟨.of_parts hw' hbody hgap hbefore hv hblanks, hwritten⟩,
        ⟨w, hw, ?_⟩, Draft.completes_cons_iff.2 ⟨after, htakes, hcompletes⟩⟩
      simp [Item.further, Item.text]

theorem readMembers_blank_eq_ok_iff :
    readMembers true .blank cs = .ok (artifact, rest) ↔
      ∃ first more, (∀ m ∈ first :: more, m.IsWritten) ∧
        (∀ field, Supplies field (first :: more) (artifact.bytesOf field)) ∧
        cs = first.item.text ++ Item.further (more.map Member.item) ++ '\x7d' :: rest := by
  constructor
  · intro h
    obtain ⟨members, hwritten, hcs, hcompletes⟩ := exists_of_readMembers h
    have hsupplies := Draft.completes_blank_iff.1 hcompletes
    cases members with
    | nil => exact absurd (hsupplies .payload) not_supplies_nil
    | cons first more => exact ⟨first, more, hwritten, hsupplies, hcs⟩
  · rintro ⟨first, more, hwritten, hsupplies, rfl⟩
    have hfirst := hwritten first (by simp)
    obtain ⟨after, htakes, hafter⟩ :=
      Draft.completes_cons_iff.1 (Draft.completes_blank_iff.2 hsupplies)
    have htail := Json.ends_further .curly (more.map Member.item) rest
    rw [List.append_assoc]
    exact (readMembers_text hfirst htakes htail).1.trans
      (readMembers_further (fun m hm => hwritten m (by simp [hm])) hafter hfirst.after)

/-! ## Texts -/

theorem readValue_eq_ok_iff :
    readValue cs = .ok (artifact, rest) ↔ ∃ before inner, IsBlanks before ∧
      ((cs = before ++ '\x7b' :: inner ∧ readMembers true .blank inner = .ok (artifact, rest)) ∨
        (cs = before ++ '[' :: inner ∧ readItems inner = .ok (artifact, rest))) := by
  constructor
  · intro h
    unfold readValue at h
    split at h
    · cases h
    · next c inner hfirst =>
      obtain ⟨before, hbefore, rfl⟩ := (Json.skipBlanks_eq_cons_iff.1 hfirst).2
      refine ⟨before, inner, hbefore, ?_⟩
      split at h
      · next hc => exact Or.inr ⟨by rw [hc], h⟩
      · split at h
        · next hc => exact Or.inl ⟨by rw [hc], h⟩
        · cases h
  · rintro ⟨before, inner, hbefore, ⟨rfl, h⟩ | ⟨rfl, h⟩⟩
    · rw [readValue, Json.skipBlanks_append_cons hbefore rfl]
      simpa using h
    · rw [readValue, Json.skipBlanks_append_cons hbefore rfl]
      simpa using h

/-- **What reads as an artifact.** Exactly the texts of the format do: a map that has the payload and
the signature once each, among any other members, or a sequence of the two. -/
theorem parse_eq_ok_iff (s : String) (artifact : Artifact) :
    parse s = .ok artifact ↔ IsText s.toList artifact := by
  have hparse : parse s = .ok artifact ↔
      ∃ after, IsBlanks after ∧ readValue s.toList = .ok (artifact, after) := by
    simp only [← Json.skipBlanks_eq_nil_iff, parse]
    grind
  rw [hparse]
  constructor
  · rintro ⟨after, hafter, hvalue⟩
    obtain ⟨before, inner, hbefore, ⟨hs, h⟩ | ⟨hs, h⟩⟩ := readValue_eq_ok_iff.1 hvalue
    · obtain ⟨first, more, hwritten, hsupplies, rfl⟩ := readMembers_blank_eq_ok_iff.1 h
      have htext := IsText.map hbefore hafter hwritten hsupplies
      rw [hs]
      simpa using htext
    · obtain ⟨p, q, hp, hq, hpayload, hsignature, rfl⟩ := readItems_eq_ok_iff.1 h
      have htext := IsText.sequence hbefore hafter hp hq hpayload hsignature
      rw [hs]
      simpa using htext
  · intro h
    generalize s.toList = cs at h ⊢
    cases h with
    | @map before after first more _ hbefore hafter hwritten hsupplies =>
      refine ⟨after, hafter, readValue_eq_ok_iff.2 ⟨before, _, hbefore, Or.inl ⟨?_,
        readMembers_blank_eq_ok_iff.2 ⟨first, more, hwritten, hsupplies, rfl⟩⟩⟩⟩
      simp
    | @sequence before after p q _ hbefore hafter hp hq hpayload hsignature =>
      refine ⟨after, hafter, readValue_eq_ok_iff.2 ⟨before, _, hbefore, Or.inr ⟨?_,
        readItems_eq_ok_iff.2 ⟨p, q, hp, hq, hpayload, hsignature, rfl⟩⟩⟩⟩
      simp

end SealedPoll.Artifact
