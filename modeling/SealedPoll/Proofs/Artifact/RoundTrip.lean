import SealedPoll.Proofs.Artifact.Streaming

/-!
# Printed artifacts are read back

* `readHex_cuts`, `readMember_cuts`, `readMembers_cuts_further` : hex strings, members and the rest of a
  map are cut off wherever their text ends too early;
* `IsMap` : maps of the two fields, which are read back (`parse_of_isMap`) and refused as cut off if
  something is missing at the end (`parse_of_isMap_append`);
* `laidOut` : both printed forms, which differ in their blanks (`compact_eq`, `pretty_eq`) and are such
  maps (`isMap_laidOut`);
* `print_faithful` : printing and reading back.
-/

namespace SealedPoll.Artifact

open Json (Item IsBlanks IsValue Spells Cuts cuts_append cuts_cons cuts_singleton)

variable {cs rest : List Char} {artifact : Artifact}

/-! ## Fields that end too early -/

theorem readHex_of_blanks {w : List Char} (hw : IsBlanks w) : readHex w = .error .cutOff := by
  rw [readHex, Json.skipBlanks_eq_nil_iff.2 hw]

theorem readHex_cuts {before v : List Char} {bs : Bytes} (hbefore : IsBlanks before)
    (hv : IsHexString v bs) : Cuts readHex .cutOff (before ++ v) := by
  obtain ⟨text, ⟨hbody⟩, -⟩ := hv
  refine cuts_append (fun p q h _ => readHex_of_blanks (Json.isBlanks_of_append (h ▸ hbefore))) ?_
  refine cuts_cons (by simpa using readHex_of_blanks hbefore) fun p q h hq => ?_
  have hfirst := Json.skipBlanks_append_cons (c := '\x22') hbefore rfl p
  simp [readHex, hfirst, hbody.cuts p q h hq, Refusal.ofFault]

theorem readField_of_error {draft : Draft} {field : Field} {refusal : Refusal}
    (h : readHex cs = .error refusal) : readField draft field cs = .error refusal := by
  cases field <;> simp [readField, readSignature, h]

theorem readField_cuts {before v : List Char} {bs : Bytes} (hbefore : IsBlanks before)
    (hv : IsHexString v bs) (draft : Draft) (field : Field) :
    Cuts (readField draft field) .cutOff (before ++ v) :=
  fun p q h hq => readField_of_error (readHex_cuts hbefore hv p q h hq)

/-! ## Members that end too early -/

/-- The name of a field that has not been met, and the colon and the value still to be read. -/
theorem readMember_of_name {draft : Draft} {body : List Char} {field : Field}
    (hbody : Spells body field.name.toList) (hnew : draft.has field = false) (p : List Char) :
    readMember draft (body ++ '\x22' :: p) =
      match Json.expectMark ':' p with
      | .error fault => .error (.ofFault fault)
      | .ok rest => readField draft field rest := by
  simp only [readMember, hbody.read, Field.ofName?_eq_some_iff.2 rfl, hnew]
  rfl

theorem readMember_cuts {draft : Draft} {body gap before v : List Char} {field : Field} {bs : Bytes}
    (hbody : Spells body field.name.toList) (hgap : IsBlanks gap) (hbefore : IsBlanks before)
    (hv : IsHexString v bs) (hnew : draft.has field = false) :
    Cuts (readMember draft) .cutOff
      ((body ++ ['\x22']) ++ (gap ++ ':' :: (before ++ v))) := by
  refine cuts_append (fun p q h hq => ?_) (cuts_append (fun p q h _ => ?_) (cuts_cons ?_ ?_))
  · simp [readMember, hbody.cuts p q h hq, Refusal.ofFault]
  · have hcolon := Json.expectMark_of_blanks (Json.isBlanks_of_append (h ▸ hgap)) ':'
    simp [readMember_of_name hbody hnew, hcolon, Refusal.ofFault]
  · have hcolon := Json.expectMark_of_blanks hgap ':'
    simp [readMember_of_name hbody hnew, hcolon, Refusal.ofFault]
  · intro p q h hq
    have hcolon : Json.expectMark ':' (gap ++ ':' :: p) = .ok p :=
      (Json.expectMark_eq_ok_iff (by decide)).2 ⟨gap, hgap, rfl⟩
    simp [readMember_of_name hbody hnew, hcolon, readField_cuts hbefore hv draft field p q h hq]

/-! ## Maps that end too early -/

theorem readMembers_of_blanks {w : List Char} (hw : IsBlanks w) (first : Bool) (draft : Draft) :
    readMembers first draft w = .error .cutOff := by
  have hnil := Json.skipBlanks_eq_nil_iff.2 hw
  rw [readMembers]
  split <;> simp_all

/-- The text in front of the name of a member is passed, and if it ends too early the map is cut
off. -/
structure Leads (first : Bool) (front : List Char) : Prop where
  passed : ∀ p, ∃ c tail, Json.skipBlanks (front ++ p) = c :: tail ∧ c ≠ '\x7d' ∧
    nextMember first c tail = .ok p
  cuts : ∀ draft, Cuts (readMembers first draft) .cutOff front

theorem leads_first {w : List Char} (hw : IsBlanks w) : Leads true (w ++ ['\x22']) := by
  refine ⟨fun p => ⟨'\x22', p, ?_, by decide, rfl⟩, fun draft => cuts_append ?_ (cuts_singleton ?_)⟩
  · rw [List.append_assoc]
    exact Json.skipBlanks_append_cons hw rfl p
  · exact fun _ _ h _ => readMembers_of_blanks (Json.isBlanks_of_append (h ▸ hw)) true draft
  · simpa using readMembers_of_blanks hw true draft

theorem leads_next {blanks w : List Char} (hblanks : IsBlanks blanks) (hw : IsBlanks w) :
    Leads false (blanks ++ ',' :: (w ++ ['\x22'])) := by
  have hcomma : ∀ p, Json.skipBlanks (blanks ++ ',' :: p) = ',' :: p :=
    Json.skipBlanks_append_cons hblanks rfl
  -- behind the comma the mark of the next name is missing
  have hname : ∀ draft p, IsBlanks p →
      readMembers false draft (blanks ++ ',' :: p) = .error .cutOff := by
    intro draft p hp
    have hnext : nextMember false ',' p = .error .cutOff := Json.expectMark_of_blanks hp '\x22'
    simp [readMembers_of_cons (hcomma p), hnext, Refusal.ofFault]
  refine ⟨fun p => ⟨',', w ++ '\x22' :: p, ?_, by decide, nextMember_eq_ok_iff.2 ⟨rfl, w, hw, rfl⟩⟩,
    fun draft => cuts_append ?_ (cuts_cons ?_ (cuts_append ?_ (cuts_singleton ?_)))⟩
  · simpa using hcomma (w ++ '\x22' :: p)
  · exact fun _ _ h _ => readMembers_of_blanks (Json.isBlanks_of_append (h ▸ hblanks)) false draft
  · simpa using readMembers_of_blanks hblanks false draft
  · exact fun p _ h _ => hname draft p (Json.isBlanks_of_append (h ▸ hw))
  · simpa using hname draft w hw

/-- A map is cut off in front of a member, inside it or behind it. -/
theorem readMembers_cuts_member {first : Bool} {draft after : Draft}
    {front text more : List Char} (hfront : Leads first front)
    (hmember : Cuts (readMember draft) .cutOff text)
    (hread : ∀ p, Json.Ends p → readMember draft (text ++ p) = .ok (after, p))
    (hmore : Json.Ends more) (hrest : Cuts (readMembers false after) .cutOff more) :
    Cuts (readMembers first draft) .cutOff (front ++ (text ++ more)) := by
  refine cuts_append (hfront.cuts draft) (cuts_append (fun p q h hq => ?_) fun p q h hq => ?_)
  · obtain ⟨c, tail, hfirst, hc, hnext⟩ := hfront.passed p
    exact readMembers_of_member_error hfirst hc hnext (hmember p q h hq)
  · obtain ⟨c, tail, hfirst, hc, hnext⟩ := hfront.passed (text ++ p)
    rw [readMembers_of_member hfirst hc hnext (hread p (Json.ends_of_append (h ▸ hmore)))]
    exact hrest p q h hq

/-- A member that fills a field, from behind the opening mark of its name. -/
theorem Member.IsWritten.exists_field {m : Member} (hm : m.IsWritten) {field : Field}
    (hname : m.name = field.name.toList) {draft after : Draft}
    (htakes : draft.Takes m.name m.item.value after) :
    ∃ w text, IsBlanks w ∧ Cuts (readMember draft) .cutOff text ∧
      (∀ p, Json.Ends p → readMember draft (text ++ p) = .ok (after, p)) ∧
      ∀ more, m.item.text ++ more = (w ++ ['\x22']) ++ (text ++ (m.item.after ++ more)) := by
  obtain ⟨w, body, gap, hw, hbody, hgap, htext⟩ := hm.parts
  have htakes' := htakes
  rw [Draft.Takes, Field.ofName?_eq_some_iff.2 hname] at htakes'
  obtain ⟨hnew, bs, hhex, -⟩ := htakes'
  refine ⟨w, _, hw, readMember_cuts (hname ▸ hbody) hgap hm.before hhex
    (Draft.has_eq_false_iff.2 hnew), fun p hp => ?_, fun more => by simp [htext]⟩
  simpa using readMember_append hbody hgap hm.before hm.value hp htakes

theorem readMembers_cuts_further {members : List Member} (hwritten : ∀ m ∈ members, m.IsWritten)
    (hfields : ∀ m ∈ members, ∃ field : Field, m.name = field.name.toList) {draft : Draft}
    (h : draft.Completes members artifact) {blanks : List Char} (hblanks : IsBlanks blanks) :
    Cuts (readMembers false draft) .cutOff
      (blanks ++ (Item.further (members.map Member.item) ++ ['\x7d'])) := by
  induction members generalizing draft blanks with
  | nil =>
    refine cuts_append
      (fun _ _ h _ => readMembers_of_blanks (Json.isBlanks_of_append (h ▸ hblanks)) false draft)
      (cuts_singleton ?_)
    simpa using readMembers_of_blanks hblanks false draft
  | cons m members ih =>
    obtain ⟨after, htakes, hafter⟩ := Draft.completes_cons_iff.1 h
    have hm := hwritten m (by simp)
    obtain ⟨field, hname⟩ := hfields m (by simp)
    obtain ⟨w, text, hw, hcuts, hread, htext⟩ := hm.exists_field hname htakes
    have hends : Json.Ends (m.item.after ++ (Item.further (members.map Member.item) ++ ['\x7d'])) :=
      (Json.ends_further .curly (members.map Member.item) []).append hm.after
    have hrest := ih (fun x hx => hwritten x (by simp [hx])) (fun x hx => hfields x (by simp [hx]))
      hafter hm.after
    have hall := readMembers_cuts_member (leads_next hblanks hw) hcuts hread hends hrest
    simp only [List.map_cons, Item.further, List.flatMap_cons, List.cons_append, List.append_assoc,
      htext] at hall ⊢
    exact hall

/-! ## Texts of the two fields -/

/-- A map of the fields of an artifact, each of them once, and nothing behind it. -/
inductive IsMap : List Char → Artifact → Prop
  | members {before : List Char} {first : Member} {more : List Member} {artifact : Artifact} :
      IsBlanks before → (∀ m ∈ first :: more, m.IsWritten) →
      (∀ m ∈ first :: more, ∃ field : Field, m.name = field.name.toList) →
      (∀ field, Supplies field (first :: more) (artifact.bytesOf field)) →
        IsMap (before ++ '\x7b' :: (first.item.text ++
          (Item.further (more.map Member.item) ++ ['\x7d']))) artifact

theorem parse_of_isMap {s : String} (h : IsMap s.toList artifact) : parse s = .ok artifact := by
  have hvalue : readValue s.toList = .ok (artifact, []) := by
    generalize s.toList = cs at h ⊢
    obtain @⟨before, first, more, _, hbefore, hwritten, -, hsupplies⟩ := h
    refine readValue_eq_ok_iff.2 ⟨before, _, hbefore, Or.inl ⟨rfl, ?_⟩⟩
    exact readMembers_blank_eq_ok_iff.2 ⟨first, more, hwritten, hsupplies, by simp⟩
  rw [parse, hvalue]
  rfl

theorem readValue_of_blanks {w : List Char} (hw : IsBlanks w) :
    readValue w = .error .cutOff := by
  rw [readValue, Json.skipBlanks_eq_nil_iff.2 hw]

theorem IsMap.cuts (h : IsMap cs artifact) : Cuts readValue .cutOff cs := by
  obtain @⟨before, first, more, _, hbefore, hwritten, hfields, hsupplies⟩ := h
  have hopening : ∀ p, readValue (before ++ '\x7b' :: p) =
      readMembers true .blank p := by
    intro p
    simp [readValue, Json.skipBlanks_append_cons (c := '\x7b') hbefore rfl p]
  have hfirst := hwritten first (by simp)
  obtain ⟨after, htakes, hafter⟩ :=
    Draft.completes_cons_iff.1 (Draft.completes_blank_iff.2 hsupplies)
  obtain ⟨field, hname⟩ := hfields first (by simp)
  obtain ⟨w, text, hw, hcuts, hread, htext⟩ := hfirst.exists_field hname htakes
  have hends := (Json.ends_further .curly (more.map Member.item) []).append hfirst.after
  have hrest := readMembers_cuts_further (fun m hm => hwritten m (by simp [hm]))
    (fun m hm => hfields m (by simp [hm])) hafter hfirst.after
  have hmembers := readMembers_cuts_member (leads_first hw) hcuts hread hends hrest
  refine cuts_append
    (fun _ _ h _ => readValue_of_blanks (Json.isBlanks_of_append (h ▸ hbefore)))
    (cuts_cons (by simpa using readValue_of_blanks hbefore) fun p q h hq => ?_)
  rw [hopening]
  exact hmembers p q (by rw [← h, htext]; rfl) hq

theorem parse_of_isMap_append {p q : String} (h : IsMap (p ++ q).toList artifact) (hq : q ≠ "") :
    parse p = .error .cutOff := by
  have hvalue : readValue p.toList = .error .cutOff :=
    h.cuts p.toList q.toList String.toList_append (by simpa using hq)
  rw [parse, hvalue]

/-! ## Printed artifacts -/

theorem spells_of_plain {text : List Char}
    (h : ∀ c ∈ text, ' ' ≤ c ∧ c ≠ '\x22' ∧ c ≠ '\x5c') : Spells text text := by
  induction text with
  | nil => exact .nil
  | cons c text ih =>
    obtain ⟨⟨hle, hquote, hslash⟩, htext⟩ := List.forall_mem_cons.1 h
    exact .cons (w := [c]) (.char (.plain hle hquote hslash)) (ih htext)

theorem isHexString_encode (bs : Bytes) : IsHexString (inQuotes (Hex.encode bs)).toList bs := by
  have htext := Hex.isText_encode bs
  have hplain : ∀ c ∈ (Hex.encode bs).toList, ' ' ≤ c ∧ c ≠ '\x22' ∧ c ≠ '\x5c' := by
    intro c hc
    have hall : ∀ d ∈ "0123456789abcdef".toList ++ "0123456789ABCDEF".toList,
        ' ' ≤ d ∧ d ≠ '\x22' ∧ d ≠ '\x5c' := by simp
    obtain ⟨value, hdigit | hdigit⟩ := htext.isDigit c hc
    · exact hall c (List.mem_append_left _ (List.mem_of_getElem? hdigit))
    · exact hall c (List.mem_append_right _ (List.mem_of_getElem? hdigit))
  refine ⟨_, ?_, htext⟩
  simpa [inQuotes] using Json.IsString.quoted (spells_of_plain hplain)

/-- A printed artifact with blanks in front of each name, behind each colon and at the end. -/
def laidOut (indent gap last : String) (artifact : Artifact) : String :=
  "\x7b" ++ indent ++ artifact.member gap .payload ++ "," ++ indent ++
    artifact.member gap .signature ++ last ++ "\x7d"

theorem compact_eq (artifact : Artifact) : artifact.compact = artifact.laidOut "" "" "" := by
  simp [compact, laidOut]

theorem pretty_eq (artifact : Artifact) :
    artifact.pretty = artifact.laidOut "\n  " " " "\n" := by
  apply String.toList_inj.1
  simp [pretty, laidOut]

/-- A field of a printed artifact as a member of a map. -/
def printedMember (artifact : Artifact) (indent gap last : List Char) (field : Field) : Member :=
  ⟨field.name.toList, ⟨indent ++ (inQuotes field.name).toList ++ [':'], gap,
    (inQuotes (Hex.encode (artifact.bytesOf field))).toList, last⟩⟩

theorem isWritten_printedMember (artifact : Artifact) {indent gap last : List Char}
    (hindent : IsBlanks indent) (hgap : IsBlanks gap) (hlast : IsBlanks last) (field : Field) :
    (artifact.printedMember indent gap last field).IsWritten := by
  have hplain : ∀ c ∈ field.name.toList, ' ' ≤ c ∧ c ≠ '\x22' ∧ c ≠ '\x5c' := by
    cases field <;> simp [Field.name]
  have hname : Json.IsString (inQuotes field.name).toList field.name.toList := by
    simpa [inQuotes] using Json.IsString.quoted (spells_of_plain hplain)
  exact ⟨⟨indent, _, [], hindent, hname, Json.isBlanks_nil, by simp [printedMember]⟩, hgap,
    (isHexString_encode (artifact.bytesOf field)).isValue, hlast⟩

theorem isMap_laidOut (artifact : Artifact) {indent gap last : String}
    (hindent : IsBlanks indent.toList) (hgap : IsBlanks gap.toList)
    (hlast : IsBlanks last.toList) :
    IsMap (artifact.laidOut indent gap last).toList artifact := by
  let payload := artifact.printedMember indent.toList gap.toList [] .payload
  let signature := artifact.printedMember indent.toList gap.toList last.toList .signature
  have hmap : IsMap ([] ++ '\x7b' :: (payload.item.text ++
      (Item.further ([signature].map Member.item) ++ ['\x7d']))) artifact := by
    refine .members Json.isBlanks_nil ?_ ?_ fun field => ?_
    · simpa using And.intro
        (isWritten_printedMember artifact hindent hgap Json.isBlanks_nil .payload)
        (isWritten_printedMember artifact hindent hgap hlast .signature)
    · simpa using And.intro ⟨Field.payload, rfl⟩ ⟨Field.signature, rfl⟩
    · have hne : Field.payload.name.toList ≠ Field.signature.name.toList := by decide
      cases field with
      | payload =>
        refine (supplies_cons_of_eq rfl).2 ⟨isHexString_encode artifact.payload, ?_⟩
        exact List.forall_mem_singleton.2 hne.symm
      | signature =>
        refine (supplies_cons_of_ne hne).2 ((supplies_cons_of_eq rfl).2 ⟨?_, by simp⟩)
        exact isHexString_encode artifact.signature.toList
  have htext : (artifact.laidOut indent gap last).toList = [] ++ '\x7b' :: (payload.item.text ++
      (Item.further ([signature].map Member.item) ++ ['\x7d'])) := by
    simp [laidOut, member, payload, signature, printedMember, Item.text, Item.further]
  rwa [htext]

theorem isMap_of_printed (artifact : Artifact) :
    ∀ s ∈ [artifact.compact, artifact.pretty], IsMap s.toList artifact := by
  have hindent : IsBlanks "\n  ".toList := by simp [IsBlanks]
  have hgap : IsBlanks " ".toList := by simp [IsBlanks]
  have hlast : IsBlanks "\n".toList := by simp [IsBlanks]
  have hnone : IsBlanks "".toList := Json.isBlanks_nil
  simp only [List.forall_mem_cons, compact_eq, pretty_eq]
  exact ⟨isMap_laidOut artifact hnone hnone hnone, isMap_laidOut artifact hindent hgap hlast,
    by simp⟩

/-- **Printed artifacts are read back.** Either printed form reads as the artifact that was printed, so
no two artifacts have a printed form in common, and a printed form of which the end is missing, however
little of it or much, is refused as cut off. -/
theorem print_faithful :
    (∀ artifact : Artifact, parse artifact.compact = .ok artifact ∧
      parse artifact.pretty = .ok artifact) ∧
    (∀ artifact other : Artifact, ∀ s ∈ [artifact.compact, artifact.pretty],
      s ∈ [other.compact, other.pretty] → artifact = other) ∧
    ∀ artifact : Artifact, ∀ s ∈ [artifact.compact, artifact.pretty], ∀ p q, s = p ++ q → q ≠ "" →
      parse p = .error .cutOff := by
  have hread : ∀ artifact : Artifact, ∀ s ∈ [artifact.compact, artifact.pretty],
      parse s = .ok artifact := fun artifact s hs => parse_of_isMap (isMap_of_printed artifact s hs)
  refine ⟨fun artifact => ⟨hread artifact _ (by simp), hread artifact _ (by simp)⟩, ?_, ?_⟩
  · intro artifact other s hs hs'
    exact Except.ok.inj ((hread artifact s hs).symm.trans (hread other s hs'))
  · rintro artifact s hs p q rfl hq
    exact parse_of_isMap_append (isMap_of_printed artifact _ hs) hq

/-- A payload of two bytes, of which the first is cut in the middle. -/
theorem cut_in_the_middle :
    let artifact : Artifact := ⟨[0xde, 0xad], Octets.zero 64⟩
    let front := "\x7b\x22payload\x22:\x22d"
    let back := String.ofList (artifact.compact.toList.drop 13)
    artifact.compact = front ++ back ∧ back ≠ "" ∧ parse front = .error .cutOff := by
  intro artifact front back
  have hsplit : artifact.compact = front ++ back := by decide +kernel
  have hback : back ≠ "" := by decide +kernel
  obtain ⟨-, -, hcut⟩ := print_faithful
  exact ⟨hsplit, hback, hcut artifact artifact.compact (by simp) front back hsplit hback⟩

end SealedPoll.Artifact
