import SealedPoll.Artifact.Reader
import SealedPoll.Proofs.Json.Values

/-!
# The format of artifacts

* `IsHexString` : a string whose characters are the digits of bytes;
* `Member`, `Supplies` : the members of a map, and what it takes for them to hold a field;
* `IsText` : the texts of an artifact, a map or a sequence;
* `readHex_eq_ok_iff`, `readField_eq_ok_iff` : the values of the fields are read by the format;
* `readItems_eq_ok_iff` : sequences are.
-/

namespace SealedPoll.Artifact

open Json (Item IsBlanks IsValue IsString Spells)

/-- A string whose characters, escaped or not, are the digits of bytes. -/
def IsHexString (v : List Char) (bs : Bytes) : Prop :=
  ∃ text, IsString v text ∧ Hex.IsText text bs

/-- A member of a map: what its name denotes, and how it is written. -/
structure Member where
  name : List Char
  item : Item

/-- A member is written as it has to be; its value is any value. -/
structure Member.IsWritten (m : Member) : Prop where
  label : ∃ before name gap, IsBlanks before ∧ IsString name m.name ∧ IsBlanks gap ∧
    m.item.label = before ++ name ++ gap ++ [':']
  before : IsBlanks m.item.before
  value : IsValue m.item.value
  after : IsBlanks m.item.after

/-- A single member has the name of the field, and it holds the bytes. -/
def Supplies (field : Field) (members : List Member) (bs : Bytes) : Prop :=
  ∃ m, members.filter (fun m => m.name = field.name.toList) = [m] ∧ IsHexString m.item.value bs

/-- The texts of an artifact: a map that holds each field once, among any other members, or a sequence
of the payload and the signature. -/
inductive IsText : List Char → Artifact → Prop
  | map {before after : List Char} {first : Member} {more : List Member} {artifact : Artifact} :
      IsBlanks before → IsBlanks after → (∀ m ∈ first :: more, m.IsWritten) →
      (∀ field, Supplies field (first :: more) (artifact.bytesOf field)) →
        IsText (before ++ '\x7b' :: first.item.text ++ Item.further (more.map Member.item) ++
          '\x7d' :: after) artifact
  | sequence {before after : List Char} {payload signature : Item} {artifact : Artifact} :
      IsBlanks before → IsBlanks after → payload.Fits .square → signature.Fits .square →
      IsHexString payload.value artifact.payload →
      IsHexString signature.value artifact.signature.toList →
        IsText (before ++ '[' :: payload.text ++ Item.further [signature] ++ ']' :: after) artifact

theorem IsHexString.isValue {v : List Char} {bs : Bytes} (h : IsHexString v bs) : IsValue v := by
  obtain ⟨text, hv, -⟩ := h
  exact hv.isValue

/-! ## The values of the fields -/

variable {cs rest : List Char}

theorem readHex_eq_ok_iff {bs : Bytes} :
    readHex cs = .ok (bs, rest) ↔
      ∃ before v, IsBlanks before ∧ IsHexString v bs ∧ cs = before ++ (v ++ rest) := by
  constructor
  · intro h
    unfold readHex at h
    split at h
    · cases h
    · next c left hfirst =>
      obtain ⟨w, hw, rfl⟩ := (Json.skipBlanks_eq_cons_iff.1 hfirst).2
      split at h
      · next hc =>
        split at h
        · cases h
        · next text after hstring =>
          split at h
          · cases h
          · next bytes hhex =>
            obtain ⟨rfl, rfl⟩ := Prod.mk.inj (Except.ok.inj h)
            obtain ⟨body, hbody, rfl⟩ := Json.readString_eq_ok_iff.1 hstring
            exact ⟨w, _, hw, ⟨text, .quoted hbody, Hex.decode_eq_ok_iff.1 hhex⟩, by simp [hc]⟩
      · cases h
  · rintro ⟨before, v, hbefore, ⟨text, hv, hhex⟩, rfl⟩
    obtain @⟨body, _, hbody⟩ := hv
    have hfirst : Json.skipBlanks (before ++ ('\x22' :: body ++ ['\x22'] ++ rest)) =
        '\x22' :: (body ++ '\x22' :: rest) := by
      rw [List.append_assoc, List.cons_append, Json.skipBlanks_append_cons hbefore rfl]
      rfl
    rw [readHex, hfirst]
    simp [hbody.read, Hex.decode_eq_ok_iff.2 hhex]

theorem readSignature_eq_ok_iff {signature : Curve.Signature} :
    readSignature cs = .ok (signature, rest) ↔ readHex cs = .ok (signature.toList, rest) := by
  constructor
  · intro h
    unfold readSignature at h
    split at h
    · cases h
    · next bs left hhex =>
      split at h
      · cases h
      · next x hx =>
        obtain ⟨rfl, rfl⟩ := Prod.mk.inj (Except.ok.inj h)
        rw [hhex, Octets.ofList?_eq_some_iff.1 hx]
  · intro h
    simp [readSignature, h]

namespace Draft

/-- The bytes of a field, if it has been met. -/
def bytes? (draft : Draft) : Field → Option Bytes
  | .payload => draft.payload?
  | .signature => draft.signature?.map Octets.toList

/-- The draft after a field has been met. -/
def Fills (draft : Draft) (field : Field) (bs : Bytes) (after : Draft) : Prop :=
  ∀ f, after.bytes? f = if f = field then some bs else draft.bytes? f

theorem eq_of_bytes? {draft other : Draft} (h : ∀ f, draft.bytes? f = other.bytes? f) :
    draft = other := by
  have hpayload : draft.payload? = other.payload? := h .payload
  have hinj : Function.Injective (Octets.toList : Octets 64 → Bytes) := fun _ _ => Octets.ext
  have hsignature : draft.signature? = other.signature? := Option.map_injective hinj (h .signature)
  cases draft
  cases other
  exact congrArg₂ Draft.mk hpayload hsignature

theorem fills_payload_iff {draft after : Draft} {bs : Bytes} :
    draft.Fills .payload bs after ↔ after = ⟨some bs, draft.signature?⟩ := by
  constructor
  · intro h
    refine eq_of_bytes? fun f => (h f).trans ?_
    cases f <;> rfl
  · rintro rfl f
    cases f <;> rfl

theorem fills_signature_iff {draft after : Draft} {signature : Curve.Signature} :
    draft.Fills .signature signature.toList after ↔
      after = ⟨draft.payload?, some signature⟩ := by
  constructor
  · intro h
    refine eq_of_bytes? fun f => (h f).trans ?_
    cases f <;> rfl
  · rintro rfl f
    cases f <;> rfl

end Draft

theorem readField_eq_ok_iff {draft after : Draft} {field : Field} :
    readField draft field cs = .ok (after, rest) ↔
      ∃ bs, readHex cs = .ok (bs, rest) ∧ draft.Fills field bs after := by
  cases field with
  | payload =>
    constructor
    · intro h
      simp only [readField] at h
      split at h
      · cases h
      · next bs left hhex =>
        obtain ⟨rfl, rfl⟩ := Prod.mk.inj (Except.ok.inj h)
        exact ⟨bs, hhex, Draft.fills_payload_iff.2 rfl⟩
    · rintro ⟨bs, hhex, hfills⟩
      rw [Draft.fills_payload_iff.1 hfills]
      simp [readField, hhex]
  | signature =>
    constructor
    · intro h
      simp only [readField] at h
      split at h
      · cases h
      · next signature left hsignature =>
        obtain ⟨rfl, rfl⟩ := Prod.mk.inj (Except.ok.inj h)
        exact ⟨signature.toList, readSignature_eq_ok_iff.1 hsignature,
          Draft.fills_signature_iff.2 rfl⟩
    · rintro ⟨bs, hhex, hfills⟩
      obtain ⟨signature, -, rfl⟩ := Option.map_eq_some_iff.1 (hfills .signature)
      rw [Draft.fills_signature_iff.1 hfills]
      simp [readField, readSignature_eq_ok_iff.2 hhex]

/-! ## Sequences -/

theorem skipBlanks_append_hexString {w v : List Char} {bs : Bytes} (hw : IsBlanks w)
    (hv : IsHexString v bs) (rest : List Char) :
    ∃ more, v = '\x22' :: more ∧ Json.skipBlanks (w ++ (v ++ rest)) = v ++ rest := by
  obtain ⟨text, ⟨_⟩, -⟩ := hv
  exact ⟨_, rfl, Json.skipBlanks_append_cons hw rfl _⟩

theorem exists_blanks_of_nextItem_zero {left : List Char} (h : nextItem 0 cs = .ok (some left)) :
    ∃ w, IsBlanks w ∧ cs = w ++ left := by
  obtain ⟨w, hw, hcs⟩ := Json.exists_blanks cs
  refine ⟨w, hw, ?_⟩
  unfold nextItem at h
  grind

theorem exists_comma_of_nextItem {count : Nat} {left : List Char}
    (h : nextItem (count + 1) cs = .ok (some left)) :
    ∃ w w', IsBlanks w ∧ IsBlanks w' ∧ cs = w ++ ',' :: (w' ++ left) := by
  obtain ⟨w, hw, hcs⟩ := Json.exists_blanks cs
  unfold nextItem at h
  split at h
  · cases h
  · next c more hfirst =>
    obtain ⟨w', hw', hmore⟩ := Json.exists_blanks more
    refine ⟨w, w', hw, hw', ?_⟩
    grind

theorem nextItem_zero_append {w v : List Char} {bs : Bytes} (hw : IsBlanks w)
    (hv : IsHexString v bs) : nextItem 0 (w ++ (v ++ rest)) = .ok (some (v ++ rest)) := by
  obtain ⟨more, rfl, hfirst⟩ := skipBlanks_append_hexString hw hv rest
  rw [nextItem, hfirst]
  simp

theorem nextItem_append {count : Nat} {w w' v : List Char} {bs : Bytes} (hw : IsBlanks w)
    (hw' : IsBlanks w') (hv : IsHexString v bs) :
    nextItem (count + 1) (w ++ ',' :: (w' ++ (v ++ rest))) = .ok (some (v ++ rest)) := by
  obtain ⟨more, rfl, hfirst⟩ := skipBlanks_append_hexString hw' hv rest
  rw [nextItem, Json.skipBlanks_append_cons hw rfl]
  simp only [List.cons_append] at hfirst
  simp [hfirst]

theorem readItems_eq_ok_iff {artifact : Artifact} :
    readItems cs = .ok (artifact, rest) ↔
      ∃ payload signature : Item, payload.Fits .square ∧ signature.Fits .square ∧
        IsHexString payload.value artifact.payload ∧
        IsHexString signature.value artifact.signature.toList ∧
        cs = payload.text ++ Item.further [signature] ++ ']' :: rest := by
  constructor
  · intro h
    unfold readItems at h
    split at h
    · cases h
    · cases h
    · next left₀ h₀ =>
      split at h
      · cases h
      · next p left₁ h₁ =>
        split at h
        · cases h
        · cases h
        · next left₂ h₂ =>
          split at h
          · cases h
          · next s left₃ h₃ =>
            split at h
            · cases h
            · next left₄ h₄ =>
              obtain ⟨rfl, rfl⟩ := Prod.mk.inj (Except.ok.inj h)
              obtain ⟨w₀, hw₀, rfl⟩ := exists_blanks_of_nextItem_zero h₀
              obtain ⟨w₁, v, hw₁, hv, rfl⟩ := readHex_eq_ok_iff.1 h₁
              obtain ⟨w₂, w₃, hw₂, hw₃, rfl⟩ := exists_comma_of_nextItem h₂
              obtain ⟨w₄, v', hw₄, hv', rfl⟩ := readHex_eq_ok_iff.1 (readSignature_eq_ok_iff.1 h₃)
              obtain ⟨w₅, hw₅, rfl⟩ := (Json.expectMark_eq_ok_iff (by decide)).1 h₄
              refine ⟨⟨[], w₀ ++ w₁, v, w₂⟩, ⟨[], w₃ ++ w₄, v', w₅⟩,
                ⟨rfl, List.forall_mem_append.2 ⟨hw₀, hw₁⟩, hw₂⟩,
                ⟨rfl, List.forall_mem_append.2 ⟨hw₃, hw₄⟩, hw₅⟩, hv, hv', ?_⟩
              simp [Item.further, Item.text]
  · rintro ⟨p, s, ⟨hp, hw₁, hw₂⟩, ⟨hs, hw₃, hw₄⟩, hpayload, hsignature, rfl⟩
    have hcs : p.text ++ Item.further [s] ++ ']' :: rest = p.before ++ (p.value ++
        (p.after ++ ',' :: (s.before ++ (s.value ++ (s.after ++ ']' :: rest))))) := by
      simp [Item.further, Item.text, show p.label = [] from hp, show s.label = [] from hs]
    have h₁ : readHex (p.value ++ (p.after ++ ',' :: (s.before ++ (s.value ++
        (s.after ++ ']' :: rest))))) = .ok (artifact.payload, p.after ++ ',' :: (s.before ++
          (s.value ++ (s.after ++ ']' :: rest)))) :=
      readHex_eq_ok_iff.2 ⟨[], p.value, Json.isBlanks_nil, hpayload, rfl⟩
    have h₃ : readSignature (s.value ++ (s.after ++ ']' :: rest)) =
        .ok (artifact.signature, s.after ++ ']' :: rest) :=
      readSignature_eq_ok_iff.2
        (readHex_eq_ok_iff.2 ⟨[], s.value, Json.isBlanks_nil, hsignature, rfl⟩)
    have h₄ : Json.expectMark ']' (s.after ++ ']' :: rest) = .ok rest :=
      (Json.expectMark_eq_ok_iff (by decide)).2 ⟨s.after, hw₄, rfl⟩
    rw [hcs, readItems, nextItem_zero_append hw₁ hpayload]
    simp only [h₁, nextItem_append hw₂ hw₃ hsignature, h₃, h₄]

end SealedPoll.Artifact
