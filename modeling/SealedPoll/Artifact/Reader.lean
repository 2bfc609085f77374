import SealedPoll.Artifact.Printer
import SealedPoll.Json.Skip
import SealedPoll.Json.Token

/-!
# Artifacts from JSON

`Artifact.parse` reads a map with the members `payload` and `signature` in any order, other members
being skipped, or a sequence of the two. The text is read front to back and the first problem
decides: it is no JSON, it is cut off, or it is JSON that is no artifact (`Misfit`).
-/

namespace SealedPoll.Artifact

open Json (Fault Token skipBlanks expectMark skipValue readString)

/-- What a value should have been. -/
inductive Wanted
  | hexBytes
  | artifact
deriving DecidableEq

def Wanted.describe : Wanted → String
  | hexBytes => "hex-encoded byte array"
  | artifact => "struct SignedArtifact"

/-- Why a JSON value is no artifact. -/
inductive Misfit
  | missingField (field : Field)
  | duplicateField (field : Field)
  /-- The bytes of the signature are not 64. -/
  | badSignature
  /-- A sequence has this many items. -/
  | tooFewItems (count : Nat)
  | wrongType (found : Token) (wanted : Wanted)
deriving DecidableEq

def Misfit.message : Misfit → String
  | missingField field => "missing field `" ++ field.name ++ "`"
  | duplicateField field => "duplicate field `" ++ field.name ++ "`"
  | badSignature => "signature error"
  | tooFewItems count =>
    "invalid length " ++ count.repr ++ ", expected struct SignedArtifact with 2 elements"
  | wrongType found wanted => "invalid type: " ++ found.describe ++ ", expected " ++ wanted.describe

/-- Why a text is no artifact. -/
inductive Refusal
  | malformed
  | cutOff
  | misfit (reason : Misfit)
deriving DecidableEq

/-- A text that is no JSON is no artifact. -/
def Refusal.ofFault : Fault → Refusal
  | .malformed => .malformed
  | .cutOff => .cutOff

/-- The refusal of a value at the front of a text that starts with the wrong token. -/
def unexpected (wanted : Wanted) (cs : List Char) : Refusal :=
  match Token.read cs with
  | .error fault => .ofFault fault
  | .ok found => .misfit (.wrongType found wanted)

/-- The bytes of a string of hexadecimal digits, and what is left after it. -/
def readHex (cs : List Char) : Except Refusal (Bytes × List Char) :=
  match skipBlanks cs with
  | [] => .error .cutOff
  | c :: rest =>
    if c = '\x22' then
      match readString rest with
      | .error fault => .error (.ofFault fault)
      | .ok (text, rest) =>
        match Hex.decode (String.ofList text) with
        | .error _ => .error (.misfit (.wrongType (.string text) .hexBytes))
        | .ok bytes => .ok (bytes, rest)
    else .error (unexpected .hexBytes (c :: rest))

/-- A signature in hexadecimal, and what is left after it. -/
def readSignature (cs : List Char) : Except Refusal (Curve.Signature × List Char) :=
  match readHex cs with
  | .error refusal => .error refusal
  | .ok (bytes, rest) =>
    match Octets.ofList? 64 bytes with
    | none => .error (.misfit .badSignature)
    | some signature => .ok (signature, rest)

/-! ## Maps -/

/-- The fields met so far. -/
structure Draft where
  payload? : Option Bytes
  signature? : Option Curve.Signature
deriving DecidableEq

namespace Draft

def blank : Draft := ⟨none, none⟩

/-- The field has been met. -/
def has (draft : Draft) : Field → Bool
  | .payload => draft.payload?.isSome
  | .signature => draft.signature?.isSome

/-- The artifact, if no field is missing; the payload is looked for first. -/
def finish (draft : Draft) : Except Refusal Artifact :=
  match draft.payload?, draft.signature? with
  | none, _ => .error (.misfit (.missingField .payload))
  | some _, none => .error (.misfit (.missingField .signature))
  | some payload, some signature => .ok ⟨payload, signature⟩

end Draft

def Field.ofName? (name : List Char) : Option Field :=
  [payload, signature].find? fun field => field.name.toList = name

/-- The draft with the value of a field, and what is left after the value. -/
def readField (draft : Draft) (field : Field) (cs : List Char) :
    Except Refusal (Draft × List Char) :=
  match field with
  | .payload =>
    match readHex cs with
    | .error refusal => .error refusal
    | .ok (payload, rest) => .ok (⟨some payload, draft.signature?⟩, rest)
  | .signature =>
    match readSignature cs with
    | .error refusal => .error refusal
    | .ok (signature, rest) => .ok (⟨draft.payload?, some signature⟩, rest)

/-- The draft with a member, the quotation mark of whose name has been read, and what is left after
the member. -/
def readMember (draft : Draft) (cs : List Char) : Except Refusal (Draft × List Char) :=
  match readString cs with
  | .error fault => .error (.ofFault fault)
  | .ok (name, rest) =>
    match Field.ofName? name with
    | none =>
      match expectMark ':' rest with
      | .error fault => .error (.ofFault fault)
      | .ok rest =>
        match skipValue rest with
        | .error fault => .error (.ofFault fault)
        | .ok rest => .ok (draft, rest)
    | some field =>
      if draft.has field then .error (.misfit (.duplicateField field))
      else match expectMark ':' rest with
        | .error fault => .error (.ofFault fault)
        | .ok rest => readField draft field rest

/-- The start of the next member of a map; `first` if there has been none. -/
def nextMember (first : Bool) (c : Char) (rest : List Char) : Except Fault (List Char) :=
  if first then if c = '\x22' then .ok rest else .error .malformed
  else if c = ',' then expectMark '\x22' rest else .error .malformed

theorem length_of_readHex {cs rest : List Char} {bytes : Bytes}
    (h : readHex cs = .ok (bytes, rest)) : rest.length ≤ cs.length := by
  unfold readHex at h
  grind [→ Json.length_of_readString, → Json.length_of_skipBlanks]

theorem length_of_readSignature {cs rest : List Char} {signature : Curve.Signature}
    (h : readSignature cs = .ok (signature, rest)) : rest.length ≤ cs.length := by
  unfold readSignature at h
  grind [→ length_of_readHex]

theorem length_of_readField {draft after : Draft} {field : Field} {cs rest : List Char}
    (h : readField draft field cs = .ok (after, rest)) : rest.length ≤ cs.length := by
  unfold readField at h
  grind [→ length_of_readHex, → length_of_readSignature]

theorem length_of_readMember {draft after : Draft} {cs rest : List Char}
    (h : readMember draft cs = .ok (after, rest)) : rest.length < cs.length := by
  unfold readMember at h
  grind [→ Json.length_of_readString, → Json.length_of_expectMark, → Json.length_of_skipValue,
    → length_of_readField]

theorem length_of_nextMember {first : Bool} {c : Char} {cs rest : List Char}
    (h : nextMember first c cs = .ok rest) : rest.length ≤ cs.length := by
  unfold nextMember at h
  grind [→ Json.length_of_expectMark]

/-- The artifact of the rest of a map, and what is left after it. -/
def readMembers (first : Bool) (draft : Draft) (cs : List Char) :
    Except Refusal (Artifact × List Char) :=
  match hc : skipBlanks cs with
  | [] => .error .cutOff
  | c :: rest =>
    have := Json.length_of_skipBlanks hc
    if c = '\x7d' then draft.finish.map fun artifact => (artifact, rest)
    else match hn : nextMember first c rest with
      | .error fault => .error (.ofFault fault)
      | .ok rest =>
        have := length_of_nextMember hn
        match hm : readMember draft rest with
        | .error refusal => .error refusal
        | .ok (draft, rest) =>
          have := length_of_readMember hm
          readMembers false draft rest
termination_by cs.length

/-! ## Sequences -/

/-- The start of the next item of a sequence, or none at its closing bracket; `count` items have
been read. -/
def nextItem (count : Nat) (cs : List Char) : Except Fault (Option (List Char)) :=
  match skipBlanks cs with
  | [] => .error .cutOff
  | c :: rest =>
    if c = ']' then .ok none
    else if count = 0 then .ok (some (c :: rest))
    else if c = ',' then
      match skipBlanks rest with
      | [] => .error .cutOff
      | d :: rest => if d = ']' then .error .malformed else .ok (some (d :: rest))
    else .error .malformed

/-- The artifact of the rest of a sequence, and what is left after it. -/
def readItems (cs : List Char) : Except Refusal (Artifact × List Char) :=
  match nextItem 0 cs with
  | .error fault => .error (.ofFault fault)
  | .ok none => .error (.misfit (.tooFewItems 0))
  | .ok (some cs) =>
    match readHex cs with
    | .error refusal => .error refusal
    | .ok (payload, cs) =>
      match nextItem 1 cs with
      | .error fault => .error (.ofFault fault)
      | .ok none => .error (.misfit (.tooFewItems 1))
      | .ok (some cs) =>
        match readSignature cs with
        | .error refusal => .error refusal
        | .ok (signature, cs) =>
          match expectMark ']' cs with
          | .error fault => .error (.ofFault fault)
          | .ok rest => .ok (⟨payload, signature⟩, rest)

/-! ## Texts -/

/-- The artifact at the front of a text, and what is left after it. -/
def readValue (cs : List Char) : Except Refusal (Artifact × List Char) :=
  match skipBlanks cs with
  | [] => .error .cutOff
  | c :: rest =>
    if c = '[' then readItems rest
    else if c = '\x7b' then readMembers true .blank rest
    else .error (unexpected .artifact (c :: rest))

/-- The artifact of a text, around which there may be blanks only. -/
def parse (s : String) : Except Refusal Artifact :=
  match readValue s.toList with
  | .error refusal => .error refusal
  | .ok (artifact, rest) => if skipBlanks rest = [] then .ok artifact else .error .malformed

end SealedPoll.Artifact
