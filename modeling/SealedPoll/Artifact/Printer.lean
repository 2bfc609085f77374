import SealedPoll.Artifact

/-!
# Artifacts as JSON

An artifact is a map of its payload and its signature, both in lower-case hexadecimal.

* `Artifact.compact` : on one line, without blanks;
* `Artifact.pretty` : one field a line, indented by two spaces.
-/

namespace SealedPoll.Artifact

/-- The names of the fields. -/
inductive Field
  | payload
  | signature
deriving DecidableEq

/-- The name of a field. -/
def Field.name : Field → String
  | payload => "payload"
  | signature => "signature"

/-- The bytes of a field. -/
def bytesOf (artifact : Artifact) : Field → Bytes
  | .payload => artifact.payload
  | .signature => artifact.signature.toList

/-- A text between quotation marks. -/
def inQuotes (s : String) : String := "\x22" ++ s ++ "\x22"

/-- A field with its bytes; `gap` stands after the colon. -/
def member (gap : String) (artifact : Artifact) (field : Field) : String :=
  inQuotes field.name ++ ":" ++ gap ++ inQuotes (Hex.encode (artifact.bytesOf field))

/-- The artifact on one line. -/
def compact (artifact : Artifact) : String :=
  "\x7b" ++ member "" artifact .payload ++ "," ++ member "" artifact .signature ++ "\x7d"

/-- The artifact with one field a line. -/
def pretty (artifact : Artifact) : String :=
  "\x7b\n  " ++ member " " artifact .payload ++ ",\n  " ++ member " " artifact .signature ++
    "\n\x7d"

end SealedPoll.Artifact
