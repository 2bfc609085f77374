import SealedPoll.Log

/-!
# Reports

A `Report` is what a command prints, logs and fails with (`Failure`). Reports are put together with
`Report.followedBy`, where nothing follows a failure.
-/

namespace SealedPoll.Command

structure LogLine where
  level : Level
  /-- The part of the program that speaks. -/
  source : String
  message : String
deriving DecidableEq

def LogLine.text (line : LogLine) : String :=
  line.level.name ++ " " ++ line.source ++ " - " ++ line.message

/-- A number below 100 with two digits. -/
def twoDigits (n : Nat) : String := String.ofList (Nat.toDigits 10 (100 + n % 100)).tail

/-- The time of day, given the seconds since some midnight. -/
def timeOfDay (seconds : Nat) : String :=
  twoDigits (seconds / 3600 % 24) ++ ":" ++ twoDigits (seconds / 60 % 60) ++ ":" ++
    twoDigits (seconds % 60)

/-- A line that reports an event of the poll service. -/
def LogLine.ofEvent (event : LogEvent) : LogLine :=
  ⟨event.level, "pollcrypt::decryption", event.message⟩

/-- Why a command fails. -/
inductive Failure
  /-- The command says why. -/
  | explained (command reason : String)
  /-- An argument that is looked at as a text is none. -/
  | unreadable
deriving DecidableEq

def Failure.message : Failure → String
  | explained command reason => "pollcrypt " ++ command ++ ": " ++ reason
  | unreadable => "unexpected invalid UTF-8 code point"

def Failure.exitCode : Failure → UInt32
  | explained _ _ => 1
  | unreadable => 101

/-- What a command prints, logs and fails with. -/
structure Report where
  output : List String
  log : List LogLine
  failure? : Option Failure
deriving DecidableEq

namespace Report

/-- Output without a log. -/
def printed (lines : List String) : Report := ⟨lines, [], none⟩

/-- A line of the log without output. -/
def logged (line : LogLine) : Report := ⟨[], [line], none⟩

def events (log : List LogEvent) : Report := ⟨[], log.map .ofEvent, none⟩

def failed (name reason : String) : Report := ⟨[], [], some (.explained name reason)⟩

def unreadable : Report := ⟨[], [], some .unreadable⟩

/-- One report and then another, which is dropped if the first one has failed. -/
def followedBy (first second : Report) : Report :=
  match first.failure? with
  | some _ => first
  | none => ⟨first.output ++ second.output, first.log ++ second.log, second.failure?⟩

/-- The lines of the log that are reported at a verbosity. -/
def visibleLog (report : Report) (verbosity : Nat) : List LogLine :=
  report.log.filter fun line => line.level.rank ≤ verbosity

/-- The lines on standard error at a verbosity: those of the log, with the time of day, and why the
command fails. -/
def errorLines (report : Report) (verbosity : Nat) (time : String) : List String :=
  (report.visibleLog verbosity).map (fun line => time ++ " " ++ line.text) ++
    (report.failure?.map Failure.message).toList

def exitCode (report : Report) : UInt32 :=
  match report.failure? with
  | some failure => failure.exitCode
  | none => 0

end Report

end SealedPoll.Command
