import SealedPoll.Command.Help
import SealedPoll.Command.Run
import Std.Time.DateTime.Timestamp

/-!
# The program

Takes the arguments, the environment and random bytes from the system, runs the command and prints
its report: the output on standard output, the log and the failure on standard error.
-/

namespace SealedPoll.Command

/-- The number of chunks of a batch if the number of workers is left open; the runtime spreads them
over the cores that there are. -/
def assumedCores : Nat := 8

/-- A variable of the environment as bytes. -/
def lookUp (name : String) : IO (Option Bytes) := return (← IO.getEnv name).map Text.utf8

/-- The environment, and as many random bytes as a command needs. -/
def surroundings (command : Command) : IO Surroundings := do
  let env := {
    mainKey? := ← lookUp Environment.mainKeyName
    workers? := ← lookUp Environment.workersName
    threshold? := ← lookUp Environment.thresholdName }
  let random ← IO.getRandomBytes (USize.ofNat command.randomNeed)
  return ⟨env, assumedCores, ⟨random.data.toList⟩⟩

/-- Prints a report. -/
def printReport (verbosity : Nat) (report : Report) : IO Unit := do
  let now ← Std.Time.Timestamp.now
  let time := timeOfDay now.toSecondsSinceUnixEpoch.val.toNat
  (report.errorLines verbosity time).forM IO.eprintln
  report.output.forM IO.println

/-- Does what the arguments ask for and answers the exit status. -/
def perform : Invocation → IO UInt32
  | .help topic => do
    topic.helpLines.forM IO.println
    return 0
  | .version topic => do
    IO.println topic.version
    return 0
  | .refused topic => do
    topic.usage.forM IO.eprintln
    return 1
  | .unreadable => do
    IO.eprintln Failure.unreadable.message
    return Failure.unreadable.exitCode
  | .run verbosity command => do
    let report := command.run (← surroundings command)
    printReport verbosity report
    return report.exitCode

end SealedPoll.Command

def main (args : List String) : IO UInt32 :=
  SealedPoll.Command.perform (SealedPoll.Command.Invocation.ofArguments
    (args.map SealedPoll.Text.utf8))
