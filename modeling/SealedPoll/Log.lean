import SealedPoll.Error

/-!
# Log events

* `Level` : how weighty a message is (`Level.rank`), and its name;
* `LogEvent` : what the poll service reports, with level and text. A warning names the position of
  an undecryptable vote only; the reason is a message of its own, for debugging.
-/

namespace SealedPoll

/-- How weighty a message is. -/
inductive Level
  | warn
  | info
  | debug
deriving DecidableEq

/-- The name of a level. -/
def Level.name : Level → String
  | warn => "WARN"
  | info => "INFO"
  | debug => "DEBUG"

/-- How many steps of detail a level is below the warnings. -/
def Level.rank : Level → Nat
  | warn => 0
  | info => 1
  | debug => 2

/-- What the poll service reports. -/
inductive LogEvent
  | started (poll : String)
  | stopped (poll : String) (votes : Nat)
  /-- The poll stopped, and the vote at `index` was the first to be refused. -/
  | undecryptable (poll : String) (index : Nat)
  /-- Why a vote of the poll was refused. -/
  | cause (poll : String) (reason : Error)
  | cleared (poll : String)
deriving DecidableEq

namespace LogEvent

def level : LogEvent → Level
  | started _ => .info
  | stopped _ _ => .info
  | undecryptable _ _ => .warn
  | cause _ _ => .debug
  | cleared _ => .info

/-- The poll that an event is about. -/
def poll : LogEvent → String
  | started id => id
  | stopped id _ => id
  | undecryptable id _ => id
  | cause id _ => id
  | cleared id => id

/-- What an event says of its poll. -/
def predicate : LogEvent → String
  | started _ => " started"
  | stopped _ votes => " stopped with " ++ votes.repr ++ " votes"
  | undecryptable _ index =>
    " stopped with undecryptable votes: pollcrypt: vote " ++ index.repr ++ " could not be decrypted"
  | cause _ reason => " decryption failure cause: " ++ reason.message
  | cleared _ => " cleared"

/-- The text of an event. -/
def message (event : LogEvent) : String := "poll " ++ event.poll ++ event.predicate

end LogEvent

end SealedPoll
