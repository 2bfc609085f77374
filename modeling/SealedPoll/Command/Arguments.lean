import SealedPoll.Command

/-!
# The argument grammar

* `Argument` : an argument as it is written;
* `Invocation` : what a list of arguments asks for, read by `Invocation.ofArguments` from left to
  right. Before the command there may be flags for more detail; a request for help or the version
  decides at once; after `--` everything is a value.

Arguments are bytes. The grammar asks for no text, but where a flag of several letters is unknown,
it and all arguments after it are looked at as texts.
-/

namespace SealedPoll.Command

def hyphen : UInt8 := '-'.toUInt8

def equalsSign : UInt8 := '='.toUInt8

/-- An argument as it is written. -/
inductive Argument
  /-- Two hyphens: all that follow are values. -/
  | separator
  /-- A name after two hyphens or more, up to an equals sign. -/
  | long (name : Bytes)
  /-- Letters after one hyphen. -/
  | short (flags : Bytes)
  | value (bytes : Bytes)
deriving DecidableEq

/-- The argument of bytes; a hyphen alone is a value. -/
def Argument.ofBytes (bs : Bytes) : Argument :=
  if bs = [hyphen, hyphen] then .separator
  else if bs.take 2 = [hyphen, hyphen] then
    .long ((bs.dropWhile (· = hyphen)).takeWhile (· ≠ equalsSign))
  else if bs.head? = some hyphen ∧ bs ≠ [hyphen] then .short bs.tail
  else .value bs

/-- What help is about. -/
inductive Topic
  | program
  | command (name : Name)
  | help
deriving DecidableEq

/-- What a list of arguments asks for. -/
inductive Invocation
  /-- A command, and how many steps of detail are reported. -/
  | run (verbosity : Nat) (command : Command)
  | help (topic : Topic)
  | version (topic : Topic)
  /-- The arguments do not fit the topic. -/
  | refused (topic : Topic)
  /-- An argument that is looked at as a text is none. -/
  | unreadable
deriving DecidableEq

namespace Invocation

/-- What flags after one hyphen come to: a number of steps of detail, unless one of them decides. -/
def ofFlags (topic : Topic) (verbosity : Nat) : Bytes → Except Invocation Nat
  | [] => .ok verbosity
  | b :: bs =>
    if b = 'h'.toUInt8 then .error (.help topic)
    else if b = 'V'.toUInt8 then .error (.version topic)
    else if b = 'v'.toUInt8 ∧ topic = .program then ofFlags topic (verbosity + 1) bs
    else .error (.refused topic)

/-- What a flag after two hyphens asks for, the arguments `rest` coming after it. -/
def ofLongFlag (topic : Topic) (name : Bytes) (rest : List Bytes) : Invocation :=
  if name = Text.utf8 "help" then .help topic
  else if name = Text.utf8 "version" then .version topic
  else if (name :: rest).all Text.isUtf8 then .refused topic
  else .unreadable

/-- A command with these values, if they are as many as it needs. -/
def ofValues (verbosity : Nat) (name : Name) (values : List Bytes) : Invocation :=
  match ofValues? name values with
  | some command => .run verbosity command
  | none => .refused (.command name)

/-- One more value may follow `count` values. -/
def accepts (name : Name) (count : Nat) : Bool := name.isOpen || count < name.arguments.length

/-- What the arguments after a command ask for, `values` having been read; `ended` if a separator
has been. -/
def ofCommandArguments (verbosity : Nat) (name : Name) (values : List Bytes) (ended : Bool) :
    List Bytes → Invocation
  | [] => ofValues verbosity name values
  | bs :: rest =>
    let topic := .command name
    match if ended then .value bs else Argument.ofBytes bs with
    | .separator => ofCommandArguments verbosity name values true rest
    | .long flag => ofLongFlag topic flag rest
    | .short flags =>
      match ofFlags topic verbosity flags with
      | .error decided => decided
      | .ok _ => .refused topic
    | .value bytes =>
      if accepts name values.length then
        ofCommandArguments verbosity name (values ++ [bytes]) ended rest
      else .refused topic

/-- What the arguments after the word `help` ask for. -/
def ofHelpArguments : List Bytes → Invocation
  | [] => .help .program
  | [bs] =>
    if bs = Text.utf8 "help" then .help .help
    else match Name.ofBytes? bs with
      | some name => .help (.command name)
      | none => .refused .program
  | _ => .refused .program

/-- What arguments ask for, `verbosity` steps of detail having been asked for before. -/
def ofProgramArguments (verbosity : Nat) : List Bytes → Invocation
  | [] => .refused .program
  | bs :: rest =>
    match Argument.ofBytes bs with
    | .separator => .refused .program
    | .long flag => ofLongFlag .program flag rest
    | .short flags =>
      match ofFlags .program verbosity flags with
      | .error decided => decided
      | .ok verbosity => ofProgramArguments verbosity rest
    | .value bytes =>
      if bytes = Text.utf8 "help" then ofHelpArguments rest
      else match Name.ofBytes? bytes with
        | some name => ofCommandArguments verbosity name [] false rest
        | none => .refused .program

/-- What the arguments of the program ask for. -/
def ofArguments (args : List Bytes) : Invocation := ofProgramArguments 0 args

end Invocation

end SealedPoll.Command
