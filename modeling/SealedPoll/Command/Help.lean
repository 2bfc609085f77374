import SealedPoll.Command.Arguments

/-!
# Help texts

`Topic.helpLines`, `Topic.version` and `Topic.usage` are the texts that a topic is answered with.
-/

namespace SealedPoll.Command

/-- What a command is for. -/
def Name.about : Name → String
  | keygen => "Generate a new main key seed and print it with its public key"
  | pubkey => "Print the main public key for POLLCRYPT_MAIN_KEY"
  | encrypt => "Encrypt a vote against a poll public key"
  | verify => "Verify an Ed25519 signature"
  | endToEnd => "Run a poll in-process: start, encrypt votes, stop and verify"

/-- The arguments of a command with what they are for. -/
def Name.argumentHelp : Name → List (String × String)
  | keygen => []
  | pubkey => []
  | encrypt =>
    [("<POLL-PUBLIC-KEY>", "Poll public key in hex"), ("<PLAINTEXT>", "The vote to encrypt")]
  | verify =>
    [("<PUBLIC-KEY>", "Signer public key in hex"), ("<MESSAGE>", "Signed message in hex"),
      ("<SIGNATURE>", "Signature in hex")]
  | endToEnd => [("<POLL-ID>", "Poll identifier"), ("<VOTE>...", "Votes to cast")]

/-- Lines of an entry and its description, the descriptions being aligned. -/
def table (rows : List (String × String)) : List String :=
  let width := (rows.map fun row => row.1.length).foldl max 0
  rows.map fun (entry, description) =>
    let gap := String.ofList (List.replicate (width - entry.length + 4) ' ')
    "    " ++ entry ++ gap ++ description

/-- A titled block of lines, nothing if there are none. -/
def block (title : String) (lines : List String) : List String :=
  if lines = [] then [] else ["", title ++ ":"] ++ lines

namespace Topic

/-- What the topic is called in a text about it. -/
def title : Topic → String
  | program => "pollcrypt"
  | command name => "pollcrypt-" ++ name.text
  | help => "pollcrypt-help"

def about : Topic → String
  | program => "Inspects and exercises the pollcrypt vote decryption core"
  | command name => name.about
  | help => "Prints this message or the help of the given subcommand(s)"

/-- The version line. -/
def version : Topic → String
  | program => "pollcrypt 0.1"
  | topic => topic.title ++ " "

/-- How the topic is called. -/
def synopsis : Topic → String
  | program => "pollcrypt [FLAGS] <SUBCOMMAND>"
  | command name =>
    String.intercalate " " (["pollcrypt", name.text] ++
      name.arguments.map (fun argument => "<" ++ argument ++ ">") ++
      if name.isOpen then ["[VOTE]..."] else [])
  | help => "pollcrypt help [subcommand]..."

/-- The flags with what they are for. -/
def flags (topic : Topic) : List (String × String) :=
  [("-h, --help", "Prints help information")] ++
    (if topic = program then [("-v", "Sets the level of verbosity")] else []) ++
    [("-V, --version", "Prints version information")]

def argumentHelp : Topic → List (String × String)
  | program => []
  | command name => name.argumentHelp
  | help => [("<subcommand>...", "The subcommand whose help message to display")]

def subcommands : Topic → List (String × String)
  | program =>
    [(Name.endToEnd.text, Name.endToEnd.about), (Name.encrypt.text, Name.encrypt.about),
      ("help", Topic.help.about), (Name.keygen.text, Name.keygen.about),
      (Name.pubkey.text, Name.pubkey.about), (Name.verify.text, Name.verify.about)]
  | _ => []

/-- The lines of the usage note. -/
def usage (topic : Topic) : List String := ["USAGE:", "    " ++ topic.synopsis]

/-- The lines of the help text. -/
def helpLines (topic : Topic) : List String :=
  [topic.version, topic.about, ""] ++ topic.usage ++ block "FLAGS" (table topic.flags) ++
    block "ARGS" (table topic.argumentHelp) ++ block "SUBCOMMANDS" (table topic.subcommands)

end Topic

end SealedPoll.Command
