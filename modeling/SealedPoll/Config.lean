import SealedPoll.Service
import SealedPoll.Text

/-!
# Configuration

* `Config` : a seed for the main key and the options for batches;
* `Config.ofTexts` : read from texts. The main key is 64 hexadecimal digits, the others are counts;
  blanks at both ends do not matter. The main key is looked at first, then the workers, then the
  threshold;
* `Config.ofEnvironment` : read from the environment; a value that is not UTF-8 counts as unset.
-/

namespace SealedPoll

/-- The variables that a configuration is read from, as bytes. -/
structure Environment where
  mainKey? : Option Bytes
  workers? : Option Bytes
  threshold? : Option Bytes
deriving DecidableEq

namespace Environment

def mainKeyName : String := "POLLCRYPT_MAIN_KEY"

def workersName : String := "POLLCRYPT_DECRYPT_WORKERS"

def thresholdName : String := "POLLCRYPT_PARALLEL_THRESHOLD"

/-- The main key as text, if it is set. -/
def mainKeyText? (env : Environment) : Option String := env.mainKey?.bind Text.ofUtf8?

/-- The number of workers as text, if it is set. -/
def workersText? (env : Environment) : Option String := env.workers?.bind Text.ofUtf8?

/-- The threshold as text, if it is set. -/
def thresholdText? (env : Environment) : Option String :=
  env.threshold?.bind Text.ofUtf8?

end Environment

/-- A seed for the main key and the options for batches. -/
structure Config where
  seed : Octets 32
  options : Batch.Options
deriving DecidableEq

namespace Config

/-- The seed that a main key's text denotes. -/
def readSeed (text : String) : Except Error (Octets 32) :=
  match Hex.decode (Text.trim text) with
  | .error fault => .error (.invalidSeedHex fault)
  | .ok bytes =>
    match Octets.ofList? 32 bytes with
    | some seed => .ok seed
    | none => .error (.invalidSeedLength bytes.length)

/-- The refusal of the text of a count. -/
def notANumber (name text : String) : Error :=
  .invalidConfig (name ++ " must be a number, got " ++ Text.quoteText text)

/-- The count in the variable `name`, or the standard one if the variable is unset. -/
def readCount (name : String) (standard : UInt64) : Option String → Except Error UInt64
  | none => .ok standard
  | some text =>
    match Text.readCount? (Text.trimChars text.toList) with
    | some count => .ok count
    | none => .error (notANumber name text)

/-- The configuration that texts denote. -/
def ofTexts (mainKey : String) (workers? threshold? : Option String) : Except Error Config :=
  let standard := Batch.Options.standard
  match readSeed mainKey with
  | .error e => .error e
  | .ok seed =>
    match readCount Environment.workersName standard.workers workers? with
    | .error e => .error e
    | .ok workers =>
      match readCount Environment.thresholdName standard.threshold threshold? with
      | .error e => .error e
      | .ok threshold => .ok ⟨seed, ⟨workers, threshold⟩⟩

/-- The configuration in an environment; the main key has to be set. -/
def ofEnvironment (env : Environment) : Except Error Config :=
  match env.mainKeyText? with
  | none => .error (.invalidConfig (Environment.mainKeyName ++ " must be set"))
  | some mainKey => ofTexts mainKey env.workersText? env.thresholdText?

/-- The main key of a configuration. -/
def mainKey (config : Config) : MainKey := .ofOctets config.seed

/-- The service of a configuration. -/
def service (config : Config) (cores : Nat) (random : RandomSource) : Service :=
  .new config.mainKey config.options cores random

end Config

end SealedPoll
