import Mathlib.Algebra.Group.Nat.Defs
import SealedPoll.Config
import SealedPoll.Proofs.Bytes.Hex
import SealedPoll.Proofs.Text

/-!
# The format of a configuration

* `WellFormed` : the texts a configuration is read from; `Denotes` : and what they say;
* `Refusal` : why other texts are refused, the main key being looked at before the counts;
* `readSeed_eq_ok_iff`, `readSeed_eq_error_iff`, `readCount_eq_ok_iff`, `readCount_eq_error_iff` : the
  same for one text each;
* `ofTexts_exact` : a configuration is read from its format, as it says, and all else is refused by
  the first rule that applies.
-/

namespace SealedPoll.Config

/-! ## Texts of seeds and of counts -/

/-- The digits of the seed between blanks. -/
def SeedText (text : String) (seed : Bytes) : Prop :=
  ∃ core, Text.Trims text core ∧ Hex.IsText core.toList seed

/-- A count between blanks. -/
def CountText (text : String) (n : Nat) : Prop :=
  ∃ core, Text.Trims text core ∧ Text.IsCount core.toList n

/-- What a count is set to: the standard, unless a text says otherwise. -/
inductive Setting (standard : UInt64) : Option String → UInt64 → Prop
  | absent : Setting standard none standard
  | text {text : String} {n : UInt64} : CountText text n.toNat → Setting standard (some text) n

/-- No count that fits a word of 64 bits. -/
def BadCount (text : String) : Prop := ∀ n < 2 ^ 64, ¬ CountText text n

/-- Why a main key is refused: its digits, and when they are right their number. -/
inductive BadSeed (text : String) : Error → Prop
  | hex {core : String} {fault : Hex.Fault} :
      Text.Trims text core → Hex.Refused (Text.utf8 core) fault → BadSeed text (.invalidSeedHex fault)
  | length {seed : Bytes} :
      SeedText text seed → seed.length ≠ 32 → BadSeed text (.invalidSeedLength seed.length)

/-! ## Texts of configurations -/

/-- 64 digits of either case between blanks, and a count between blanks wherever a text is given. -/
structure WellFormed (mainKey : String) (workers? threshold? : Option String) : Prop where
  mainKey : ∃ core, Text.Trims mainKey core ∧ core.length = 64 ∧
    ∀ c ∈ core.toList, ∃ value, Hex.IsDigit c value
  workers : ∀ text, workers? = some text → ∃ n < 2 ^ 64, CountText text n
  threshold : ∀ text, threshold? = some text → ∃ n < 2 ^ 64, CountText text n

/-- What the texts say. -/
structure Denotes (mainKey : String) (workers? threshold? : Option String) (config : Config) :
    Prop where
  seed : SeedText mainKey config.seed.toList
  workers : Setting 0 workers? config.options.workers
  threshold : Setting 64 threshold? config.options.threshold

/-- Why texts are refused: each rule asks that those before it do not apply. -/
inductive Refusal (mainKey : String) (workers? threshold? : Option String) : Error → Prop
  | mainKey {e : Error} : BadSeed mainKey e → Refusal mainKey workers? threshold? e
  | workers {seed : Octets 32} {text : String} :
      SeedText mainKey seed.toList → workers? = some text → BadCount text →
        Refusal mainKey workers? threshold? (.invalidConfig
          (Environment.workersName ++ " must be a number, got " ++ Text.quoteText text))
  | threshold {seed : Octets 32} {workers : UInt64} {text : String} :
      SeedText mainKey seed.toList → Setting 0 workers? workers → threshold? = some text →
        BadCount text → Refusal mainKey workers? threshold? (.invalidConfig
          (Environment.thresholdName ++ " must be a number, got " ++ Text.quoteText text))

/-- What a variable holds as text: nothing if it is unset or no UTF-8. -/
def Holds (value? : Option Bytes) (text? : Option String) : Prop :=
  ∀ text, text? = some text ↔ value? = some (Text.utf8 text)

/-! ## Seeds -/

theorem decode_trim_eq_ok_iff {text : String} {bytes : Bytes} :
    Hex.decode (Text.trim text) = .ok bytes ↔ SeedText text bytes := by
  constructor
  · intro h
    rw [← String.ofList_toList (s := Text.trim text), Hex.decode_eq_ok_iff] at h
    exact ⟨_, Text.trims_trim text, h⟩
  · rintro ⟨core, htrim, hcore⟩
    rw [Text.trim_eq_iff.2 htrim, ← String.ofList_toList (s := core), Hex.decode_eq_ok_iff]
    exact hcore

theorem decode_trim_eq_error_iff {text : String} {fault : Hex.Fault} :
    Hex.decode (Text.trim text) = .error fault ↔
      ∃ core, Text.Trims text core ∧ Hex.Refused (Text.utf8 core) fault := by
  rw [Hex.decode, Hex.decodeBytes_eq_error_iff]
  constructor
  · exact fun h => ⟨_, Text.trims_trim text, h⟩
  · rintro ⟨core, htrim, hcore⟩
    rwa [Text.trim_eq_iff.2 htrim]

theorem readSeed_eq_ok_iff {text : String} {seed : Octets 32} :
    readSeed text = .ok seed ↔ SeedText text seed.toList := by
  rw [← decode_trim_eq_ok_iff, readSeed]
  cases hdecode : Hex.decode (Text.trim text) with
  | error fault => simp
  | ok bytes =>
    simp only [Except.ok.injEq, eq_comm (a := bytes), ← Octets.ofList?_eq_some_iff]
    cases Octets.ofList? 32 bytes <;> simp

theorem readSeed_eq_error_iff {text : String} {e : Error} :
    readSeed text = .error e ↔ BadSeed text e := by
  constructor
  · intro h
    unfold readSeed at h
    cases hdecode : Hex.decode (Text.trim text) with
    | error fault =>
      rw [hdecode] at h
      obtain rfl := Except.error.inj h
      obtain ⟨core, htrim, hfault⟩ := decode_trim_eq_error_iff.1 hdecode
      exact .hex htrim hfault
    | ok bytes =>
      cases hseed : Octets.ofList? 32 bytes with
      | some seed =>
        simp only [hdecode, hseed] at h
        cases h
      | none =>
        simp only [hdecode, hseed] at h
        obtain rfl := Except.error.inj h
        exact .length (decode_trim_eq_ok_iff.1 hdecode) (Octets.ofList?_eq_none_iff.1 hseed)
  · intro h
    cases h with
    | hex htrim hfault => rw [readSeed, decode_trim_eq_error_iff.2 ⟨_, htrim, hfault⟩]
    | length hbytes hlength =>
      simp only [readSeed, decode_trim_eq_ok_iff.2 hbytes, Octets.ofList?_eq_none_iff.2 hlength]

/-- A seed is what 64 digits denote. -/
theorem exists_seedText_iff {text : String} :
    (∃ seed : Octets 32, SeedText text seed.toList) ↔
      ∃ core, Text.Trims text core ∧ core.length = 64 ∧
        ∀ c ∈ core.toList, ∃ value, Hex.IsDigit c value := by
  constructor
  · rintro ⟨seed, core, htrim, hcore⟩
    have hlength : core.length = 64 := by
      rw [← String.length_toList, hcore.length_eq, seed.length_toList]
    exact ⟨core, htrim, hlength, hcore.isDigit⟩
  · rintro ⟨core, htrim, hlength, hdigits⟩
    rw [← String.length_toList] at hlength
    obtain ⟨seed, hseed⟩ := Hex.exists_isText (n := 32) hlength hdigits
    have hlong : seed.length = 32 := by
      have := hseed.length_eq
      omega
    exact ⟨⟨seed, hlong⟩, core, htrim, hseed⟩

/-! ## Counts -/

theorem readCount?_eq_some_iff {text : String} {n : UInt64} :
    Text.readCount? (Text.trimChars text.toList) = some n ↔ CountText text n.toNat := by
  rw [← Text.toList_trim, Text.readCount?_eq_some_iff]
  constructor
  · exact fun h => ⟨_, Text.trims_trim text, h⟩
  · rintro ⟨core, htrim, hcore⟩
    rwa [Text.trim_eq_iff.2 htrim]

theorem readCount?_eq_none_iff {text : String} :
    Text.readCount? (Text.trimChars text.toList) = none ↔ BadCount text := by
  rw [Option.eq_none_iff_forall_ne_some]
  constructor
  · intro h n hn hcount
    refine h (UInt64.ofNat n) (readCount?_eq_some_iff.2 ?_)
    rwa [UInt64.toNat_ofNat_of_lt' hn]
  · exact fun h n hn => h n.toNat n.toNat_lt (readCount?_eq_some_iff.1 hn)

theorem readCount_eq_ok_iff {name : String} {standard n : UInt64} {text? : Option String} :
    readCount name standard text? = .ok n ↔ Setting standard text? n := by
  cases text? with
  | none =>
    constructor
    · intro h
      obtain rfl := Except.ok.inj h
      exact .absent
    · rintro ⟨⟩
      rfl
  | some text =>
    constructor
    · intro h
      rw [readCount] at h
      split at h
      · next count hcount =>
        obtain rfl := Except.ok.inj h
        exact .text (readCount?_eq_some_iff.1 hcount)
      · cases h
    · rintro (_ | hcount)
      rw [readCount, readCount?_eq_some_iff.2 hcount]

theorem readCount_eq_error_iff {name : String} {standard : UInt64} {text? : Option String}
    {e : Error} :
    readCount name standard text? = .error e ↔
      ∃ text, text? = some text ∧ BadCount text ∧ e = notANumber name text := by
  cases text? with
  | none => simp [readCount]
  | some text =>
    simp only [readCount, Option.some.injEq, exists_eq_left', ← readCount?_eq_none_iff]
    cases Text.readCount? (Text.trimChars text.toList) <;> simp [eq_comm]

theorem exists_setting_iff {standard : UInt64} {text? : Option String} :
    (∃ n, Setting standard text? n) ↔ ∀ text, text? = some text → ∃ n < 2 ^ 64, CountText text n := by
  cases text? with
  | none => simpa using ⟨standard, .absent⟩
  | some text =>
    constructor
    · rintro ⟨n, _ | hcount⟩ _ ⟨⟩
      exact ⟨n.toNat, n.toNat_lt, hcount⟩
    · intro h
      obtain ⟨n, hn, hcount⟩ := h text rfl
      refine ⟨UInt64.ofNat n, .text ?_⟩
      rwa [UInt64.toNat_ofNat_of_lt' hn]

/-! ## Configurations -/

variable {mainKey : String} {workers? threshold? : Option String}

theorem ofTexts_eq_ok_iff {config : Config} :
    ofTexts mainKey workers? threshold? = .ok config ↔
      Denotes mainKey workers? threshold? config := by
  constructor
  · intro h
    simp only [ofTexts] at h
    split at h
    · cases h
    next seed hseed =>
    split at h
    · cases h
    next workers hworkers =>
    split at h
    · cases h
    next threshold hthreshold =>
    obtain rfl := Except.ok.inj h
    exact ⟨readSeed_eq_ok_iff.1 hseed, readCount_eq_ok_iff.1 hworkers,
      readCount_eq_ok_iff.1 hthreshold⟩
  · rintro ⟨hseed, hworkers, hthreshold⟩
    have hworkers : readCount Environment.workersName 0 workers? = .ok _ :=
      readCount_eq_ok_iff.2 hworkers
    have hthreshold : readCount Environment.thresholdName 64 threshold? = .ok _ :=
      readCount_eq_ok_iff.2 hthreshold
    simp only [ofTexts, readSeed_eq_ok_iff.2 hseed, Batch.Options.standard, hworkers, hthreshold]

theorem ofTexts_eq_error_iff {e : Error} :
    ofTexts mainKey workers? threshold? = .error e ↔ Refusal mainKey workers? threshold? e := by
  constructor
  · intro h
    simp only [ofTexts] at h
    split at h
    · next hseed =>
      obtain rfl := Except.error.inj h
      exact .mainKey (readSeed_eq_error_iff.1 hseed)
    next seed hseed =>
    have hseed := readSeed_eq_ok_iff.1 hseed
    split at h
    · next hworkers =>
      obtain rfl := Except.error.inj h
      obtain ⟨text, htext, hbad, rfl⟩ := readCount_eq_error_iff.1 hworkers
      exact .workers hseed htext hbad
    next workers hworkers =>
    have hworkers := readCount_eq_ok_iff.1 hworkers
    split at h
    · next hthreshold =>
      obtain rfl := Except.error.inj h
      obtain ⟨text, htext, hbad, rfl⟩ := readCount_eq_error_iff.1 hthreshold
      exact .threshold hseed hworkers htext hbad
    · cases h
  · intro h
    cases h with
    | mainKey hseed => simp only [ofTexts, readSeed_eq_error_iff.2 hseed]
    | workers hseed htext hbad =>
      have hworkers : readCount Environment.workersName 0 workers? = .error _ :=
        readCount_eq_error_iff.2 ⟨_, htext, hbad, rfl⟩
      simp only [ofTexts, readSeed_eq_ok_iff.2 hseed, Batch.Options.standard, hworkers]
      rfl
    | threshold hseed hworkers htext hbad =>
      have hworkers : readCount Environment.workersName 0 workers? = .ok _ :=
        readCount_eq_ok_iff.2 hworkers
      have hthreshold : readCount Environment.thresholdName 64 threshold? = .error _ :=
        readCount_eq_error_iff.2 ⟨_, htext, hbad, rfl⟩
      simp only [ofTexts, readSeed_eq_ok_iff.2 hseed, Batch.Options.standard, hworkers, hthreshold]
      rfl

theorem exists_denotes_iff :
    (∃ config, Denotes mainKey workers? threshold? config) ↔
      WellFormed mainKey workers? threshold? := by
  constructor
  · rintro ⟨config, h⟩
    exact ⟨exists_seedText_iff.1 ⟨_, h.seed⟩, exists_setting_iff.1 ⟨_, h.workers⟩,
      exists_setting_iff.1 ⟨_, h.threshold⟩⟩
  · intro h
    obtain ⟨seed, hseed⟩ := exists_seedText_iff.2 h.mainKey
    obtain ⟨workers, hworkers⟩ : ∃ n, Setting 0 workers? n := exists_setting_iff.2 h.workers
    obtain ⟨threshold, hthreshold⟩ : ∃ n, Setting 64 threshold? n :=
      exists_setting_iff.2 h.threshold
    exact ⟨⟨seed, ⟨workers, threshold⟩⟩, hseed, hworkers, hthreshold⟩

theorem holds_bind (value? : Option Bytes) : Holds value? (value?.bind Text.ofUtf8?) := by
  intro text
  simp only [Option.bind_eq_some_iff, Text.ofUtf8?_eq_some_iff]
  exact ⟨fun ⟨_, hvalue, htext⟩ => htext ▸ hvalue, fun h => ⟨_, h, rfl⟩⟩

/-- An environment whose main key has this text and whose other variables are counts, if they are
texts at all. -/
structure Provides (env : Environment) (mainKey : String) : Prop where
  mainKey : env.mainKey? = some (Text.utf8 mainKey)
  workers : ∀ text, env.workers? = some (Text.utf8 text) → ∃ n < 2 ^ 64, CountText text n
  threshold : ∀ text, env.threshold? = some (Text.utf8 text) → ∃ n < 2 ^ 64, CountText text n

theorem Provides.ofEnvironment {env : Environment} (h : Provides env mainKey) {seed : Octets 32}
    (hseed : SeedText mainKey seed.toList) :
    ∃ options, Config.ofEnvironment env = .ok ⟨seed, options⟩ := by
  have hset : env.mainKeyText? = some mainKey := (holds_bind _ mainKey).2 h.mainKey
  obtain ⟨workers, hworkers⟩ : ∃ n, Setting 0 env.workersText? n :=
    exists_setting_iff.2 fun text htext => h.workers text ((holds_bind _ text).1 htext)
  obtain ⟨threshold, hthreshold⟩ : ∃ n, Setting 64 env.thresholdText? n :=
    exists_setting_iff.2 fun text htext => h.threshold text ((holds_bind _ text).1 htext)
  refine ⟨⟨workers, threshold⟩, ?_⟩
  rw [Config.ofEnvironment, hset]
  exact ofTexts_eq_ok_iff.2 ⟨hseed, hworkers, hthreshold⟩

theorem ofSeed_seed (config : Config) : MainKey.ofSeed config.seed.toList = .ok config.mainKey := by
  rw [MainKey.ofSeed, Octets.ofList?_toList]
  rfl

/-- **A configuration is read from its format and from nothing else**: it is what the texts say, its
seed makes a main key and with it a service, and where there is none the first rule that applies gives
the reason. An environment is read as the texts that its variables hold, the main key being needed. -/
theorem ofTexts_exact (mainKey : String) (workers? threshold? : Option String) :
    ((∃ config, ofTexts mainKey workers? threshold? = .ok config) ↔
        WellFormed mainKey workers? threshold?) ∧
      (∀ config, ofTexts mainKey workers? threshold? = .ok config ↔
        Denotes mainKey workers? threshold? config) ∧
      (∀ e, ofTexts mainKey workers? threshold? = .error e ↔
        Refusal mainKey workers? threshold? e) ∧
      (∀ (config : Config) (cores : Nat) (random : RandomSource), ∃ key,
        MainKey.ofSeed config.seed.toList = .ok key ∧ config.mainKey = key ∧
          config.service cores random = .new key config.options cores random) ∧
      ∀ env : Environment, ∃ mainKey? workers? threshold?,
        Holds env.mainKey? mainKey? ∧ Holds env.workers? workers? ∧
          Holds env.threshold? threshold? ∧
          ofEnvironment env = match mainKey? with
            | none => .error (.invalidConfig "POLLCRYPT_MAIN_KEY must be set")
            | some mainKey => ofTexts mainKey workers? threshold? := by
  refine ⟨?_, fun _ => ofTexts_eq_ok_iff, fun _ => ofTexts_eq_error_iff,
    fun config cores random => ⟨_, ofSeed_seed config, rfl, rfl⟩, fun env => ?_⟩
  · rw [← exists_denotes_iff]
    exact exists_congr fun _ => ofTexts_eq_ok_iff
  · refine ⟨env.mainKeyText?, env.workersText?, env.thresholdText?, holds_bind _, holds_bind _,
      holds_bind _, ?_⟩
    rw [ofEnvironment]
    cases env.mainKeyText? <;> rfl

end SealedPoll.Config
