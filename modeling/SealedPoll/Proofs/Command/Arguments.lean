import SealedPoll.Command.Arguments

/-!
# The arguments of commands

* `Command.values`, `Command.IsText` : the arguments of a command, and that they are texts;
* `Invocation.mem_of_ofArguments` : a command is handed arguments that were given, none of them made up
  or changed; so it is handed texts if all that is given are (`Invocation.isText_of_ofArguments`).
-/

namespace SealedPoll.Command

/-- The arguments of a command. -/
def values : Command → List Bytes
  | keygen => []
  | pubkey => []
  | encrypt pollPublicKey plaintext => [pollPublicKey, plaintext]
  | verify publicKey message signature => [publicKey, message, signature]
  | endToEnd poll votes => poll :: votes

/-- The arguments are texts. -/
def IsText (command : Command) : Prop := ∀ value ∈ command.values, ∃ text, value = Text.utf8 text

theorem values_of_ofValues? {name : Name} {values : List Bytes} {command : Command}
    (h : ofValues? name values = some command) : command.values = values := by
  unfold ofValues? at h
  split at h <;> cases h <;> rfl

theorem Argument.eq_of_ofBytes {bs bytes : Bytes} (h : ofBytes bs = .value bytes) : bytes = bs := by
  unfold ofBytes at h
  split at h
  · cases h
  split at h
  · cases h
  split at h
  · cases h
  · exact (Argument.value.inj h).symm

namespace Invocation

variable {args values : List Bytes} {verbosity count : Nat} {name : Name} {command : Command}
  {topic : Topic} {ended : Bool}

theorem ofFlags_ne_run {flags : Bytes} : ofFlags topic verbosity flags ≠ .error (.run count command) := by
  induction flags generalizing verbosity with
  | nil => simp [ofFlags]
  | cons flag flags ih =>
    unfold ofFlags
    split
    · simp
    split
    · simp
    split
    · exact ih
    · simp

theorem ofLongFlag_ne_run {flag : Bytes} : ofLongFlag topic flag args ≠ .run count command := by
  unfold ofLongFlag
  split
  · simp
  split
  · simp
  split <;> simp

theorem values_of_ofValues (h : ofValues verbosity name values = .run count command) :
    command.values = values := by
  unfold ofValues at h
  split at h
  · next parsed hparsed =>
    obtain rfl := (Invocation.run.inj h).2
    exact values_of_ofValues? hparsed
  · cases h

/-- What a command is handed has been read before or is among the arguments left. -/
theorem mem_of_ofCommandArguments
    (h : ofCommandArguments verbosity name values ended args = .run count command) :
    ∀ value ∈ command.values, value ∈ values ∨ value ∈ args := by
  induction args generalizing values ended with
  | nil =>
    rw [values_of_ofValues h]
    exact fun value hvalue => .inl hvalue
  | cons bs rest ih =>
    simp only [ofCommandArguments] at h
    split at h
    · exact fun value hvalue => (ih h value hvalue).imp_right (List.mem_cons_of_mem bs)
    · exact absurd h ofLongFlag_ne_run
    · next flags hflags =>
      split at h
      · next decided hdecided => exact absurd (hdecided.trans (congrArg _ h)) ofFlags_ne_run
      · cases h
    · next bytes hbytes =>
      have hsame : bytes = bs := by
        split at hbytes
        · exact (Argument.value.inj hbytes).symm
        · exact Argument.eq_of_ofBytes hbytes
      split at h
      · intro value hvalue
        rcases ih h value hvalue with hread | hrest
        · rcases List.mem_append.1 hread with hbefore | hlast
          · exact .inl hbefore
          · rw [List.mem_singleton.1 hlast, hsame]
            exact .inr List.mem_cons_self
        · exact .inr (List.mem_cons_of_mem bs hrest)
      · cases h

theorem ofHelpArguments_ne_run : ofHelpArguments args ≠ .run count command := by
  unfold ofHelpArguments
  split
  · simp
  · split
    · simp
    · split <;> simp
  · simp

theorem mem_of_ofProgramArguments (h : ofProgramArguments verbosity args = .run count command) :
    ∀ value ∈ command.values, value ∈ args := by
  induction args generalizing verbosity with
  | nil => cases h
  | cons bs rest ih =>
    simp only [ofProgramArguments] at h
    split at h
    · cases h
    · exact absurd h ofLongFlag_ne_run
    · split at h
      · next decided hdecided => exact absurd (hdecided.trans (congrArg _ h)) ofFlags_ne_run
      · exact fun value hvalue => List.mem_cons_of_mem bs (ih h value hvalue)
    · split at h
      · exact absurd h ofHelpArguments_ne_run
      split at h
      · intro value hvalue
        have hmem := (mem_of_ofCommandArguments h value hvalue).resolve_left (by simp)
        exact List.mem_cons_of_mem bs hmem
      · cases h

/-- A command is handed arguments that were given. -/
theorem mem_of_ofArguments (h : ofArguments args = .run count command) :
    ∀ value ∈ command.values, value ∈ args := mem_of_ofProgramArguments h

/-- Out of texts a command is handed texts. -/
theorem isText_of_ofArguments {texts : List String}
    (h : ofArguments (texts.map Text.utf8) = .run count command) : command.IsText := by
  intro value hvalue
  obtain ⟨text, -, rfl⟩ := List.mem_map.1 (mem_of_ofArguments h value hvalue)
  exact ⟨text, rfl⟩

end Invocation

end SealedPoll.Command
