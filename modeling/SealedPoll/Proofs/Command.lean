import SealedPoll.Command.Run
import SealedPoll.Proofs.Bytes.Hex
import SealedPoll.Proofs.MainKey

/-!
# Commands on what other commands print

* `Report.Prints` : a report of these lines and no failure, put together by `Report.Prints.followedBy`;
* `hexArgument_encode` : what is printed in hexadecimal is read back from an argument;
* `Invocation.ofArguments_verify` : such arguments are values, whatever they denote;
* `run_verify` : and a signature among them is verified as it is before it is printed.
-/

namespace SealedPoll.Command

/-! ## Reports -/

/-- The report is these lines, without a failure. -/
structure Report.Prints (report : Report) (lines : List String) : Prop where
  output : report.output = lines
  failure : report.failure? = none

namespace Report

theorem prints_printed (lines : List String) : (printed lines).Prints lines := ⟨rfl, rfl⟩

theorem prints_logged (line : LogLine) : (logged line).Prints [] := ⟨rfl, rfl⟩

theorem prints_events (log : List LogEvent) : (events log).Prints [] := ⟨rfl, rfl⟩

theorem Prints.exitCode {report : Report} {lines : List String} (h : report.Prints lines) :
    report.exitCode = 0 := by
  rw [Report.exitCode, h.failure]

theorem Prints.followedBy {first second : Report} {lines more : List String}
    (hfirst : first.Prints lines) (hsecond : second.Prints more) :
    (first.followedBy second).Prints (lines ++ more) := by
  rw [Report.followedBy, hfirst.failure, hfirst.output, hsecond.output, hsecond.failure]
  exact ⟨rfl, rfl⟩

end Report

/-! ## Arguments in hexadecimal -/

theorem hexArgument_encode (name : Name) (argument : String) (bs : Bytes) :
    hexArgument name argument (Text.utf8 (Hex.encode bs)) = .ok bs := by
  have htext := Hex.isText_encode bs
  have htrim := Text.trim_eq_iff.2 (htext.trims (List.forall_mem_nil _) (List.forall_mem_nil _))
  simp only [List.nil_append, List.append_nil, String.ofList_toList] at htrim
  simp only [hexArgument, Text.ofUtf8?_utf8, htrim, Hex.decode_encode]

theorem head?_utf8_ne_hyphen {text : List Char} {bs : Bytes} (h : Hex.IsText text bs) :
    (Text.utf8 (String.ofList text)).head? ≠ some hyphen := by
  cases h with
  | nil => simp [Text.utf8, String.toUTF8]
  | @cons hi lo h l text bs hhi hlo htext =>
    rw [Hex.utf8_cons_of_ascii hhi.ascii, List.head?_cons]
    intro hhead
    have hvalue := (Hex.isDigit_iff_of_ascii hhi.ascii).1 hhi
    rw [Option.some.inj hhead] at hvalue
    have hnone : Hex.digitValue? hyphen = none := by decide
    rw [hnone] at hvalue
    cases hvalue

theorem Argument.ofBytes_of_head {bs : Bytes} (h : bs.head? ≠ some hyphen) :
    ofBytes bs = .value bs := by
  cases bs with
  | nil => rfl
  | cons b bs =>
    have hb : b ≠ hyphen := fun hb => h (congrArg some hb)
    simp [ofBytes, hb]

theorem Argument.ofBytes_encode (bs : Bytes) :
    ofBytes (Text.utf8 (Hex.encode bs)) = .value (Text.utf8 (Hex.encode bs)) := by
  refine ofBytes_of_head ?_
  rw [← String.ofList_toList (s := Hex.encode bs)]
  exact head?_utf8_ne_hyphen (Hex.isText_encode bs)

/-! ## Verifying -/

/-- Arguments in hexadecimal make a command, no flag being found among them. -/
theorem Invocation.ofArguments_verify (publicKey message signature : Bytes) :
    ofArguments (["verify", Hex.encode publicKey, Hex.encode message, Hex.encode signature].map
        Text.utf8) =
      .run 0 (.verify (Text.utf8 (Hex.encode publicKey)) (Text.utf8 (Hex.encode message))
        (Text.utf8 (Hex.encode signature))) := by
  have hvalue : Argument.ofBytes (Text.utf8 "verify") = .value (Text.utf8 "verify") := by
    decide +kernel
  have hhelp : Text.utf8 "verify" ≠ Text.utf8 "help" := by decide +kernel
  have hname : Name.ofBytes? (Text.utf8 "verify") = some .verify := by decide +kernel
  simp only [List.map_cons, List.map_nil, ofArguments, ofProgramArguments, hvalue, hhelp, hname,
    if_false]
  simp only [ofCommandArguments, Bool.false_eq_true, if_false, Argument.ofBytes_encode]
  have haccepts : ∀ count < 3, accepts .verify count = true := by decide
  rw [if_pos (haccepts _ (by simp)), if_pos (haccepts _ (by simp)), if_pos (haccepts _ (by simp))]
  rfl

/-- A signature of a main key that is printed with the key is verified as it is before. -/
theorem run_verify {key : MainKey} {message : Bytes} {signature : Curve.Signature}
    (h : key.publicKey.verify message signature = true) (around : Surroundings) :
    (run around (.verify (Text.utf8 (Hex.encode key.publicKey.encoded.toList))
      (Text.utf8 (Hex.encode message)) (Text.utf8 (Hex.encode signature.toList)))).Prints
        ["> Signature verified OK"] := by
  rw [run, runVerify]
  simp only [hexArgument_encode]
  rw [MainKey.verify_encoded, h, if_pos rfl]
  exact Report.prints_printed _

end SealedPoll.Command
