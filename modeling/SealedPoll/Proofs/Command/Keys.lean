import SealedPoll.Proofs.Command
import SealedPoll.Proofs.Config

/-!
# Generated keys on the command line

* `prints_keygen`, `prints_pubkey` : the lines on a new seed, and on the main key that is configured;
* `generated_key_configured` : a seed that was printed, put back as the main key, has the public key
  that was printed with it.
-/

namespace SealedPoll.Command

theorem prints_keygen {around : Surroundings} {seed : Octets 32} {rest : Bytes}
    (h : around.random.bytes = seed.toList ++ rest) :
    (run around .keygen).Prints ["main-key-seed: " ++ Hex.encode seed.toList,
      "public-key: " ++ (MainKey.ofOctets seed).publicHex] := by
  have hsource : around.random = ⟨seed.toList ++ rest⟩ := congrArg RandomSource.mk h
  simp only [run, runKeygen, MainKey.drawSeed, hsource, RandomSource.draw_append]
  exact Report.prints_printed _

theorem prints_pubkey {around : Surroundings} {config : Config}
    (h : Config.ofEnvironment around.env = .ok config) :
    (run around .pubkey).Prints [config.mainKey.publicHex] := by
  simp only [run, runPubkey, h]
  exact (Report.prints_logged _).followedBy (Report.prints_printed _)

/-- **A generated key is the key that is configured with it.** The seed that is printed, in any mix of
letter case and with blanks around it, is read from the environment as the bytes that were drawn,
whatever counts are set beside it. The public key printed for it is the one printed before; in
hexadecimal it is read back as a key of the same encoding, by which signatures are judged as by the
main key's public half. -/
theorem generated_key_configured (around elsewhere : Surroundings) (seed : Octets 32) (rest : Bytes)
    (front variant back : List Char) (hdrawn : around.random.bytes = seed.toList ++ rest)
    (hfront : ∀ c ∈ front, Text.isBlank c = true) (hback : ∀ c ∈ back, Text.isBlank c = true)
    (hcase : variant.map Char.toLower = (Hex.encode seed.toList).toList.map Char.toLower)
    (henv : Config.Provides elsewhere.env (String.ofList (front ++ variant ++ back))) :
    let key := MainKey.ofOctets seed
    ∃ publicHex : String, (run around .keygen).exitCode = 0 ∧
      (run around .keygen).output =
        ["main-key-seed: " ++ Hex.encode seed.toList, "public-key: " ++ publicHex] ∧
      (∃ options, Config.ofEnvironment elsewhere.env = .ok ⟨seed, options⟩) ∧
      (run elsewhere .pubkey).exitCode = 0 ∧ (run elsewhere .pubkey).output = [publicHex] ∧
      ∃ bytes parsed, Hex.decode publicHex = .ok bytes ∧ parsePublicKey bytes = .ok parsed ∧
        parsed.encoded = key.publicKey.encoded ∧
        ∀ message signature,
          parsed.verify message signature = key.publicKey.verify message signature := by
  intro key
  have hgenerated := prints_keygen hdrawn
  have htext : Hex.IsText variant seed.toList := by
    rw [← Hex.isText_map_toLower_iff, hcase]
    exact (Hex.isText_encode seed.toList).toLower
  have hseed : Config.SeedText (String.ofList (front ++ variant ++ back)) seed.toList :=
    ⟨_, htext.trims hfront hback, by rwa [String.toList_ofList]⟩
  obtain ⟨options, hconfig⟩ := henv.ofEnvironment hseed
  have hpublic := prints_pubkey hconfig
  obtain ⟨parsed, hparse, hencoded, hverify⟩ := key.parsePublicKey_encoded
  exact ⟨key.publicHex, hgenerated.exitCode, hgenerated.output, ⟨options, hconfig⟩, hpublic.exitCode,
    hpublic.output, _, parsed, Hex.decode_encode _, hparse, hencoded, hverify⟩

/-- Capitals and small letters between wide and narrow blanks; one count has a sign, and the other is
no text. -/
theorem mixed_case_key_configured :
    let seed : Octets 32 := ⟨List.replicate 32 0xab, rfl⟩
    let text := String.ofList (['\t', '\u3000'] ++ (List.replicate 32 ['a', 'B']).flatten ++ ['\n'])
    let around : Surroundings := ⟨⟨none, none, none⟩, 4, ⟨seed.toList ++ [1]⟩⟩
    let elsewhere : Surroundings :=
      ⟨⟨some (Text.utf8 text), some (Text.utf8 " +007"), some [0xff]⟩, 2, ⟨[]⟩⟩
    ∃ publicHex : String, (run around .keygen).output =
        ["main-key-seed: " ++ Hex.encode seed.toList, "public-key: " ++ publicHex] ∧
      (∃ options, Config.ofEnvironment elsewhere.env = .ok ⟨seed, options⟩) ∧
      (run elsewhere .pubkey).output = [publicHex] := by
  intro seed text around elsewhere
  have hworkers : Config.CountText " +007" 7 :=
    Config.readCount?_eq_some_iff (n := 7).1 (by decide +kernel)
  have hthreshold : Text.ofUtf8? [0xff] = none := by decide +kernel
  have henv : Config.Provides elsewhere.env text := by
    refine ⟨rfl, fun other hother => ⟨7, by decide, ?_⟩, fun other hother => ?_⟩
    · obtain rfl := Text.utf8_injective (Option.some.inj hother)
      exact hworkers
    · rw [Text.ofUtf8?_eq_some_iff.2 (Option.some.inj hother)] at hthreshold
      cases hthreshold
  have hfront : ∀ c ∈ ['\t', '\u3000'], Text.isBlank c = true :=
    List.forall_mem_cons.2 ⟨rfl, List.forall_mem_singleton.2 rfl⟩
  have hback : ∀ c ∈ ['\n'], Text.isBlank c = true := List.forall_mem_singleton.2 rfl
  obtain ⟨publicHex, -, hkeygen, hconfig, -, hpubkey, -⟩ :=
    generated_key_configured around elsewhere seed [1] ['\t', '\u3000']
      (List.replicate 32 ['a', 'B']).flatten ['\n'] rfl hfront hback (by decide +kernel) henv
  exact ⟨publicHex, hkeygen, hconfig, hpubkey⟩

end SealedPoll.Command
