import SealedPoll.Proofs.MainKey
import SealedPoll.Proofs.Service.History

/-!
# What a service signs

* `signature_of_run` : a step answers with an artifact only if it is signed by the main key;
* `mem_run` : the results of a run are those of its steps;
* `artifacts_authentic` : every artifact of a run is signed by the one main key, and the key that a
  poll was announced with is the public half of the key that it holds.
-/

namespace SealedPoll.Service

variable {s : Service}

theorem signature_of_start {id : String} {artifact : Artifact}
    (h : (s.start id).answer = .ok artifact) :
    artifact.signature = s.mainKey.sign artifact.payload := by
  obtain ⟨secret, -, rfl⟩ := exists_held h
  rfl

theorem signature_of_run {step : Step} {artifact : Artifact}
    (h : (step.run s).answer = .artifact (.ok artifact)) :
    artifact.signature = s.mainKey.sign artifact.payload := by
  cases step with
  | start id => exact signature_of_start (Reply.artifact.inj h)
  | stop id votes => exact (stop_eq_ok_iff.1 (Reply.artifact.inj h)).1
  | clear id => cases h
  | isActive id => cases h
  | publicKey => cases h
  | sign data => cases h

theorem mem_run {steps : List Step} {result : Result Reply} (h : result ∈ s.run steps) :
    ∃ earlier step later, steps = earlier ++ step :: later ∧
      result = step.run (s.afterAll earlier) := by
  induction steps generalizing s with
  | nil => cases h
  | cons step steps ih =>
    rcases List.mem_cons.1 h with rfl | hrest
    · exact ⟨[], step, steps, rfl, rfl⟩
    · obtain ⟨earlier, later, rest, rfl, rfl⟩ := ih hrest
      exact ⟨step :: earlier, later, rest, rfl, rfl⟩

/-- The key that a poll is started with is the public half of the key that it holds until it is
ended. -/
theorem announced_of_held {earlier later : List Step} {id : String} {key : Artifact}
    (hstart : ((s.afterAll earlier).start id).answer = .ok key)
    (hlater : ∀ step ∈ later, ¬ step.Ends id) :
    ∃ secret, (s.afterAll (earlier ++ .start id :: later)).polls.get? id = some secret ∧
      key.payload = secret.publicKey.toList := by
  obtain ⟨secret, hheld, rfl⟩ := exists_held hstart
  refine ⟨secret, ?_, rfl⟩
  rw [afterAll_append, afterAll_cons, after_run_start]
  exact get?_afterAll_of_held hheld hlater

/-- **What a service signs is authentic.** In every run all artifacts are signed by the main key,
which no step changes; they verify under this key and under its encoding, if strict verification
accepts what the key signs. An active poll was started and not ended since, and the key that this
start announced is the public half of the key that the poll holds. -/
theorem artifacts_authentic (mainKey : MainKey) (options : Batch.Options) (cores : Nat)
    (random : RandomSource) (steps : List Step) :
    let fresh := new mainKey options cores random
    (∀ result ∈ fresh.run steps, result.after.publicKey = mainKey.publicKey ∧
      ∀ artifact, result.answer = .artifact (.ok artifact) →
        artifact.signature = mainKey.sign artifact.payload ∧
        (mainKey.StrictAccepts artifact.payload →
          artifact.verify mainKey.publicKey = true ∧
          verify mainKey.publicKey.encoded.toList artifact.payload artifact.signature.toList =
            true)) ∧
    ∀ id, (fresh.afterAll steps).isActive id = true →
      (∃ earlier later, steps = earlier ++ .start id :: later ∧ (fresh.afterAll earlier).Starts id ∧
        ∀ step ∈ later, ¬ step.Ends id) ∧
      ∀ earlier later key, steps = earlier ++ .start id :: later →
        ((fresh.afterAll earlier).start id).answer = .ok key → (∀ step ∈ later, ¬ step.Ends id) →
        ∃ secret, (fresh.afterAll steps).polls.get? id = some secret ∧
          key.payload = secret.publicKey.toList := by
  intro fresh
  refine ⟨fun result hresult => ?_, fun id hactive => ⟨?_, ?_⟩⟩
  · obtain ⟨earlier, step, later, -, rfl⟩ := mem_run hresult
    have hkey : (fresh.afterAll earlier).mainKey = mainKey := mainKey_afterAll fresh earlier
    refine ⟨?_, fun artifact hanswer => ?_⟩
    · rw [publicKey, mainKey_run, hkey]
    · have hsigned := signature_of_run hanswer
      rw [hkey] at hsigned
      refine ⟨hsigned, fun haccepts => ⟨?_, ?_⟩⟩
      · rw [Artifact.verify, hsigned]
        exact haccepts
      · rw [MainKey.verify_encoded, hsigned]
        exact haccepts
  · rcases isActive_afterAll_iff.1 hactive with ⟨hfresh, -⟩ | hstarted
    · cases hfresh
    · exact hstarted
  · rintro earlier later key rfl hstart hlater
    exact announced_of_held hstart hlater

/-- A poll that is started a second time in vain, while another one is stopped. -/
theorem announced_key_authentic :
    let mainKey := MainKey.ofOctets (Octets.zero 32)
    let fresh := new mainKey ⟨3, 0⟩ 4 ⟨(List.range 96).map UInt8.ofNat⟩
    let later : List Step := [.start "mayor", .stop "budget" []]
    ∃ key secret, ((fresh.afterAll [.start "budget"]).start "mayor").answer = .ok key ∧
      (fresh.afterAll ([.start "budget"] ++ .start "mayor" :: later)).polls.get? "mayor" =
        some secret ∧
      key.payload = secret.publicKey.toList ∧ key.verify mainKey.publicKey = true ∧
      verify mainKey.publicKey.encoded.toList key.payload key.signature.toList = true := by
  intro mainKey fresh later
  let mayor : PollKey := ⟨⟨(List.range' 32 32).map UInt8.ofNat, rfl⟩⟩
  have hpoll : (fresh.afterAll ([.start "budget"] ++ .start "mayor" :: later)).polls.get? "mayor" =
      some mayor := by
    decide +kernel
  have haccepts : mainKey.StrictAccepts mayor.publicKey.toList := by decide +kernel
  obtain ⟨key, hstart⟩ : (fresh.afterAll [.start "budget"]).Starts "mayor" :=
    starts_iff.2 (by decide +kernel)
  obtain ⟨hsigned, hpolls⟩ := artifacts_authentic mainKey ⟨3, 0⟩ 4
    ⟨(List.range 96).map UInt8.ofNat⟩ ([.start "budget"] ++ .start "mayor" :: later)
  obtain ⟨-, hannounced⟩ := hpolls "mayor" (isActive_of_held hpoll)
  obtain ⟨secret, hheld, hpayload⟩ := hannounced [.start "budget"] later key rfl hstart
    (by simp [later, Step.Ends])
  obtain rfl : mayor = secret := Option.some.inj (hpoll.symm.trans hheld)
  obtain ⟨-, hartifact⟩ := hsigned _ (.tail _ (.head _))
  obtain ⟨-, hverifies⟩ := hartifact key (congrArg Reply.artifact hstart)
  obtain ⟨hverify, hraw⟩ := hverifies (hpayload ▸ haccepts)
  exact ⟨key, mayor, hstart, hpoll, hpayload, hverify, hraw⟩

end SealedPoll.Service
