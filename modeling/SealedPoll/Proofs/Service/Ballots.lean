import SealedPoll.Proofs.Service.History

/-!
# From ballots to the result

A ballot is a text that a voter seals for the key of a poll with random bytes of their own
(`Ballot.cast`). Sealed for the key that a poll was started with, ballots open with the key that the
poll holds (`opens_of_cast`), whatever happened to other polls in between: `stop_returns_ballots`.
-/

namespace SealedPoll

/-- A text, and the random bytes to seal it with. -/
structure Ballot where
  source : RandomSource
  text : Bytes

/-- The vote that a ballot makes for the holder of a public key. -/
def Ballot.cast (ballot : Ballot) (key : Bytes) : Except Error Bytes :=
  (Vote.encrypt ballot.source key ballot.text).1

/-- The ephemeral key that the ballot is sealed with agrees with a poll's key. -/
def Ballot.Agrees (ballot : Ballot) (secret : PollKey) : Prop :=
  ∀ ephemeral, (PollKey.draw ballot.source).1 = .ok ephemeral → PollKey.Agrees secret ephemeral

theorem Ballot.agrees_of_draw {ballot : Ballot} {secret : PollKey} (ephemeral : PollKey)
    (hdraw : (PollKey.draw ballot.source).1 = .ok ephemeral)
    (hagree : PollKey.Agrees secret ephemeral) : ballot.Agrees secret := by
  intro other hother
  rw [hdraw] at hother
  cases hother
  exact hagree

namespace Service

/-- Ballots that can all be cast make votes. -/
theorem exists_votes {ballots : List Ballot} {key : Bytes}
    (h : ∀ ballot ∈ ballots, (ballot.cast key).toBool = true) :
    ∃ votes : List Bytes, ballots.map (·.cast key) = votes.map .ok := by
  induction ballots with
  | nil => exact ⟨[], rfl⟩
  | cons ballot ballots ih =>
    obtain ⟨votes, hvotes⟩ := ih fun b hb => h b (by simp [hb])
    cases hcast : ballot.cast key with
    | error e =>
      have hok := h ballot (by simp)
      rw [hcast] at hok
      cases hok
    | ok vote => exact ⟨vote :: votes, by simp [hcast, hvotes]⟩

theorem opens_of_cast {secret : PollKey} {ballots : List Ballot} {votes : List Bytes}
    (hvotes : ballots.map (·.cast secret.publicKey.toList) = votes.map .ok)
    (hagree : ∀ ballot ∈ ballots, ballot.Agrees secret) :
    Batch.Opens secret votes (ballots.map Ballot.text) := by
  induction ballots generalizing votes with
  | nil =>
    obtain rfl : votes = [] := by simpa using hvotes
    rfl
  | cons ballot ballots ih =>
    cases votes with
    | nil => simp at hvotes
    | cons vote votes =>
      simp only [List.map_cons, List.cons.injEq] at hvotes
      have hvote := Vote.decrypt_of_encrypt (hagree ballot (by simp)) hvotes.1
      have hrest := ih hvotes.2 fun b hb => hagree b (by simp [hb])
      simp only [Batch.Opens, Batch.outcomes, List.map_cons, hvote] at hrest ⊢
      rw [hrest]

/-- A poll that holds the key of all votes is stopped with their texts as the answer. -/
theorem stop_of_opens {s : Service} {id : String} {secret : PollKey} {votes texts : List Bytes}
    (hheld : s.polls.get? id = some secret) (hopens : Batch.Opens secret votes texts)
    (hshort : ∀ text ∈ texts, text.length < Frame.itemBound) :
    ∃ result, (s.stop id votes).answer = .ok result ∧ result.plaintexts = .ok texts ∧
      result.signature = s.mainKey.sign result.payload ∧ (s.stop id votes).after.isActive id = false := by
  rw [stop_of_held hheld, tally_of_opens hopens hshort]
  refine ⟨_, rfl, Frame.decode_flatMap_item hshort, rfl, ?_⟩
  rw [isActive_eq_false_iff]
  exact Registry.get?_erase_self _ id

/-- **A poll returns its ballots.** A poll is started and, without being stopped or cleared in
between, stopped with votes that were sealed for the key it was started with: the answer is the signed
list of the texts, in order, and the poll is no longer active. -/
theorem stop_returns_ballots (mainKey : MainKey) (options : Batch.Options) (cores : Nat)
    (random : RandomSource) (earlier later : List Step) (id : String) (key : Artifact)
    (ballots : List Ballot) (votes : List Bytes)
    (hstart : (((new mainKey options cores random).afterAll earlier).start id).answer = .ok key)
    (hlater : ∀ step ∈ later, ¬ step.Ends id)
    (hshort : ∀ ballot ∈ ballots, ballot.text.length < Frame.itemBound)
    (hvotes : ballots.map (·.cast key.payload) = votes.map .ok)
    (hagree : ∀ secret,
      (((new mainKey options cores random).afterAll earlier).start id).after.polls.get? id =
        some secret → ∀ ballot ∈ ballots, ballot.Agrees secret) :
    let stopped := ((new mainKey options cores random).afterAll
      (earlier ++ .start id :: later)).stop id votes
    ∃ result, stopped.answer = .ok result ∧ result.plaintexts = .ok (ballots.map Ballot.text) ∧
      result.signature = mainKey.sign result.payload ∧ stopped.after.isActive id = false := by
  obtain ⟨secret, hheld, rfl⟩ := exists_held hstart
  have hopens := opens_of_cast hvotes (hagree secret hheld)
  have hfit : ∀ text ∈ ballots.map Ballot.text, text.length < Frame.itemBound := by
    simpa using hshort
  have hrun : (new mainKey options cores random).afterAll (earlier ++ .start id :: later) =
      (((new mainKey options cores random).afterAll earlier).start id).after.afterAll later :=
    afterAll_append _ earlier (.start id :: later)
  -- the key of the start is still held when the poll is stopped
  have hlast := get?_afterAll_of_held hheld hlater
  rw [← hrun] at hlast
  have hstopped := stop_of_opens hlast hopens hfit
  rwa [mainKey_afterAll] at hstopped

/-- Two voters of a poll whose key is the second block of the script; a poll before it fails to stop,
and another one lives while it does. -/
theorem two_ballots_returned :
    let random : RandomSource := ⟨(List.range 96).map UInt8.ofNat⟩
    let earlier : List Step := [.start "budget", .stop "budget" [[]]]
    let later : List Step := [.start "mayor", .start "budget", .isActive "mayor", .stop "budget" []]
    let ballots : List Ballot :=
      [⟨⟨List.replicate 44 2⟩, [121, 101, 115]⟩, ⟨⟨List.replicate 50 3⟩, []⟩]
    let fresh := new (.ofOctets (Octets.zero 32)) ⟨3, 0⟩ 4 random
    ∃ key votes result, ((fresh.afterAll earlier).start "mayor").answer = .ok key ∧
      ballots.map (·.cast key.payload) = votes.map .ok ∧
      ((fresh.afterAll (earlier ++ .start "mayor" :: later)).stop "mayor" votes).answer = .ok result ∧
      result.plaintexts = .ok [[121, 101, 115], []] := by
  intro random earlier later ballots fresh
  let mayor : PollKey := ⟨⟨(List.range' 32 32).map UInt8.ofNat, rfl⟩⟩
  have hpoll : ((fresh.afterAll earlier).start "mayor").after.polls.get? "mayor" = some mayor := by
    decide +kernel
  obtain ⟨key, hstart⟩ : (fresh.afterAll earlier).Starts "mayor" := starts_iff.2 (by decide +kernel)
  obtain ⟨secret, hheld, rfl⟩ := exists_held hstart
  obtain rfl : mayor = secret := Option.some.inj (hpoll.symm.trans hheld)
  have hcast : ∀ ballot ∈ ballots, (ballot.cast mayor.publicKey.toList).toBool = true := by
    decide +kernel
  obtain ⟨votes, hvotes⟩ := exists_votes hcast
  have hagree : ∀ ballot ∈ ballots, ballot.Agrees mayor := by
    intro ballot hballot
    simp only [ballots, List.mem_cons, List.not_mem_nil, or_false] at hballot
    rcases hballot with rfl | rfl
    · exact Ballot.agrees_of_draw ⟨⟨List.replicate 32 2, rfl⟩⟩ rfl (by decide +kernel)
    · exact Ballot.agrees_of_draw ⟨⟨List.replicate 32 3, rfl⟩⟩ rfl (by decide +kernel)
  obtain ⟨result, hanswer, htexts, -⟩ := stop_returns_ballots (.ofOctets (Octets.zero 32)) ⟨3, 0⟩ 4
    random earlier later "mayor" _ ballots votes hstart (by simp [later, Step.Ends])
    (by simp [ballots, Frame.itemBound]) hvotes fun other hother => by
      obtain rfl : mayor = other := Option.some.inj (hpoll.symm.trans hother)
      exact hagree
  exact ⟨_, votes, result, hstart, hvotes, hanswer, htexts⟩

end Service

end SealedPoll
