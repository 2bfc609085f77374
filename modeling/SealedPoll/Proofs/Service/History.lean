import SealedPoll.Proofs.Service
import SealedPoll.Service.Program

/-!
# The history of a poll service

What a step can do is said once (`run_step_cases`): a start that succeeds draws a key and makes its
poll active, and any other step draws nothing and at most ends a poll.

* `Step.Ends` : the steps that end a poll;
* `Starts` : when a start succeeds (`starts_iff`);
* `births` : the polls that a run starts, in order;
* `get?_afterAll_of_held` : a poll keeps its key until it is ended;
* `isActive_afterAll_iff` : the active polls of a service, read off its history.
-/

namespace SealedPoll.Service

/-- The step ends a poll, however it is answered. -/
def Step.Ends (id : String) : Step → Prop
  | stop other _ => other = id
  | clear other => other = id
  | start _ | isActive _ | publicKey | sign _ => False

/-- A start of the poll succeeds. -/
def Starts (s : Service) (id : String) : Prop := ∃ artifact, (s.start id).answer = .ok artifact

/-- The polls that a step starts: its own if it is a start that succeeds. -/
def Step.births (s : Service) : Step → List String
  | start id =>
    match (s.start id).answer with
    | .ok _ => [id]
    | .error _ => []
  | stop _ _ | clear _ | isActive _ | publicKey | sign _ => []

/-- The polls that a run starts, in order. -/
def births (s : Service) : List Step → List String
  | [] => []
  | step :: steps => step.births s ++ births (step.run s).after steps

variable {s : Service} {id : String}

/-! ## One step -/

theorem starts_iff : s.Starts id ↔ s.isActive id = false ∧ 32 ≤ s.random.size := by
  constructor
  · rintro ⟨artifact, h⟩
    cases hactive : s.isActive id with
    | true =>
      rw [start_of_active hactive] at h
      cases h
    | false =>
      refine ⟨rfl, Nat.not_lt.1 fun hrandom => ?_⟩
      rw [start_of_exhausted hactive hrandom] at h
      cases h
  · rintro ⟨hactive, hrandom⟩
    obtain ⟨secret, -, hdraw⟩ := PollKey.draw_of_le hrandom
    exact ⟨s.signedKey secret, by rw [start_of_draw hactive hdraw]⟩

/-- What a start that succeeds does. -/
theorem exists_start (h : s.Starts id) :
    ∃ secret : PollKey, secret.bytes.toList = s.random.bytes.take 32 ∧
      s.start id = ⟨.ok (s.signedKey secret), [.started id],
        { s with polls := s.polls.insertNew id secret, random := ⟨s.random.bytes.drop 32⟩ }⟩ := by
  obtain ⟨hactive, hrandom⟩ := starts_iff.1 h
  obtain ⟨secret, hsecret, hdraw⟩ := PollKey.draw_of_le hrandom
  exact ⟨secret, hsecret, start_of_draw hactive hdraw⟩

/-- The poll that a start answers for holds the key whose public half it answers with. -/
theorem exists_held {key : Artifact} (h : (s.start id).answer = .ok key) :
    ∃ secret, (s.start id).after.polls.get? id = some secret ∧ key = s.signedKey secret := by
  obtain ⟨secret, -, hstart⟩ := exists_start ⟨key, h⟩
  rw [hstart] at h ⊢
  refine ⟨secret, ?_, (Except.ok.inj h).symm⟩
  exact Registry.get?_insertNew_self (starts_iff.1 ⟨key, by rw [hstart, h]⟩).1 secret

theorem start_of_not_starts (h : ¬ s.Starts id) :
    ∃ e, s.start id = ⟨.error e, [], s⟩ := by
  cases hactive : s.isActive id with
  | true => exact ⟨_, start_of_active hactive⟩
  | false =>
    refine ⟨_, start_of_exhausted hactive (Nat.not_le.1 fun hrandom => ?_)⟩
    exact h (starts_iff.2 ⟨hactive, hrandom⟩)

theorem start_fails_iff :
    (∃ e, (s.start id).answer = .error e) ↔ s.isActive id = true ∨ s.random.size < 32 := by
  have hstarts : (∃ e, (s.start id).answer = .error e) ↔ ¬ s.Starts id := by
    constructor
    · rintro ⟨e, he⟩ ⟨artifact, h⟩
      rw [he] at h
      cases h
    · intro h
      obtain ⟨e, hstart⟩ := start_of_not_starts h
      exact ⟨e, by rw [hstart]⟩
  rw [hstarts, starts_iff]
  cases s.isActive id <;> simp

theorem after_run_start (s : Service) (id : String) :
    ((Step.start id).run s).after = (s.start id).after := rfl

theorem after_run_stop (s : Service) (id : String) (votes : List Bytes) :
    ((Step.stop id votes).run s).after = (s.stop id votes).after := rfl

theorem births_start (h : s.Starts id) : (Step.start id).births s = [id] := by
  obtain ⟨artifact, h⟩ := h
  simp only [Step.births, h]

/-- A step that starts no poll draws nothing, and no poll but those it ends is touched. -/
structure Step.Idle (s : Service) (step : Step) : Prop where
  births : step.births s = []
  after : (step.run s).after = { s with polls := (step.run s).after.polls }
  ended : ∀ id, step.Ends id → (step.run s).after.polls.get? id = none
  kept : ∀ id, ¬ step.Ends id → (step.run s).after.polls.get? id = s.polls.get? id

theorem Step.Idle.of_unchanged {step : Step} (hbirths : step.births s = [])
    (hends : ∀ id, ¬ step.Ends id) (hafter : (step.run s).after = s) : step.Idle s := by
  refine ⟨hbirths, ?_, fun id h => absurd h (hends id), fun id _ => ?_⟩
  · rw [hafter]
  · rw [hafter]

theorem idle_stop (s : Service) (id : String) (votes : List Bytes) :
    (Step.stop id votes).Idle s := by
  cases hheld : s.polls.get? id with
  | none =>
    have hstop := stop_of_inactive (isActive_eq_false_iff.2 hheld) votes
    refine ⟨rfl, ?_, ?_, ?_⟩
    · rw [after_run_stop, hstop]
    · rintro _ rfl
      rw [after_run_stop, hstop, hheld]
    · intro other _
      rw [after_run_stop, hstop]
  | some secret =>
    have hstop := stop_of_held hheld votes
    refine ⟨rfl, ?_, ?_, ?_⟩
    · rw [after_run_stop, hstop]
    · rintro _ rfl
      rw [after_run_stop, hstop]
      exact Registry.get?_erase_self s.polls _
    · intro other hother
      have hne : ¬ other = id := fun h => hother h.symm
      rw [after_run_stop, hstop]
      exact (Registry.get?_erase s.polls id other).trans (if_neg hne)

theorem idle_clear (s : Service) (id : String) : (Step.clear id).Idle s := by
  refine ⟨rfl, rfl, ?_, ?_⟩
  · rintro _ rfl
    exact Registry.get?_erase_self s.polls _
  · intro other hother
    have hne : ¬ other = id := fun h => hother h.symm
    exact (Registry.get?_erase s.polls id other).trans (if_neg hne)

theorem idle_start (h : ¬ s.Starts id) : (Step.start id).Idle s := by
  obtain ⟨e, hstart⟩ := start_of_not_starts h
  apply Step.Idle.of_unchanged
  · simp only [Step.births, hstart]
  · exact fun _ hends => hends
  · rw [after_run_start, hstart]

/-- **What a step can do.** -/
theorem run_step_cases (s : Service) (step : Step) :
    (∃ id, step = .start id ∧ s.Starts id) ∨ step.Idle s := by
  cases step with
  | start id =>
    by_cases h : s.Starts id
    · exact Or.inl ⟨id, rfl, h⟩
    · exact Or.inr (idle_start h)
  | stop id votes => exact Or.inr (idle_stop s id votes)
  | clear id => exact Or.inr (idle_clear s id)
  | isActive id => exact Or.inr (.of_unchanged rfl (fun _ hends => hends) rfl)
  | publicKey => exact Or.inr (.of_unchanged rfl (fun _ hends => hends) rfl)
  | sign data => exact Or.inr (.of_unchanged rfl (fun _ hends => hends) rfl)

theorem get?_run_of_held {secret : PollKey} (h : s.polls.get? id = some secret) {step : Step}
    (hstep : ¬ step.Ends id) : (step.run s).after.polls.get? id = some secret := by
  rcases run_step_cases s step with ⟨other, rfl, hother⟩ | hidle
  · obtain ⟨fresh, -, hstart⟩ := exists_start hother
    have hinactive := (starts_iff.1 hother).1
    -- a poll that holds a key is not started again
    have hne : ¬ id = other := by
      rintro rfl
      rw [isActive_of_held h] at hinactive
      cases hinactive
    rw [after_run_start, hstart]
    show (s.polls.insertNew other fresh).get? id = some secret
    rw [Registry.get?_insertNew hinactive, if_neg hne, h]
  · rw [hidle.kept id hstep, h]

theorem isActive_run_iff {step : Step} :
    (step.run s).after.isActive id = true ↔
      (step = .start id ∧ s.Starts id) ∨ (s.isActive id = true ∧ ¬ step.Ends id) := by
  rcases run_step_cases s step with ⟨other, rfl, hother⟩ | hidle
  · obtain ⟨fresh, -, hstart⟩ := exists_start hother
    have hget := Registry.get?_insertNew (starts_iff.1 hother).1 fresh id
    rw [after_run_start, hstart]
    simp only [isActive, Registry.contains, hget]
    by_cases hid : id = other
    · subst hid
      simp [hother]
    · simp [hid, Ne.symm hid, Step.Ends]
  · have hstart : ¬ (step = .start id ∧ s.Starts id) := by
      rintro ⟨rfl, h⟩
      have hbirths := hidle.births
      rw [births_start h] at hbirths
      cases hbirths
    by_cases hends : step.Ends id
    · simp [hstart, hends, isActive, Registry.contains, hidle.ended id hends]
    · simp [hstart, hends, isActive, Registry.contains, hidle.kept id hends]

/-! ## Runs -/

@[simp] theorem afterAll_nil (s : Service) : s.afterAll [] = s := rfl

@[simp] theorem afterAll_cons (s : Service) (step : Step) (steps : List Step) :
    s.afterAll (step :: steps) = (step.run s).after.afterAll steps := rfl

theorem afterAll_append (s : Service) (steps more : List Step) :
    s.afterAll (steps ++ more) = (s.afterAll steps).afterAll more :=
  List.foldl_append

theorem births_append (s : Service) (steps more : List Step) :
    s.births (steps ++ more) = s.births steps ++ (s.afterAll steps).births more := by
  induction steps generalizing s with
  | nil => rfl
  | cons step steps ih => simp [births, ih]

theorem mainKey_run (s : Service) (step : Step) : (step.run s).after.mainKey = s.mainKey := by
  rcases run_step_cases s step with ⟨id, rfl, h⟩ | hidle
  · obtain ⟨secret, -, hstart⟩ := exists_start h
    rw [after_run_start, hstart]
  · rw [hidle.after]

@[simp] theorem mainKey_afterAll (s : Service) (steps : List Step) :
    (s.afterAll steps).mainKey = s.mainKey := by
  induction steps generalizing s with
  | nil => rfl
  | cons step steps ih => rw [afterAll_cons, ih, mainKey_run]

theorem get?_afterAll_of_held {secret : PollKey} {steps : List Step}
    (h : s.polls.get? id = some secret) (hsteps : ∀ step ∈ steps, ¬ step.Ends id) :
    (s.afterAll steps).polls.get? id = some secret := by
  induction steps generalizing s with
  | nil => exact h
  | cons step steps ih =>
    exact ih (get?_run_of_held h (hsteps step (by simp))) fun x hx => hsteps x (by simp [hx])

/-- A poll is active after a run if it was before and no step ended it, or if a start of it succeeded
and no later step ended it. -/
theorem isActive_afterAll_iff {steps : List Step} :
    (s.afterAll steps).isActive id = true ↔
      (s.isActive id = true ∧ ∀ step ∈ steps, ¬ step.Ends id) ∨
      ∃ earlier later, steps = earlier ++ .start id :: later ∧ (s.afterAll earlier).Starts id ∧
        ∀ step ∈ later, ¬ step.Ends id := by
  induction steps generalizing s with
  | nil =>
    rw [afterAll_nil]
    simp
  | cons first steps ih =>
    rw [afterAll_cons, ih, isActive_run_iff]
    constructor
    · rintro (⟨⟨rfl, hstarts⟩ | ⟨hactive, hfirst⟩, hsteps⟩ | ⟨earlier, later, rfl, hstarts, hlater⟩)
      · exact Or.inr ⟨[], steps, rfl, hstarts, hsteps⟩
      · exact Or.inl ⟨hactive, by simpa using ⟨hfirst, hsteps⟩⟩
      · exact Or.inr ⟨first :: earlier, later, rfl, hstarts, hlater⟩
    · rintro (⟨hactive, hsteps⟩ | ⟨earlier, later, hsplit, hstarts, hlater⟩)
      · refine Or.inl ⟨Or.inr ⟨hactive, hsteps first (by simp)⟩, ?_⟩
        exact fun x hx => hsteps x (by simp [hx])
      · -- the start that decides is the first step or a later one
        cases earlier with
        | nil =>
          obtain ⟨rfl, rfl⟩ := List.cons.inj hsplit
          exact Or.inl ⟨Or.inl ⟨rfl, hstarts⟩, hlater⟩
        | cons step earlier =>
          obtain ⟨rfl, rfl⟩ := List.cons.inj hsplit
          exact Or.inr ⟨earlier, later, rfl, hstarts, hlater⟩

end SealedPoll.Service
