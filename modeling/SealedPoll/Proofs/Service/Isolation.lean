import SealedPoll.Proofs.Service.History

/-!
# Polls do not influence each other

A run seen from one poll: what is asked about it (`asked`), what the random source hands those
requests (`handed`), and what they are answered and log (`answered`).

* `Alike` : two services with one main key in which the poll holds the same key, or none;
* `alike_run_of_other` : a request about something else leaves a service alike;
* `Alike.run` : a request about the poll ends alike (`EndAlike`) in services that are alike, if both
  are handed the same;
* `Alike.afterAll` : the same for runs whose requests about the poll are the same;
* `polls_isolated` : two runs of new services, whatever else they contain.
-/

namespace SealedPoll.Service

/-- The request is about the poll. -/
def Step.isAbout (id : String) (step : Step) : Bool := step.poll? = some id

/-- The requests about a poll, in order. -/
def asked (id : String) (steps : List Step) : List Step := steps.filter (Step.isAbout id)

/-- What the requests about a poll are answered and log, in order. -/
def answered (s : Service) (id : String) (steps : List Step) : List (Reply × List LogEvent) :=
  ((steps.zip (s.run steps)).filter fun x => x.1.isAbout id).map fun x => (x.2.answer, x.2.log)

/-- What the random source hands a request: a key, or a refusal, to the start of a poll that is not
active, and nothing to any other request. -/
def Step.handed? (s : Service) : Step → Option (Except Error PollKey)
  | start id => if s.isActive id then none else some (PollKey.draw s.random).1
  | stop _ _ | clear _ | isActive _ | publicKey | sign _ => none

/-- What the random source hands each of the requests about a poll. -/
def handed (s : Service) (id : String) : List Step → List (Option (Except Error PollKey))
  | [] => []
  | step :: steps =>
    let rest := handed (step.run s).after id steps
    if step.isAbout id then step.handed? s :: rest else rest

/-- Requests at the same place that are both handed something are handed the same. -/
def SameHands (xs ys : List (Option (Except Error PollKey))) : Prop :=
  ∀ (i : Nat) (a b : Except Error PollKey), xs[i]? = some (some a) → ys[i]? = some (some b) → a = b

/-- Two services with one main key in which a poll holds the same key, or none. -/
structure Alike (id : String) (s t : Service) : Prop where
  mainKey : s.mainKey = t.mainKey
  held : s.polls.get? id = t.polls.get? id

/-- Two requests are answered alike, with the same log, and leave services behind that are alike. -/
def EndAlike {α : Type} (id : String) (r r' : Result α) : Prop :=
  r.answer = r'.answer ∧ r.log = r'.log ∧ Alike id r.after r'.after

variable {s t : Service} {id : String} {step : Step}

theorem Alike.trans {u : Service} (h : Alike id s t) (h' : Alike id t u) : Alike id s u :=
  ⟨h.mainKey.trans h'.mainKey, h.held.trans h'.held⟩

theorem Alike.symm (h : Alike id s t) : Alike id t s := ⟨h.mainKey.symm, h.held.symm⟩

theorem Alike.isActive_eq (h : Alike id s t) : s.isActive id = t.isActive id := by
  rw [isActive, isActive, Registry.contains, Registry.contains, h.held]

theorem SameHands.head {a b : Option (Except Error PollKey)}
    {xs ys : List (Option (Except Error PollKey))} (h : SameHands (a :: xs) (b :: ys)) :
    ∀ x ∈ a, ∀ y ∈ b, x = y := by
  rintro x rfl y rfl
  exact h 0 x y rfl rfl

theorem SameHands.tail {a b : Option (Except Error PollKey)}
    {xs ys : List (Option (Except Error PollKey))} (h : SameHands (a :: xs) (b :: ys)) :
    SameHands xs ys := fun i x y hx hy => h (i + 1) x y hx hy

/-! ## One request -/

theorem not_ends_of_not_about (h : step.isAbout id = false) : ¬ step.Ends id := by
  cases step <;> simp_all [Step.isAbout, Step.poll?, Step.Ends]

theorem alike_run_of_other (h : step.isAbout id = false) : Alike id (step.run s).after s := by
  refine ⟨mainKey_run s step, ?_⟩
  rcases run_step_cases s step with ⟨other, rfl, hother⟩ | hidle
  · obtain ⟨fresh, -, hstart⟩ := exists_start hother
    have hne : ¬ id = other := by
      rintro rfl
      simp [Step.isAbout, Step.poll?] at h
    rw [after_run_start, hstart]
    exact (Registry.get?_insertNew (starts_iff.1 hother).1 fresh id).trans (if_neg hne)
  · exact hidle.kept id (not_ends_of_not_about h)

/-- What the random source hands out decides how a poll that is not active is started. -/
theorem start_of_refused (h : s.isActive id = false) {e : Error}
    (hdraw : (PollKey.draw s.random).1 = .error e) : s.start id = ⟨.error e, [], s⟩ := by
  by_cases hrandom : s.random.size < 32
  · rw [PollKey.draw_of_lt hrandom] at hdraw
    rw [start_of_exhausted h hrandom, Except.error.inj hdraw]
  · obtain ⟨secret, -, hdrawn⟩ := PollKey.draw_of_le (Nat.not_lt.1 hrandom)
    rw [hdrawn] at hdraw
    cases hdraw

theorem start_of_handed (h : s.isActive id = false) {secret : PollKey}
    (hdraw : (PollKey.draw s.random).1 = .ok secret) :
    s.start id = ⟨.ok (s.signedKey secret), [.started id],
      { s with polls := s.polls.insertNew id secret, random := (PollKey.draw s.random).2 }⟩ :=
  start_of_draw h (Prod.ext hdraw rfl)

theorem Alike.start (h : Alike id s t)
    (hhanded : ∀ a ∈ (Step.start id).handed? s, ∀ b ∈ (Step.start id).handed? t, a = b) :
    EndAlike id (s.start id) (t.start id) := by
  cases hactive : s.isActive id with
  | true =>
    have hactive' : t.isActive id = true := h.isActive_eq ▸ hactive
    rw [start_of_active hactive, start_of_active hactive']
    exact ⟨rfl, rfl, h⟩
  | false =>
    have hactive' : t.isActive id = false := h.isActive_eq ▸ hactive
    have hdraws : (PollKey.draw s.random).1 = (PollKey.draw t.random).1 := by
      apply hhanded <;> simp [Step.handed?, hactive, hactive']
    cases hdraw : (PollKey.draw s.random).1 with
    | error e =>
      rw [start_of_refused hactive hdraw, start_of_refused hactive' (hdraws ▸ hdraw)]
      exact ⟨rfl, rfl, h⟩
    | ok secret =>
      rw [start_of_handed hactive hdraw, start_of_handed hactive' (hdraws ▸ hdraw)]
      refine ⟨?_, rfl, h.mainKey, ?_⟩
      · simp only [signedKey, h.mainKey]
      · exact (Registry.get?_insertNew_self hactive secret).trans
          (Registry.get?_insertNew_self hactive' secret).symm

theorem Alike.stop (h : Alike id s t) (votes : List Bytes) :
    EndAlike id (s.stop id votes) (t.stop id votes) := by
  cases hheld : s.polls.get? id with
  | none =>
    have hheld' : t.polls.get? id = none := h.held ▸ hheld
    rw [stop_of_inactive (isActive_eq_false_iff.2 hheld),
      stop_of_inactive (isActive_eq_false_iff.2 hheld')]
    exact ⟨rfl, rfl, h⟩
  | some secret =>
    have hheld' : t.polls.get? id = some secret := h.held ▸ hheld
    rw [stop_of_held hheld, stop_of_held hheld', h.mainKey]
    refine ⟨rfl, rfl, rfl, ?_⟩
    exact (Registry.get?_erase_self _ id).trans (Registry.get?_erase_self _ id).symm

theorem Alike.clear (h : Alike id s t) : EndAlike id (s.clear id) (t.clear id) := by
  have hfound : s.polls.contains id = t.polls.contains id := h.isActive_eq
  refine ⟨rfl, ?_, h.mainKey, ?_⟩
  · exact congrArg (fun found : Bool => if found then [LogEvent.cleared id] else []) hfound
  · exact (Registry.get?_erase_self _ id).trans (Registry.get?_erase_self _ id).symm

/-- A request about the poll ends alike in services that are alike. -/
theorem Alike.run (h : Alike id s t) (habout : step.isAbout id = true)
    (hhanded : ∀ a ∈ step.handed? s, ∀ b ∈ step.handed? t, a = b) :
    EndAlike id (step.run s) (step.run t) := by
  cases step with
  | start other =>
    obtain rfl : other = id := by simpa [Step.isAbout, Step.poll?] using habout
    obtain ⟨hanswer, hlog, hafter⟩ := h.start hhanded
    exact ⟨congrArg Reply.artifact hanswer, hlog, hafter⟩
  | stop other votes =>
    obtain rfl : other = id := by simpa [Step.isAbout, Step.poll?] using habout
    obtain ⟨hanswer, hlog, hafter⟩ := h.stop votes
    exact ⟨congrArg Reply.artifact hanswer, hlog, hafter⟩
  | clear other =>
    obtain rfl : other = id := by simpa [Step.isAbout, Step.poll?] using habout
    obtain ⟨-, hlog, hafter⟩ := h.clear
    exact ⟨rfl, hlog, hafter⟩
  | isActive other =>
    obtain rfl : other = id := by simpa [Step.isAbout, Step.poll?] using habout
    exact ⟨congrArg Reply.active h.isActive_eq, rfl, h⟩
  | publicKey => cases habout
  | sign data => cases habout

/-! ## Runs -/

/-- Requests about something else come first. -/
theorem alike_afterAll_of_others {earlier : List Step}
    (h : ∀ step ∈ earlier, step.isAbout id = false) (steps : List Step) :
    Alike id (s.afterAll earlier) s ∧
      handed s id (earlier ++ steps) = handed (s.afterAll earlier) id steps ∧
      answered s id (earlier ++ steps) = answered (s.afterAll earlier) id steps := by
  induction earlier generalizing s with
  | nil => exact ⟨⟨rfl, rfl⟩, rfl, rfl⟩
  | cons first earlier ih =>
    have hfirst : first.isAbout id = false := h first (by simp)
    obtain ⟨halike, hhanded, hanswered⟩ :=
      ih (s := (first.run s).after) fun step hstep => h step (by simp [hstep])
    refine ⟨halike.trans (alike_run_of_other hfirst), ?_, ?_⟩
    · rw [List.cons_append, handed, hfirst]
      exact hhanded
    · simp only [answered, List.cons_append, run, List.zip_cons_cons, List.filter_cons, hfirst]
      exact hanswered

theorem handed_cons_of_about (s : Service) (h : step.isAbout id = true) (steps : List Step) :
    handed s id (step :: steps) = step.handed? s :: handed (step.run s).after id steps := by
  rw [handed, h]
  rfl

theorem answered_cons_of_about (s : Service) (h : step.isAbout id = true) (steps : List Step) :
    answered s id (step :: steps) =
      ((step.run s).answer, (step.run s).log) :: answered (step.run s).after id steps := by
  simp only [answered, run, List.zip_cons_cons, List.filter_cons, h, if_true, List.map_cons]

/-- A run with a first request about the poll is the run up to it, the request, and a run after it. -/
theorem exists_of_asked_cons {steps mine : List Step} (h : asked id steps = step :: mine) :
    step.isAbout id = true ∧ ∃ earlier later, steps = earlier ++ step :: later ∧
      asked id later = mine ∧ ∀ s : Service, Alike id (s.afterAll earlier) s ∧
        handed s id steps = step.handed? (s.afterAll earlier) ::
          handed (step.run (s.afterAll earlier)).after id later ∧
        answered s id steps =
          ((step.run (s.afterAll earlier)).answer, (step.run (s.afterAll earlier)).log) ::
            answered (step.run (s.afterAll earlier)).after id later := by
  obtain ⟨earlier, later, rfl, hothers, habout, hlater⟩ := List.filter_eq_cons_iff.1 h
  refine ⟨habout, earlier, later, rfl, hlater, fun s => ?_⟩
  obtain ⟨halike, hhanded, hanswered⟩ := alike_afterAll_of_others (s := s)
    (fun x hx => Bool.eq_false_iff.2 (hothers x hx)) (step :: later)
  rw [hhanded, hanswered, handed_cons_of_about _ habout, answered_cons_of_about _ habout]
  exact ⟨halike, rfl, rfl⟩

/-- Runs of alike services whose requests about the poll are the same answer them alike. -/
theorem Alike.afterAll {steps steps' : List Step} (h : Alike id s t)
    (hasked : asked id steps = asked id steps')
    (hhanded : SameHands (handed s id steps) (handed t id steps')) :
    answered s id steps = answered t id steps' ∧ Alike id (s.afterAll steps) (t.afterAll steps') := by
  generalize hmine : asked id steps = mine at hasked
  -- the requests about the poll are those of both runs
  induction mine generalizing s t steps steps' with
  | nil =>
    have hothers : ∀ x ∈ steps, x.isAbout id = false := by simpa [asked] using hmine
    have hothers' : ∀ x ∈ steps', x.isAbout id = false := by simpa [asked] using hasked.symm
    obtain ⟨halike, -, hanswered⟩ := alike_afterAll_of_others (s := s) hothers []
    obtain ⟨halike', -, hanswered'⟩ := alike_afterAll_of_others (s := t) hothers' []
    rw [List.append_nil] at hanswered hanswered'
    rw [hanswered, hanswered']
    exact ⟨rfl, halike.trans (h.trans halike'.symm)⟩
  | cons step mine ih =>
    obtain ⟨habout, earlier, later, rfl, hlater, hsplit⟩ := exists_of_asked_cons hmine
    obtain ⟨-, earlier', later', rfl, hlater', hsplit'⟩ := exists_of_asked_cons hasked.symm
    obtain ⟨hbefore, hhands, hanswered⟩ := hsplit s
    obtain ⟨hbefore', hhands', hanswered'⟩ := hsplit' t
    rw [hhands, hhands'] at hhanded
    obtain ⟨hanswer, hlog, hafter⟩ :=
      (hbefore.trans (h.trans hbefore'.symm)).run habout hhanded.head
    obtain ⟨hrest, hlast⟩ := ih hafter hhanded.tail hlater hlater'.symm
    rw [hanswered, hanswered', hanswer, hlog, hrest, afterAll_append, afterAll_append]
    exact ⟨rfl, hlast⟩

/-- **Polls do not influence each other.** Two runs of new services with one main key contain the same
requests about a poll, and starts of the poll that are at the same place among them and find it not
active are handed the same key or are both refused by the random source. Then these requests are
answered alike with the same log, and the poll is active after both runs or after neither. -/
theorem polls_isolated (mainKey : MainKey) (options options' : Batch.Options) (cores cores' : Nat)
    (random random' : RandomSource) (id : String) (steps steps' : List Step) :
    let fresh := new mainKey options cores random
    let fresh' := new mainKey options' cores' random'
    asked id steps = asked id steps' →
    SameHands (handed fresh id steps) (handed fresh' id steps') →
    answered fresh id steps = answered fresh' id steps' ∧
      (fresh.afterAll steps).isActive id = (fresh'.afterAll steps').isActive id := by
  intro fresh fresh' hasked hhanded
  have hfresh : Alike id fresh fresh' := ⟨rfl, rfl⟩
  obtain ⟨hanswered, hafter⟩ := hfresh.afterAll hasked hhanded
  exact ⟨hanswered, hafter.isActive_eq⟩

/-- A poll that is started in vain, stopped with a vote that is too short, and started again on other
bytes of another script, behind and between polls that only one of the two runs has. -/
theorem mayor_isolated_from_budget :
    let mainKey := MainKey.ofOctets (Octets.zero 32)
    let block (b : UInt8) : Bytes := List.replicate 32 b
    let fresh := new mainKey ⟨0, 64⟩ 8 ⟨block 1 ++ block 2⟩
    let fresh' := new mainKey ⟨3, 0⟩ 1 ⟨block 7 ++ block 1 ++ block 2⟩
    let steps : List Step := [.start "mayor", .start "mayor", .stop "mayor" [[5]], .start "mayor",
      .isActive "mayor", .clear "mayor", .start "mayor"]
    let steps' : List Step := [.start "budget", .start "mayor", .publicKey, .start "mayor",
      .stop "budget" [[]], .stop "mayor" [[5]], .clear "budget", .start "mayor", .isActive "mayor",
      .start "budget", .clear "mayor", .start "mayor"]
    asked "mayor" steps = asked "mayor" steps' ∧
      handed fresh "mayor" steps = handed fresh' "mayor" steps' ∧
      answered fresh "mayor" steps = answered fresh' "mayor" steps' ∧
      (fresh.afterAll steps).isActive "mayor" = (fresh'.afterAll steps').isActive "mayor" := by
  intro mainKey block fresh fresh' steps steps'
  have hasked : asked "mayor" steps = asked "mayor" steps' := by decide
  have hhanded : handed fresh "mayor" steps = handed fresh' "mayor" steps' := by decide +kernel
  have hsame : SameHands (handed fresh "mayor" steps) (handed fresh' "mayor" steps') := by
    intro i a b ha hb
    rw [hhanded, hb] at ha
    simpa using ha.symm
  obtain ⟨hanswered, hactive⟩ := polls_isolated mainKey ⟨0, 64⟩ ⟨3, 0⟩ 8 1 ⟨block 1 ++ block 2⟩
    ⟨block 7 ++ block 1 ++ block 2⟩ "mayor" steps steps' hasked hsame
  exact ⟨hasked, hhanded, hanswered, hactive⟩

end SealedPoll.Service
