import SealedPoll.Proofs.Log
import SealedPoll.Proofs.Service.Artifacts
import SealedPoll.Proofs.Service.Logs

/-!
# The log as a record of the active polls

Who reads the log of a run from its start knows at every point which polls are active: a start makes a
poll active, a stop with any outcome or a clearance makes it inactive. The one way to end a poll
without a trace is a text that does not fit a frame.

* `LogEvent.activeAfter`, `LogEvent.replay` : the active polls as messages tell them;
* `LogEvent.Fits` : a message that can be, given the active polls before it;
* `Recounts` : messages that fit one after the other and lead from some active polls to others;
* `recounts_run`, `recounts_runAll` : those of a step, and of a run, lead from the polls that are active
  before it to those that are after it;
* `log_faithful` : the log is a faithful record.
-/

namespace SealedPoll

namespace LogEvent

/-- The active polls after a message. -/
def activeAfter (active : String → Bool) : LogEvent → String → Bool
  | started id => Function.update active id true
  | stopped id _ | undecryptable id _ | cleared id => Function.update active id false
  | cause _ _ => active

/-- The active polls after messages. -/
def replay (active : String → Bool) (log : List LogEvent) : String → Bool :=
  log.foldl activeAfter active

/-- A start is about a poll that is not active, a stop or a clearance about one that is. -/
def Fits (active : String → Bool) : LogEvent → Prop
  | started id => active id = false
  | stopped id _ | undecryptable id _ | cleared id => active id = true
  | cause _ _ => True

end LogEvent

namespace Service

/-- Messages that fit one after the other and lead from some active polls to others. -/
inductive Recounts : (String → Bool) → List LogEvent → (String → Bool) → Prop
  | nil {active : String → Bool} : Recounts active [] active
  | cons {active after : String → Bool} {event : LogEvent} {log : List LogEvent} :
      event.Fits active → Recounts (event.activeAfter active) log after →
        Recounts active (event :: log) after

/-- The texts of the votes that a step stops a poll with fit a frame. -/
def Step.FitsFrame (s : Service) (step : Step) : Prop :=
  ∀ id votes secret, step = .stop id votes → s.polls.get? id = some secret →
    ∀ vote ∈ votes, ∀ text, Vote.decrypt secret.bytes.toList vote = .ok text →
      text.length < Frame.itemBound

/-- All texts of a run fit a frame. -/
def TextsFit (s : Service) (steps : List Step) : Prop :=
  ∀ earlier step later, steps = earlier ++ step :: later → step.FitsFrame (s.afterAll earlier)

/-- All messages of a run, one after the other. -/
def logged (s : Service) (steps : List Step) : List LogEvent := (s.run steps).flatMap Result.log

variable {s : Service} {active before after : String → Bool} {log : List LogEvent}

/-! ## Messages -/

theorem Recounts.append {more : List LogEvent} {last : String → Bool}
    (h : Recounts active log after) (hmore : Recounts after more last) :
    Recounts active (log ++ more) last := by
  induction h with
  | nil => exact hmore
  | cons hfits _ ih => exact .cons hfits (ih hmore)

theorem Recounts.replay_eq (h : Recounts active log after) : LogEvent.replay active log = after := by
  induction h with
  | nil => rfl
  | cons _ _ ih => exact ih

theorem Recounts.fits (h : Recounts active log after) {earlier later : List LogEvent}
    {event : LogEvent} (hlog : log = earlier ++ event :: later) :
    event.Fits (LogEvent.replay active earlier) := by
  induction h generalizing earlier with
  | nil => simp at hlog
  | cons hfits _ ih =>
    cases earlier with
    | nil =>
      obtain ⟨rfl, -⟩ := List.cons.inj hlog
      exact hfits
    | cons first earlier =>
      obtain ⟨rfl, hrest⟩ := List.cons.inj hlog
      exact ih hrest

/-! ## One step -/

theorem isActive_stop (s : Service) (id : String) (votes : List Bytes) :
    (s.stop id votes).after.isActive = Function.update s.isActive id false :=
  isActive_run s (.stop id votes)

theorem isActive_clear (s : Service) (id : String) :
    (s.clear id).after.isActive = Function.update s.isActive id false :=
  isActive_run s (.clear id)

theorem recounts_start (s : Service) (id : String) :
    Recounts s.isActive (s.start id).log (s.start id).after.isActive := by
  by_cases h : s.Starts id
  · obtain ⟨secret, -, hstart⟩ := exists_start h
    have hafter : (s.start id).after.isActive = Function.update s.isActive id true := by
      have hrun := isActive_run s (.start id)
      rwa [starts_iff_refusal.1 h] at hrun
    rw [hafter, hstart]
    exact .cons (starts_iff.1 h).1 .nil
  · obtain ⟨e, hstart⟩ := start_of_not_starts h
    rw [hstart]
    exact .nil

theorem lt_of_opens {id : String} {votes texts : List Bytes} {secret : PollKey}
    (h : (Step.stop id votes).FitsFrame s) (hheld : s.polls.get? id = some secret)
    (hopens : Batch.Opens secret votes texts) : ∀ text ∈ texts, text.length < Frame.itemBound := by
  intro text htext
  have hmem : Except.ok text ∈ Batch.outcomes secret votes := by
    rw [hopens]
    exact List.mem_map_of_mem htext
  obtain ⟨vote, hvote, hdecrypt⟩ := List.mem_map.1 hmem
  exact h id votes secret rfl hheld vote hvote text hdecrypt

theorem recounts_stop {id : String} {votes : List Bytes} (h : (Step.stop id votes).FitsFrame s) :
    Recounts s.isActive (s.stop id votes).log (s.stop id votes).after.isActive := by
  cases hheld : s.polls.get? id with
  | none =>
    rw [stop_of_inactive (isActive_eq_false_iff.2 hheld)]
    exact .nil
  | some secret =>
    have hactive := isActive_of_held hheld
    rw [isActive_stop, stop_of_held hheld]
    rcases Batch.opens_or_firstRefused secret votes with ⟨texts, hopens⟩ | ⟨bad, hbad⟩
    · have hframe : Frame.encode texts = .ok (texts.flatMap Frame.item) :=
        Frame.encodeFrom_of_lt (lt_of_opens h hheld hopens) 0
      simp only [tallyLog, Batch.openFrom_of_opens hopens, hframe]
      exact .cons hactive .nil
    · simp only [tallyLog, Batch.openFrom_of_firstRefused hbad, Nat.zero_add]
      exact .cons hactive (.cons trivial .nil)

theorem recounts_clear (s : Service) (id : String) :
    Recounts s.isActive (s.clear id).log (s.clear id).after.isActive := by
  rw [isActive_clear]
  cases h : s.isActive id with
  | true =>
    have hlog : (s.clear id).log = [.cleared id] := if_pos h
    rw [hlog]
    exact .cons h .nil
  | false =>
    have hlog : (s.clear id).log = [] := if_neg (by simpa [isActive, Registry.remove] using h)
    rw [hlog, ← h, Function.update_eq_self]
    exact .nil

theorem recounts_run {step : Step} (h : step.FitsFrame s) :
    Recounts s.isActive (step.run s).log (step.run s).after.isActive := by
  cases step with
  | start id => exact recounts_start s id
  | stop id votes => exact recounts_stop h
  | clear id => exact recounts_clear s id
  | isActive id => exact .nil
  | publicKey => exact .nil
  | sign data => exact .nil

theorem exists_refused_of_tallyLog {id poll : String} {secret : PollKey} {votes : List Bytes}
    {reason : Error} (h : .cause poll reason ∈ tallyLog id secret votes) :
    ∃ vote ∈ votes, Vote.decrypt secret.bytes.toList vote = .error reason := by
  rcases Batch.opens_or_firstRefused secret votes with ⟨texts, hopens⟩ | ⟨bad, hbad⟩
  · simp only [tallyLog, Batch.openFrom_of_opens hopens] at h
    cases hframe : Frame.encode texts <;> simp [hframe] at h
  · simp only [tallyLog, Batch.openFrom_of_firstRefused hbad] at h
    obtain ⟨vote, hvote, hdecrypt⟩ := Batch.exists_refused hbad
    have hreason : poll = id ∧ reason = bad.cause := by simpa using h
    rw [hreason.2]
    exact ⟨vote, List.mem_of_getElem? hvote, hdecrypt⟩

/-- A cause that a step reports is a reason for which the poll's key has refused a vote. -/
theorem isGenuine_of_mem {step : Step} {event : LogEvent} (h : event ∈ (step.run s).log) :
    event.IsGenuine := by
  cases event with
  | cause poll reason =>
    obtain ⟨id, votes, -, -, rfl, -, -⟩ := refused_of_debug h rfl
    have hlog : .cause poll reason ∈ (s.stop id votes).log := h
    cases hheld : s.polls.get? id with
    | none =>
      rw [stop_of_inactive (isActive_eq_false_iff.2 hheld)] at hlog
      cases hlog
    | some secret =>
      rw [stop_of_held hheld] at hlog
      obtain ⟨vote, -, hdecrypt⟩ := exists_refused_of_tallyLog hlog
      exact ⟨secret, vote, hdecrypt⟩
  | started id => trivial
  | stopped id votes => trivial
  | undecryptable id index => trivial
  | cleared id => trivial

/-! ## Runs -/

theorem logged_cons (s : Service) (step : Step) (steps : List Step) :
    logged s (step :: steps) = (step.run s).log ++ logged (step.run s).after steps := rfl

theorem TextsFit.head {step : Step} {steps : List Step} (h : TextsFit s (step :: steps)) :
    step.FitsFrame s := h [] step steps rfl

theorem TextsFit.tail {step : Step} {steps : List Step} (h : TextsFit s (step :: steps)) :
    TextsFit (step.run s).after steps := by
  rintro earlier next later rfl
  exact h (step :: earlier) next later rfl

theorem TextsFit.left {steps more : List Step} (h : TextsFit s (steps ++ more)) : TextsFit s steps := by
  rintro earlier step later rfl
  exact h earlier step (later ++ more) (by simp)

theorem recounts_runAll {steps : List Step} (h : TextsFit s steps) :
    Recounts s.isActive (logged s steps) (s.afterAll steps).isActive := by
  induction steps generalizing s with
  | nil => exact .nil
  | cons step steps ih =>
    rw [logged_cons, afterAll_cons]
    exact (recounts_run h.head).append (ih h.tail)

theorem isGenuine_of_mem_logged {steps : List Step} {event : LogEvent} (h : event ∈ logged s steps) :
    event.IsGenuine := by
  obtain ⟨result, hresult, hevent⟩ := List.mem_flatMap.1 h
  obtain ⟨earlier, step, later, -, rfl⟩ := mem_run hresult
  exact isGenuine_of_mem hevent

theorem eq_of_map_line {log log' : List LogEvent} (hlog : ∀ event ∈ log, event.IsGenuine)
    (hlog' : ∀ event ∈ log', event.IsGenuine) (h : log.map line = log'.map line) : log = log' := by
  induction log generalizing log' with
  | nil => exact (List.map_eq_nil_iff.1 h.symm).symm
  | cons event log ih =>
    cases log' with
    | nil => cases h
    | cons other log' =>
      obtain ⟨hline, hrest⟩ := List.cons.inj h
      obtain ⟨hlevel, hmessage⟩ := Prod.mk.inj hline
      obtain ⟨hevent, hlog⟩ := List.forall_mem_cons.1 hlog
      obtain ⟨hother, hlog'⟩ := List.forall_mem_cons.1 hlog'
      rw [LogEvent.eq_of_message hevent hother hlevel hmessage, ih hlog hlog' hrest]

/-- **The log is a faithful record.** Level and text of a message determine the event and its poll,
whatever the polls are called, among the messages that a service can write. In a run whose texts all
fit a frame the messages lead, at every point, to the polls that are active there; a start is reported
of no active poll, and a stop or a clearance of no other. So two runs that have logged the same lines
have the same active polls. -/
theorem log_faithful :
    (∀ event other : LogEvent, event.IsGenuine → other.IsGenuine → line event = line other →
      event = other) ∧
    ∀ (mainKey : MainKey) (options : Batch.Options) (cores : Nat) (random : RandomSource)
      (steps : List Step),
      let fresh := new mainKey options cores random
      let recorded := LogEvent.replay fun _ => false
      (∀ event ∈ logged fresh steps, event.IsGenuine) ∧
      (TextsFit fresh steps →
        (∀ earlier later, steps = earlier ++ later →
          recorded (logged fresh earlier) = (fresh.afterAll earlier).isActive) ∧
        (∀ before event after, logged fresh steps = before ++ event :: after →
          event.Fits (recorded before)) ∧
        ∀ (mainKey' : MainKey) (options' : Batch.Options) (cores' : Nat) (random' : RandomSource)
          (steps' : List Step),
          let fresh' := new mainKey' options' cores' random'
          TextsFit fresh' steps' → (logged fresh steps).map line = (logged fresh' steps').map line →
          (fresh.afterAll steps).isActive = (fresh'.afterAll steps').isActive) := by
  refine ⟨fun event other hevent hother h => ?_, fun mainKey options cores random steps => ?_⟩
  · obtain ⟨hlevel, hmessage⟩ := Prod.mk.inj h
    exact LogEvent.eq_of_message hevent hother hlevel hmessage
  intro fresh recorded
  refine ⟨fun event => isGenuine_of_mem_logged, fun htexts => ⟨?_, ?_, ?_⟩⟩
  · rintro earlier later rfl
    exact (recounts_runAll htexts.left).replay_eq
  · intro before event after hlog
    exact (recounts_runAll htexts).fits hlog
  · intro mainKey' options' cores' random' steps' fresh' htexts' hlines
    have hlogs : logged fresh steps = logged fresh' steps' :=
      eq_of_map_line (fun _ => isGenuine_of_mem_logged) (fun _ => isGenuine_of_mem_logged) hlines
    have hactive := (recounts_runAll htexts).replay_eq
    rw [hlogs] at hactive
    rw [← hactive]
    exact (recounts_runAll htexts').replay_eq

/-- Two polls, of which one is called as if the log had reported that the other one was stopped. This
one is stopped with a vote that is too short, the odd one is cleared twice. -/
theorem log_of_oddly_named_poll :
    let fresh := new (.ofOctets (Octets.zero 32)) ⟨0, 64⟩ 8 ⟨(List.range 64).map UInt8.ofNat⟩
    let oddName := "mayor stopped with 1 votes"
    let steps : List Step :=
      [.start "mayor", .start oddName, .stop "mayor" [[1]], .clear oddName, .clear oddName]
    TextsFit fresh steps ∧
      logged fresh steps = [.started "mayor", .started oddName, .undecryptable "mayor" 0,
        .cause "mayor" (.ciphertextTooShort 1), .cleared oddName] ∧
      (∀ earlier later, steps = earlier ++ later →
        LogEvent.replay (fun _ => false) (logged fresh earlier) = (fresh.afterAll earlier).isActive) ∧
      line (.stopped "mayor" 1) ≠ line (.started oddName) := by
  intro fresh oddName steps
  have htexts : TextsFit fresh steps := by
    intro earlier step later hsteps id votes secret hstep _ vote hvote text hdecrypt
    have hmem : Step.stop id votes ∈ steps := by rw [hsteps, ← hstep]; simp
    obtain ⟨rfl, rfl⟩ : id = "mayor" ∧ votes = [[1]] := by simpa [steps] using hmem
    obtain rfl := List.mem_singleton.1 hvote
    rw [Vote.decrypt_of_short _ (by decide)] at hdecrypt
    cases hdecrypt
  obtain ⟨hunique, hruns⟩ := log_faithful
  obtain ⟨-, hrecorded⟩ := hruns (.ofOctets (Octets.zero 32)) ⟨0, 64⟩ 8
    ⟨(List.range 64).map UInt8.ofNat⟩ steps
  obtain ⟨hreplay, -, -⟩ := hrecorded htexts
  refine ⟨htexts, by decide +kernel, hreplay, fun h => ?_⟩
  cases hunique (.stopped "mayor" 1) (.started oddName) trivial trivial h

end Service

end SealedPoll
