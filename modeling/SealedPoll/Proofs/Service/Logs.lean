import SealedPoll.Proofs.Frame.Grammar
import SealedPoll.Proofs.Service.History

/-!
# What the log gives away

What may be known of a run is its outline: the kind of each request, its poll and number of votes
(`Shape`), and how it ends, a success or the reason of a refusal. The log can be written from the
outline alone, with no key, sealed vote or text in sight.

* `Shape.report`, `Shape.causes` : the messages about a request, those that name no cause and those
  that do, which are the ones for debugging; `log_run` : a request logs the two, one after the other;
* `Shape.activeAfter` : the active polls after a request (`isActive_run`);
* `reports` : the messages of a whole run but for the causes (`logs_eq`, `loud_logs_eq`);
* `logs_confidential` : two runs with one outline log the same.
-/

namespace SealedPoll.Service

/-- What is public of a request: its kind, its poll, and how many votes it comes with. -/
inductive Shape
  | start (id : String)
  | stop (id : String) (votes : Nat)
  | clear (id : String)
  | isActive (id : String)
  | publicKey
  | sign
deriving DecidableEq

def Step.shape : Step → Shape
  | start id => .start id
  | stop id votes => .stop id votes.length
  | clear id => .clear id
  | isActive id => .isActive id
  | publicKey => .publicKey
  | sign _ => .sign

/-- Why a request is refused, if it is. -/
def Reply.refusal? : Reply → Option Error
  | artifact (.error e) => some e
  | artifact (.ok _) | done | active _ | key _ | signature _ => none

/-- What a refusal tells at first sight: of a vote that is refused, its position and not the cause. -/
def told : Error → Error ⊕ Nat
  | .voteDecryptionFailed index _ => .inr index
  | e => .inl e

/-- The requests of a run and how they end. -/
def outline (s : Service) (steps : List Step) : List (Shape × Option Error) :=
  (steps.zip (s.run steps)).map fun x => (x.1.shape, x.2.answer.refusal?)

/-- The same, but for the causes of refused votes. -/
def roughOutline (s : Service) (steps : List Step) : List (Shape × Option (Error ⊕ Nat)) :=
  (outline s steps).map fun x => (x.1, x.2.map told)

/-- What is read of a message. -/
def line (event : LogEvent) : Level × String := (event.level, event.message)

/-- The log of a run, a list of messages for each request. -/
def lines (s : Service) (steps : List Step) : List (List (Level × String)) :=
  (s.run steps).map fun result => result.log.map line

/-- The message is not one for debugging. -/
def isLoud (event : LogEvent) : Bool := event.level ≠ .debug

/-- The log of a run without the messages for debugging. -/
def loudLines (s : Service) (steps : List Step) : List (List (Level × String)) :=
  (s.run steps).map fun result => (result.log.filter isLoud).map line

namespace Shape

/-- The messages about a request that name no cause. -/
def report (active : String → Bool) : Shape → Option (Error ⊕ Nat) → List LogEvent
  | start id, none => [.started id]
  | stop id votes, none => [.stopped id votes]
  | stop id _, some (.inr index) => [.undecryptable id index]
  | clear id, _ => if active id then [.cleared id] else []
  | _, _ => []

/-- The message about a request that names the cause of a refused vote. -/
def causes : Shape → Option Error → List LogEvent
  | stop id _, some (.voteDecryptionFailed _ cause) => [.cause id cause]
  | _, _ => []

/-- The active polls after a request that succeeds or does not. -/
def activeAfter (active : String → Bool) : Shape → Bool → String → Bool
  | start id, true => Function.update active id true
  | stop id _, _ | clear id, _ => Function.update active id false
  | _, _ => active

theorem filter_report (active : String → Bool) (shape : Shape) (ending : Option (Error ⊕ Nat)) :
    (shape.report active ending).filter isLoud = shape.report active ending := by
  fun_cases Shape.report active shape ending <;> rfl

theorem filter_causes (shape : Shape) (refusal : Option Error) :
    (shape.causes refusal).filter isLoud = [] := by
  fun_cases Shape.causes shape refusal <;> rfl

theorem eq_of_mem_report {active : String → Bool} {shape : Shape} {ending : Option (Error ⊕ Nat)}
    {event : LogEvent} (h : event ∈ shape.report active ending) (hlevel : event.level = .warn) :
    ∃ id votes index, shape = .stop id votes ∧ ending = some (.inr index) ∧
      event = .undecryptable id index := by
  unfold report at h
  split at h
  case h_3 id votes index =>
    obtain rfl := List.mem_singleton.1 h
    exact ⟨id, votes, index, rfl, rfl, rfl⟩
  case h_4 id _ =>
    split at h
    · obtain rfl := List.mem_singleton.1 h
      cases hlevel
    · cases h
  case h_5 => cases h
  all_goals
    obtain rfl := List.mem_singleton.1 h
    cases hlevel

theorem eq_of_mem_causes {shape : Shape} {refusal : Option Error} {event : LogEvent}
    (h : event ∈ shape.causes refusal) :
    ∃ id votes index cause, shape = .stop id votes ∧
      refusal = some (.voteDecryptionFailed index cause) ∧ event = .cause id cause := by
  unfold causes at h
  split at h
  case h_1 id votes index cause =>
    obtain rfl := List.mem_singleton.1 h
    exact ⟨id, votes, index, cause, rfl, rfl, rfl⟩
  case h_2 => cases h

end Shape

theorem told_eq_inr {e : Error} {index : Nat} (h : told e = .inr index) :
    ∃ cause, e = .voteDecryptionFailed index cause := by
  unfold told at h
  split at h
  case h_1 other cause =>
    obtain rfl := Sum.inr.inj h
    exact ⟨cause, rfl⟩
  case h_2 => cases h

theorem eq_of_refusal {reply : Reply} {e : Error} (h : reply.refusal? = some e) :
    reply = .artifact (.error e) := by
  fun_cases Reply.refusal? reply with
  | case1 e' => exact congrArg (Reply.artifact ∘ Except.error) (Option.some.inj h)
  | _ => cases h

theorem exists_of_shape {step : Step} {id : String} {n : Nat} (h : step.shape = .stop id n) :
    ∃ votes, step = .stop id votes := by
  cases step <;> cases h
  exact ⟨_, rfl⟩

/-- The messages of a run that name no cause. -/
def reports (active : String → Bool) : List (Shape × Option (Error ⊕ Nat)) → List (List LogEvent)
  | [] => []
  | (shape, ending) :: rest =>
    shape.report active ending :: reports (shape.activeAfter active ending.isNone) rest

variable {s : Service} {id : String} {votes : List Bytes}

/-! ## One request -/

/-- What a stop logs follows from how it ends. -/
theorem log_stop (s : Service) (id : String) (votes : List Bytes) :
    (s.stop id votes).log =
      (Shape.stop id votes.length).report s.isActive
        ((Reply.artifact (s.stop id votes).answer).refusal?.map told) ++
      (Shape.stop id votes.length).causes (Reply.artifact (s.stop id votes).answer).refusal? := by
  cases hheld : s.polls.get? id with
  | none =>
    rw [stop_of_inactive (isActive_eq_false_iff.2 hheld)]
    rfl
  | some secret =>
    rw [stop_of_held hheld]
    rcases Batch.opens_or_firstRefused secret votes with ⟨texts, hopens⟩ | ⟨bad, hbad⟩
    · simp only [tally, tallyLog, Batch.openFrom_of_opens hopens]
      cases hframe : Frame.encode texts with
      | ok frame =>
        rw [← hopens.length_eq]
        rfl
      | error e =>
        -- texts that do not fit a frame are refused without a trace
        obtain ⟨i, -, rfl⟩ := Frame.encode_eq_error_iff.1 hframe
        rfl
    · simp only [tally, tallyLog, Batch.openFrom_of_firstRefused hbad, Nat.zero_add]
      rfl

theorem log_run (s : Service) (step : Step) :
    (step.run s).log = step.shape.report s.isActive ((step.run s).answer.refusal?.map told) ++
      step.shape.causes (step.run s).answer.refusal? := by
  cases step with
  | start id =>
    by_cases h : s.Starts id
    · obtain ⟨secret, -, hstart⟩ := exists_start h
      simp only [Step.run, Result.map, hstart]
      rfl
    · obtain ⟨e, hstart⟩ := start_of_not_starts h
      simp only [Step.run, Result.map, hstart]
      rfl
  | stop id votes => exact log_stop s id votes
  | clear id => exact (List.append_nil _).symm
  | isActive id => rfl
  | publicKey => rfl
  | sign data => rfl

theorem starts_iff_refusal : s.Starts id ↔ ((Step.start id).run s).answer.refusal? = none := by
  constructor
  · intro h
    obtain ⟨secret, -, hstart⟩ := exists_start h
    rw [Step.run, hstart]
    rfl
  · intro h
    by_contra hnot
    obtain ⟨e, hstart⟩ := start_of_not_starts hnot
    rw [Step.run, hstart] at h
    cases h

theorem isActive_run (s : Service) (step : Step) :
    (step.run s).after.isActive =
      step.shape.activeAfter s.isActive (step.run s).answer.refusal?.isNone := by
  funext other
  rw [Bool.eq_iff_iff, isActive_run_iff]
  cases step with
  | start id =>
    by_cases h : s.Starts id
    · rw [starts_iff_refusal.1 h]
      by_cases hid : other = id
      · simp [Step.shape, Shape.activeAfter, hid, h]
      · simp [Step.shape, Shape.activeAfter, Step.Ends, hid, Ne.symm hid]
    · have hrefusal : ((Step.start id).run s).answer.refusal?.isNone = false := by
        simpa [starts_iff_refusal, Option.isSome_iff_ne_none] using h
      have hnot : ¬ (id = other ∧ s.Starts other) := by
        rintro ⟨rfl, hstarts⟩
        exact h hstarts
      simp [Step.shape, Shape.activeAfter, Step.Ends, hrefusal, hnot]
  | stop id votes =>
    simp [Step.shape, Shape.activeAfter, Step.Ends, Function.update_apply, and_comm, @eq_comm _ other]
  | clear id =>
    simp [Step.shape, Shape.activeAfter, Step.Ends, Function.update_apply, and_comm, @eq_comm _ other]
  | isActive id => simp [Step.shape, Shape.activeAfter, Step.Ends]
  | publicKey => simp [Step.shape, Shape.activeAfter, Step.Ends]
  | sign data => simp [Step.shape, Shape.activeAfter, Step.Ends]

/-- A warning is about a stop with a vote that is refused, and names its position. -/
theorem refused_of_warn {step : Step} {event : LogEvent} (h : event ∈ (step.run s).log)
    (hlevel : event.level = .warn) :
    ∃ id votes index cause, step = .stop id votes ∧
      (step.run s).answer = .artifact (.error (.voteDecryptionFailed index cause)) ∧
      event = .undecryptable id index := by
  rw [log_run, List.mem_append] at h
  rcases h with h | h
  · obtain ⟨id, n, index, hshape, hending, hevent⟩ := Shape.eq_of_mem_report h hlevel
    obtain ⟨e, hrefusal, htold⟩ := Option.map_eq_some_iff.1 hending
    obtain ⟨cause, rfl⟩ := told_eq_inr htold
    obtain ⟨votes, hstep⟩ := exists_of_shape hshape
    exact ⟨id, votes, index, cause, hstep, eq_of_refusal hrefusal, hevent⟩
  · obtain ⟨id, n, index, cause, -, -, rfl⟩ := Shape.eq_of_mem_causes h
    cases hlevel

/-- A message for debugging is about the cause of such a refusal. -/
theorem refused_of_debug {step : Step} {event : LogEvent} (h : event ∈ (step.run s).log)
    (hlevel : event.level = .debug) :
    ∃ id votes index cause, step = .stop id votes ∧
      (step.run s).answer = .artifact (.error (.voteDecryptionFailed index cause)) ∧
      event = .cause id cause := by
  rw [log_run, List.mem_append] at h
  rcases h with h | h
  · rw [← Shape.filter_report, List.mem_filter] at h
    simp [isLoud, hlevel] at h
  · obtain ⟨id, n, index, cause, hshape, hrefusal, hevent⟩ := Shape.eq_of_mem_causes h
    obtain ⟨votes, hstep⟩ := exists_of_shape hshape
    exact ⟨id, votes, index, cause, hstep, eq_of_refusal hrefusal, hevent⟩

/-! ## Runs -/

@[simp] theorem outline_cons (s : Service) (step : Step) (steps : List Step) :
    outline s (step :: steps) =
      (step.shape, (step.run s).answer.refusal?) :: outline (step.run s).after steps := rfl

@[simp] theorem roughOutline_cons (s : Service) (step : Step) (steps : List Step) :
    roughOutline s (step :: steps) =
      (step.shape, (step.run s).answer.refusal?.map told) :: roughOutline (step.run s).after steps :=
  rfl

/-- The log of a run is written from its outline. -/
theorem logs_eq (s : Service) (steps : List Step) :
    (s.run steps).map Result.log =
      List.zipWith (· ++ ·) (reports s.isActive (roughOutline s steps))
        ((outline s steps).map fun x => x.1.causes x.2) := by
  induction steps generalizing s with
  | nil => rfl
  | cons step steps ih =>
    simp only [run, List.map_cons, outline_cons, roughOutline_cons, reports, List.zipWith_cons_cons,
      Option.isNone_map]
    rw [ih, log_run, isActive_run]

theorem loud_log_run (s : Service) (step : Step) :
    (step.run s).log.filter isLoud =
      step.shape.report s.isActive ((step.run s).answer.refusal?.map told) := by
  rw [log_run, List.filter_append, Shape.filter_report, Shape.filter_causes, List.append_nil]

/-- Without the messages for debugging, the causes are not needed either. -/
theorem loud_logs_eq (s : Service) (steps : List Step) :
    (s.run steps).map (fun result => result.log.filter isLoud) =
      reports s.isActive (roughOutline s steps) := by
  induction steps generalizing s with
  | nil => rfl
  | cons step steps ih =>
    simp only [run, List.map_cons, roughOutline_cons, reports, Option.isNone_map]
    rw [ih, loud_log_run, isActive_run]

theorem lines_congr {t : Service} {steps steps' : List Step} (hactive : s.isActive = t.isActive)
    (h : outline s steps = outline t steps') : lines s steps = lines t steps' := by
  have hlogs : (s.run steps).map Result.log = (t.run steps').map Result.log := by
    rw [logs_eq, logs_eq, roughOutline, roughOutline, hactive, h]
  simpa [lines, Function.comp_def] using congrArg (List.map (List.map line)) hlogs

theorem loudLines_congr {t : Service} {steps steps' : List Step} (hactive : s.isActive = t.isActive)
    (h : roughOutline s steps = roughOutline t steps') : loudLines s steps = loudLines t steps' := by
  have hlogs : (s.run steps).map (fun result => result.log.filter isLoud) =
      (t.run steps').map fun result => result.log.filter isLoud := by
    rw [loud_logs_eq, loud_logs_eq, hactive, h]
  simpa [loudLines, Function.comp_def] using congrArg (List.map (List.map line)) hlogs

/-- **The log gives nothing away.** Two runs of new services, whatever their main keys, options,
random scripts, votes and texts, have the same log, level and text of each message, if they are made of
requests of the same kinds about the same polls with the same numbers of votes, and these end alike.
If they end alike but for the causes of refused votes, the logs are the same but for the messages for
debugging. A warning names the position of a refused vote; the cause is in a message for debugging. -/
theorem logs_confidential (mainKey mainKey' : MainKey) (options options' : Batch.Options)
    (cores cores' : Nat) (random random' : RandomSource) (steps steps' : List Step) :
    let fresh := new mainKey options cores random
    let fresh' := new mainKey' options' cores' random'
    (outline fresh steps = outline fresh' steps' → lines fresh steps = lines fresh' steps') ∧
    (roughOutline fresh steps = roughOutline fresh' steps' →
      loudLines fresh steps = loudLines fresh' steps') ∧
    ∀ step : Step, ∀ event ∈ (step.run (fresh.afterAll steps)).log,
      (event.level = .warn → ∃ id votes index cause, step = .stop id votes ∧
        (step.run (fresh.afterAll steps)).answer =
          .artifact (.error (.voteDecryptionFailed index cause)) ∧
        event.message = "poll " ++ id ++
          (" stopped with undecryptable votes: pollcrypt: vote " ++ index.repr ++
            " could not be decrypted")) ∧
      (event.level = .debug → ∃ id votes index cause, step = .stop id votes ∧
        (step.run (fresh.afterAll steps)).answer =
          .artifact (.error (.voteDecryptionFailed index cause)) ∧
        event.message = "poll " ++ id ++ (" decryption failure cause: " ++ cause.message)) := by
  intro fresh fresh'
  refine ⟨lines_congr rfl, loudLines_congr rfl, fun step event hevent => ⟨fun hlevel => ?_,
    fun hlevel => ?_⟩⟩
  · obtain ⟨id, votes, index, cause, hstep, hanswer, rfl⟩ := refused_of_warn hevent hlevel
    exact ⟨id, votes, index, cause, hstep, hanswer, rfl⟩
  · obtain ⟨id, votes, index, cause, hstep, hanswer, rfl⟩ := refused_of_debug hevent hlevel
    exact ⟨id, votes, index, cause, hstep, hanswer, rfl⟩

/-- Two services that share nothing start a poll, start it again in vain, stop it with a vote that is
too short, stop it again, and clear another one. In a third run the vote is one byte longer, which
only the message for debugging shows. -/
theorem two_services_log_alike :
    let block (b : UInt8) : Bytes := List.replicate 32 b
    let fresh := new (.ofOctets (Octets.zero 32)) ⟨0, 64⟩ 8 ⟨block 1 ++ block 2⟩
    let fresh' := new (.ofOctets ⟨block 3, rfl⟩) ⟨3, 0⟩ 1 ⟨block 4 ++ block 5 ++ [6]⟩
    let steps (vote : Bytes) : List Step := [.start "mayor", .start "mayor", .stop "mayor" [vote],
      .stop "mayor" [vote], .start "budget", .start "mayor", .sign vote, .clear "mayor",
      .clear "budget"]
    lines fresh (steps [1]) = lines fresh' (steps [2]) ∧
      loudLines fresh (steps [1]) = loudLines fresh' (steps [2, 3]) ∧
      lines fresh (steps [1]) ≠ lines fresh' (steps [2, 3]) := by
  intro block fresh fresh' steps
  obtain ⟨hlines, -, -⟩ := logs_confidential (.ofOctets (Octets.zero 32)) (.ofOctets ⟨block 3, rfl⟩)
    ⟨0, 64⟩ ⟨3, 0⟩ 8 1 ⟨block 1 ++ block 2⟩ ⟨block 4 ++ block 5 ++ [6]⟩ (steps [1]) (steps [2])
  obtain ⟨-, hloud, -⟩ := logs_confidential (.ofOctets (Octets.zero 32)) (.ofOctets ⟨block 3, rfl⟩)
    ⟨0, 64⟩ ⟨3, 0⟩ 8 1 ⟨block 1 ++ block 2⟩ ⟨block 4 ++ block 5 ++ [6]⟩ (steps [1]) (steps [2, 3])
  exact ⟨hlines (by decide +kernel), hloud (by decide +kernel), by decide +kernel⟩

end SealedPoll.Service
