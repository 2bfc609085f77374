import Mathlib
import SealedPoll.Registry.Program

/-!
# Programs over a registry as flat histories

A program whose generators run steps of their own is told as one history of operations, each of which
takes effect at one point. A creation that finds its poll active, or whose generator fails, takes
effect when it looks the poll up; any other one when its key would go in, behind what its generator
does.

* `PlainMap`, `Op.apply` : a map from polls to keys, and operations on it; `replay` : operations one
  after the other;
* `Event`, `historyAll` : an operation with its reply and the registry from then on, and those of a
  program;
* `Leads` : events that a plain map confirms, from one registry to another; `leads_historyAll` : those
  of a program lead from the registry before it to the one after it;
* `replies_historyAll_perm` : a history has the replies of all steps, at any depth;
* `Program` : a program that looks at its answers; from one registry on it is the steps that it comes
  to take (`Program.run_eq_runAll`);
* `program_linearises` : programs over a registry are flat sequences of operations on a plain map.
-/

namespace SealedPoll.Registry

/-- A plain map from polls to keys. -/
abbrev PlainMap := String → Option PollKey

/-- An operation that takes effect at one point. -/
inductive Op
  /-- The key that was made goes in where there is none. -/
  | create (id : String) (made : Except Error PollKey)
  | take (id : String)
  | remove (id : String)
  | contains (id : String)

/-- What an operation is answered. -/
inductive Reply
  | key (outcome : Except Error PollKey)
  | found (found : Bool)

/-- The reply of an operation on a plain map, and the map after it. -/
def Op.apply (m : PlainMap) : Op → Reply × PlainMap
  | create id made =>
    match m id, made with
    | some _, _ => (.key (.error (.pollAlreadyActive id)), m)
    | none, .error e => (.key (.error e), m)
    | none, .ok key => (.key (.ok key), Function.update m id (some key))
  | take id =>
    match m id with
    | some key => (.key (.ok key), Function.update m id none)
    | none => (.key (.error (.pollNotFound id)), m)
  | remove id => (.found (m id).isSome, Function.update m id none)
  | contains id => (.found (m id).isSome, m)

/-- The reply of each of some operations on a plain map, and the map after it. -/
def replay (m : PlainMap) : List Op → List (Reply × PlainMap)
  | [] => []
  | op :: ops => op.apply m :: replay (op.apply m).2 ops

/-- The map after operations. -/
def finalMap (m : PlainMap) (ops : List Op) : PlainMap := ops.foldl (fun m op => (op.apply m).2) m

/-- An operation that took effect: its reply, and the registry from then on. -/
structure Event where
  op : Op
  reply : Reply
  after : Registry

/-! ## The history of a program -/

/-- What a step is, apart from what goes on inside it. -/
def Step.op : Step → Op
  | .create id _ made => .create id made
  | .take id => .take id
  | .remove id => .remove id
  | .contains id => .contains id

/-- The reply in an answer. -/
def Answer.reply : Answer → Reply
  | created outcome _ _ => .key outcome
  | taken outcome _ => .key outcome
  | removed found _ => .found found
  | contained found _ => .found found

/-- The step that is run from `r` on takes effect, and leaves `after`. -/
def Step.event (step : Step) (r after : Registry) : Event := ⟨step.op, (step.run r).reply, after⟩

/-- A step that takes effect as a whole. -/
def Step.atOnce (step : Step) (r : Registry) : Event := step.event r (step.run r).after

mutual

/-- The operations that a step comes to, in the order in which they take effect. -/
def Step.history : Step → Registry → List Event
  | .create id during made, r =>
    if r.contains id then [(Step.create id during made).event r r]
    else match made with
      -- nothing goes in, so the registry is that of the look-up
      | .error e => (Step.create id during (.error e)).event r r :: historyAll during r
      | .ok key => historyAll during r ++ [(Step.create id during (.ok key)).atOnce r]
  | .take id, r => [(Step.take id).atOnce r]
  | .remove id, r => [(Step.remove id).atOnce r]
  | .contains id, r => [(Step.contains id).atOnce r]

/-- The operations that a program comes to. -/
def historyAll : List Step → Registry → List Event
  | [], _ => []
  | step :: steps, r => step.history r ++ historyAll steps (step.run r).after

end

mutual

/-- An answer and those of the steps inside it. -/
def Answer.withInner : Answer → List Answer
  | .created outcome none after => [.created outcome none after]
  | .created outcome (some during) after =>
    .created outcome (some during) after :: allAnswers during
  | .taken outcome after => [.taken outcome after]
  | .removed found after => [.removed found after]
  | .contained found after => [.contained found after]

/-- Answers and those of the steps inside them. -/
def allAnswers : List Answer → List Answer
  | [] => []
  | answer :: answers => answer.withInner ++ allAnswers answers

end

/-! ## Steps -/

variable {r r' r'' : Registry} {id : String}

theorem contains_eq_isSome (r : Registry) (id : String) : r.contains id = (r.get? id).isSome := rfl

theorem get?_of_not_contains (h : r.contains id = false) : r.get? id = none := by
  simpa [contains] using h

theorem exists_get?_of_contains (h : r.contains id = true) : ∃ key, r.get? id = some key :=
  Option.isSome_iff_exists.1 h

theorem get?_erase_eq (r : Registry) (id : String) :
    (r.erase id).get? = Function.update r.get? id none := by
  funext other
  rw [get?_erase, Function.update_apply]

theorem get?_insertNew_eq (h : r.contains id = false) (key : PollKey) :
    (r.insertNew id key).get? = Function.update r.get? id (some key) := by
  funext other
  rw [get?_insertNew h, Function.update_apply]

theorem run_create_of_active (h : r.contains id = true) (during : List Step)
    (made : Except Error PollKey) :
    (Step.create id during made).run r = .created (.error (.pollAlreadyActive id)) none r := by
  simp only [Step.run, create, h, if_true]

theorem run_create_of_error (h : r.contains id = false) (during : List Step) (e : Error) :
    (Step.create id during (.error e)).run r =
      .created (.error e) (some (runAll during r)) (afterAll r (runAll during r)) := by
  simp only [Step.run, create, h]
  rfl

theorem run_create_of_overtaken (h : r.contains id = false) {during : List Step}
    (hafter : (afterAll r (runAll during r)).contains id = true) (key : PollKey) :
    (Step.create id during (.ok key)).run r =
      .created (.error (.pollAlreadyActive id)) (some (runAll during r))
        (afterAll r (runAll during r)) := by
  simp only [Step.run, create, h, hafter]
  rfl

theorem run_create_of_ok (h : r.contains id = false) {during : List Step}
    (hafter : (afterAll r (runAll during r)).contains id = false) (key : PollKey) :
    (Step.create id during (.ok key)).run r =
      .created (.ok key) (some (runAll during r))
        ((afterAll r (runAll during r)).insertNew id key) := by
  simp only [Step.run, create, h, hafter]
  rfl

/-- The generator is called if the poll is not active. -/
theorem exists_run_create (h : r.contains id = false) (during : List Step)
    (made : Except Error PollKey) :
    ∃ outcome after,
      (Step.create id during made).run r = .created outcome (some (runAll during r)) after := by
  cases made with
  | error e => exact ⟨_, _, run_create_of_error h during e⟩
  | ok key =>
    cases hafter : (afterAll r (runAll during r)).contains id with
    | true => exact ⟨_, _, run_create_of_overtaken h hafter key⟩
    | false => exact ⟨_, _, run_create_of_ok h hafter key⟩

theorem history_create_of_active (h : r.contains id = true) (during : List Step)
    (made : Except Error PollKey) :
    (Step.create id during made).history r = [(Step.create id during made).event r r] := by
  cases made <;> simp only [Step.history, h, if_true]

theorem history_create_of_error (h : r.contains id = false) (during : List Step) (e : Error) :
    (Step.create id during (.error e)).history r =
      (Step.create id during (.error e)).event r r :: historyAll during r := by
  simp [Step.history, h]

theorem history_create_of_ok (h : r.contains id = false) (during : List Step) (key : PollKey) :
    (Step.create id during (.ok key)).history r =
      historyAll during r ++ [(Step.create id during (.ok key)).atOnce r] := by
  simp [Step.history, h]

/-! ## Events that lead from one registry to another -/

/-- The events have the replies and leave the maps that their operations have on a plain map, and end
in the last registry. -/
def Leads : Registry → List Event → Registry → Prop
  | r, [], r' => r = r'
  | r, e :: events, r' => e.op.apply r.get? = (e.reply, e.after.get?) ∧ Leads e.after events r'

theorem Leads.append {xs ys : List Event} (h : Leads r xs r') (h' : Leads r' ys r'') :
    Leads r (xs ++ ys) r'' := by
  induction xs generalizing r with
  | nil => exact h ▸ h'
  | cons e xs ih => exact ⟨h.1, ih h.2⟩

theorem Leads.replay_eq {events : List Event} (h : Leads r events r') :
    replay r.get? (events.map Event.op) = events.map fun e => (e.reply, e.after.get?) := by
  induction events generalizing r with
  | nil => rfl
  | cons e events ih => rw [List.map_cons, replay, h.1, ih h.2, List.map_cons]

theorem Leads.finalMap_eq {events : List Event} (h : Leads r events r') :
    finalMap r.get? (events.map Event.op) = r'.get? := by
  induction events generalizing r with
  | nil => exact congrArg get? h
  | cons e events ih =>
    rw [List.map_cons, finalMap, List.foldl_cons, h.1]
    exact ih h.2

theorem leads_take (r : Registry) (id : String) :
    Leads r [(Step.take id).atOnce r] ((Step.take id).run r).after := by
  refine ⟨?_, rfl⟩
  simp only [Step.atOnce, Step.event, Step.op, Step.run, take, Op.apply]
  cases r.get? id with
  | none => rfl
  | some key => simp only [Answer.reply, Answer.after, get?_erase_eq]

theorem leads_remove (r : Registry) (id : String) :
    Leads r [(Step.remove id).atOnce r] ((Step.remove id).run r).after := by
  refine ⟨?_, rfl⟩
  simp only [Step.atOnce, Step.event, Step.op, Step.run, remove, Op.apply, Answer.reply,
    Answer.after, get?_erase_eq, contains_eq_isSome]

theorem leads_contains (r : Registry) (id : String) :
    Leads r [(Step.contains id).atOnce r] ((Step.contains id).run r).after := ⟨rfl, rfl⟩

/-- A creation whose key would go in comes behind what its generator does. -/
theorem leads_create {during : List Step} (h : r.contains id = false) (key : PollKey) :
    Leads (afterAll r (runAll during r)) [(Step.create id during (.ok key)).atOnce r]
      ((Step.create id during (.ok key)).run r).after := by
  refine ⟨?_, rfl⟩
  cases hafter : (afterAll r (runAll during r)).contains id with
  | true =>
    obtain ⟨other, hother⟩ := exists_get?_of_contains hafter
    simp only [Step.atOnce, Step.event, Step.op, run_create_of_overtaken h hafter, Op.apply, hother,
      Answer.reply, Answer.after]
  | false =>
    simp only [Step.atOnce, Step.event, Step.op, run_create_of_ok h hafter, Op.apply,
      get?_of_not_contains hafter, Answer.reply, Answer.after, get?_insertNew_eq hafter]

mutual

/-- The history of a step leads from the registry before it to the one after it. -/
theorem leads_history : ∀ (step : Step) (r : Registry), Leads r (step.history r) (step.run r).after
  | .create id during made, r => by
    have hduring := leads_historyAll during r
    cases hactive : r.contains id with
    | true =>
      obtain ⟨key, hkey⟩ := exists_get?_of_contains hactive
      rw [history_create_of_active hactive, run_create_of_active hactive]
      refine ⟨?_, rfl⟩
      simp only [Step.event, Step.op, run_create_of_active hactive, Op.apply, hkey, Answer.reply]
    | false =>
      cases made with
      | error e =>
        rw [history_create_of_error hactive, run_create_of_error hactive]
        refine ⟨?_, hduring⟩
        simp only [Step.event, Step.op, run_create_of_error hactive, Op.apply,
          get?_of_not_contains hactive, Answer.reply]
      | ok key =>
        rw [history_create_of_ok hactive]
        exact hduring.append (leads_create hactive key)
  | .take id, r => leads_take r id
  | .remove id, r => leads_remove r id
  | .contains id, r => leads_contains r id

/-- The history of a program leads from the registry before it to the one after it. -/
theorem leads_historyAll : ∀ (steps : List Step) (r : Registry),
    Leads r (historyAll steps r) (afterAll r (runAll steps r))
  | [], _ => rfl
  | step :: steps, r => (leads_history step r).append (leads_historyAll steps (step.run r).after)

end

/-! ## Replies -/

mutual

/-- The history of a step has the replies of the step and of all steps inside it. -/
theorem replies_history_perm : ∀ (step : Step) (r : Registry),
    ((step.history r).map Event.reply).Perm ((step.run r).withInner.map Answer.reply)
  | .create id during made, r => by
    have hduring := replies_historyAll_perm during r
    cases hactive : r.contains id with
    | true =>
      rw [history_create_of_active hactive, run_create_of_active hactive]
      simp only [Step.event, run_create_of_active hactive, Answer.withInner]
      exact .refl _
    | false =>
      obtain ⟨outcome, after, hrun⟩ := exists_run_create hactive during made
      cases made with
      | error e =>
        rw [history_create_of_error hactive, hrun]
        simp only [Step.event, hrun, Answer.withInner, List.map_cons]
        exact hduring.cons _
      | ok key =>
        -- the creation itself comes last in the history and first among the answers
        rw [history_create_of_ok hactive, hrun, List.map_append]
        simp only [Step.atOnce, Step.event, hrun, Answer.withInner, List.map_cons]
        exact List.perm_append_comm.trans (hduring.cons _)
  | .take id, r => .refl _
  | .remove id, r => .refl _
  | .contains id, r => .refl _

/-- The history of a program has the replies of all its steps, at any depth. -/
theorem replies_historyAll_perm : ∀ (steps : List Step) (r : Registry),
    ((historyAll steps r).map Event.reply).Perm ((allAnswers (runAll steps r)).map Answer.reply)
  | [], _ => .refl _
  | step :: steps, r => by
    have hrest := replies_historyAll_perm steps (step.run r).after
    simp only [historyAll, runAll, allAnswers, List.map_append]
    exact (replies_history_perm step r).append hrest

end

/-! ## Programs that look at their answers -/

/-- A program that looks at each answer before it goes on. A generator is such a program, and returns
the key that it has made. -/
inductive Program
  | done (made : Except Error PollKey)
  | create (id : String) (generator : Program) (next : Except Error PollKey → Program)
  | take (id : String) (next : Except Error PollKey → Program)
  | remove (id : String) (next : Bool → Program)
  | contains (id : String) (next : Bool → Program)

/-- What a program returns, the registry after it, and its answers. -/
def Program.run : Program → Registry → Except Error PollKey × Registry × List Answer
  | done made, r => (made, r, [])
  | create id generator next, r =>
    let created := r.create id generator.run
    let (made, after, answers) := (next created.outcome).run created.registry
    (made, after, .created created.outcome created.left created.registry :: answers)
  | take id next, r =>
    let (made, after, answers) := (next (r.take id).1).run (r.take id).2
    (made, after, .taken (r.take id).1 (r.take id).2 :: answers)
  | remove id next, r =>
    let (made, after, answers) := (next (r.remove id).1).run (r.remove id).2
    (made, after, .removed (r.remove id).1 (r.remove id).2 :: answers)
  | contains id next, r =>
    let (made, after, answers) := (next (r.contains id)).run r
    (made, after, .contained (r.contains id) r :: answers)

/-- The steps that a program comes to take from a registry on. -/
def Program.steps : Program → Registry → List Step
  | done _, _ => []
  | create id generator next, r =>
    let created := r.create id generator.run
    .create id (generator.steps r) (generator.run r).1 ::
      (next created.outcome).steps created.registry
  | take id next, r => .take id :: (next (r.take id).1).steps (r.take id).2
  | remove id next, r => .remove id :: (next (r.remove id).1).steps (r.remove id).2
  | contains id next, r => .contains id :: (next (r.contains id)).steps r

theorem create_congr {α : Type} {generate generate' : Registry → Except Error PollKey × Registry × α}
    (h : generate r = generate' r) (id : String) : r.create id generate = r.create id generate' := by
  simp only [create, h]

/-- From one registry on, a program is the steps that it comes to take. -/
theorem Program.run_eq_runAll (program : Program) (r : Registry) :
    (program.run r).2 =
      (afterAll r (runAll (program.steps r) r), runAll (program.steps r) r) := by
  induction program generalizing r with
  | done made => rfl
  | create id generator next hgenerator hnext =>
    have hcreated : r.create id generator.run = r.create id fun r' =>
        ((generator.run r).1, afterAll r' (runAll (generator.steps r) r'),
          runAll (generator.steps r) r') := by
      refine create_congr ?_ id
      exact Prod.ext rfl (hgenerator r)
    have hrest := hnext (r.create id generator.run).outcome (r.create id generator.run).registry
    simp only [Program.run, Program.steps, runAll, Step.run, ← hcreated, hrest]
    rfl
  | take id next hnext =>
    have hrest := hnext (r.take id).1 (r.take id).2
    simp only [Program.run, Program.steps, runAll, Step.run, hrest]
    rfl
  | remove id next hnext =>
    have hrest := hnext (r.remove id).1 (r.remove id).2
    simp only [Program.run, Program.steps, runAll, Step.run, hrest]
    rfl
  | contains id next hnext =>
    have hrest := hnext (r.contains id) r
    simp only [Program.run, Program.steps, runAll, Step.run, hrest]
    rfl

/-- **Programs over a registry are flat sequences of operations on a plain map.** The generators of a
program run steps of their own, nested to any depth. On a plain map its operations, in the order of
its history, have the replies of all these steps and leave the same maps behind, and the last map is
that of the registry after the program. A generator is called if its poll is not active. A program that
looks at its answers before it goes on is, from each registry on, such a program. -/
theorem program_linearises (r : Registry) :
    (∀ steps : List Step,
      let history := historyAll steps r
      replay r.get? (history.map Event.op) = history.map (fun e => (e.reply, e.after.get?)) ∧
      finalMap r.get? (history.map Event.op) = (afterAll r (runAll steps r)).get? ∧
      (history.map Event.reply).Perm ((allAnswers (runAll steps r)).map Answer.reply)) ∧
    (∀ id during made,
      (r.contains id = true → (Step.create id during made).run r =
        .created (.error (.pollAlreadyActive id)) none r) ∧
      (r.contains id = false → ∃ outcome after, (Step.create id during made).run r =
        .created outcome (some (runAll during r)) after)) ∧
    ∀ program : Program, (program.run r).2 =
      (afterAll r (runAll (program.steps r) r), runAll (program.steps r) r) := by
  refine ⟨fun steps => ?_, fun id during made => ⟨?_, ?_⟩, fun program => program.run_eq_runAll r⟩
  · have hleads := leads_historyAll steps r
    exact ⟨hleads.replay_eq, hleads.finalMap_eq, replies_historyAll_perm steps r⟩
  · exact fun h => run_create_of_active h during made
  · exact fun h => exists_run_create h during made

end SealedPoll.Registry
