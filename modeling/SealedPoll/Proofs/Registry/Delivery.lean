import SealedPoll.Proofs.Registry.Linear

/-!
# Keys are handed out once

The history of a program from the empty registry on, as the changes that its operations make: a poll is
created, or its key is taken or removed (`Change`, `changes`).

* `encard_contains` : the size of a registry is the number of its active polls;
* `event_cases` : what an operation that takes effect does to the registry, said once;
* `Leads.size_add` : creations less takings less removals are the active polls;
* `Leads.createdLast` : an active poll was created with its key, and not changed since;
* `get?_of_still_active` : a poll that stays active keeps its key;
* `keys_delivered_once` : all this at every moment of a program, inside its generators too.
-/

namespace SealedPoll.Registry

/-- What an operation changes. -/
inductive Change
  | created (id : String) (key : PollKey)
  | taken (id : String) (key : PollKey)
  | removed (id : String)

namespace Change

/-- The poll that is changed. -/
def poll : Change → String
  | created id _ => id
  | taken id _ => id
  | removed id => id

def isCreation : Change → Bool
  | created _ _ => true
  | taken _ _ | removed _ => false

def isTaking : Change → Bool
  | taken _ _ => true
  | created _ _ | removed _ => false

def isRemoval : Change → Bool
  | removed _ => true
  | created _ _ | taken _ _ => false

/-- The change turns one plain map into another: a poll without a key gets one, or one with a key
loses it. -/
def Turns (m m' : PlainMap) : Change → Prop
  | created id key => m id = none ∧ m' = Function.update m id (some key)
  | taken id key => m id = some key ∧ m' = Function.update m id none
  | removed id => (∃ key, m id = some key) ∧ m' = Function.update m id none

end Change

/-- What an operation that took effect has changed. One that failed, or that found no poll to remove,
changes nothing. -/
def Event.change? (e : Event) : Option Change :=
  match e.op, e.reply with
  | .create id _, .key (.ok key) => some (.created id key)
  | .take id, .key (.ok key) => some (.taken id key)
  | .remove id, .found true => some (.removed id)
  | _, _ => none

/-- The changes of a history. -/
def changes (events : List Event) : List Change := events.filterMap Event.change?

/-- The registry after the events of a history. -/
def registryAfter (r : Registry) (events : List Event) : Registry :=
  events.foldl (fun _ e => e.after) r

/-- Change `j` hands out the key that change `i` created, and no change between them is about the
poll. -/
structure Delivers (cs : List Change) (i j : Nat) (id : String) (key : PollKey) : Prop where
  lt : i < j
  created : cs[i]? = some (.created id key)
  taken : cs[j]? = some (.taken id key)
  between : ∀ k c, i < k → k < j → cs[k]? = some c → c.poll ≠ id

variable {r r' : Registry} {id : String} {key : PollKey}

/-! ## Sizes -/

/-- The size of a registry is the number of its active polls. -/
theorem encard_contains (r : Registry) : {id | r.contains id = true}.encard = r.size := by
  have hset : {id | r.contains id = true} = ((r.entries.map Prod.fst).toFinset : Set String) := by
    ext id
    rw [Set.mem_ofPred_eq, ← Bool.not_eq_false, contains_eq_false_iff]
    simp
  have hnodup : (r.entries.map Prod.fst).Nodup := List.pairwise_map.2 r.distinct
  rw [hset, Set.encard_coe_eq_coe_finsetCard, List.toFinset_card_of_nodup hnodup, List.length_map]
  rfl

theorem isEmpty_iff (r : Registry) : r.isEmpty = true ↔ r.size = 0 := by
  rw [isEmpty, size, List.isEmpty_iff, List.length_eq_zero_iff]

theorem setOf_contains (r : Registry) :
    {id | r.contains id = true} = {id | (r.get? id).isSome = true} := rfl

theorem size_of_get?_eq (h : r'.get? = r.get?) : r'.size = r.size := by
  have hcount : (r'.size : ENat) = r.size := by
    rw [← encard_contains, ← encard_contains, setOf_contains, setOf_contains, h]
  exact_mod_cast hcount

theorem size_of_update_some (hnone : r.get? id = none)
    (h : r'.get? = Function.update r.get? id (some key)) : r'.size = r.size + 1 := by
  have hset : {other | r'.contains other = true} = insert id {other | r.contains other = true} := by
    ext other
    rw [setOf_contains, setOf_contains, h]
    by_cases hother : other = id <;> simp [Function.update_apply, hother]
  have hnew : id ∉ {other | r.contains other = true} := by simp [contains, hnone]
  have hcount : (r'.size : ENat) = r.size + 1 := by
    rw [← encard_contains, ← encard_contains, hset, Set.encard_insert_of_notMem hnew]
  exact_mod_cast hcount

theorem size_of_update_none (hsome : r.get? id = some key)
    (h : r'.get? = Function.update r.get? id none) : r'.size + 1 = r.size := by
  have hnone : r'.get? id = none := by rw [h, Function.update_self]
  have hback : r.get? = Function.update r'.get? id (some key) := by
    rw [h, Function.update_idem, ← hsome, Function.update_eq_self]
  exact (size_of_update_some hnone hback).symm

/-! ## One operation -/

/-- What an operation that takes effect does. -/
theorem event_cases {e : Event} (h : e.op.apply r.get? = (e.reply, e.after.get?)) :
    (e.change? = none ∧ e.after.get? = r.get?) ∨
      ∃ c, e.change? = some c ∧ c.Turns r.get? e.after.get? := by
  obtain ⟨op, reply, after⟩ := e
  simp only at h ⊢
  cases op with
  | create id made =>
    cases hget : r.get? id with
    | some old =>
      simp only [Op.apply, hget, Prod.mk.injEq] at h
      obtain ⟨rfl, hafter⟩ := h
      exact Or.inl ⟨rfl, hafter.symm⟩
    | none =>
      cases made with
      | error e =>
        simp only [Op.apply, hget, Prod.mk.injEq] at h
        obtain ⟨rfl, hafter⟩ := h
        exact Or.inl ⟨rfl, hafter.symm⟩
      | ok key =>
        simp only [Op.apply, hget, Prod.mk.injEq] at h
        obtain ⟨rfl, hafter⟩ := h
        exact Or.inr ⟨_, rfl, hget, hafter.symm⟩
  | take id =>
    cases hget : r.get? id with
    | some key =>
      simp only [Op.apply, hget, Prod.mk.injEq] at h
      obtain ⟨rfl, hafter⟩ := h
      exact Or.inr ⟨_, rfl, hget, hafter.symm⟩
    | none =>
      simp only [Op.apply, hget, Prod.mk.injEq] at h
      obtain ⟨rfl, hafter⟩ := h
      exact Or.inl ⟨rfl, hafter.symm⟩
  | remove id =>
    cases hget : r.get? id with
    | some key =>
      simp only [Op.apply, hget, Prod.mk.injEq] at h
      obtain ⟨rfl, hafter⟩ := h
      exact Or.inr ⟨_, rfl, ⟨key, hget⟩, hafter.symm⟩
    | none =>
      simp only [Op.apply, hget, Prod.mk.injEq] at h
      obtain ⟨rfl, hafter⟩ := h
      refine Or.inl ⟨rfl, ?_⟩
      rw [← hafter, ← hget, Function.update_eq_self]
  | contains id =>
    simp only [Op.apply, Prod.mk.injEq] at h
    obtain ⟨rfl, hafter⟩ := h
    exact Or.inl ⟨rfl, hafter.symm⟩

theorem Change.Turns.of_ne {c : Change} {m m' : PlainMap} (h : c.Turns m m') (hne : c.poll ≠ id) :
    m' id = m id := by
  cases c with
  | created other key => rw [h.2]; exact Function.update_of_ne (Ne.symm hne) _ _
  | taken other key => rw [h.2]; exact Function.update_of_ne (Ne.symm hne) _ _
  | removed other => rw [h.2]; exact Function.update_of_ne (Ne.symm hne) _ _

/-- A poll that has a key after a change to it was created by the change. -/
theorem Change.Turns.eq_created {c : Change} {m m' : PlainMap} (h : c.Turns m m')
    (hpoll : c.poll = id) (hkey : m' id = some key) : c = .created id key := by
  subst hpoll
  cases c with
  | created other new =>
    rw [h.2, poll, Function.update_self] at hkey
    rw [poll, Option.some.inj hkey]
  | taken other old => rw [h.2, poll, Function.update_self] at hkey; cases hkey
  | removed other => rw [h.2, poll, Function.update_self] at hkey; cases hkey

theorem Change.Turns.size_add {c : Change} (h : c.Turns r.get? r'.get?) :
    r'.size + c.isTaking.toNat + c.isRemoval.toNat = r.size + c.isCreation.toNat := by
  cases c with
  | created id key => exact size_of_update_some h.1 h.2
  | taken id key => exact size_of_update_none h.1 h.2
  | removed id =>
    obtain ⟨⟨key, hkey⟩, hafter⟩ := h
    exact size_of_update_none hkey hafter

/-- A poll that is active before and after an operation keeps its key. -/
theorem get?_of_event {e : Event} (h : e.op.apply r.get? = (e.reply, e.after.get?))
    (hkey : r.get? id = some key) (hactive : e.after.contains id = true) :
    e.after.get? id = some key := by
  rcases event_cases h with ⟨-, hafter⟩ | ⟨c, -, hturns⟩
  · rw [hafter, hkey]
  · by_cases hpoll : c.poll = id
    · obtain ⟨new, hnew⟩ := exists_get?_of_contains hactive
      obtain rfl := hturns.eq_created hpoll hnew
      rw [hturns.1] at hkey
      cases hkey
    · rw [hturns.of_ne hpoll, hkey]

/-! ## Histories -/

theorem Leads.registryAfter_eq {events : List Event} (h : Leads r events r') :
    registryAfter r events = r' := by
  induction events generalizing r with
  | nil => exact h
  | cons e events ih => exact ih h.2

theorem Leads.split {xs ys : List Event} (h : Leads r (xs ++ ys) r') :
    Leads r xs (registryAfter r xs) ∧ Leads (registryAfter r xs) ys r' := by
  induction xs generalizing r with
  | nil => exact ⟨rfl, h⟩
  | cons e xs ih =>
    obtain ⟨hfront, hback⟩ := ih h.2
    exact ⟨⟨h.1, hfront⟩, hback⟩

theorem changes_cons_of_none {e : Event} (h : e.change? = none) (events : List Event) :
    changes (e :: events) = changes events :=
  List.filterMap_cons_none h

theorem changes_cons_of_some {e : Event} {c : Change} (h : e.change? = some c)
    (events : List Event) : changes (e :: events) = c :: changes events :=
  List.filterMap_cons_some h

theorem countP_cons_toNat (p : Change → Bool) (c : Change) (cs : List Change) :
    (c :: cs).countP p = cs.countP p + (p c).toNat := by
  rw [List.countP_cons]
  cases p c <;> rfl

/-- The polls created are those taken, those removed and those still active. -/
theorem Leads.size_add {events : List Event} (h : Leads r events r') :
    r'.size + (changes events).countP Change.isTaking + (changes events).countP Change.isRemoval =
      r.size + (changes events).countP Change.isCreation := by
  induction events generalizing r with
  | nil =>
    obtain rfl : r = r' := h
    rfl
  | cons e events ih =>
    have hrest := ih h.2
    rcases event_cases h.1 with ⟨hnone, hafter⟩ | ⟨c, hsome, hturns⟩
    · rw [changes_cons_of_none hnone, ← size_of_get?_eq hafter]
      exact hrest
    · have hsize := hturns.size_add
      simp only [changes_cons_of_some hsome, countP_cons_toNat]
      omega

/-- The poll was created with the key, and has not been changed since. -/
def CreatedLast (cs : List Change) (id : String) (key : PollKey) : Prop :=
  ∃ front back, cs = front ++ .created id key :: back ∧ ∀ c ∈ back, c.poll ≠ id

theorem CreatedLast.cons {cs : List Change} (h : CreatedLast cs id key) (c : Change) :
    CreatedLast (c :: cs) id key := by
  obtain ⟨front, back, rfl, hback⟩ := h
  exact ⟨c :: front, back, rfl, hback⟩

/-- An active poll was created last with its key, or had this key before and was not changed. -/
theorem Leads.createdLast_or {events : List Event} (h : Leads r events r')
    (hkey : r'.get? id = some key) :
    CreatedLast (changes events) id key ∨
      (r.get? id = some key ∧ ∀ c ∈ changes events, c.poll ≠ id) := by
  induction events generalizing r with
  | nil =>
    obtain rfl : r = r' := h
    exact Or.inr ⟨hkey, by simp [changes]⟩
  | cons e events ih =>
    rcases event_cases h.1 with ⟨hnone, hafter⟩ | ⟨c, hsome, hturns⟩
    · rw [changes_cons_of_none hnone, ← hafter]
      exact ih h.2
    · rw [changes_cons_of_some hsome]
      rcases ih h.2 with hlast | ⟨hbefore, hrest⟩
      · exact Or.inl (hlast.cons c)
      · by_cases hpoll : c.poll = id
        · obtain rfl := hturns.eq_created hpoll hbefore
          exact Or.inl ⟨[], changes events, rfl, hrest⟩
        · rw [hturns.of_ne hpoll] at hbefore
          exact Or.inr ⟨hbefore, by simpa [hpoll] using hrest⟩

/-- A poll that is active after a history of the empty registry was created last with its key. -/
theorem Leads.createdLast {events : List Event} (h : Leads empty events r')
    (hkey : r'.get? id = some key) : CreatedLast (changes events) id key := by
  rcases h.createdLast_or hkey with hlast | ⟨hempty, -⟩
  · exact hlast
  · cases hempty

/-- A change is that of an event, and those before it are those of the events before. -/
theorem exists_event_of_change {events : List Event} {j : Nat} {c : Change}
    (h : (changes events)[j]? = some c) :
    ∃ front e back, events = front ++ e :: back ∧ changes front = (changes events).take j ∧
      e.change? = some c := by
  obtain ⟨hj, hget⟩ := List.getElem?_eq_some_iff.1 h
  have hcut : changes events = (changes events).take j ++ c :: (changes events).drop (j + 1) := by
    rw [← hget, ← List.drop_eq_getElem_cons hj, List.take_append_drop]
  obtain ⟨front, rest, hevents, hfront, hrest⟩ := List.filterMap_eq_append_iff.1 hcut
  obtain ⟨idle, e, back, rfl, hidle, he, -⟩ := List.filterMap_eq_cons_iff.1 hrest
  refine ⟨front ++ idle, e, back, by rw [hevents, List.append_assoc], ?_, he⟩
  rw [← hfront, changes, List.filterMap_append, List.filterMap_eq_nil_iff.2 hidle, List.append_nil]

/-- A poll whose key is handed out was created last with it. -/
theorem Leads.createdLast_of_taken {events : List Event} (h : Leads empty events r') {j : Nat}
    (htaken : (changes events)[j]? = some (.taken id key)) :
    CreatedLast ((changes events).take j) id key := by
  obtain ⟨front, e, back, rfl, hfront, he⟩ := exists_event_of_change htaken
  obtain ⟨hbefore, happly, -⟩ := h.split
  rw [← hfront]
  apply hbefore.createdLast
  rcases event_cases happly with ⟨hnone, -⟩ | ⟨c, hc, hturns⟩
  · rw [he] at hnone
    cases hnone
  · rw [he] at hc
    cases hc
    exact hturns.1

theorem exists_delivers {cs : List Change} {j : Nat} (htaken : cs[j]? = some (.taken id key))
    (hlast : CreatedLast (cs.take j) id key) : ∃ i, Delivers cs i j id key := by
  obtain ⟨front, back, hcut, hback⟩ := hlast
  have hlength := congrArg List.length hcut
  rw [List.length_take, List.length_append, List.length_cons] at hlength
  have hsame : ∀ k < j, cs[k]? = (front ++ .created id key :: back)[k]? := fun k hk => by
    rw [← hcut, List.getElem?_take_of_lt hk]
  refine ⟨front.length, by omega, ?_, htaken, fun k c hik hkj hc => ?_⟩
  · rw [hsame _ (by omega), List.getElem?_append_right (Nat.le_refl _), Nat.sub_self]
    rfl
  · obtain ⟨m, rfl⟩ : ∃ m, k = front.length + (m + 1) := ⟨k - front.length - 1, by omega⟩
    rw [hsame _ hkj, List.getElem?_append_right (by omega), Nat.add_sub_cancel_left,
      List.getElem?_cons_succ] at hc
    exact hback c (List.mem_of_getElem? hc)

/-- A key that was created is handed out once. -/
theorem Delivers.eq_of_same {cs : List Change} {i j j' : Nat} {other : String} {key' : PollKey}
    (h : Delivers cs i j id key) (h' : Delivers cs i j' other key') : j = j' := by
  have hcreated := h.created.symm.trans h'.created
  simp only [Option.some.injEq, Change.created.injEq] at hcreated
  obtain ⟨rfl, rfl⟩ := hcreated
  rcases Nat.lt_trichotomy j j' with hlt | heq | hgt
  · exact absurd rfl (h'.between j _ h.lt hlt h.taken)
  · exact heq
  · exact absurd rfl (h.between j' _ h'.lt hgt h'.taken)

/-! ## Moments -/

/-- The registry after the first `k` events of a program that starts from the empty registry. -/
def moment (steps : List Step) (k : Nat) : Registry :=
  registryAfter empty ((historyAll steps empty).take k)

theorem leads_moment (steps : List Step) (k : Nat) :
    Leads empty ((historyAll steps empty).take k) (moment steps k) := by
  have hall := leads_historyAll steps empty
  rw [← List.take_append_drop k (historyAll steps empty)] at hall
  exact hall.split.1

/-- One moment follows another by an operation that takes effect, or the program is over. -/
theorem moment_succ (steps : List Step) (k : Nat) :
    moment steps (k + 1) = moment steps k ∨
      ∃ e : Event, e.op.apply (moment steps k).get? = (e.reply, e.after.get?) ∧
        moment steps (k + 1) = e.after := by
  by_cases hk : k < (historyAll steps empty).length
  · have hnext := leads_moment steps (k + 1)
    rw [List.take_succ_eq_append_getElem hk] at hnext
    obtain ⟨-, happly, hafter⟩ := hnext.split
    exact Or.inr ⟨_, happly, hafter.symm⟩
  · left
    rw [moment, moment, List.take_of_length_le (by omega), List.take_of_length_le (by omega)]

theorem get?_of_still_active (steps : List Step) {i j : Nat} (hij : i ≤ j)
    (hkey : (moment steps i).get? id = some key)
    (hactive : ∀ k, i ≤ k → k ≤ j → (moment steps k).contains id = true) :
    (moment steps j).get? id = some key := by
  induction j, hij using Nat.le_induction with
  | base => exact hkey
  | succ j hij ih =>
    have hbefore := ih fun k hik hkj => hactive k hik (by omega)
    rcases moment_succ steps j with hsame | ⟨e, happly, hafter⟩
    · rw [hsame, hbefore]
    · have hstill := hactive (j + 1) (by omega) (Nat.le_refl _)
      rw [hafter] at hstill ⊢
      exact get?_of_event happly hbefore hstill

/-- The registry after a step is one that its history passes. -/
theorem passes_last (step : Step) (r : Registry) :
    ∃ front back, step.history r = front ++ back ∧ (step.run r).after = registryAfter r front :=
  ⟨_, [], (List.append_nil _).symm, (leads_history step r).registryAfter_eq.symm⟩

mutual

/-- The registry after a step, or after one inside it, is one that its history passes. -/
theorem passes_history : ∀ (step : Step) (r : Registry), ∀ answer ∈ (step.run r).withInner,
    ∃ front back, step.history r = front ++ back ∧ answer.after = registryAfter r front
  | .create id during made, r => by
    have hown := passes_last (.create id during made) r
    have hduring := passes_historyAll during r
    intro answer hanswer
    cases hactive : r.contains id with
    | true =>
      rw [run_create_of_active hactive] at hanswer hown
      obtain rfl : answer = _ := by simpa [Answer.withInner] using hanswer
      exact hown
    | false =>
      obtain ⟨outcome, after, hrun⟩ := exists_run_create hactive during made
      rw [hrun] at hanswer hown
      rcases List.mem_cons.1 hanswer with rfl | hinner
      · exact hown
      · obtain ⟨front, back, hsplit, hafter⟩ := hduring answer hinner
        cases made with
        | error e =>
          rw [history_create_of_error hactive, hsplit]
          exact ⟨_ :: front, back, rfl, hafter⟩
        | ok key =>
          rw [history_create_of_ok hactive, hsplit]
          exact ⟨front, back ++ _, List.append_assoc .., hafter⟩
  | .take id, r => by
    intro answer hanswer
    obtain rfl : answer = (Step.take id).run r := by
      simpa [Step.run, Answer.withInner] using hanswer
    exact passes_last (.take id) r
  | .remove id, r => by
    intro answer hanswer
    obtain rfl : answer = (Step.remove id).run r := by
      simpa [Step.run, Answer.withInner] using hanswer
    exact passes_last (.remove id) r
  | .contains id, r => by
    intro answer hanswer
    obtain rfl : answer = (Step.contains id).run r := by
      simpa [Step.run, Answer.withInner] using hanswer
    exact passes_last (.contains id) r

/-- The registries after the steps of a program, at any depth, are ones that its history passes. -/
theorem passes_historyAll : ∀ (steps : List Step) (r : Registry),
    ∀ answer ∈ allAnswers (runAll steps r),
      ∃ front back, historyAll steps r = front ++ back ∧ answer.after = registryAfter r front
  | [], _ => by simp [runAll, allAnswers]
  | step :: steps, r => by
    intro answer hanswer
    rcases List.mem_append.1 hanswer with hfirst | hrest
    · obtain ⟨front, back, hsplit, hafter⟩ := passes_history step r answer hfirst
      exact ⟨front, back ++ _, by rw [historyAll, hsplit, List.append_assoc], hafter⟩
    · obtain ⟨front, back, hsplit, hafter⟩ :=
        passes_historyAll steps (step.run r).after answer hrest
      refine ⟨step.history r ++ front, back, by rw [historyAll, hsplit, List.append_assoc], ?_⟩
      rw [hafter, registryAfter, registryAfter, List.foldl_append]
      congr 1
      exact (leads_history step r).registryAfter_eq.symm

end

/-- **Keys are handed out once.** In a program from the empty registry on, whose generators run steps
of their own, nested to any depth: a key that is taken was created by the last change of the poll
before, byte for byte, and each creation is delivered by at most one taking. A poll that stays active
keeps its key. At every moment the size of the registry is the number of creations less those of
takings and removals, and the number of active polls. The moments include those after each step at any
depth. -/
theorem keys_delivered_once (steps : List Step) :
    let cs := changes (historyAll steps empty)
    (∀ j id key, cs[j]? = some (.taken id key) → ∃ i, Delivers cs i j id key) ∧
    (∀ i j j' id id' key key', Delivers cs i j id key → Delivers cs i j' id' key' → j = j') ∧
    (∀ i j id key, i ≤ j → (moment steps i).get? id = some key →
      (∀ k, i ≤ k → k ≤ j → (moment steps k).contains id = true) →
      (moment steps j).get? id = some key) ∧
    (∀ k, let soFar := changes ((historyAll steps empty).take k)
      (moment steps k).size + soFar.countP Change.isTaking + soFar.countP Change.isRemoval =
        soFar.countP Change.isCreation ∧
      {id | (moment steps k).contains id = true}.encard = (moment steps k).size ∧
      ((moment steps k).isEmpty = true ↔ (moment steps k).size = 0)) ∧
    ∀ answer ∈ allAnswers (runAll steps empty), ∃ k, answer.after = moment steps k := by
  intro cs
  have hleads := leads_historyAll steps empty
  refine ⟨fun j id key htaken => ?_, fun i j j' id id' key key' h h' => h.eq_of_same h',
    fun i j id key hij => get?_of_still_active steps hij, fun k => ?_, fun answer hanswer => ?_⟩
  · exact exists_delivers htaken (hleads.createdLast_of_taken htaken)
  · refine ⟨?_, encard_contains _, isEmpty_iff _⟩
    exact (leads_moment steps k).size_add.trans (Nat.zero_add _)
  · obtain ⟨front, back, hsplit, hafter⟩ := passes_historyAll steps empty answer hanswer
    refine ⟨front.length, ?_⟩
    rw [hafter, moment, hsplit, List.take_left]

end SealedPoll.Registry
