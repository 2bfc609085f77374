import SealedPoll.Proofs.Service.History

/-!
# The life of polls

The polls that a run has started account for the random script (`Accounted`): the `k`-th of them, the
first being number 0, took the bytes `32 k` to `32 k + 31`, and what follows them is left. A step keeps
this (`accounted_run`), and so does a run (`accounted_afterAll`).

* `scriptBlock` : the bytes of one poll; `LastBirth` : the number of the latest start of a poll;
* `Draws` : the positions of the script that a start hands out;
* `lifecycle` : when a poll is active, when a start fails, which bytes each poll lives on, and how
  many are left.
-/

namespace SealedPoll.Service

/-- The bytes `32 k` to `32 k + 31` of a script. -/
def scriptBlock (script : Bytes) (k : Nat) : Bytes := (script.drop (32 * k)).take 32

/-- Number `k` of the polls that were started is this one, and none that was started later is. -/
def LastBirth (births : List String) (id : String) (k : Nat) : Prop :=
  births[k]? = some id ∧ ∀ m, k < m → births[m]? ≠ some id

/-- A start of the poll hands out position `i` of a script of `total` bytes. -/
def Draws (total : Nat) (s : Service) (id : String) (i : Nat) : Prop :=
  total - s.random.size ≤ i ∧ i < total - (s.start id).after.random.size

/-- The polls started so far account for the script: what is left of it, and the keys held. -/
structure Accounted (script : Bytes) (births : List String) (s : Service) : Prop where
  fits : 32 * births.length ≤ script.length
  left : s.random.bytes = script.drop (32 * births.length)
  held : ∀ id secret, s.polls.get? id = some secret →
    ∃ k, LastBirth births id k ∧ secret.bytes.toList = scriptBlock script k

variable {s : Service} {id : String} {script : Bytes} {births : List String}

/-! ## The latest start of a poll -/

theorem lastBirth_concat (births : List String) (id : String) :
    LastBirth (births ++ [id]) id births.length := by
  refine ⟨by simp, fun m hm => ?_⟩
  rw [List.getElem?_eq_none (by simp; omega)]
  simp

theorem lt_length_of_lastBirth {k : Nat} (h : LastBirth births id k) : k < births.length := by
  obtain ⟨hlt, -⟩ := List.getElem?_eq_some_iff.1 h.1
  exact hlt

theorem LastBirth.concat {k : Nat} (h : LastBirth births id k) {other : String} (hne : id ≠ other) :
    LastBirth (births ++ [other]) id k := by
  have hk := lt_length_of_lastBirth h
  refine ⟨by rw [List.getElem?_append_left hk]; exact h.1, fun m hm => ?_⟩
  rcases Nat.lt_trichotomy m births.length with hlt | rfl | hgt
  · rw [List.getElem?_append_left hlt]
    exact h.2 m hm
  · simpa using Ne.symm hne
  · rw [List.getElem?_eq_none (by simp; omega)]
    simp

/-! ## The account of a run -/

theorem accounted_new (mainKey : MainKey) (options : Batch.Options) (cores : Nat)
    (random : RandomSource) : Accounted random.bytes [] (new mainKey options cores random) :=
  ⟨Nat.zero_le _, rfl, fun _ _ h => by simp [new] at h⟩

theorem Accounted.size_add (h : Accounted script births s) :
    s.random.size + 32 * births.length = script.length := by
  have hfits := h.fits
  rw [RandomSource.size, h.left, List.length_drop]
  omega

theorem accounted_run (h : Accounted script births s) (step : Step) :
    Accounted script (births ++ step.births s) (step.run s).after := by
  rcases run_step_cases s step with ⟨other, rfl, hother⟩ | hidle
  · obtain ⟨fresh, hfresh, hstart⟩ := exists_start hother
    obtain ⟨hinactive, hrandom⟩ := starts_iff.1 hother
    have hsize := h.size_add
    rw [births_start hother, after_run_start, hstart]
    refine ⟨by simp; omega, ?_, fun id secret hheld => ?_⟩
    · simp only [h.left, List.drop_drop, List.length_append, List.length_singleton]
      congr 1
    · -- the poll that was started holds the new block, the others keep theirs
      simp only [Registry.get?_insertNew hinactive] at hheld
      split at hheld
      · next hid =>
        subst hid
        cases hheld
        refine ⟨births.length, lastBirth_concat births id, ?_⟩
        rw [hfresh, h.left, scriptBlock]
      · next hid =>
        obtain ⟨k, hk, hsecret⟩ := h.held id secret hheld
        exact ⟨k, hk.concat hid, hsecret⟩
  · rw [hidle.births, List.append_nil]
    refine ⟨h.fits, by rw [hidle.after]; exact h.left, fun id secret hheld => ?_⟩
    by_cases hends : step.Ends id
    · rw [hidle.ended id hends] at hheld
      cases hheld
    · rw [hidle.kept id hends] at hheld
      exact h.held id secret hheld

theorem accounted_afterAll (h : Accounted script births s) (steps : List Step) :
    Accounted script (births ++ s.births steps) (s.afterAll steps) := by
  induction steps generalizing s births with
  | nil => simpa [Service.births] using h
  | cons step steps ih =>
    have hrest := ih (accounted_run h step)
    rwa [List.append_assoc] at hrest

/-- A start that succeeds stores the next block of the script. -/
theorem Accounted.start (h : Accounted script births s) (hstarts : s.Starts id) :
    ∃ secret : PollKey, (s.start id).after.polls.get? id = some secret ∧
      secret.bytes.toList = scriptBlock script births.length := by
  obtain ⟨secret, hsecret, hstart⟩ := exists_start hstarts
  refine ⟨secret, ?_, by rw [hsecret, h.left, scriptBlock]⟩
  rw [hstart]
  exact Registry.get?_insertNew_self (starts_iff.1 hstarts).1 secret

/-- The positions handed out are those of the block. -/
theorem Accounted.draws_iff (h : Accounted script births s) (hstarts : s.Starts id) (i : Nat) :
    Draws script.length s id i ↔ 32 * births.length ≤ i ∧ i < 32 * births.length + 32 := by
  obtain ⟨secret, -, hstart⟩ := exists_start hstarts
  have hsize := h.size_add
  have hrandom := (starts_iff.1 hstarts).2
  have hafter : (s.start id).after.random.size = s.random.size - 32 := by
    rw [hstart]
    exact List.length_drop
  rw [Draws, hafter]
  omega

/-- Two starts of one run that succeed hand out different positions. -/
theorem not_draws_twice {fresh : Service} (h : Accounted script [] fresh) {earlier later : List Step}
    {other : String} (hother : (fresh.afterAll earlier).Starts other)
    (hid : (fresh.afterAll (earlier ++ .start other :: later)).Starts id) (i : Nat) :
    ¬ (Draws script.length (fresh.afterAll earlier) other i ∧
      Draws script.length (fresh.afterAll (earlier ++ .start other :: later)) id i) := by
  -- the second start has the larger number, so its block comes after that of the first
  have hfirst := accounted_afterAll h earlier
  have hsecond := accounted_afterAll h (earlier ++ .start other :: later)
  have hlonger : (fresh.births earlier).length <
      (fresh.births (earlier ++ .start other :: later)).length := by
    rw [births_append, Service.births, births_start hother]
    simp
  rw [List.nil_append] at hfirst hsecond
  rw [hfirst.draws_iff hother, hsecond.draws_iff hid]
  omega

/-- **The life of polls**, over any run of a new service up to any moment. The poll is active if a
start of it succeeded and no later step ended it. A start fails if the poll is active or fewer than 32
bytes are left, and then changes nothing. A start that succeeds stores the block of the script whose
number is that of the starts before it; the poll is stopped with the block of its latest start, and no
two starts share a position. What is left is what the starts did not take. -/
theorem lifecycle (mainKey : MainKey) (options : Batch.Options) (cores : Nat) (random : RandomSource)
    (steps : List Step) (id : String) :
    let fresh := new mainKey options cores random
    let s := fresh.afterAll steps
    let births := fresh.births steps
    (s.isActive id = true ↔ ∃ earlier later, steps = earlier ++ .start id :: later ∧
      (fresh.afterAll earlier).Starts id ∧ ∀ step ∈ later, ¬ step.Ends id) ∧
    ((∃ e, (s.start id).answer = .error e) ↔ s.isActive id = true ∨ s.random.size < 32) ∧
    (s.isActive id = true → s.start id = ⟨.error (.pollAlreadyActive id), [], s⟩) ∧
    (s.isActive id = false → s.random.size < 32 →
      s.start id = ⟨.error RandomSource.exhausted, [], s⟩) ∧
    (s.Starts id →
      (∃ secret, (s.start id).after.polls.get? id = some secret ∧
        secret.bytes.toList = scriptBlock random.bytes births.length) ∧
      ∀ i, Draws random.size s id i ↔ 32 * births.length ≤ i ∧ i < 32 * births.length + 32) ∧
    (s.isActive id = true → ∃ k secret, LastBirth births id k ∧
      secret.bytes.toList = scriptBlock random.bytes k ∧
      ∀ votes, (s.stop id votes).answer = tally mainKey secret votes) ∧
    (∀ earlier later other, steps = earlier ++ .start other :: later →
      (fresh.afterAll earlier).Starts other → s.Starts id →
      ∀ i, ¬ (Draws random.size (fresh.afterAll earlier) other i ∧ Draws random.size s id i)) ∧
    s.random.size + 32 * births.length = random.size := by
  intro fresh s births
  have hfresh := accounted_new mainKey options cores random
  have haccount : Accounted random.bytes births s := accounted_afterAll hfresh steps
  refine ⟨?_, start_fails_iff, start_of_active, start_of_exhausted,
    fun h => ⟨haccount.start h, haccount.draws_iff h⟩, fun hactive => ?_, ?_, haccount.size_add⟩
  · have hnone : ¬ fresh.isActive id = true := by
      simp [fresh, new, isActive, Registry.contains]
    simp [s, isActive_afterAll_iff, hnone]
  · obtain ⟨secret, hheld⟩ := isActive_iff.1 hactive
    obtain ⟨k, hk, hsecret⟩ := haccount.held id secret hheld
    have hmain : s.mainKey = mainKey := mainKey_afterAll fresh steps
    refine ⟨k, secret, hk, hsecret, fun votes => ?_⟩
    rw [stop_of_held hheld, hmain]
  · rintro earlier later other rfl hother hid
    exact not_draws_twice hfresh hother hid

end SealedPoll.Service
