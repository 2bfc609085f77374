import SealedPoll.Proofs.Service
import SealedPoll.Service.Program

/-!
# Spreading batches over workers

The options for batches and the number of cores decide how votes are spread over workers, and nothing
else.

* `Service.respread` : the same service with other options on another machine; each step and each run
  has the same results there (`Service.run_step_respread`, `Service.run_respread`);
* `Observation` : what can be seen of a request;
* `Service.spread_irrelevant` : no vote and no run is answered differently.
-/

namespace SealedPoll

/-- The same result of a service with other options on a machine with other cores. -/
def Result.respread {α : Type} (r : Result α) (options : Batch.Options) (cores : Nat) : Result α :=
  ⟨r.answer, r.log, { r.after with options, cores }⟩

/-- What can be seen of a request: its answer and log, the polls it leaves active with their keys,
and the random bytes it leaves. -/
structure Observation where
  answer : Service.Reply
  log : List LogEvent
  polls : Registry
  random : RandomSource

/-- What can be seen of a result. -/
def Result.observation (r : Result Service.Reply) : Observation :=
  ⟨r.answer, r.log, r.after.polls, r.after.random⟩

namespace Service

variable (s : Service) (options : Batch.Options) (cores : Nat)

/-- The same service with other options on a machine with other cores. -/
def respread : Service := { s with options, cores }

/-! ## One step -/

theorem start_respread (id : String) :
    (s.respread options cores).start id = (s.start id).respread options cores := by
  cases hactive : s.isActive id with
  | true => rw [start_of_active hactive, start_of_active (s := s.respread options cores) hactive]; rfl
  | false =>
    by_cases hrandom : s.random.size < 32
    · rw [start_of_exhausted hactive hrandom,
        start_of_exhausted (s := s.respread options cores) hactive hrandom]
      rfl
    · obtain ⟨secret, -, hdraw⟩ := PollKey.draw_of_le (Nat.not_lt.1 hrandom)
      rw [start_of_draw hactive hdraw, start_of_draw (s := s.respread options cores) hactive hdraw]
      rfl

theorem stop_respread (id : String) (votes : List Bytes) :
    (s.respread options cores).stop id votes = (s.stop id votes).respread options cores := by
  cases hheld : s.polls.get? id with
  | none =>
    have hactive : s.isActive id = false := isActive_eq_false_iff.2 hheld
    rw [stop_of_inactive hactive, stop_of_inactive (s := s.respread options cores) hactive]
    rfl
  | some secret =>
    rw [stop_of_held hheld, stop_of_held (s := s.respread options cores) hheld]
    rfl

theorem run_step_respread (step : Step) :
    step.run (s.respread options cores) = (step.run s).respread options cores := by
  cases step with
  | start id =>
    rw [Step.run, start_respread]
    rfl
  | stop id votes =>
    rw [Step.run, stop_respread]
    rfl
  | clear id => rfl
  | isActive id => rfl
  | publicKey => rfl
  | sign data => rfl

/-! ## Runs -/

/-- A run on the respread service has the results of the run, respread. -/
theorem run_respread (steps : List Step) :
    (s.respread options cores).run steps = (s.run steps).map (·.respread options cores) := by
  induction steps generalizing s with
  | nil => rfl
  | cons step steps ih =>
    simp only [run, List.map_cons, run_step_respread]
    exact congrArg _ (ih (step.run s).after)

/-- **How batches are spread over workers is not seen.** Chunks opened at the same time answer as the
votes opened one after the other do, and runs of services that differ in their options and cores only
look the same. -/
theorem spread_irrelevant :
    (∀ (options : Batch.Options) (cores : Nat) (secret : PollKey) (votes : List Bytes),
      Batch.openAll options cores secret votes = Batch.openFrom secret 0 votes) ∧
    ∀ (mainKey : MainKey) (random : RandomSource) (options options' : Batch.Options)
      (cores cores' : Nat) (steps : List Step),
      ((new mainKey options cores random).run steps).map Result.observation =
        ((new mainKey options' cores' random).run steps).map Result.observation := by
  refine ⟨Batch.openAll_eq_openFrom, fun mainKey random options options' cores cores' steps => ?_⟩
  have hrun := run_respread (new mainKey options cores random) options' cores' steps
  rw [show (new mainKey options cores random).respread options' cores' =
    new mainKey options' cores' random from rfl] at hrun
  rw [hrun, List.map_map]
  rfl

end Service

end SealedPoll
