import SealedPoll.Registry

/-!
# Programs over a registry

* `Step` : one operation; the generator of a creation runs steps of its own on the registry before
  it returns, nested to any depth;
* `Answer` : what a step answers, with the registry after it;
* `Step.run`, `runAll` : the answers of a program from a registry on, and `afterAll` the registry
  they end in;
* `Step.ids` : the polls that a step mentions.
-/

namespace SealedPoll.Registry

/-- An operation on a registry. -/
inductive Step
  /-- A new poll; its generator runs `during` and then returns `made`. -/
  | create (id : String) (during : List Step) (made : Except Error PollKey)
  | take (id : String)
  | remove (id : String)
  | contains (id : String)

mutual

/-- The polls that an operation mentions, its own first. -/
def Step.ids : Step → List String
  | .create id during _ => id :: idsOf during
  | .take id => [id]
  | .remove id => [id]
  | .contains id => [id]

/-- The polls that operations mention, in order. -/
def idsOf : List Step → List String
  | [] => []
  | step :: steps => step.ids ++ idsOf steps

end

/-- What an operation answers, with the registry after it. -/
inductive Answer
  /-- The answers of the generator's steps are there if it was called. -/
  | created (outcome : Except Error PollKey) (during : Option (List Answer)) (after : Registry)
  | taken (outcome : Except Error PollKey) (after : Registry)
  | removed (found : Bool) (after : Registry)
  | contained (found : Bool) (after : Registry)

/-- The registry after an operation. -/
def Answer.after : Answer → Registry
  | created _ _ r => r
  | taken _ r => r
  | removed _ r => r
  | contained _ r => r

/-- The registry after operations with these answers, of which there may be none. -/
def afterAll (r : Registry) (answers : List Answer) : Registry :=
  answers.foldl (fun _ answer => answer.after) r

mutual

/-- The answer of one operation. -/
def Step.run : Step → Registry → Answer
  | .create id during made, r =>
    let created := r.create id fun r =>
      let answers := runAll during r
      (made, afterAll r answers, answers)
    .created created.outcome created.left created.registry
  | .take id, r =>
    let (outcome, after) := r.take id
    .taken outcome after
  | .remove id, r =>
    let (found, after) := r.remove id
    .removed found after
  | .contains id, r => .contained (r.contains id) r

/-- The answers of operations one after the other. -/
def runAll : List Step → Registry → List Answer
  | [], _ => []
  | step :: steps, r =>
    let answer := step.run r
    answer :: runAll steps answer.after

end

end SealedPoll.Registry
