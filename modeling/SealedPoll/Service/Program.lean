import SealedPoll.Service

/-!
# Runs of the poll service

* `Service.Step` : one request; `Service.Reply` : what it is answered;
* `Service.Step.run`, `Service.run` : the results of one request, and of requests one after the
  other;
* `Service.afterAll` : the service after them.
-/

namespace SealedPoll.Service

/-- A request to the service. -/
inductive Step
  | start (id : String)
  | stop (id : String) (votes : List Bytes)
  | clear (id : String)
  | isActive (id : String)
  | publicKey
  | sign (data : Bytes)
deriving DecidableEq

/-- What a request is answered. -/
inductive Reply
  | artifact (outcome : Except Error Artifact)
  | done
  | active (isActive : Bool)
  | key (key : Curve.VerifyingKey)
  | signature (signature : Curve.Signature)

/-- The poll that a request is about. -/
def Step.poll? : Step → Option String
  | start id => some id
  | stop id _ => some id
  | clear id => some id
  | isActive id => some id
  | publicKey => none
  | sign _ => none

/-- The result of a request. -/
def Step.run (s : Service) : Step → Result Reply
  | start id => (s.start id).map .artifact
  | stop id votes => (s.stop id votes).map .artifact
  | clear id => (s.clear id).map fun _ => .done
  | isActive id => ⟨.active (s.isActive id), [], s⟩
  | publicKey => ⟨.key s.publicKey, [], s⟩
  | sign data => ⟨.signature (s.mainKey.sign data), [], s⟩

/-- The results of requests one after the other. -/
def run (s : Service) : List Step → List (Result Reply)
  | [] => []
  | step :: steps =>
    let result := step.run s
    result :: run result.after steps

/-- The service after requests. -/
def afterAll (s : Service) (steps : List Step) : Service :=
  steps.foldl (fun s step => (step.run s).after) s

end SealedPoll.Service
