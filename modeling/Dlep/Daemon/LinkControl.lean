-- SUMMARY: Deferred link requests: the backend's answers, the jobs of a session, and the denial that replaces an invalid answer.
import Dlep.Daemon.Commands

/-!
# Link control

`link_control.rs`. A deferred Link Characteristics Request is handed to a backend, whose
answer comes back as an event for the state machine.
-/

namespace Dlep

/-! ## Requests and answers -/

/-- One router request, scoped to the session it arrived on. -/
structure LinkRequest where
  sessionId : SessionId
  peer : SocketAddr
  id : MacAddress
  requested : LinkCharacteristics
  current : LinkMetrics
  deriving DecidableEq, Repr

/-- The backend's answer. -/
structure LinkResponse where
  status : StatusCode
  text : String
  metrics : Option LinkMetrics
  deriving DecidableEq, Repr

namespace LinkResponse

def denied : LinkResponse := ⟨.requestDenied, "", none⟩

def withText (r : LinkResponse) (text : String) : LinkResponse := { r with text }

/-- The event that hands the answer to the session's state machine. -/
def intoEvent (r : LinkResponse) (mac : MacAddress) : FsmEvent :=
  .appLinkCharacteristicsResponse mac r.status r.text r.metrics

end LinkResponse

/-- Request Denied with current metrics, for when the state machine rejects an answer. -/
def fallbackDenial : FsmEvent → Option FsmEvent
  | .appLinkCharacteristicsResponse mac _ _ _ => some (LinkResponse.denied.intoEvent mac)
  | _ => none

/-! ## Jobs -/

/-- Backend calls in flight for one session, by task. -/
structure LinkJobs where
  backend : Bool
  macs : FinMap ℕ MacAddress
  nextTask : ℕ
  deriving DecidableEq

namespace LinkJobs

def new (backend : Bool) : LinkJobs := ⟨backend, ∅, 0⟩

def start (j : LinkJobs) (request : LinkRequest) : LinkJobs :=
  { j with macs := j.macs.insert j.nextTask request.id, nextTask := j.nextTask + 1 }

/-- What the task of a request returns: the backend's answer, or a denial when the backend
panicked or there is none. -/
def response (j : LinkJobs) (outcome : Option LinkResponse) : LinkResponse :=
  if j.backend then outcome.getD .denied else .denied

/-- A completed task as the event that sends its answer. -/
def next (j : LinkJobs) (task : ℕ) (outcome : Option LinkResponse) : Option (LinkJobs × FsmEvent) :=
  (j.macs.lookup task).map fun mac =>
    ({ j with macs := j.macs.erase task }, (j.response outcome).intoEvent mac)

end LinkJobs

end Dlep
