import PepeuchCluster.Effects.Monitor
import PepeuchCluster.Worker.Requests

namespace pepeuch_worker

open control_plane (ExecutionResult State isOperationId)

/-- What a call of the runner raises. -/
inductive Raised where
  | exception (failure : Failure)
  | keyboard_interrupt

/-- What the runner asks of its surroundings: the directory of the worker, the guard,
    the backend and the executor. -/
inductive Call where
  | locked
  | isolation
  | load
  | save (journal : Json)
  | uuid4
  | claim (data : Json)
  | state (attempt_id : String)
  | finish (attempt_id : String) (result : Json)
  | execute (request : Json)

/-- The text of a fresh UUID. -/
abbrev OperationId := { text : String // isOperationId text }

abbrev Reply : Call → Type
  | .locked | .isolation | .save _ => Unit
  | .load | .claim _ | .state _ | .finish _ _ => Json
  | .uuid4 => OperationId
  | .execute _ => ExecutionResult

abbrev Run (α : Type) := Program Raised Call Reply α

def ask (op : Call) : Run (Reply op) := .request op

def checked {α : Type} (result : Except Failure α) : Run α := .ofExcept (result.mapError .exception)

/-- An `IndependentRunner` with a guard: its configuration and the digest of its credential. -/
structure Runner where
  worker_id : String
  backend_url : String
  fingerprint : String

/-- The journal of a run that is not done. -/
structure Journal where
  claim_id : Json
  request : Json
  result : Json

def JOURNAL_SCHEMA : String := "pepeuch.worker/run/v1"

def JOURNAL_FIELDS : List String :=
  ["schema", "worker_id", "backend_url", "credential_sha256", "claim_id", "request",
    "result", "done"]

namespace Runner

variable (runner : Runner)

/-- The journal as it is saved. -/
def document (journal : Journal) (done : Bool) : Json :=
  .dict [("schema", .str JOURNAL_SCHEMA), ("worker_id", .str runner.worker_id),
    ("backend_url", .str runner.backend_url), ("credential_sha256", .str runner.fingerprint),
      ("claim_id", journal.claim_id), ("request", journal.request),
    ("result", journal.result), ("done", .bool done)]

/-- The journal that is pending in what `private_io.load` returns. -/
def pending (data : Json) : Except Failure (Option Journal) := do
  if data = .null then return none
  fields data JOURNAL_FIELDS
  Except.require
    (data.item "schema" = .str JOURNAL_SCHEMA ∧ data.item "worker_id" = .str runner.worker_id ∧
      (data.item "done" = .bool true ∨ data.item "done" = .bool false))
    (Problem "worker_journal_identity_mismatch")
  operation_id (data.item "claim_id")
  if data.item "done" = .bool true then return none
  Except.require (data.item "credential_sha256" = .str runner.fingerprint ∧
    data.item "backend_url" = .str runner.backend_url)
    (Problem "worker_journal_identity_mismatch")
  return some ⟨data.item "claim_id", data.item "request", data.item "result"⟩

/-- `_request`. -/
def accepted [Datetime] (request : Json) : Except Failure Unit := do
  validate_request request [.cpu_digest]
  Except.require ((request.item "task").item "worker_id" = .str runner.worker_id ∧
    request.item "authorized_files" = .arr [])
    (Problem "worker_scope_mismatch")

end Runner

def attempt_of (request : Json) : String := (request.item "attempt_id").text

def isNumber : Json → Bool
  | .number _ => true
  | _ => false

def STATES : List String :=
  ["running", "cancel_requested", "completed", "failed", "interrupted", "cancelled"]

/-- What `_state` takes from the reply of the backend. -/
def state_of (request reply : Json) : Except Failure String := do
  fields reply ["schema", "state", "deadline"]
  Except.require (reply.item "schema" = .str "pepeuch.control-plane/attempt-state/v1" ∧
    isNumber (reply.item "deadline") = true ∧
      (reply.item "deadline").equal (request.item "deadline") = true ∧
        reply.item "state" ∈ STATES.map Json.str) (Problem "invalid_worker_response")
  return (reply.item "state").text

def observe_state (request : Json) : Run String := do
  let reply ← ask (.state (attempt_of request))
  checked (state_of request reply)

/-- A result of the runner itself. -/
def own_result (request : Json) (status : State) (error_code : Option String) : ExecutionResult :=
  ⟨attempt_of request, (request.item "generation").text, status, [], error_code⟩

def cancelled (request : Json) : ExecutionResult := own_result request .cancelled none

def interrupted (request : Json) : ExecutionResult :=
  own_result request .interrupted (some "cpu_interrupted")

/-- The executor, whose problems become a failed result and whose interruption an
    interrupted one. -/
def execute (request : Json) : Run ExecutionResult :=
  .call (.execute request) fun answer =>
    match answer with
    | .ok result => .done (.ok result)
    | .error .keyboard_interrupt => .done (.ok (interrupted request))
    | .error (.exception (.problem _ _)) =>
      .done (.ok (own_result request .failed (some "cpu_execution_failed")))
    | .error raised => .done (.error raised)

/-- The result to publish: none is computed for a pending journal. -/
def settle (journal : Journal) (pending : Bool) (state : String) : Run ExecutionResult :=
  if state = "cancel_requested" then pure (cancelled journal.request)
  else if journal.result ≠ .null then do
    let result ← checked (lifted (ExecutionResult.from_dict journal.result))
    .require (result.attempt_id = attempt_of journal.request ∧
      result.generation = (journal.request.item "generation").text)
      (.exception (Problem "worker_journal_attempt_mismatch"))
    return result
  else if pending then pure (interrupted journal.request)
  else do
    ask .isolation
    execute journal.request

/-- What the runner asks of the acknowledgement of a result. -/
def acknowledged (request acknowledgement : Json) : Except Failure Unit := do
  fields acknowledgement ["accepted", "duplicate", "mission_id"]
  Except.require (acknowledgement.item "accepted" = .bool true ∧
    (acknowledgement.item "duplicate" = .bool true ∨
      acknowledgement.item "duplicate" = .bool false) ∧ acknowledgement.item "mission_id" =
    (request.item "mission").item "id") (Problem "invalid_worker_response")

namespace Runner

variable (runner : Runner)

def save (journal : Journal) (done : Bool) : Run Unit := ask (.save (runner.document journal done))

/-- The guarded publication. -/
def finish (journal : Journal) (result : ExecutionResult) : Run String := do
  ask .isolation
  let acknowledgement ← ask (.finish (attempt_of journal.request) result.to_dict)
  checked (acknowledged journal.request acknowledgement)
  runner.save journal true
  return result.status.text

/-- From the saved result on: cancellation is observed again before the publication. -/
def publish (journal : Journal) (result : ExecutionResult) : Run String := do
  let state ← observe_state journal.request
  if state ≠ "running" ∧ state ≠ "cancel_requested" then
    runner.save journal true
    return state
  if state = "cancel_requested" ∧ result.status ≠ .cancelled then
    let result := cancelled journal.request
    let journal := { journal with result := result.to_dict }
    runner.save journal false
    runner.finish journal result
  else runner.finish journal result

/-- From the saved request on. -/
def resume [Datetime] (journal : Journal) (pending : Bool) : Run String := do
  checked (runner.accepted journal.request)
  let state ← observe_state journal.request
  if state ≠ "running" ∧ state ≠ "cancel_requested" then
    runner.save journal true
    return state
  let result ← settle journal pending state
  let journal := { journal with result := result.to_dict }
  runner.save journal false
  runner.publish journal result

/-- From the saved claim on. -/
def proceed [Datetime] (journal : Journal) (pending : Bool) : Run String := do
  if journal.request ≠ .null then runner.resume journal pending
  else do
    let response ← ask (.claim (.dict [("operation_id", journal.claim_id)]))
    checked (fields response ["request"])
    let journal := { journal with request := response.item "request" }
    if journal.request = .null then
      runner.save journal true
      return "idle"
    checked (runner.accepted journal.request)
    runner.save journal false
    runner.resume journal pending

def run_once [Datetime] (recover : Bool) : Run String := do
  ask .locked
  ask .isolation
  let data ← ask .load
  match ← checked (runner.pending data) with
  | some journal =>
    .require (recover = true) (.exception (Problem "explicit_worker_recovery_required" 409))
    runner.proceed journal true
  | none =>
    if recover then return "nothing_to_recover"
    let claim_id ← ask .uuid4
    let journal : Journal := ⟨.str claim_id.1, .null, .null⟩
    runner.save journal false
    runner.proceed journal false

end Runner

end pepeuch_worker
