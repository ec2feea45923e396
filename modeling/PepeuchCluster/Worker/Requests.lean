import PepeuchCluster.Discovery.Snapshot
import PepeuchCluster.Worker.Policy

namespace pepeuch_worker

open control_plane (Capability ExecutionResult State isIdentifier isOperationId isText)

/-- What the contracts of the control plane raise. -/
def lifted {α : Type} : Except control_plane.Failure α → Except Failure α
  | .ok a => .ok a
  | .error (.problem code status) => .error (.problem code status)
  | .error .type_error => .error .type_error
  | .error .os_error => .error .os_error
  | .error _ => .error .value_error

theorem lifted_eq_ok {α : Type} {result : Except control_plane.Failure α} {a : α} :
    lifted result = .ok a ↔ result = .ok a := by
  unfold lifted
  split <;> simp

def isIdentity : Json → Bool
  | .str value => isIdentifier value
  | _ => false

def identifier (value : Json) : Except Failure Unit :=
  Except.require (isIdentity value = true) (Problem "invalid_identifier")

def operation_id : Json → Except Failure Unit
  | .str value => Except.require (isOperationId value) (Problem "invalid_operation_id")
  | _ => .error (Problem "invalid_operation_id")

def text (maximum : Nat) : Json → Except Failure Unit
  | .str value => Except.require (isText value maximum) (Problem "invalid_text")
  | _ => .error (Problem "invalid_text")

/-- `fake-cpu`, or `n_` and 32 hexadecimal digits. -/
def isWorker : Json → Bool
  | .str value =>
    value = "fake-cpu" || (value.toList.take 2 = ['n', '_'] && (value.toList.drop 2).length = 32 &&
      (value.toList.drop 2).all Sha256.isHex)
  | _ => false

/-- A positive number up to the end of the year 9999. -/
def isDeadline : Json → Bool
  | .number value => 0 < value.value && value.value ≤ 253402300799
  | _ => false

/-- A list of at most 32 identifiers. -/
def references : Json → Except Failure Unit
  | .arr refs => do
    Except.require (refs.length ≤ 32) (Problem "invalid_worker_response")
    refs.forM identifier
  | _ => .error (Problem "invalid_worker_response")

/-- An instant with a time zone, in at most 64 characters. -/
def isInstant [Datetime] : Json → Bool
  | .str value => value.toList.length ≤ 64 && (match Datetime.fromisoformat value with
      | some (some _) => true
      | _ => false)
  | _ => false

def REQUEST_FIELDS : List String :=
  ["schema", "attempt_id", "generation", "task", "mission", "authorized_files", "started_at",
    "deadline", "expected_version"]

def TASK_FIELDS : List String :=
  ["schema", "id", "mission_id", "role", "capability", "worker_id", "state", "simulated"]

def validate_request [Datetime] (request : Json) (capabilities : List Capability) :
    Except Failure Unit := do
  fields request REQUEST_FIELDS
  let task := request.item "task"
  let mission := request.item "mission"
  fields task TASK_FIELDS
  fields mission ["id", "title", "objective"]
  [request.item "attempt_id", request.item "generation", task.item "id", mission.item "id"].forM
    identifier
  text 160 (mission.item "title")
  text 4000 (mission.item "objective")
  match capabilities.find? fun capability => Json.str capability.text = task.item "capability" with
  | none => .error (Problem "invalid_worker_response")
  | some spec =>
    Except.require (request.item "schema" = .str "pepeuch.control-plane/execution-request/v1" ∧
        task.item "schema" = .str "pepeuch.control-plane/task/v1" ∧
        task.item "role" = .str spec.role ∧ task.item "state" = .str "running" ∧
        task.item "simulated" = .bool spec.simulated ∧ task.item "mission_id" = mission.item "id" ∧
        isWorker (task.item "worker_id") = true)
      (Problem "invalid_worker_response")
    references (request.item "authorized_files")
    if request.item "expected_version" ≠ .null then identifier (request.item "expected_version")
    Except.require (isDeadline (request.item "deadline") = true) (Problem "invalid_worker_response")
    Except.require (isInstant (request.item "started_at") = true)
      (Problem "invalid_worker_response")

end pepeuch_worker
