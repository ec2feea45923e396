import PepeuchCluster.ControlPlane.Workspace

namespace control_plane

namespace Number

/-- `now + seconds`: exact on integers, rounded on floats. -/
def later (now : Number) (seconds : Nat) : Option Number :=
  match now with
  | .int z => some (.int (z + seconds))
  | .float x => (Binary64.ofValue (x.value + seconds)).map .float

/-- The value that a `REAL` column keeps. -/
def real : Number → Option Binary64
  | .int z => Binary64.ofValue z
  | .float x => some x

end Number

namespace Db

/-- The join of `_fence`: active attempts with the mission of their task. -/
def active_attempts (db : Db) (worker : Option String) : List (AttemptRow × TaskRow) :=
  db.attempts.flatMap fun attempt =>
    if attempt.state.active = true ∧ (worker = none ∨ worker = some attempt.worker_id) then
      (db.tasks.filter fun task => task.id = attempt.task_id).map fun task => (attempt, task)
    else []

/-- `t.state='queued' AND m.state='queued' AND t.worker_id=?`, in the order of the missions. -/
def queued_tasks (db : Db) (worker : String) : List (TaskRow × MissionRow) :=
  (db.tasks.flatMap fun task =>
    if task.state = .queued ∧ task.worker_id = worker then
      (db.missions.filter fun mission => mission.id = task.mission_id ∧ mission.state = .queued).map
        fun mission => (task, mission)
    else []).insertionSort fun a b =>
      a.2.created_at < b.2.created_at ∨ a.2.created_at = b.2.created_at ∧ a.2.id ≤ b.2.id

/-- `COALESCE(MAX(number),0)+1`. -/
def next_attempt (db : Db) (task_id : String) : Nat :=
  ((db.attempts.filter fun attempt => attempt.task_id = task_id).foldr
    (fun attempt best => max attempt.number best) 0) + 1

/-- The version of `resultat.md` that a claim records. -/
def expected_version (db : Db) (workspace_id : String) : Option String :=
  (newest (db.versions.filter fun version => db.files.any fun file =>
    file.id = version.file_id ∧ file.workspace_id = workspace_id ∧
      nocase file.name = nocase "resultat.md")).map (·.id)

def find_task (db : Db) (identity : String) : Option TaskRow :=
  Rows.find db.tasks fun task => task.id = identity

def epoch_of (db : Db) (attempt_id : String) : Option Nat :=
  (Rows.find db.attempt_worker_epochs fun row => row.attempt_id = attempt_id).map
    (·.credential_epoch)

/-- `attempts a JOIN tasks t ON t.id=a.task_id WHERE a.id=? AND a.worker_id=?`. -/
def find_attempt (db : Db) (identity worker : String) : Option (AttemptRow × TaskRow) := do
  let attempt ← Rows.find db.attempts fun attempt => attempt.id = identity ∧
    attempt.worker_id = worker
  let task ← db.find_task attempt.task_id
  return (attempt, task)

end Db

namespace ExecutionManager

def set_attempt (identity : String) (change : AttemptRow → AttemptRow) : Op Unit :=
  Op.execute fun db => some { db with
    attempts := Rows.update db.attempts (fun row => row.id = identity) change }

def set_task_state (selected : TaskRow → Bool) (target : State) : Op Unit :=
  Op.execute fun db => some { db with
    tasks := Rows.update db.tasks selected fun row => { row with state := target } }

/-- `expired_only and row["deadline"] > clock()`: the clock is read for each row. -/
def spared (expired_only : Bool) (attempt : AttemptRow) : Op Bool :=
  match expired_only with
  | true => do
    let now ← Op.clock
    return decide (now.value < attempt.deadline.value)
  | false => return false

def interrupt (reason : String) (row : AttemptRow × TaskRow) : Op Unit := do
  set_attempt row.1.id fun attempt =>
    { attempt with state := .interrupted, error_code := some reason }
  set_task_state (fun task => task.id = row.1.task_id) .interrupted
  let mission ← Op.select fun db => db.find_mission row.2.mission_id
  let mission ← Op.demand mission .type_error
  let _ ← ControlPlane.transition SYSTEM mission .interrupted (some reason)
  return

/-- One row of `_fence`. -/
def fence_row (reason : String) (expired_only : Bool) (row : AttemptRow × TaskRow) : Op Unit := do
  match ← spared expired_only row.1 with
  | true => return
  | false => interrupt reason row

def fence_rows (reason : String) (expired_only : Bool) : List (AttemptRow × TaskRow) → Op Unit
  | [] => return
  | row :: rows => do
    fence_row reason expired_only row
    fence_rows reason expired_only rows

/-- `_fence`. -/
def fence (reason : String) (expired_only : Bool) (worker : Option String) : Op Unit := do
  let rows ← Op.select fun db => db.active_attempts worker
  fence_rows reason expired_only rows

def recover : Op Unit := Op.transaction (fence "backend_restart" false none)

def expire : Op Unit := Op.transaction (fence "attempt_expired" true none)

/-- The checks of `approve` on the answer of the coordinator. -/
def plan_matches (plan : Plan) (capability : Capability) (workers : List IdentityRow) : Prop :=
  plan.schema = "pepeuch.control-plane/plan/v1" ∧ plan.capability = capability.text ∧
    plan.role = capability.role ∧ plan.instruction = capability.instruction ∧
    plan.simulated = capability.simulated ∧ plan.outputs = ["resultat.md"] ∧
    ∃ worker ∈ workers, worker.id = plan.worker_id ∧ capability ∈ worker.capabilities

instance (plan : Plan) (capability : Capability) (workers : List IdentityRow) :
    Decidable (plan_matches plan capability workers) := by
  unfold plan_matches; infer_instance

def insert_task (identity : String) (capability : Capability) (plan : Plan) : Op Unit := do
  let id ← Op.new_id 't'
  Op.execute (Db.insert_task ⟨id, identity, plan.role, capability, plan.worker_id, .queued, plan⟩)

def approve_effect (service : ControlPlane) (principal : Principal)
    (identity : String) : Op Json := do
  let mission ← ControlPlane.mission principal identity
  Op.require (mission.state = .draft) (Problem "invalid_transition" 409)
  let workers ← WorkerRegistry.list true
  let view ← Op.query (ControlPlane.view mission)
  let plan ← Op.check (service.coordinator view (workers.map public_worker))
  let capability ← Op.query (ControlPlane.required_capability identity)
  Op.require (plan_matches plan capability workers) (Problem "invalid_plan" 409)
  let mission ← ControlPlane.transition principal mission .approved none
  insert_task identity capability plan
  let mission ← ControlPlane.transition principal mission .queued none
  Op.query (ControlPlane.view mission)

def approve (service : ControlPlane) (principal : Principal) (identity : String)
    (data : Json) : Op Json := do
  Op.check (fields data ["operation_id"])
  service.operate principal (item data "operation_id") ("approve:" ++ identity) data
    (approve_effect service principal identity)

/-- `running` waits for its worker, any other state is cancelled at once. -/
def cancel_target (state : State) : State :=
  if state = .running then .cancel_requested else .cancelled

def set_running_attempts (mission_id : String) (target : State) : Op Unit :=
  Op.execute fun db => some { db with
    attempts := Rows.update db.attempts
      (fun attempt => ((db.tasks_of mission_id).any fun task => task.id = attempt.task_id) ∧
        attempt.state = .running)
      fun attempt => { attempt with state := target } }

/-- A cancellation, of a mission that waits for none yet. -/
def cancel_mission (principal : Principal) (mission : MissionRow) : Op MissionRow := do
  let target := cancel_target mission.state
  let row ← ControlPlane.transition principal mission target none
  set_task_state (fun task => task.mission_id = mission.id) target
  set_running_attempts mission.id target
  return row

def cancel_effect (principal : Principal) (identity : String) : Op Json := do
  let mission ← ControlPlane.mission principal identity
  match decide (mission.state = .cancel_requested) with
  | true => Op.query (ControlPlane.view mission)
  | false => do
    let mission ← cancel_mission principal mission
    Op.query (ControlPlane.view mission)

def cancel (service : ControlPlane) (principal : Principal) (identity : String)
    (data : Json) : Op Json := do
  Op.check (require_role principal .admin)
  Op.check (fields data ["operation_id"])
  expire
  service.operate principal (item data "operation_id") ("cancel:" ++ identity) data
    (cancel_effect principal identity)

def retry_effect (principal : Principal) (identity : String) : Op Json := do
  let mission ← ControlPlane.mission principal identity
  Op.require (mission.state = .failed ∨ mission.state = .interrupted)
    (Problem "invalid_transition" 409)
  let mission ← ControlPlane.transition principal mission .queued (some "explicit_retry")
  set_task_state (fun task => task.mission_id = identity) .queued
  Op.query (ControlPlane.view mission)

def retry (service : ControlPlane) (principal : Principal) (identity : String)
    (data : Json) : Op Json := do
  Op.check (require_role principal .admin)
  Op.check (fields data ["operation_id"])
  expire
  service.operate principal (item data "operation_id") ("retry:" ++ identity) data
    (retry_effect principal identity)

def no_request : Json := .dict [("request", .null)]

/-- The request of a claim: the task without its plan, and three fields of the mission. -/
def execution_request (attempt_id generation : String) (task : TaskRow) (mission : MissionRow)
    (started : String) (deadline : Number) (expected : Option String) : Json :=
  .dict [("request", .dict [("schema", .str "pepeuch.control-plane/execution-request/v1"),
    ("attempt_id", .str attempt_id), ("generation", .str generation),
    ("task", TaskRow.toJson { task with state := .running }),
    ("mission", .dict [("id", .str mission.id), ("title", .str mission.title),
      ("objective", .str mission.objective)]),
    ("authorized_files", .arr (mission.authorized_files.map .str)), ("started_at", .str started),
    ("deadline", .number deadline), ("expected_version", optionText expected)])]

/-- The claim of a queued task by an authorised worker. -/
def start_attempt (service : ControlPlane) (principal : Principal) (worker : IdentityRow)
    (task : TaskRow) :
    Op Json := do
  let mission ← Op.select fun db => db.find_mission task.mission_id
  let mission ← Op.demand mission .type_error
  let expected ← Op.select fun db => db.expected_version mission.workspace_id
  let identity ← Op.new_id 'a'
  let generation ← Op.new_id 'g'
  let number ← Op.select fun db => db.next_attempt task.id
  let now ← Op.clock
  let started ← Op.check (timestamp now)
  let deadline ← Op.demand
    (Number.later now (min service.settings.attempt_seconds worker.limits.lease_seconds))
      .value_error
  let lease ← Op.demand (Number.real deadline) .value_error
  Op.execute (Db.insert_attempt
    ⟨identity, task.id, number, principal.identity, .running, generation, started,
      lease, expected, none, none⟩)
  Op.execute (Db.insert_epoch ⟨identity, worker.credential_epoch⟩)
  set_task_state (fun row => row.id = task.id) .running
  let _ ← ControlPlane.transition principal mission .running none
  ControlPlane.audit principal mission.workspace_id (some mission.id) .attempt_started
    [("attempt_id", identity), ("task_id", task.id), ("worker_id", principal.identity)]
  -- the view is read only for its files, which no transition changes
  let _ ← Op.query (ControlPlane.view mission)
  return execution_request identity generation task mission started deadline expected

def claim_effect (service : ControlPlane) (principal : Principal) : Op Json := do
  let worker ← WorkerRegistry.authorize service.settings principal
  fence "attempt_expired" true none
  let busy ← Op.select fun db => db.attempts.any fun attempt =>
    attempt.worker_id = principal.identity ∧ attempt.state.active = true
  match busy with
  | true => return no_request
  | false => do
    let tasks ← Op.select fun db => db.queued_tasks principal.identity
    match tasks with
    | [] => return no_request
    | (task, _) :: _ => start_attempt service principal worker task

def claim (service : ControlPlane) (principal : Principal) (data : Json) : Op Json := do
  Op.check (require_role principal .worker)
  Op.check (fields data ["operation_id"])
  service.operate principal (item data "operation_id") "claim" data
    (claim_effect service principal) .worker

/-- The error codes of a result without output, by capability. -/
def accepted_errors (capability : Capability) : State → List (Option String)
  | .failed => match capability with
    | .demo => [some "simulated_failure"]
    | .cpu_digest => [some "cpu_execution_failed"]
  | .interrupted => match capability with
    | .demo => [some "simulated_interruption"]
    | .cpu_digest => [some "cpu_interrupted", some "cpu_deadline_exceeded"]
  | .cancelled => [none]
  | _ => []

def accepted (duplicate : Bool) (mission_id : String) : Json :=
  .dict [("accepted", .bool true), ("duplicate", .bool duplicate), ("mission_id", .str mission_id)]

/-- The output of a completed result is published, any other result carries none. -/
def settle_outputs (service : ControlPlane) (principal : Principal) (mission : MissionRow)
    (attempt : AttemptRow) (capability : Capability) (result : ExecutionResult) : Op Unit :=
  match result.status with
  | .completed => do
    Op.require (result.error_code = none ∧ result.outputs.length = 1) (Problem "invalid_outputs")
    let output ← Op.demand result.outputs.head? .type_error
    let _ ← WorkspaceManager.publish_result service principal mission attempt capability output
    return
  | status =>
    Op.require (result.outputs = [] ∧ result.error_code ∈ accepted_errors capability status)
      (Problem "invalid_failure_result")

/-- The first acceptance of a result for an attempt. -/
def accept_result (service : ControlPlane) (principal : Principal) (attempt : AttemptRow)
    (task : TaskRow) (result : ExecutionResult) (content_hash : String) : Op Json := do
  let mission ← Op.select fun db => db.find_mission task.mission_id
  Op.require (attempt.state.active = true) (Problem "stale_attempt" 409)
  let mission ← Op.demand mission .type_error
  Op.require (mission.state = .cancel_requested →
      result.status = .cancelled ∧ result.outputs = [] ∧ result.error_code = none)
    (Problem "cancellation_pending" 409)
  Op.require (mission.state ≠ .cancel_requested → result.status ≠ .cancelled)
    (Problem "invalid_transition" 409)
  settle_outputs service principal mission attempt task.capability result
  let now ← Op.clock
  Op.require (now.value < attempt.deadline.value) (Problem "stale_attempt" 409)
  set_attempt attempt.id fun row =>
    { row with state := result.status, result_sha256 := some content_hash, error_code :=
      result.error_code }
  set_task_state (fun row => row.id = attempt.task_id) result.status
  let _ ← ControlPlane.transition principal mission result.status none
  return accepted false mission.id

/-- The second transaction of `finish`. -/
def finish_effect (service : ControlPlane) (principal : Principal)
    (result : ExecutionResult) : Op Json := do
  let worker ← WorkerRegistry.authorize service.settings principal
  let found ← Op.select fun db => db.find_attempt result.attempt_id principal.identity
  let (attempt, task) ← Op.demand found (Problem "not_found" 404)
  Op.require (attempt.generation = result.generation) (Problem "stale_attempt" 409)
  let epoch ← Op.select fun db => db.epoch_of result.attempt_id
  Op.require (epoch = some worker.credential_epoch) (Problem "stale_attempt" 409)
  let content_hash := sha256 (encode (canonical result.to_dict))
  match attempt.result_sha256 with
  | some held =>
    Op.require (held = content_hash) (Problem "result_conflict" 409)
    return accepted true task.mission_id
  | none => accept_result service principal attempt task result content_hash

/-- `result` is the dictionary of the caller's `ExecutionResult`. -/
def finish (service : ControlPlane) (principal : Principal) (identity : String) (result : Json) :
    Op Json := do
  Op.check (require_role principal .worker)
  let result ← Op.check (ExecutionResult.from_dict result)
  let identity ← Op.check (identifier (.str identity))
  Op.require (result.attempt_id = identity) (Problem "attempt_mismatch" 409)
  expire
  Op.transaction (finish_effect service principal result)

def state (service : ControlPlane) (principal : Principal) (identity : String) : Op Json := do
  Op.check (require_role principal .worker)
  let identity ← Op.check (identifier (.str identity))
  expire
  Op.transaction do
    let worker ← WorkerRegistry.authorize service.settings principal
    let row ← Op.select fun db =>
      Rows.find db.attempts fun attempt => attempt.id = identity ∧
        attempt.worker_id = principal.identity
    let row ← Op.demand row (Problem "not_found" 404)
    let epoch ← Op.select fun db => db.epoch_of identity
    Op.require (epoch = some worker.credential_epoch) (Problem "stale_attempt" 409)
    return .dict
      [("schema", .str "pepeuch.control-plane/attempt-state/v1"), ("state", .str row.state.text),
        ("deadline", .number (.float row.deadline))]

/-- One entry of `nodes`. -/
def node (db : Db) (worker : IdentityRow) : Json :=
  let active := db.attempts.any fun attempt => attempt.worker_id = worker.id ∧
    attempt.state.active = true
  let verified := (db.results.filter fun result =>
    db.attempts.any fun attempt => attempt.id = result.attempt_id ∧
      attempt.worker_id = worker.id).length
  let state := if worker.status = .revoked then "revoked"
    else if active then if worker.simulated then "simulated_busy" else "cpu_busy" else "manual_idle"
  .dict (public_fields worker ++ [("state", .str state), ("online_verified", .bool false),
    ("verified_simulated_executions", .number (.int (if worker.simulated then verified else 0)))] ++
    if worker.simulated then [] else [("accepted_cpu_results", .number (.int verified))])

def nodes (principal : Principal) : Op Json := do
  Op.check (require_role principal .admin)
  expire
  Op.transaction do
    let workers ← WorkerRegistry.list false
    let entries ← Op.select fun db => workers.map (node db)
    return .arr entries

end ExecutionManager

namespace ControlPlane

def get_mission (principal : Principal) (identity : String) : Op Json := do
  Op.check (require_role principal .admin)
  ExecutionManager.expire
  Op.transaction do
    let row ← mission principal identity
    Op.query (view row)

/-- `ORDER BY created_at DESC,id DESC LIMIT 200`. -/
def listed (principal : Principal) (db : Db) : List MissionRow :=
  ((db.missions.filter fun row => row.owner = principal.identity).insertionSort fun a b =>
    b.created_at < a.created_at ∨ a.created_at = b.created_at ∧ b.id ≤ a.id).take 200

def list_missions (principal : Principal) : Op Json := do
  Op.check (require_role principal .admin)
  ExecutionManager.expire
  Op.transaction do
    let views ← Op.query fun db => (listed principal db).mapM fun row => view row db
    return .arr views

def EventRow.toJson (event : EventRow) : Json :=
  .dict [("schema", .str "pepeuch.control-plane/audit-event/v1"), ("id", .str event.id),
    ("sequence", .number (.int event.sequence)), ("mission_id", optionText event.mission_id),
    ("workspace_id", .str event.workspace_id), ("actor", .str event.actor),
    ("at", .str event.created_at), ("type", .str event.type.text),
    ("details", .dict (event.details.map fun detail => (detail.1, .str detail.2)))]

def events (principal : Principal) (identity : String) : Op Json :=
  Op.transaction do
    let _ ← mission principal identity
    let rows ← Op.select fun db =>
      (db.events.filter fun event => event.mission_id = some identity).insertionSort
      fun a b => a.sequence ≤ b.sequence
    return .arr (rows.map EventRow.toJson)

def revoke_worker_effect (principal : Principal) (identity : String) : Op Json := do
  let worker ← WorkerRegistry.revoke identity
  ExecutionManager.fence "worker_revoked" false (some identity)
  let workspace ← Op.select fun db => Rows.find db.workspaces fun row =>
    row.owner = principal.identity
  let workspace ← Op.demand workspace .type_error
  audit principal workspace.id none .worker_revoked [("worker_id", identity)]
  return worker

def revoke_worker (service : ControlPlane) (principal : Principal)
    (identity : String) (data : Json) :
    Op Json := do
  Op.check (fields data ["operation_id"])
  service.operate principal (item data "operation_id") ("revoke_worker:" ++ identity) data
    (revoke_worker_effect principal identity)

end ControlPlane

end control_plane
