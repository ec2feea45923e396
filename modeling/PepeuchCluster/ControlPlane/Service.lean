import PepeuchCluster.ControlPlane.Registry

namespace control_plane

/-- The object under the HTTP layer: the settings of its installation, and the
    planner behind `Coordinator.plan`, which sees the mission and the workers. -/
structure ControlPlane where
  settings : Settings
  coordinator : Json → List Json → Except Failure Plan

namespace Op

def query {α : Type} (select : Db → Except Failure α) : Op α := fun w => (select w.db, w)

end Op

def Plan.toJson (plan : Plan) : Json :=
  .dict
    [("schema", .str plan.schema), ("simulated", .bool plan.simulated), ("role", .str plan.role),
      ("capability", .str plan.capability), ("worker_id", .str plan.worker_id),
      ("instruction", .str plan.instruction), ("outputs", .arr (plan.outputs.map .str))]

def TaskRow.toJson (task : TaskRow) : Json :=
  .dict [("schema", .str "pepeuch.control-plane/task/v1"), ("id", .str task.id),
    ("mission_id", .str task.mission_id), ("role", .str task.role),
      ("capability", .str task.capability.text),
    ("worker_id", .str task.worker_id), ("state", .str task.state.text),
    ("simulated", .bool task.capability.simulated)]

def AttemptRow.toJson (attempt : AttemptRow) : Json :=
  .dict [("schema", .str "pepeuch.control-plane/attempt/v1"), ("id", .str attempt.id),
    ("task_id", .str attempt.task_id), ("number", .number (.int attempt.number)),
    ("worker_id", .str attempt.worker_id), ("state", .str attempt.state.text),
    ("started_at", .str attempt.started_at), ("deadline", .number (.float attempt.deadline)),
    ("error_code", optionText attempt.error_code)]

/-- The provenance texts of `publish_result`, decoded. -/
def provenance (capability : Capability) : Json :=
  match capability with
  | .demo => .dict [("simulated", .bool true), ("capability", .str Capability.demo.text),
      ("verification", .str "deterministic_demo_only")]
  | .cpu_digest =>
    .dict [("simulated", .bool false), ("capability", .str Capability.cpu_digest.text),
      ("verification", .str "worker_reported_cpu_digest"), ("ai_inference", .bool false),
      ("os_isolation", .str "NOT VERIFIED")]

def resultJson (entry : ResultRow × VersionRow) : Json :=
  .dict [("id", .str entry.1.id), ("attempt_id", .str entry.1.attempt_id),
    ("version_id", .str entry.1.version_id), ("provenance", provenance entry.1.provenance),
    ("file_id", .str entry.2.file_id)]

namespace Db

def tasks_of (db : Db) (mission_id : String) : List TaskRow :=
  db.tasks.filter fun task => task.mission_id = mission_id

/-- `attempts a JOIN tasks t ON t.id=a.task_id WHERE t.mission_id=?`. -/
def attempts_of (db : Db) (mission_id : String) : List AttemptRow :=
  db.attempts.filter fun attempt => (db.tasks_of mission_id).any fun task =>
    task.id = attempt.task_id

def results_of (db : Db) (mission_id : String) : List (ResultRow × VersionRow) :=
  db.results.flatMap fun result =>
    (db.versions.filter fun version =>
      version.id = result.version_id ∧ version.mission_id = some mission_id).map fun version =>
      (result, version)

def find_mission (db : Db) (identity : String) : Option MissionRow :=
  Rows.find db.missions fun mission => mission.id = identity

end Db

namespace ControlPlane

def workspace_access (principal : Principal) (workspace_id : String) : Op WorkspaceRow := do
  Op.check (require_role principal .admin)
  let row ← Op.select fun db =>
    Rows.find db.workspaces fun row => row.id = workspace_id ∧ row.owner = principal.identity
  Op.demand row (Problem "not_found" 404)

/-- `_mission`. -/
def mission (principal : Principal) (identity : String) : Op MissionRow := do
  Op.check (require_role principal .admin)
  let _ ← Op.check (identifier (.str identity))
  let row ← Op.select fun db =>
    Rows.find db.missions fun row => row.id = identity ∧ row.owner = principal.identity
  Op.demand row (Problem "not_found" 404)

/-- `_required_capability`: absence of a contract event means the demonstration. -/
def required_capability (identity : String) (db : Db) : Except Failure Capability :=
  match db.events.filter fun event =>
      event.mission_id = some identity ∧ event.type = .mission_execution_contract_v1 with
  | [] => .ok .demo
  | [event] =>
    if event.details = [("capability", Capability.cpu_digest.text)] then .ok .cpu_digest
    else .error (Problem "invalid_mission_contract" 409)
  | _ => .error (Problem "invalid_mission_contract" 409)

/-- `_view`. -/
def view (row : MissionRow) (db : Db) : Except Failure Json := do
  let capability ← required_capability row.id db
  let tasks := db.tasks_of row.id
  let attempts := (db.attempts_of row.id).insertionSort fun a b => a.number ≤ b.number
  let execution := match capability with
    | .demo =>
      [("provenance", .dict [("input", .str "local_user"), ("execution", .str "simulation_only")])]
    | .cpu_digest => [("required_capability", .str capability.text),
        ("provenance", .dict [("input", .str "local_user"), ("execution", .str "deterministic_cpu"),
          ("ai_inference", .bool false), ("os_isolation", .str "NOT VERIFIED")])]
  return .dict ([("schema", .str "pepeuch.control-plane/mission/v1"), ("id", .str row.id),
    ("owner", .str row.owner), ("project", .str row.project),
    ("workspace", .dict [("schema", .str "pepeuch.control-plane/workspace-reference/v1"),
      ("id", .str row.workspace_id), ("project", .str row.project)]),
    ("title", .str row.title), ("objective", .str row.objective), ("state", .str row.state.text),
    ("created_at", .str row.created_at), ("authorized_files", .arr (row.authorized_files.map .str)),
    ("tasks", .arr (tasks.map TaskRow.toJson)),
    ("plan", match tasks with | [] => .null | task :: _ => task.plan.toJson),
    ("attempts", .arr (attempts.map AttemptRow.toJson)),
    ("results", .arr ((db.results_of row.id).map resultJson))] ++ execution)

def AUDIT_DETAILS : List String :=
  ["state", "reason", "file_id", "version_id", "task_id", "attempt_id", "worker_id", "capability"]

/-- `_audit`. -/
def audit (principal : Principal) (workspace_id : String) (mission_id : Option String)
    (type : EventType) (details : List (String × String)) : Op Unit := do
  Op.require (∀ detail ∈ details, detail.1 ∈ AUDIT_DETAILS) (Problem "unsafe_audit_details" 500)
  let id ← Op.new_id 'e'
  let created_at ← Op.check (timestamp (← Op.clock))
  Op.execute (Db.insert_event
    ⟨0, id, mission_id, workspace_id, principal.identity, created_at, type, details⟩)

def set_mission_state (identity : String) (target : State) : Op Unit :=
  Op.execute fun db => some { db with
    missions := Rows.update db.missions (fun row => row.id = identity) fun row =>
      { row with state := target } }

/-- `_transition`: the table of transitions is consulted for the row as it was read. -/
def transition (principal : Principal) (row : MissionRow) (target : State)
    (reason : Option String) :
    Op MissionRow := do
  Op.require (target ∈ TRANSITIONS row.state) (Problem "invalid_transition" 409)
  set_mission_state row.id target
  audit principal row.workspace_id (some row.id) .mission_state
    (("state", target.text) :: (reason.map fun reason => ("reason", reason)).toList)
  let row ← Op.select fun db => db.find_mission row.id
  Op.demand row .type_error

/-- The actor of an operation: a worker is named with its credential epoch. -/
def actor (service : ControlPlane) (principal : Principal) (role : Role) : Op String :=
  match role with
  | .worker => do
    let row ← WorkerRegistry.authorize service.settings principal
    return principal.identity ++ "@" ++ toString row.credential_epoch
  | _ => return principal.identity

def request_sha256 (action : String) (payload : Json) : String :=
  sha256 (encode (canonical (.dict [("action", .str action), ("payload", payload)])))

/-- The transaction of `_operate`: the effect runs once for each actor and operation
    identifier, and its response is recorded with it. -/
def operate_once (service : ControlPlane) (principal : Principal) (operation action : String)
    (payload : Json) (effect : Op Json) (role : Role) : Op Json := do
  let actor ← service.actor principal role
  let old ← Op.select fun db =>
    Rows.find db.operations fun row => row.actor = actor ∧ row.id = operation
  match old with
  | some old =>
    Op.require (old.request_sha256 = request_sha256 action payload)
      (Problem "operation_conflict" 409)
    Op.check (decode_json old.response)
  | none =>
    let response ← effect
    Op.execute
      (Db.insert_operation ⟨actor, operation, request_sha256 action payload, canonical response⟩)
    return response

/-- `_operate`. -/
def operate (service : ControlPlane) (principal : Principal) (operation : Json) (action : String)
    (payload : Json) (effect : Op Json) (role : Role := .admin) : Op Json := do
  Op.check (require_role principal role)
  let operation ← Op.check (operation_id operation)
  Op.transaction (service.operate_once principal operation action payload effect role)

/-- The file references of a mission: at most 32 identifiers, each once. -/
def file_references (data : Json) : Except Failure (List String) :=
  match data.lookup "authorized_files" with
  | none => .ok []
  | some (.arr items) => do
    Except.require (items.length ≤ 32) (Problem "invalid_file_references")
    let refs ← items.mapM identifier
    Except.require refs.Nodup (Problem "invalid_file_references")
    return refs
  | some _ => .error (Problem "invalid_file_references")

def reference_check (workspace : WorkspaceRow) : List String → Op Unit
  | [] => return
  | reference :: rest => do
    let known ← Op.select fun db => db.versions.any fun version => version.id = reference ∧
      db.files.any fun file => file.id = version.file_id ∧ file.workspace_id = workspace.id
    Op.require (known = true) (Problem "not_found" 404)
    reference_check workspace rest

/-- The contract of a mission that is not the historical demonstration. -/
def audit_contract (principal : Principal) (workspace_id identity : String)
    (capability : Capability) :
    Op Unit :=
  match capability with
  | .demo => return
  | .cpu_digest =>
    audit principal workspace_id (some identity) .mission_execution_contract_v1
      [("capability", capability.text)]

def create_mission_effect (principal : Principal) (capability : Capability)
    (workspace_id title objective : String) (refs : List String) : Op Json := do
  let workspace ← workspace_access principal workspace_id
  reference_check workspace refs
  let identity ← Op.new_id 'm'
  let created_at ← Op.check (timestamp (← Op.clock))
  Op.execute
    (Db.insert_mission ⟨identity, principal.identity, workspace.project, workspace.id, title,
      objective, .draft, created_at, refs⟩)
  audit principal workspace.id (some identity) .mission_created [("state", State.draft.text)]
  audit_contract principal workspace.id identity capability
  let row ← mission principal identity
  Op.query (view row)

def create_action : Capability → String
  | .demo => "create_mission"
  | .cpu_digest => "create_cpu_mission"

/-- `_create_mission`. -/
def create_mission_as (service : ControlPlane) (principal : Principal) (data : Json)
    (capability : Capability) : Op Json := do
  Op.check (fields data ["operation_id", "title", "objective", "workspace_id"] ["authorized_files"])
  let title ← Op.check (text (item data "title") 160)
  let objective ← Op.check (text (item data "objective") 4000)
  let workspace_id ← Op.check (identifier (item data "workspace_id"))
  let refs ← Op.check (file_references data)
  Op.require (capability = .cpu_digest → refs = []) (Problem "unsupported_cpu_inputs")
  service.operate principal (item data "operation_id") (create_action capability) data
    (create_mission_effect principal capability workspace_id title objective refs)

def create_mission (service : ControlPlane) (principal : Principal) (data : Json) : Op Json :=
  service.create_mission_as principal data .demo

def create_cpu_mission (service : ControlPlane) (principal : Principal) (data : Json) : Op Json :=
  service.create_mission_as principal data .cpu_digest

end ControlPlane

end control_plane
