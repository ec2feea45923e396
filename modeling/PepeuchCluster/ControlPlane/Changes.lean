import PepeuchCluster.ControlPlane.System

namespace control_plane

/-- The objects that a state of the files holds. -/
def Files.held (files : Files) (digest : String) : Option Bytes := files (.object digest)

/-- Every object that is held stays held, with the same content. -/
def Held.le (held held' : String → Option Bytes) : Prop :=
  ∀ digest raw, held digest = some raw → held' digest = some raw

/-- Events that follow each other at the end of the ledger. -/
def Logged : Rows EventRow → List EventRow → Prop
  | _, [] => True
  | events, event :: rest =>
    (∀ other ∈ events, other.id ≠ event.id) ∧ event.sequence = Db.next_sequence events ∧
      isIdentifier event.id = true ∧ Logged (events ++ [event]) rest

/-- The event of `_transition`. -/
structure StateEvent (mission : MissionRow) (target : State) (event : EventRow) : Prop where
  mission_id : event.mission_id = some mission.id
  workspace_id : event.workspace_id = mission.workspace_id
  type : event.type = .mission_state
  state : event.details.lookup "state" = some target.text

/-- An event of another type, with exactly these details. -/
structure NoteEvent (mission_id : Option String) (workspace_id : String) (type : EventType)
    (details : List (String × String)) (event : EventRow) : Prop where
  mission_id : event.mission_id = mission_id
  workspace_id : event.workspace_id = workspace_id
  type : event.type = type
  details : event.details = details

/-- The events of a new mission. -/
def CreationEvents (mission : MissionRow) (capability : Capability)
    (events : List EventRow) : Prop :=
  ∃ created, NoteEvent (some mission.id) mission.workspace_id .mission_created
      [("state", State.draft.text)] created ∧
    match capability with
    | .demo => events = [created]
    | .cpu_digest => ∃ contract, events = [created, contract] ∧
        NoteEvent (some mission.id) mission.workspace_id .mission_execution_contract_v1
          [("capability", Capability.cpu_digest.text)] contract

/-- The rows that a publication adds. -/
structure Publication where
  new_file : Option FileRow
  version : VersionRow
  event : EventRow
  raw : Bytes

/-- What `_publish` checks and then adds, for a name, content and expected version. -/
structure Published (settings : Settings) (held : String → Option Bytes) (db : Db)
    (workspace_id name : String) (expected mission_id attempt_id : Option String)
    (publication : Publication) : Prop where
  workspace : ∃ workspace ∈ db.workspaces, workspace.id = workspace_id
  file_name : isFileName name
  file : match publication.new_file with
    | none => ∃ file, db.find_file workspace_id name = some file ∧
        publication.version.file_id = file.id
    | some file => db.find_file workspace_id name = none ∧ file.workspace_id = workspace_id ∧
        file.name = name ∧ publication.version.file_id = file.id ∧ isIdentifier file.id = true ∧
        (∀ other ∈ db.files, other.id ≠ file.id) ∧ (db.workspace_files workspace_id).length < 100
  current : expected =
    (WorkspaceManager.current_version (db.find_file workspace_id name) db).map (·.id)
  number : publication.version.number = WorkspaceManager.next_number
    (WorkspaceManager.current_version (db.find_file workspace_id name) db)
  room : publication.version.number ≤ 100
  fresh : ∀ other ∈ db.versions, other.id ≠ publication.version.id
  identifier : isIdentifier publication.version.id = true
  quota : db.used_bytes workspace_id + publication.raw.length ≤ settings.quota_bytes
  size : publication.version.size = publication.raw.length ∧
    publication.raw.length ≤ settings.max_file_bytes
  digest : publication.version.sha256 = sha256 publication.raw
  stored : held (sha256 publication.raw) = some publication.raw
  author : publication.version.mission_id = mission_id ∧ publication.version.attempt_id = attempt_id
  event : NoteEvent mission_id workspace_id .file_published
    [("file_id", publication.version.file_id), ("version_id", publication.version.id)]
      publication.event

/-- The limits that `policy` accepts. -/
structure Limits.Valid (limits : Limits) (settings : Settings) : Prop where
  tasks : limits.max_concurrent_tasks = 1
  lease : 1 ≤ limits.lease_seconds ∧ limits.lease_seconds ≤ settings.attempt_seconds
  output : 1 ≤ limits.max_output_bytes ∧ limits.max_output_bytes ≤ min 65536 settings.max_file_bytes

/-- The task of a plan that `approve` has checked. -/
structure Planned (db : Db) (mission : MissionRow) (task : TaskRow) : Prop where
  mission_id : task.mission_id = mission.id
  state : task.state = .queued
  fresh : ∀ other ∈ db.tasks, other.id ≠ task.id ∧ other.mission_id ≠ mission.id
  identifier : isIdentifier task.id = true
  role : task.role = task.capability.role
  capability : ControlPlane.required_capability mission.id db = .ok task.capability
  worker : ∃ worker ∈ db.worker_identities, worker.id = task.worker_id ∧
    task.capability ∈ worker.capabilities

/-- The attempt that `claim` inserts. -/
structure Started (db : Db) (worker : IdentityRow) (mission : MissionRow) (task : TaskRow)
    (attempt : AttemptRow) : Prop where
  task_id : attempt.task_id = task.id
  number : attempt.number = db.next_attempt task.id
  worker_id : attempt.worker_id = worker.id
  state : attempt.state = .running
  fresh : ∀ other ∈ db.attempts, other.id ≠ attempt.id ∧ other.generation ≠ attempt.generation
  identifier : isIdentifier attempt.id = true ∧ isIdentifier attempt.generation = true
  expected : attempt.expected_version = db.expected_version mission.workspace_id
  result : attempt.result_sha256 = none
  epoch : ∀ other ∈ db.attempt_worker_epochs, other.attempt_id ≠ attempt.id

/-- Worker, attempt, task and mission of a result that `finish` accepts. -/
structure Settling (db : Db) (worker : IdentityRow) (attempt : AttemptRow) (task : TaskRow)
    (mission : MissionRow) (status : State) : Prop where
  authorised : worker ∈ db.worker_identities ∧ worker.status = .active
  claimed : attempt ∈ db.attempts ∧ attempt.worker_id = worker.id
  of_task : task ∈ db.tasks ∧ task.id = attempt.task_id
  of_mission : mission ∈ db.missions ∧ mission.id = task.mission_id
  epoch : db.epoch_of attempt.id = some worker.credential_epoch
  unsettled : attempt.result_sha256 = none
  active : attempt.state.active = true
  cancelled : mission.state = .cancel_requested ↔ status = .cancelled
  allowed : status ∈ TRANSITIONS mission.state
  final : status ∈ [State.completed, .failed, .interrupted, .cancelled]

/-- The interruption of an active attempt, with its task and mission. -/
inductive Fence (reason : String) (attempt : AttemptRow) : Db → Db → Prop where
  | row (db : Db) (task : TaskRow) (mission : MissionRow) (event : EventRow)
      (hattempt : attempt ∈ db.attempts) (hactive : attempt.state.active = true)
        (htask : task ∈ db.tasks)
      (hlink : task.id = attempt.task_id) (hmission : mission ∈ db.missions)
      (howner : mission.id = task.mission_id)
        (hallowed : State.interrupted ∈ TRANSITIONS mission.state)
      (hevent : StateEvent mission .interrupted event) (hlogged : Logged db.events [event])
      (hnote : event.actor = SYSTEM.identity ∧
        event.details = [("state", State.interrupted.text), ("reason", reason)]) :
      Fence reason attempt db
        { db with
          missions := Rows.update db.missions (fun row => row.id = mission.id) fun row =>
            { row with state := .interrupted }
          tasks := Rows.update db.tasks (fun row => row.id = attempt.task_id) fun row =>
            { row with state := .interrupted }
          attempts := Rows.update db.attempts (fun row => row.id = attempt.id) fun row =>
            { row with state := .interrupted, error_code := some reason }
          events := db.events ++ [event] }

/-- The attempt that a claim starts, with its task and mission. -/
inductive Claim (worker : IdentityRow) (mission : MissionRow) (task : TaskRow)
    (attempt : AttemptRow) :
    Db → Db → Prop where
  | row (db : Db) (event started : EventRow) (hworker : worker ∈ db.worker_identities)
      (hactive : worker.status = .active)
      (hmission : mission ∈ db.missions) (htask : task ∈ db.tasks)
        (hstate : mission.state = .queued)
      (hqueued : task.state = .queued) (hlink : task.mission_id = mission.id)
      (hassigned : task.worker_id = worker.id)
      (hfree : ∀ other ∈ db.attempts, other.worker_id = worker.id → other.state.active = false)
      (hattempt : Started db worker mission task attempt)
        (hevent : StateEvent mission .running event)
      (hstarted : NoteEvent (some mission.id) mission.workspace_id .attempt_started
        [("attempt_id", attempt.id), ("task_id", task.id), ("worker_id", worker.id)] started)
      (hlogged : Logged db.events [event, started]) :
      Claim worker mission task attempt db
        { db with
          missions := Rows.update db.missions (fun row => row.id = mission.id) fun row =>
            { row with state := .running }
          tasks := Rows.update db.tasks (fun row => row.id = task.id) fun row =>
            { row with state := .running }
          attempts := db.attempts ++ [attempt]
          attempt_worker_epochs :=
            db.attempt_worker_epochs ++ [⟨attempt.id, worker.credential_epoch⟩]
          events := db.events ++ [event, started] }

/-- The acceptance of a result: one without output, or a completed one with its publication. -/
inductive Settle (settings : Settings) (held : String → Option Bytes) (worker : IdentityRow)
    (attempt : AttemptRow) (task : TaskRow) (mission : MissionRow) (content_hash : String) :
    State → Option String → Db → Db → Prop where
  | ended (db : Db) (status : State) (error_code : Option String) (event : EventRow)
      (hsettling : Settling db worker attempt task mission status) (hopen : status ≠ .completed)
      (hevent : StateEvent mission status event) (hlogged : Logged db.events [event]) :
      Settle settings held worker attempt task mission content_hash status error_code db
        { db with
          missions := Rows.update db.missions (fun row => row.id = mission.id) fun row =>
            { row with state := status }
          tasks := Rows.update db.tasks (fun row => row.id = attempt.task_id) fun row =>
            { row with state := status }
          attempts := Rows.update db.attempts (fun row => row.id = attempt.id) fun row =>
            { row with state := status, result_sha256 := some content_hash, error_code }
          events := db.events ++ [event] }
  | completed (db : Db) (publication : Publication) (result : ResultRow) (event : EventRow)
      (hsettling : Settling db worker attempt task mission .completed)
      (hpublished :
        Published settings held db mission.workspace_id "resultat.md" attempt.expected_version
        (some mission.id) (some attempt.id) publication)
      (hfresh : ∀ other ∈ db.results, other.id ≠ result.id ∧ other.attempt_id ≠ result.attempt_id)
      (hid : isIdentifier result.id = true)
      (hresult : result.attempt_id = attempt.id ∧ result.version_id = publication.version.id ∧
        result.provenance = task.capability)
      (hevent : StateEvent mission .completed event)
      (hlogged : Logged db.events [publication.event, event]) :
      Settle settings held worker attempt task mission content_hash .completed none db
        { db with
          missions := Rows.update db.missions (fun row => row.id = mission.id) fun row =>
            { row with state := .completed }
          tasks := Rows.update db.tasks (fun row => row.id = attempt.task_id) fun row =>
            { row with state := .completed }
          attempts := Rows.update db.attempts (fun row => row.id = attempt.id) fun row =>
            { row with state := .completed, result_sha256 := some content_hash, error_code := none }
          files := db.files ++ publication.new_file.toList
          versions := db.versions ++ [publication.version]
          results := db.results ++ [result]
          events := db.events ++ [publication.event, event] }

/-- One transaction's effect on the index, for the objects held at its end. -/
inductive Change (settings : Settings) (held : String → Option Bytes) : Db → Db → Prop where
  | created (db : Db) (mission : MissionRow) (capability : Capability) (events : List EventRow)
      (hfresh : ∀ other ∈ db.missions, other.id ≠ mission.id) (hid : isIdentifier mission.id = true)
      (hworkspace : ∃ workspace ∈ db.workspaces, workspace.id = mission.workspace_id)
      (hstate : mission.state = .draft)
      (htext : isText mission.title 160 ∧ isText mission.objective 4000)
      (hfiles : mission.authorized_files.length ≤ 32 ∧
        (∀ reference ∈ mission.authorized_files, isIdentifier reference = true) ∧
        (capability = .cpu_digest → mission.authorized_files = []))
      (hevents : CreationEvents mission capability events) (hlogged : Logged db.events events) :
      Change settings held db
        { db with missions := db.missions ++ [mission], events := db.events ++ events }
  | approved (db : Db) (mission : MissionRow) (task : TaskRow) (approval queueing : EventRow)
      (hmission : mission ∈ db.missions) (hstate : mission.state = .draft)
        (htask : Planned db mission task)
      (happroval : StateEvent mission .approved approval)
        (hqueueing : StateEvent mission .queued queueing)
      (hlogged : Logged db.events [approval, queueing]) :
      Change settings held db
        { db with
          missions := Rows.update db.missions (fun row => row.id = mission.id) fun row =>
            { row with state := .queued }
          tasks := db.tasks ++ [task]
          events := db.events ++ [approval, queueing] }
  | cancelled (db : Db) (mission : MissionRow) (event : EventRow) (hmission : mission ∈ db.missions)
      (hallowed : ExecutionManager.cancel_target mission.state ∈ TRANSITIONS mission.state)
      (hwaiting : mission.state ≠ .cancel_requested)
      (hevent : StateEvent mission (ExecutionManager.cancel_target mission.state) event)
      (hlogged : Logged db.events [event]) :
      Change settings held db
        { db with
          missions := Rows.update db.missions (fun row => row.id = mission.id) fun row =>
            { row with state := ExecutionManager.cancel_target mission.state }
          tasks := Rows.update db.tasks (fun row => row.mission_id = mission.id) fun row =>
            { row with state := ExecutionManager.cancel_target mission.state }
          attempts := Rows.update db.attempts
            (fun attempt => ((db.tasks_of mission.id).any fun task => task.id = attempt.task_id) ∧
              attempt.state = .running)
            fun attempt => { attempt with state := ExecutionManager.cancel_target mission.state }
          events := db.events ++ [event] }
  | retried (db : Db) (mission : MissionRow) (event : EventRow) (hmission : mission ∈ db.missions)
      (hstate : mission.state = .failed ∨ mission.state = .interrupted)
      (hevent : StateEvent mission .queued event) (hlogged : Logged db.events [event]) :
      Change settings held db
        { db with
          missions := Rows.update db.missions (fun row => row.id = mission.id) fun row =>
            { row with state := .queued }
          tasks := Rows.update db.tasks (fun row => row.mission_id = mission.id) fun row =>
            { row with state := .queued }
          events := db.events ++ [event] }
  | claimed (db db' : Db) (worker : IdentityRow) (mission : MissionRow) (task : TaskRow)
      (attempt : AttemptRow) (hclaim : Claim worker mission task attempt db db') :
        Change settings held db db'
  | fenced (db db' : Db) (reason : String) (attempt : AttemptRow)
      (hfence : Fence reason attempt db db') :
      Change settings held db db'
  | settled (db db' : Db) (worker : IdentityRow) (attempt : AttemptRow) (task : TaskRow)
      (mission : MissionRow)
      (content_hash : String) (status : State) (error_code : Option String)
      (hsettle : Settle settings held worker attempt task mission content_hash status
        error_code db db') :
      Change settings held db db'
  | uploaded (db : Db) (workspace_id name : String) (expected : Option String)
      (publication : Publication)
      (hpublished : Published settings held db workspace_id name expected none none publication)
      (hlogged : Logged db.events [publication.event]) :
      Change settings held db
        { db with
          files := db.files ++ publication.new_file.toList
          versions := db.versions ++ [publication.version]
          events := db.events ++ [publication.event] }
  | enrolled (db : Db) (worker : IdentityRow) (workspace_id : String) (event : EventRow)
      (hfresh : ∀ other ∈ db.worker_identities, other.id ≠ worker.id)
      (hid : isIdentifier worker.id = true)
      (hcapability : ∃ capability, worker.capabilities = [capability])
      (hlimits : worker.limits.Valid settings) (hepoch : worker.credential_epoch = 1)
      (hworkspace : ∃ workspace ∈ db.workspaces, workspace.id = workspace_id)
      (hevent : NoteEvent none workspace_id .worker_identity
        [("worker_id", worker.id), ("reason", "explicit_enrollment")] event)
      (hlogged : Logged db.events [event]) :
      Change settings held db
        { db with
          worker_identities := db.worker_identities ++ [worker]
          events := db.events ++ [event] }
  | rotated (db : Db) (worker : IdentityRow) (digest updated_at reason workspace_id : String)
      (event : EventRow) (hworker : worker ∈ db.worker_identities)
      (hworkspace : ∃ workspace ∈ db.workspaces, workspace.id = workspace_id)
      (hevent : NoteEvent none workspace_id .worker_identity
        [("worker_id", worker.id), ("reason", reason)] event)
      (hlogged : Logged db.events [event]) :
      Change settings held db
        { db with
          worker_identities :=
            Rows.update db.worker_identities (fun row => row.id = worker.id) fun row =>
            { row with
              credential_sha256 := digest
              credential_epoch := worker.credential_epoch + 1
              status := .active
              updated_at }
          events := db.events ++ [event] }
  | revoked (db : Db) (worker : IdentityRow) (updated_at : String)
      (hworker : worker ∈ db.worker_identities)
      (hactive : worker.status = .active) :
      Change settings held db
        { db with
          worker_identities :=
            Rows.update db.worker_identities (fun row => row.id = worker.id) fun row =>
            { row with
              status := .revoked, credential_epoch := row.credential_epoch + 1, updated_at } }
  | noted (db : Db) (worker workspace_id : String) (event : EventRow)
      (hworkspace : ∃ workspace ∈ db.workspaces, workspace.id = workspace_id)
      (hevent : NoteEvent none workspace_id .worker_revoked [("worker_id", worker)] event)
      (hlogged : Logged db.events [event]) :
      Change settings held db { db with events := db.events ++ [event] }
  | recorded (db : Db) (operation : OperationRow)
      (hfresh : ∀ other ∈ db.operations,
        ¬(other.actor = operation.actor ∧ other.id = operation.id)) :
      Change settings held db { db with operations := db.operations ++ [operation] }

end control_plane
