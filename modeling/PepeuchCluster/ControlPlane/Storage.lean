import PepeuchCluster.ControlPlane.Contracts
import PepeuchCluster.Effects.Effect
import PepeuchCluster.Tables.Rows

namespace control_plane

/-- `Settings.__post_init__` is the proof that every value carries. -/
structure Settings where
  max_file_bytes : Nat
  quota_bytes : Nat
  attempt_seconds : Nat
  valid : 0 < max_file_bytes ∧ max_file_bytes ≤ 1048576 ∧ 0 < quota_bytes ∧
    quota_bytes ≤ 1073741824 ∧ 0 < attempt_seconds ∧ attempt_seconds ≤ 3600
deriving DecidableEq

def Settings.default : Settings := ⟨1048576, 16777216, 60, by decide⟩

structure Limits where
  max_concurrent_tasks : Nat
  lease_seconds : Nat
  max_output_bytes : Nat
deriving DecidableEq

structure Plan where
  schema : String
  simulated : Bool
  role : String
  capability : String
  worker_id : String
  instruction : String
  outputs : List String
deriving DecidableEq

inductive WorkerStatus where
  | active
  | revoked
deriving DecidableEq

def WorkerStatus.text : WorkerStatus → String
  | active => "active"
  | revoked => "revoked"

inductive EventType where
  | mission_created
  | mission_execution_contract_v1
  | mission_state
  | attempt_started
  | file_published
  | worker_identity
  | worker_revoked
deriving DecidableEq

def EventType.text : EventType → String
  | mission_created => "mission_created"
  | mission_execution_contract_v1 => "mission_execution_contract_v1"
  | mission_state => "mission_state"
  | attempt_started => "attempt_started"
  | file_published => "file_published"
  | worker_identity => "worker_identity"
  | worker_revoked => "worker_revoked"

structure WorkspaceRow where
  id : String
  owner : String
  project : String
deriving DecidableEq

structure MissionRow where
  id : String
  owner : String
  project : String
  workspace_id : String
  title : String
  objective : String
  state : State
  created_at : String
  authorized_files : List String
deriving DecidableEq

structure TaskRow where
  id : String
  mission_id : String
  role : String
  capability : Capability
  worker_id : String
  state : State
  plan : Plan
deriving DecidableEq

structure AttemptRow where
  id : String
  task_id : String
  number : Nat
  worker_id : String
  state : State
  generation : String
  started_at : String
  deadline : Binary64
  expected_version : Option String
  result_sha256 : Option String
  error_code : Option String
deriving DecidableEq

structure FileRow where
  id : String
  workspace_id : String
  name : String
deriving DecidableEq

structure VersionRow where
  id : String
  file_id : String
  number : Nat
  size : Nat
  sha256 : String
  created_at : String
  mission_id : Option String
  attempt_id : Option String
deriving DecidableEq

structure ResultRow where
  id : String
  attempt_id : String
  version_id : String
  provenance : Capability
deriving DecidableEq

structure EventRow where
  sequence : Nat
  id : String
  mission_id : Option String
  workspace_id : String
  actor : String
  created_at : String
  type : EventType
  details : List (String × String)
deriving DecidableEq

structure OperationRow where
  actor : String
  id : String
  request_sha256 : String
  response : String
deriving DecidableEq

structure IdentityRow where
  id : String
  status : WorkerStatus
  credential_sha256 : String
  credential_epoch : Nat
  capabilities : List Capability
  limits : Limits
  created_at : String
  updated_at : String
deriving DecidableEq

structure EpochRow where
  attempt_id : String
  credential_epoch : Nat
deriving DecidableEq

/-- The tables of `migrations/0001.sql` and `0002.sql`. -/
structure Db where
  workspaces : Rows WorkspaceRow
  missions : Rows MissionRow
  tasks : Rows TaskRow
  attempts : Rows AttemptRow
  files : Rows FileRow
  versions : Rows VersionRow
  results : Rows ResultRow
  events : Rows EventRow
  operations : Rows OperationRow
  worker_identities : Rows IdentityRow
  attempt_worker_epochs : Rows EpochRow
deriving DecidableEq

/-- `COLLATE NOCASE` folds the ASCII letters. -/
def nocase (name : String) : List Char := name.toList.map Char.toLower

namespace Db

/-- `AUTOINCREMENT` over a table that no statement deletes from. -/
def next_sequence (events : Rows EventRow) : Nat :=
  events.foldr (fun event next => max (event.sequence + 1) next) 1

section Inserts

/-! Every insertion checks the keys and references that the schema declares. -/

def insert_mission (row : MissionRow) (db : Db) : Option Db :=
  if (∀ other ∈ db.missions, other.id ≠ row.id) ∧
      (∃ workspace ∈ db.workspaces, workspace.id = row.workspace_id) then
    some { db with missions := db.missions ++ [row] }
  else none

def insert_task (row : TaskRow) (db : Db) : Option Db :=
  if (∀ other ∈ db.tasks, other.id ≠ row.id ∧ other.mission_id ≠ row.mission_id) ∧
      (∃ mission ∈ db.missions, mission.id = row.mission_id) then
    some { db with tasks := db.tasks ++ [row] }
  else none

def insert_attempt (row : AttemptRow) (db : Db) : Option Db :=
  if (∀ other ∈ db.attempts, other.id ≠ row.id ∧ other.generation ≠ row.generation ∧
        ¬(other.task_id = row.task_id ∧ other.number = row.number)) ∧
      (∃ task ∈ db.tasks, task.id = row.task_id) then
    some { db with attempts := db.attempts ++ [row] }
  else none

def insert_file (row : FileRow) (db : Db) : Option Db :=
  if (∀ other ∈ db.files, other.id ≠ row.id ∧
        ¬(other.workspace_id = row.workspace_id ∧ nocase other.name = nocase row.name)) ∧
      (∃ workspace ∈ db.workspaces, workspace.id = row.workspace_id) then
    some { db with files := db.files ++ [row] }
  else none

def insert_version (row : VersionRow) (db : Db) : Option Db :=
  if (∀ other ∈ db.versions, other.id ≠ row.id ∧
        ¬(other.file_id = row.file_id ∧ other.number = row.number)) ∧
      (∃ file ∈ db.files, file.id = row.file_id) ∧
      (∀ identity, row.mission_id = some identity →
        ∃ mission ∈ db.missions, mission.id = identity) ∧
      (∀ identity, row.attempt_id = some identity →
        ∃ attempt ∈ db.attempts, attempt.id = identity) then
    some { db with versions := db.versions ++ [row] }
  else none

def insert_result (row : ResultRow) (db : Db) : Option Db :=
  if (∀ other ∈ db.results, other.id ≠ row.id ∧ other.attempt_id ≠ row.attempt_id) ∧
      (∃ attempt ∈ db.attempts, attempt.id = row.attempt_id) ∧
      (∃ version ∈ db.versions, version.id = row.version_id) then
    some { db with results := db.results ++ [row] }
  else none

def insert_event (row : EventRow) (db : Db) : Option Db :=
  if (∀ other ∈ db.events, other.id ≠ row.id) ∧
      (∀ identity, row.mission_id = some identity →
        ∃ mission ∈ db.missions, mission.id = identity) ∧
      (∃ workspace ∈ db.workspaces, workspace.id = row.workspace_id) then
    some { db with events := db.events ++ [{ row with sequence := next_sequence db.events }] }
  else none

def insert_operation (row : OperationRow) (db : Db) : Option Db :=
  if ∀ other ∈ db.operations, ¬(other.actor = row.actor ∧ other.id = row.id) then
    some { db with operations := db.operations ++ [row] }
  else none

def insert_identity (row : IdentityRow) (db : Db) : Option Db :=
  if ∀ other ∈ db.worker_identities, other.id ≠ row.id then
    some { db with worker_identities := db.worker_identities ++ [row] }
  else none

def insert_epoch (row : EpochRow) (db : Db) : Option Db :=
  if (∀ other ∈ db.attempt_worker_epochs, other.attempt_id ≠ row.attempt_id) ∧
      (∃ attempt ∈ db.attempts, attempt.id = row.attempt_id) then
    some { db with attempt_worker_epochs := db.attempt_worker_epochs ++ [row] }
  else none

end Inserts

end Db

/-- The files that a running service writes, relative to the data directory. -/
inductive Path where
  | object (digest : String)
  | staging (name : String)
  | credential (identity : String) (epoch : Nat)
deriving DecidableEq

abbrev Bytes := List UInt8

def Files := Path → Option Bytes

def Files.set (files : Files) (path : Path) (content : Option Bytes) : Files :=
  fun other => if other = path then content else files other

def isTokenChar (c : Char) : Bool := c.isAlphanum || c = '_' || c = '-'

/-- `secrets.token_urlsafe(32)`, and what a token file may hold. -/
structure Token where
  chars : List Char
  valid : chars.length = 43 ∧ chars.all isTokenChar = true
deriving DecidableEq

def Token.bytes (token : Token) : Bytes := encode (String.ofList token.chars)

/-- One step of the operating system or of SQLite that fails. A write may have got
    some way, and the failure may take the process with it. -/
structure Fault where
  progress : Nat
  killed : Bool
deriving DecidableEq

def Fault.failure (fault : Fault) : Failure := if fault.killed then .killed else .os_error

/-- What the environment will answer: clock readings, random identifiers and
    secrets, and whether each coming step fails. -/
structure Supply where
  clock : Nat → Number
  uuid : Nat → BitVec 128
  secret : Nat → Token
  fault : Nat → Option Fault

namespace Supply

def tick (supply : Supply) : Supply := { supply with clock := fun n => supply.clock (n + 1) }

def draw (supply : Supply) : Supply := { supply with uuid := fun n => supply.uuid (n + 1) }

def reveal (supply : Supply) : Supply := { supply with secret := fun n => supply.secret (n + 1) }

def step (supply : Supply) : Supply := { supply with fault := fun n => supply.fault (n + 1) }

end Supply

/-- The index, the private files, and the states of the index that were committed. -/
structure World where
  db : Db
  files : Files
  supply : Supply
  commits : List Db

namespace World

def tick (w : World) : World := { w with supply := w.supply.tick }

def draw (w : World) : World := { w with supply := w.supply.draw }

def reveal (w : World) : World := { w with supply := w.supply.reveal }

def with_db (w : World) (db : Db) : World := { w with db, supply := w.supply.step }

def with_files (w : World) (files : Files) : World := { w with files, supply := w.supply.step }

@[simp] theorem tick_db (w : World) : w.tick.db = w.db := rfl

@[simp] theorem tick_files (w : World) : w.tick.files = w.files := rfl

@[simp] theorem draw_db (w : World) : w.draw.db = w.db := rfl

@[simp] theorem draw_files (w : World) : w.draw.files = w.files := rfl

@[simp] theorem reveal_db (w : World) : w.reveal.db = w.db := rfl

@[simp] theorem reveal_files (w : World) : w.reveal.files = w.files := rfl

@[simp] theorem with_db_db (w : World) (db : Db) : (w.with_db db).db = db := rfl

@[simp] theorem with_db_files (w : World) (db : Db) : (w.with_db db).files = w.files := rfl

@[simp] theorem with_files_db (w : World) (files : Files) : (w.with_files files).db = w.db := rfl

@[simp] theorem with_files_files (w : World) (files : Files) :
    (w.with_files files).files = files := rfl

end World

abbrev Op := Effect Failure World

namespace Op

def raise {α : Type} (failure : Failure) : Op α := Effect.raise failure

def check {α : Type} (result : Except Failure α) : Op α := Effect.ofExcept result

def require (condition : Prop) [Decidable condition] (failure : Failure) : Op Unit :=
  Effect.require condition failure

def demand {α : Type} (value : Option α) (failure : Failure) : Op α := Effect.demand value failure

def select {α : Type} (query : Db → α) : Op α := fun w => (.ok (query w.db), w)

def clock : Op Number := fun w => (.ok (w.supply.clock 0), w.tick)

def new_id (kind : Char) : Op String :=
  fun w => (.ok (identity_text kind (w.supply.uuid 0)), w.draw)

def token_urlsafe : Op Token := fun w => (.ok (w.supply.secret 0), w.reveal)

/-- A statement that writes: `none` is a violated constraint. -/
def execute (statement : Db → Option Db) : Op Unit := fun w =>
  match w.supply.fault 0 with
  | some fault => (.error fault.failure, w.with_db w.db)
  | none =>
    match statement w.db with
    | none => (.error .integrity_error, w.with_db w.db)
    | some db => (.ok (), w.with_db db)

/-- A step on the file system: what a failing step leaves, and what it does otherwise. -/
def file_step (partially : Nat → Files → Files) (change : Files → Files) : Op Unit := fun w =>
  match w.supply.fault 0 with
  | some fault => (.error fault.failure, w.with_files (partially fault.progress w.files))
  | none => (.ok (), w.with_files (change w.files))

def content (path : Path) : Op (Option Bytes) := fun w => (.ok (w.files path), w)

def lexists (path : Path) : Op Bool := fun w => (.ok (w.files path).isSome, w)

/-- `O_CREAT | O_EXCL`, then the content. -/
def write_new (path : Path) (data : Bytes) : Op Unit := do
  require (¬ (← lexists path)) .os_error
  file_step
    (fun progress files => if progress = 0 then files
      else files.set path (some (data.take (progress - 1))))
    (fun files => files.set path (some data))

def read_private (path : Path) (limit : Nat) : Op Bytes := do
  file_step (fun _ files => files) id
  let data ← demand (← content path) .os_error
  require (data.length ≤ limit) (Problem "unsafe_local_file" 500)
  return data

/-- `os.replace`, which is atomic. -/
def replace (source target : Path) : Op Unit := do
  let move (files : Files) : Files := (files.set target (files source)).set source none
  file_step (fun progress files => if progress = 0 then files else move files) move

def fsync : Op Unit := file_step (fun _ files => files) id

/-- `unlink(missing_ok=True)`. -/
def unlink (path : Path) : Op Unit :=
  file_step (fun progress files => if progress = 0 then files else files.set path none)
    (fun files => files.set path none)

def ensuring {α : Type} (body : Op α) (cleanup : Op Unit) : Op α :=
  Effect.ensuring (fun failure => failure = .killed) body cleanup

/-- `Store.transaction`: any failure, one of the commit included, restores the index. -/
def transaction {α : Type} (body : Op α) : Op α := fun w =>
  match body w with
  | (.error failure, w') => (.error failure, { w' with db := w.db })
  | (.ok a, w') =>
    match w'.supply.fault 0 with
    | some fault => (.error fault.failure, { w' with db := w.db, supply := w'.supply.step })
    | none => (.ok a, { w' with supply := w'.supply.step, commits := w'.commits ++ [w'.db] })

end Op

end control_plane
