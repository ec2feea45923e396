import PepeuchCluster.ControlPlane.Service
import PepeuchCluster.Encoding.Base64

namespace control_plane

def RESERVED : List String :=
  ["CON", "PRN", "AUX", "NUL"] ++
    (List.range 9).map (fun n => "COM" ++ toString (n + 1)) ++
    (List.range 9).map fun n => "LPT" ++ toString (n + 1)

def isNameChar (c : Char) : Bool := c.isAlphanum || c = '.' || c = '_' || c = '-'

/-- `[A-Za-z0-9][A-Za-z0-9._-]{0,119}`, no final dot, no reserved device name. -/
def isFileName (name : String) : Prop :=
  (∃ c, name.toList.head? = some c ∧ c.isAlphanum = true) ∧ name.toList.all isNameChar = true ∧
    name.toList.length ≤ 120 ∧ name.toList.getLast? ≠ some '.' ∧
    String.ofList ((name.toList.takeWhile (· ≠ '.')).map Char.toUpper) ∉ RESERVED

instance (name : String) : Decidable (isFileName name) := by
  have : Decidable (∃ c, name.toList.head? = some c ∧ c.isAlphanum = true) :=
    decidable_of_iff (name.toList.head?.any Char.isAlphanum = true) (Option.any_eq_true _ _)
  unfold isFileName
  infer_instance

def file_name (value : Json) : Except Failure String :=
  match value with
  | .str name => if isFileName name then .ok name else .error (Problem "unsafe_file_name")
  | _ => .error (Problem "unsafe_file_name")

def optional_identifier : Json → Except Failure (Option String)
  | .null => .ok none
  | value => (identifier value).map some

def file_size : Json → Except Failure Nat
  | .number (.int value) =>
    if 0 ≤ value then .ok value.toNat else .error (Problem "invalid_file_size")
  | _ => .error (Problem "invalid_file_size")

def isDigest (value : String) : Bool := value.toList.length = 64 && value.toList.all Sha256.isHex

def file_digest : Json → Except Failure String
  | .str value => if isDigest value then .ok value else .error (Problem "invalid_file_digest")
  | _ => .error (Problem "invalid_file_digest")

def file_content (limit : Nat) : Json → Except Failure Bytes
  | .str encoded =>
    if encoded.toList.length ≤ (limit + 2) / 3 * 4 then
      match Base64.decode encoded.toList with
      | some raw => .ok raw
      | none => .error (Problem "invalid_file_encoding")
    else .error (Problem "file_too_large" 413)
  | _ => .error (Problem "file_too_large" 413)

/-- A validated upload or worker output: its name, content and expected version. -/
structure Output where
  name : String
  raw : Bytes
  expected_version : Option String

def output_data (data : Json) (limit : Nat) : Except Failure Output := do
  fields data ["name", "content_base64", "size", "sha256", "expected_version"]
  let name ← file_name (item data "name")
  let size ← file_size (item data "size")
  Except.require (size ≤ limit) (Problem "file_too_large" 413)
  let expected_version ← optional_identifier (item data "expected_version")
  let digest ← file_digest (item data "sha256")
  let raw ← file_content limit (item data "content_base64")
  Except.require (raw.length = size ∧ sha256 raw = digest) (Problem "file_integrity_mismatch")
  return { name, raw, expected_version }

/-- `{key: value for key, value in data.items() if key != "operation_id"}`. -/
def without_operation : Json → Json
  | .obj entries => .obj (entries.filter fun entry => entry.1 ≠ "operation_id")
  | data => data

def newer (best : Option VersionRow) (version : VersionRow) : Option VersionRow :=
  match best with
  | none => some version
  | some other => if other.number < version.number then some version else some other

/-- `ORDER BY number DESC LIMIT 1`. -/
def newest (versions : List VersionRow) : Option VersionRow := versions.foldl newer none

namespace Db

/-- `files WHERE workspace_id=? AND name=?`, in the collation of the column. -/
def find_file (db : Db) (workspace_id name : String) : Option FileRow :=
  Rows.find db.files fun file => file.workspace_id = workspace_id ∧ nocase file.name = nocase name

def versions_of (db : Db) (file_id : String) : List VersionRow :=
  db.versions.filter fun version => version.file_id = file_id

def workspace_versions (db : Db) (workspace_id : String) : List VersionRow :=
  db.versions.filter fun version =>
    db.files.any fun file => file.id = version.file_id ∧ file.workspace_id = workspace_id

def used_bytes (db : Db) (workspace_id : String) : Nat :=
  ((db.workspace_versions workspace_id).map (·.size)).sum

def workspace_files (db : Db) (workspace_id : String) : List FileRow :=
  db.files.filter fun file => file.workspace_id = workspace_id

end Db

namespace WorkspaceManager

/-- The staged bytes become the object, unless the object is there already. -/
def place_object (service : ControlPlane) (temporary : String) (raw : Bytes) : Bool → Op Unit
  | true => do
    let held ← Op.read_private (.object (sha256 raw)) service.settings.max_file_bytes
    Op.require (held = raw) (Problem "object_corrupted" 500)
  | false => do
    Op.replace (.staging temporary) (.object (sha256 raw))
    Op.fsync

/-- What `_object` does between the staging file and its removal. -/
def store_object (service : ControlPlane) (temporary : String) (raw : Bytes) : Op Unit := do
  let limit := service.settings.max_file_bytes
  Op.write_new (.staging temporary) raw
  let staged ← Op.read_private (.staging temporary) limit
  Op.require (staged = raw ∧ sha256 staged = sha256 raw) (Problem "incomplete_staging" 500)
  place_object service temporary raw (← Op.lexists (.object (sha256 raw)))
  let held ← Op.read_private (.object (sha256 raw)) limit
  Op.require (held = raw) (Problem "object_corrupted" 500)

/-- `_object`. -/
def object (service : ControlPlane) (raw : Bytes) : Op String := do
  let temporary ← Op.new_id 'p'
  Op.ensuring (store_object service temporary raw) (Op.unlink (.staging temporary))
  return sha256 raw

structure Published where
  file_id : String
  version_id : String
  sha256 : String
  size : Nat
deriving DecidableEq

def Published.toJson (published : Published) : Json :=
  .dict [("file_id", .str published.file_id), ("version_id", .str published.version_id),
    ("sha256", .str published.sha256), ("size", .number (.int published.size))]

/-- The file row of a publication, inserted when the name is new. -/
def file_of (workspace_id name : String) : Option FileRow → Op String
  | some file => return file.id
  | none => do
    let file_id ← Op.new_id 'f'
    Op.execute (Db.insert_file ⟨file_id, workspace_id, name⟩)
    return file_id

def next_number : Option VersionRow → Nat
  | none => 1
  | some previous => previous.number + 1

/-- The version that a publication must expect. -/
def current_version (file : Option FileRow) (db : Db) : Option VersionRow :=
  file.bind fun file => newest (db.versions_of file.id)

/-- `_publish`. -/
def publish (service : ControlPlane) (principal : Principal)
    (workspace_id name : String) (raw : Bytes) (expected mission_id attempt_id : Option String) :
    Op Published := do
  let file ← Op.select fun db => db.find_file workspace_id name
  let previous ← Op.select (current_version file)
  Op.require (expected = previous.map (·.id)) (Problem "version_conflict" 409)
  let used ← Op.select fun db => db.used_bytes workspace_id
  Op.require (used + raw.length ≤ service.settings.quota_bytes)
    (Problem "workspace_quota_exceeded" 413)
  let count ← Op.select fun db => (db.workspace_files workspace_id).length
  Op.require (¬ (file = none ∧ 100 ≤ count)) (Problem "file_count_limit" 413)
  Op.require (previous.all fun version => version.number < 100) (Problem "version_count_limit" 413)
  let digest ← object service raw
  let file_id ← file_of workspace_id name file
  let version_id ← Op.new_id 'v'
  let created_at ← Op.check (timestamp (← Op.clock))
  Op.execute
    (Db.insert_version ⟨version_id, file_id, next_number previous, raw.length, digest, created_at,
      mission_id, attempt_id⟩)
  ControlPlane.audit principal workspace_id mission_id .file_published
    [("file_id", file_id), ("version_id", version_id)]
  return { file_id, version_id, sha256 := digest, size := raw.length }

def upload_effect (service : ControlPlane) (principal : Principal) (workspace_id : String)
    (output : Output) :
    Op Json := do
  let _ ← ControlPlane.workspace_access principal workspace_id
  let published ←
    publish service principal workspace_id output.name output.raw output.expected_version
    none none
  return published.toJson

def upload (service : ControlPlane) (principal : Principal) (workspace_id : String) (data : Json) :
    Op Json := do
  Op.check (require_role principal .admin)
  Op.check
    (fields data ["operation_id", "name", "content_base64", "size", "sha256", "expected_version"])
  let output ← Op.check (output_data (without_operation data) service.settings.max_file_bytes)
  service.operate principal (item data "operation_id") ("upload:" ++ workspace_id) data
    (upload_effect service principal workspace_id output)

def publish_result (service : ControlPlane) (principal : Principal) (mission : MissionRow)
    (attempt : AttemptRow) (capability : Capability) (output : Json) : Op Published := do
  Op.check (require_role principal .worker)
  Op.require (principal.identity = attempt.worker_id) (Problem "access_denied" 403)
  let worker ← WorkerRegistry.authorize service.settings principal
  let limit := min (min 65536 service.settings.max_file_bytes) worker.limits.max_output_bytes
  let output ← Op.check (output_data output limit)
  Op.require (output.name = "resultat.md" ∧ output.expected_version = attempt.expected_version)
    (Problem "result_contract_mismatch" 409)
  let published ← publish service principal mission.workspace_id output.name output.raw
    attempt.expected_version (some mission.id) (some attempt.id)
  let id ← Op.new_id 'r'
  Op.execute (Db.insert_result ⟨id, attempt.id, published.version_id, capability⟩)
  return published

/-- The version that `download` reads: the one asked for, or the newest. -/
def chosen_version (file_id : String) (version_id : Option String) (db : Db) : Option VersionRow :=
  newest ((db.versions_of file_id).filter fun version => version_id = none ∨
    some version.id = version_id)

def download (service : ControlPlane) (principal : Principal) (workspace_id file_id : String)
    (version_id : Option String) : Op (Bytes × String × String) := do
  let _ ← Op.check (identifier (.str file_id))
  let _ ← Op.check (optional_identifier (optionText version_id))
  Op.transaction do
    let _ ← ControlPlane.workspace_access principal workspace_id
    let file ← Op.select fun db =>
      Rows.find db.files fun file => file.id = file_id ∧ file.workspace_id = workspace_id
    let file ← Op.demand file (Problem "not_found" 404)
    let version ← Op.select (chosen_version file_id version_id)
    let version ← Op.demand version (Problem "not_found" 404)
    Op.require (isDigest version.sha256 = true) (Problem "object_corrupted" 500)
    let raw ← Op.read_private (.object version.sha256) service.settings.max_file_bytes
    Op.require (raw.length = version.size ∧ sha256 raw = version.sha256)
      (Problem "object_corrupted" 500)
    return (raw, file.name, version.sha256)

def VersionRow.toJson (version : VersionRow) : Json :=
  .dict [("id", .str version.id), ("file_id", .str version.file_id),
    ("number", .number (.int version.number)), ("size", .number (.int version.size)),
      ("sha256", .str version.sha256),
    ("created_at", .str version.created_at), ("mission_id", optionText version.mission_id),
    ("attempt_id", optionText version.attempt_id)]

/-- One file of `list_files`: its versions, newest first. `versions[0]` of a file
    without versions is an error. -/
def file_view (db : Db) (file : FileRow) : Except Failure Json :=
  match (db.versions_of file.id).insertionSort fun a b => b.number ≤ a.number with
  | [] => .error .value_error
  | version :: versions =>
    .ok
      (.dict [("id", .str file.id), ("name", .str file.name), ("current_version", .str version.id),
        ("versions", .arr ((version :: versions).map VersionRow.toJson))])

/-- `ORDER BY name`, in the collation of the column. -/
def listed (workspace_id : String) (db : Db) : List FileRow :=
  (db.workspace_files workspace_id).insertionSort fun a b => nocase a.name ≤ nocase b.name

def list_files (service : ControlPlane) (principal : Principal) (workspace_id : String) : Op Json :=
  Op.transaction do
    let _ ← ControlPlane.workspace_access principal workspace_id
    let files ← Op.query fun db => (listed workspace_id db).mapM (file_view db)
    let used ← Op.select fun db =>
      ((listed workspace_id db).flatMap fun file => db.versions_of file.id).map (·.size)
    return .dict [("schema", .str "pepeuch.control-plane/workspace-files/v1"),
      ("workspace_id", .str workspace_id), ("files", .arr files),
        ("used_bytes", .number (.int used.sum)),
      ("quota_bytes", .number (.int service.settings.quota_bytes)),
      ("max_file_bytes", .number (.int service.settings.max_file_bytes))]

end WorkspaceManager

end control_plane
