import PepeuchCluster.ControlPlane.Execution

namespace control_plane

/-- The operations that `_operate` records under their operation identifier. -/
inductive Operation where
  | create_mission (data : Json)
  | create_cpu_mission (data : Json)
  | approve (identity : String) (data : Json)
  | cancel (identity : String) (data : Json)
  | retry (identity : String) (data : Json)
  | upload (workspace_id : String) (data : Json)
  | revoke_worker (identity : String) (data : Json)
  | claim (data : Json)

namespace Operation

def perform (service : ControlPlane) (principal : Principal) : Operation → Op Json
  | create_mission data => service.create_mission principal data
  | create_cpu_mission data => service.create_cpu_mission principal data
  | approve identity data => ExecutionManager.approve service principal identity data
  | cancel identity data => ExecutionManager.cancel service principal identity data
  | retry identity data => ExecutionManager.retry service principal identity data
  | upload workspace_id data => WorkspaceManager.upload service principal workspace_id data
  | revoke_worker identity data => service.revoke_worker principal identity data
  | claim data => ExecutionManager.claim service principal data

end Operation

inductive Request where
  | operation (principal : Principal) (action : Operation)
  | finish (principal : Principal) (identity : String) (result : Json)
  | state (principal : Principal) (identity : String)
  | get_mission (principal : Principal) (identity : String)
  | list_missions (principal : Principal)
  | events (principal : Principal) (identity : String)
  | nodes (principal : Principal)
  | list_files (principal : Principal) (workspace_id : String)
  | download (principal : Principal) (workspace_id file_id : String) (version_id : Option String)
  | enroll (capabilities limits : Json)
  | rotate (identity : String) (reactivate : Bool)
  | expire
  | recover

inductive Reply where
  | json (value : Json)
  | content (raw : Bytes) (name digest : String)
  | done

namespace Request

def perform (service : ControlPlane) : Request → Op Reply
  | operation principal action => .json <$> action.perform service principal
  | finish principal identity result =>
    .json <$> ExecutionManager.finish service principal identity result
  | state principal identity => .json <$> ExecutionManager.state service principal identity
  | get_mission principal identity => .json <$> ControlPlane.get_mission principal identity
  | list_missions principal => .json <$> ControlPlane.list_missions principal
  | events principal identity => .json <$> ControlPlane.events principal identity
  | nodes principal => .json <$> ExecutionManager.nodes principal
  | list_files principal workspace_id =>
    .json <$> WorkspaceManager.list_files service principal workspace_id
  | download principal workspace_id file_id version_id =>
    (fun found => .content found.1 found.2.1 found.2.2) <$>
      WorkspaceManager.download service principal workspace_id file_id version_id
  | enroll capabilities limits =>
    .json <$> WorkerRegistry.enroll service.settings capabilities limits
  | rotate identity reactivate => .json <$> WorkerRegistry.rotate identity reactivate
  | expire => (fun _ => .done) <$> ExecutionManager.expire
  | recover => (fun _ => .done) <$> ExecutionManager.recover

end Request

/-- What `migrate_index` inserts into a new index: the workspace of the
    administrator, and the worker whose token the installation wrote. -/
structure Boot where
  workspace : BitVec 128
  worker_token : Token
  created_at : String

def install (settings : Settings) (boot : Boot) : Db where
  workspaces := [⟨identity_text 'w' boot.workspace, "local-admin", "local-project"⟩]
  missions := []
  tasks := []
  attempts := []
  files := []
  versions := []
  results := []
  events := []
  operations := []
  worker_identities := [⟨"fake-cpu", .active, sha256 boot.worker_token.bytes, 1, [.demo],
    default_limits settings, boot.created_at, boot.created_at⟩]
  attempt_worker_epochs := []

/-- An installation between two calls, with the states that its index has had. -/
structure Installation where
  db : Db
  files : Files
  commits : List Db

def Installation.world (installation : Installation) (supply : Supply) : World :=
  { installation with supply }

def Installation.fresh (settings : Settings) (boot : Boot) : Installation :=
  ⟨install settings boot, fun _ => none, [install settings boot]⟩

/-- One call, with what the environment answers during it. -/
structure Call where
  request : Request
  supply : Supply

namespace ControlPlane

def outcome (service : ControlPlane) (installation : Installation) (call : Call) :
    Except Failure Reply :=
  (call.request.perform service (installation.world call.supply)).1

def step (service : ControlPlane) (installation : Installation) (call : Call) : Installation :=
  let after := (call.request.perform service (installation.world call.supply)).2
  ⟨after.db, after.files, after.commits⟩

def run (service : ControlPlane) (installation : Installation) (calls : List Call) : Installation :=
  calls.foldl service.step installation

/-- The state after some calls on a new installation. -/
def after (service : ControlPlane) (boot : Boot) (calls : List Call) : Installation :=
  service.run (.fresh service.settings boot) calls

end ControlPlane

end control_plane
