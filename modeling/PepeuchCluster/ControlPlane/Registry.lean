import PepeuchCluster.ControlPlane.Storage

namespace control_plane

def Limits.toJson (limits : Limits) : Json :=
  .dict [("max_concurrent_tasks", .number (.int limits.max_concurrent_tasks)),
    ("lease_seconds", .number (.int limits.lease_seconds)),
    ("max_output_bytes", .number (.int limits.max_output_bytes))]

def capabilitiesJson (capabilities : List Capability) : Json :=
  .arr (capabilities.map fun capability => .str capability.text)

def worker_id (value : String) : Except Failure String :=
  if value = "fake-cpu" then .ok value
  else do
    let value ← identifier (.str value)
    Except.require (value.toList.take 2 = ['n', '_']) (Problem "invalid_worker_id")
    return value

def default_limits (settings : Settings) : Limits :=
  ⟨1, settings.attempt_seconds, min settings.max_file_bytes 65536⟩

/-- `capabilities not in ([DEMO], [CPU_DIGEST])`. -/
def policy_capabilities : Json → Except Failure (List Capability)
  | .arr [.str name] =>
    match [Capability.demo, .cpu_digest].find? fun capability => capability.text = name with
    | some capability => .ok [capability]
    | none => .error (Problem "unsupported_worker_capabilities")
  | _ => .error (Problem "unsupported_worker_capabilities")

/-- `type(value) is not int`, and the range of the limit. -/
def policy_limit (low high : Nat) : Json → Except Failure Nat
  | .number (.int value) =>
    if (low : Int) ≤ value ∧ value ≤ high then .ok value.toNat
    else .error (Problem "unsupported_worker_limits")
  | _ => .error (Problem "unsupported_worker_limits")

def policy (capabilities limits : Json) (settings : Settings) :
    Except Failure (List Capability × Limits) := do
  let capabilities ← policy_capabilities capabilities
  fields limits ["max_concurrent_tasks", "lease_seconds", "max_output_bytes"]
  let max_concurrent_tasks ← policy_limit 1 1 (item limits "max_concurrent_tasks")
  let lease_seconds ← policy_limit 1 settings.attempt_seconds (item limits "lease_seconds")
  let max_output_bytes ←
    policy_limit 1 (min 65536 settings.max_file_bytes) (item limits "max_output_bytes")
  return (capabilities, { max_concurrent_tasks, lease_seconds, max_output_bytes })

def IdentityRow.simulated (row : IdentityRow) : Bool := row.capabilities = [.demo]

/-- `public_worker`: neither the credential's digest nor the dates are shown. -/
def public_fields (row : IdentityRow) : List (String × Json) :=
  [("schema", .str "pepeuch.control-plane/worker-identity/v1"), ("id", .str row.id),
    ("status", .str row.status.text), ("credential_epoch", .number (.int row.credential_epoch)),
    ("capabilities", capabilitiesJson row.capabilities), ("limits", row.limits.toJson),
    ("capacity", .number (.int 1)), ("simulated", .bool row.simulated),
    ("hardware_verified", .bool false), ("gpu", .null),
    ("isolation",
      if row.simulated then .dict [("mode", .str "same_os_account"), ("enforced", .bool false)]
      else .dict [("mode", .str "independent_worker"), ("declared", .str "linux-systemd-cpu/v1"),
        ("enforced", .null), ("verified", .bool false)])]

def public_worker (row : IdentityRow) : Json := .dict (public_fields row)

namespace WorkerRegistry

/-- `ORDER BY created_at,id`. -/
def ordered (db : Db) : List IdentityRow :=
  db.worker_identities.insertionSort fun a b =>
    a.created_at < b.created_at ∨ a.created_at = b.created_at ∧ a.id ≤ b.id

def list (active_only : Bool) : Op (List IdentityRow) :=
  Op.select fun db => (ordered db).filter fun row => !active_only || row.status = .active

def authorize (settings : Settings) (principal : Principal) : Op IdentityRow := do
  Op.require (principal.role = .worker) (Problem "access_denied" 403)
  let row ← Op.select fun db => Rows.find db.worker_identities fun row =>
    row.id = principal.identity
  let row ← Op.demand row (Problem "worker_revoked_or_rotated" 403)
  Op.require (row.status = .active ∧ principal.credential_epoch = some row.credential_epoch)
    (Problem "worker_revoked_or_rotated" 403)
  let _ ← Op.check (policy (capabilitiesJson row.capabilities) row.limits.toJson settings)
  return row

def least (ids : List String) : Option String :=
  ids.foldr (fun id best => some (match best with | none => id | some other => min id other)) none

def audit (identity reason : String) : Op Unit := do
  let workspace ← Op.select fun db => least (db.workspaces.map (·.id))
  let workspace ← Op.demand workspace .type_error
  let id ← Op.new_id 'e'
  let created_at ← Op.check (timestamp (← Op.clock))
  Op.execute
    (Db.insert_event ⟨0, id, none, workspace, "local-maintenance", created_at, .worker_identity,
      [("worker_id", identity), ("reason", reason)]⟩)

/-- A fresh secret in a file of its own; the index holds its digest only. -/
def credential (identity : String) (epoch : Nat) : Op (String × String) := do
  let token ← Op.token_urlsafe
  Op.write_new (.credential identity epoch) (token.bytes ++ [10])
  Op.fsync
  return (sha256 token.bytes, "secrets/workers/" ++ identity ++ "." ++ toString epoch ++ ".token")

def issued (row : IdentityRow) (path : String) : Json :=
  .dict [("worker", public_worker row), ("credential_file", .str path)]

/-- The transaction of `enroll`. -/
def issue (identity : String) (capabilities : List Capability) (limits : Limits) : Op Json := do
  let (digest, path) ← credential identity 1
  let stamp ← Op.check (timestamp (← Op.clock))
  let row : IdentityRow := ⟨identity, .active, digest, 1, capabilities, limits, stamp, stamp⟩
  Op.execute (Db.insert_identity row)
  audit identity "explicit_enrollment"
  return issued row path

def enroll (settings : Settings) (capabilities limits : Json) : Op Json := do
  let (capabilities, limits) ← Op.check (policy capabilities limits settings)
  let identity ← Op.new_id 'n'
  Op.transaction (issue identity capabilities limits)

def set_identity (identity : String) (change : IdentityRow → IdentityRow) : Op Unit :=
  Op.execute fun db =>
    some { db with
      worker_identities := Rows.update db.worker_identities (fun row => row.id = identity) change }

def identity_row (identity : String) : Op IdentityRow := do
  let row ← Op.select fun db => Rows.find db.worker_identities fun row => row.id = identity
  Op.demand row (Problem "not_found" 404)

/-- The transaction of `rotate`. -/
def renew (identity : String) (reactivate : Bool) : Op Json := do
  let row ← identity_row identity
  Op.require (row.status = .active ∨ reactivate = true)
    (Problem "explicit_reactivation_required" 409)
  let epoch := row.credential_epoch + 1
  let (digest, path) ← credential identity epoch
  let updated_at ← Op.check (timestamp (← Op.clock))
  set_identity identity fun row =>
    { row with credential_sha256 := digest, credential_epoch := epoch, status :=
      .active, updated_at }
  audit identity (if reactivate then "explicit_reactivation" else "credential_rotation")
  let row ← identity_row identity
  return issued row path

def rotate (identity : String) (reactivate : Bool) : Op Json := do
  let _ ← Op.check (worker_id identity)
  Op.transaction (renew identity reactivate)

/-- The update of `revoke`, which an identity revoked before does not repeat. -/
def deactivate (row : IdentityRow) : Op Unit :=
  match row.status with
  | .revoked => return
  | .active => do
    let updated_at ← Op.check (timestamp (← Op.clock))
    set_identity row.id fun row =>
      { row with status := .revoked, credential_epoch := row.credential_epoch + 1, updated_at }

def revoke (identity : String) : Op Json := do
  let _ ← Op.check (worker_id identity)
  let row ← identity_row identity
  deactivate row
  let row ← identity_row identity
  return public_worker row

end WorkerRegistry

end control_plane
