import PepeuchCluster.ControlPlane.Planning
import PepeuchCluster.ControlPlane.Settling

set_option synthInstance.maxSize 2048

open Relation

namespace control_plane

namespace Op

variable {α β : Type} {settings : Settings}

theorem check_bind_outer {result : Except Failure α} {f : α → Op β}
    (h : ∀ a, result = .ok a → Outer settings (f a)) : Outer settings (check result >>= f) := by
  cases result with
  | error failure => exact ⟨Effect.Keeps.raise (Advances.refl settings) failure⟩
  | ok a => exact ⟨(h a rfl).advances⟩

theorem require_bind_outer {condition : Prop} {_ : Decidable condition} {failure : Failure}
    {f : Unit → Op β} (h : condition → Outer settings (f ())) :
    Outer settings (require condition failure >>= f) := by
  by_cases hcondition : condition
  · have hpure : require condition failure = pure () := if_pos hcondition
    rw [hpure]
    exact ⟨(h hcondition).advances⟩
  · have hraise : require condition failure = raise failure := if_neg hcondition
    rw [hraise]
    exact ⟨Effect.Keeps.raise (Advances.refl settings) failure⟩

theorem new_id_bind_outer {kind : Char} {f : String → Op β}
    (h : ∀ uuid, Outer settings (f (identity_text kind uuid))) :
    Outer settings (new_id kind >>= f) := by
  refine ⟨fun w => Advances.trans ?_ ((h (w.supply.uuid 0)).advances w.draw)⟩
  exact ⟨Held.le_refl _, fun _ => ⟨[], (List.append_nil _).symm, .nil _⟩⟩

end Op

namespace WorkerRegistry

variable {w w' : World} {settings : Settings}

instance (identity reason : String) :
    Op.Local (audit identity reason) := by unfold audit; infer_instance

instance (identity : String) (epoch : Nat) : Op.Local (credential identity epoch) := by
  unfold credential; infer_instance

instance (identity : String) (epoch : Nat) : Op.Reads (credential identity epoch) := by
  unfold credential; infer_instance

instance (identity : String) (change : IdentityRow → IdentityRow) :
    Op.Local (set_identity identity change) := by
  unfold set_identity; infer_instance

instance (row : IdentityRow) : Op.Local (deactivate row) := by
  unfold deactivate
  split <;> infer_instance

instance (identity : String) : Op.Local (revoke identity) := by unfold revoke; infer_instance

theorem audit_ok {identity reason : String} {u : Unit} (h : audit identity reason w = (.ok u, w')) :
    ∃ workspace_id event, (∃ workspace ∈ w.db.workspaces, workspace.id = workspace_id) ∧
      NoteEvent none workspace_id .worker_identity [("worker_id", identity),
        ("reason", reason)] event ∧
      Logged w.db.events [event] ∧ w'.files = w.files ∧
      w'.db = { w.db with events := w.db.events ++ [event] } := by
  simp only [audit, Op.select_bind_eq_ok, Op.demand_bind_eq_ok, Op.new_id_bind_eq_ok,
    Op.clock_bind_eq_ok, Op.check_bind_eq_ok, Op.execute_eq_ok, World.draw_db, World.tick_db] at h
  obtain ⟨workspace_id, _, created_at, _, _, db, hinsert, rfl⟩ := h
  obtain ⟨hfresh, hworkspace, rfl⟩ := Db.insert_event_fresh hinsert
  exact ⟨workspace_id,
    ⟨Db.next_sequence w.db.events, identity_text 'e' (w.supply.uuid 0), none, workspace_id,
      "local-maintenance", created_at, .worker_identity,
        [("worker_id", identity), ("reason", reason)]⟩, hworkspace,
    ⟨rfl, rfl, rfl, rfl⟩,
      ⟨hfresh, rfl, isIdentifier_identity_text (by decide) _, trivial⟩, rfl, rfl⟩

theorem policy_limit_ok {low high limit : Nat} {value : Json}
    (h : policy_limit low high value = .ok limit) :
    low ≤ limit ∧ limit ≤ high := by
  unfold policy_limit at h
  split at h
  · split at h
    · next hrange =>
      obtain rfl := Except.ok.inj h
      omega
    · cases h
  · cases h

theorem policy_capabilities_ok {value : Json} {capabilities : List Capability}
    (h : policy_capabilities value = .ok capabilities) :
    ∃ capability, capabilities = [capability] := by
  unfold policy_capabilities at h
  split at h
  · split at h
    · next capability _ => exact ⟨capability, (Except.ok.inj h).symm⟩
    · cases h
  · cases h

/-- An accepted policy has one capability, and limits within the settings. -/
theorem policy_ok {value limits : Json} {accepted : List Capability × Limits}
    (h : policy value limits settings = .ok accepted) :
    (∃ capability, accepted.1 = [capability]) ∧ accepted.2.Valid settings := by
  simp only [policy, Except.bind_eq_ok, Except.pure_eq_ok] at h
  obtain ⟨capabilities, hcapabilities, _, _, tasks, htasks, lease, hlease, output, houtput, rfl⟩ :=
    h
  have htasks := policy_limit_ok htasks
  exact ⟨policy_capabilities_ok hcapabilities,
    ⟨Nat.le_antisymm htasks.2 htasks.1, policy_limit_ok hlease, policy_limit_ok houtput⟩⟩

instance (identity : String) (capabilities : List Capability) (limits : Limits) :
    Op.Local (issue identity capabilities limits) := by unfold issue; infer_instance

instance (identity : String) (reactivate : Bool) : Op.Local (renew identity reactivate) := by
  unfold renew; infer_instance

theorem credential_ok {identity digest path : String} {epoch : Nat}
    (h : credential identity epoch w = (.ok (digest, path), w')) :
    digest = sha256 (w.supply.secret 0).bytes ∧ w'.db = w.db := by
  have hsame := Op.Reads.db h
  obtain ⟨token, u, htoken, h⟩ := Op.bind_eq_ok.mp h
  obtain ⟨rfl, rfl⟩ := Op.token_urlsafe_eq_ok.mp htoken
  obtain ⟨_, _, _, h⟩ := Op.bind_eq_ok.mp h
  obtain ⟨_, _, _, h⟩ := Op.bind_eq_ok.mp h
  obtain ⟨hpair, _⟩ := Op.pure_eq_ok.mp h
  exact ⟨(Prod.mk.inj hpair).1.symm, hsame⟩

/-- An enrollment adds an active identity with the digest of a fresh secret. -/
theorem issue_ok {identity : String} {capabilities : List Capability} {limits : Limits}
    {response : Json} (h : issue identity capabilities limits w = (.ok response, w')) :
    ∃ stamp workspace_id event, (∃ workspace ∈ w.db.workspaces, workspace.id = workspace_id) ∧
      NoteEvent none workspace_id .worker_identity
        [("worker_id", identity), ("reason", "explicit_enrollment")] event ∧
      Logged w.db.events [event] ∧ (∀ other ∈ w.db.worker_identities, other.id ≠ identity) ∧
      w'.db = { w.db with
        worker_identities :=
          w.db.worker_identities ++ [⟨identity, .active, sha256 (w.supply.secret 0).bytes, 1,
            capabilities, limits, stamp, stamp⟩]
        events := w.db.events ++ [event] } := by
  obtain ⟨⟨digest, path⟩, u, hcredential, h⟩ := Op.bind_eq_ok.mp h
  obtain ⟨rfl, hsame⟩ := credential_ok hcredential
  simp only [Op.clock_bind_eq_ok, Op.check_bind_eq_ok, Op.execute_bind_eq_ok,
    World.tick_db, hsame] at h
  obtain ⟨stamp, _, _, db, hinsert, h⟩ := h
  obtain ⟨_, v, haudit, h⟩ := Op.bind_eq_ok.mp h
  obtain ⟨_, rfl⟩ := Op.pure_eq_ok.mp h
  obtain ⟨hfresh, rfl⟩ := Db.insert_identity_fresh hinsert
  obtain ⟨workspace_id, event, hworkspace, hevent, hlogged, _, hdb⟩ := audit_ok haudit
  exact ⟨stamp, workspace_id, event, hworkspace, hevent, hlogged, hfresh, hdb⟩

/-- A rotation gives the identity a fresh secret and the next epoch. -/
theorem renew_ok {identity : String} {reactivate : Bool} {response : Json}
    (h : renew identity reactivate w = (.ok response, w')) :
    ∃ worker updated_at reason workspace_id event, worker ∈ w.db.worker_identities ∧
      worker.id = identity ∧ (∃ workspace ∈ w.db.workspaces, workspace.id = workspace_id) ∧
      NoteEvent none workspace_id .worker_identity [("worker_id", identity),
        ("reason", reason)] event ∧
      Logged w.db.events [event] ∧
      w'.db = { w.db with
        worker_identities :=
          Rows.update w.db.worker_identities (fun row => row.id = identity) fun row =>
          { row with
            credential_sha256 := sha256 (w.supply.secret 0).bytes
            credential_epoch := worker.credential_epoch + 1
            status := .active
            updated_at }
        events := w.db.events ++ [event] } := by
  obtain ⟨worker, _, hrow, h⟩ := Op.bind_eq_ok.mp h
  obtain ⟨rfl, hworker, hid⟩ := identity_row_ok hrow
  rw [Op.require_bind_eq_ok] at h
  obtain ⟨⟨digest, path⟩, u, hcredential, h⟩ := Op.bind_eq_ok.mp h.2
  obtain ⟨rfl, hsame⟩ := credential_ok hcredential
  simp only [Op.clock_bind_eq_ok, Op.check_bind_eq_ok, set_identity,
    Op.execute_bind_eq_ok, World.tick_db, hsame] at h
  obtain ⟨updated_at, _, _, db, hset, h⟩ := h
  obtain rfl := Option.some.inj hset
  obtain ⟨_, v, haudit, h⟩ := Op.bind_eq_ok.mp h
  obtain ⟨row, _, hread, h⟩ := Op.bind_eq_ok.mp h
  obtain ⟨rfl, _, _⟩ := identity_row_ok hread
  obtain ⟨_, rfl⟩ := Op.pure_eq_ok.mp h
  obtain ⟨workspace_id, event, hworkspace, hevent, hlogged, _, hdb⟩ := audit_ok haudit
  exact ⟨worker, updated_at, _, workspace_id, event, hworker, hid, hworkspace, hevent, hlogged, hdb⟩

/-- A revocation retires an active identity, and leaves a revoked one alone. -/
theorem revoke_ok {identity : String} {response : Json}
    (h : revoke identity w = (.ok response, w')) :
    ∃ worker, worker ∈ w.db.worker_identities ∧ worker.id = identity ∧
      (worker.status = .revoked ∧ w'.db = w.db ∨ worker.status = .active ∧ ∃ updated_at,
        w'.db = { w.db with
          worker_identities := Rows.update w.db.worker_identities (fun row => row.id = worker.id)
            fun row => { row with
              status := .revoked, credential_epoch := row.credential_epoch + 1,
                  updated_at } }) := by
  simp only [revoke, Op.check_bind_eq_ok] at h
  obtain ⟨_, _, h⟩ := h
  obtain ⟨worker, _, hrow, h⟩ := Op.bind_eq_ok.mp h
  obtain ⟨rfl, hworker, hid⟩ := identity_row_ok hrow
  obtain ⟨_, u, hdeactivate, h⟩ := Op.bind_eq_ok.mp h
  obtain ⟨row, _, hread, h⟩ := Op.bind_eq_ok.mp h
  obtain ⟨rfl, _, _⟩ := identity_row_ok hread
  obtain ⟨_, rfl⟩ := Op.pure_eq_ok.mp h
  refine ⟨worker, hworker, hid, ?_⟩
  cases hstatus : worker.status with
  | revoked =>
    simp only [deactivate, hstatus, Op.pure_eq_ok] at hdeactivate
    exact Or.inl ⟨rfl, by rw [hdeactivate.2]⟩
  | active =>
    simp only [deactivate, hstatus, Op.clock_bind_eq_ok, Op.check_bind_eq_ok, set_identity,
      Op.execute_eq_ok, World.tick_db] at hdeactivate
    obtain ⟨updated_at, _, _, db, hset, rfl⟩ := hdeactivate
    obtain rfl := Option.some.inj hset
    exact Or.inr ⟨rfl, updated_at, rfl⟩

instance (capabilities limits : Json) :
    Op.Outer settings (enroll settings capabilities limits) := by
  refine Op.check_bind_outer fun accepted hpolicy => Op.new_id_bind_outer fun uuid => ?_
  obtain ⟨hcapability, hlimits⟩ := policy_ok hpolicy
  refine Op.transaction_advances fun w w' response _ h => ?_
  obtain ⟨stamp, workspace_id, event, hworkspace, hevent, hlogged, hfresh, hdb⟩ := issue_ok h
  rw [hdb]
  exact .single (.enrolled _ _ workspace_id event hfresh
    (isIdentifier_identity_text (by decide) uuid) hcapability
    hlimits rfl hworkspace hevent hlogged)

instance (identity : String) (reactivate : Bool) :
    Op.Outer settings (rotate identity reactivate) := by
  refine Op.check_bind_outer fun _ _ => Op.transaction_advances fun w w' response _ h => ?_
  obtain ⟨worker, updated_at, reason, workspace_id, event, hworker, rfl, hworkspace, hevent,
    hlogged, hdb⟩ :=
    renew_ok h
  rw [hdb]
  exact .single
    (.rotated _ worker _ updated_at reason workspace_id event hworker hworkspace hevent hlogged)

end WorkerRegistry

namespace ControlPlane

variable {w w' : World} {principal : Principal} {service : ControlPlane} {settings : Settings}

instance (identity : String) : Op.Local (revoke_worker_effect principal identity) := by
  unfold revoke_worker_effect; infer_instance

/-- A revocation fences every attempt of its worker, whatever it has changed before. -/
theorem revoke_worker_effect_ok {held : String → Option Bytes} {identity : String} {response : Json}
    (hsane : Sane w.db) (h : revoke_worker_effect principal identity w = (.ok response, w')) :
    Changes settings held w.db w'.db := by
  obtain ⟨_, u, hrevoke, h⟩ := Op.bind_eq_ok.mp h
  obtain ⟨_, v, hfence, h⟩ := Op.bind_eq_ok.mp h
  simp only [Op.select_bind_eq_ok, Op.demand_bind_eq_ok] at h
  obtain ⟨workspace, _, h⟩ := h
  obtain ⟨_, x, haudit, h⟩ := Op.bind_eq_ok.mp h
  obtain ⟨_, rfl⟩ := Op.pure_eq_ok.mp h
  have hretired : Changes settings held w.db u.db := by
    obtain ⟨worker, hworker, _, ⟨_, hsame⟩ | ⟨hactive, updated_at, hdb⟩⟩ :=
      WorkerRegistry.revoke_ok hrevoke
    · rw [hsame]
      exact ReflTransGen.refl
    · rw [hdb]
      exact .single (.revoked _ worker updated_at hworker hactive)
  have hfenced : Changes settings held u.db v.db :=
    (ExecutionManager.fence_ok (hretired.sane hsane).keyed hfence).changes
  obtain ⟨event, hevent, _, hlogged, hworkspace, hdb⟩ := audit_ok haudit
  rw [hdb]
  exact (hretired.trans hfenced).trans
    (.single (.noted _ identity workspace.id event hworkspace hevent hlogged))

theorem actor_ok {role : Role} {actor : String}
    (h : service.actor principal role w = (.ok actor, w')) :
    w = w' ∧ match role with
      | .worker => ∃ worker, Authorised w.db principal worker ∧
          actor = principal.identity ++ "@" ++ toString worker.credential_epoch
      | _ => actor = principal.identity := by
  cases role with
  | worker =>
    obtain ⟨worker, _, hauthorize, h⟩ := Op.bind_eq_ok.mp h
    obtain ⟨rfl, hworker, _⟩ := WorkerRegistry.authorize_ok hauthorize
    obtain ⟨rfl, rfl⟩ := Op.pure_eq_ok.mp h
    exact ⟨rfl, worker, hworker, rfl⟩
  | admin =>
    obtain ⟨rfl, rfl⟩ := Op.pure_eq_ok.mp h
    exact ⟨rfl, rfl⟩
  | system =>
    obtain ⟨rfl, rfl⟩ := Op.pure_eq_ok.mp h
    exact ⟨rfl, rfl⟩

section Operate

variable {operation action : String} {payload : Json} {effect : Op Json} {role : Role}

instance [heffect : Op.Local effect] :
    Op.Local (service.operate_once principal operation action payload effect role) := by
  have hbranch : ∀ (actor : String) (old : Option OperationRow), Op.Local (match old with
      | some old => do
        Op.require (old.request_sha256 = request_sha256 action payload)
          (Problem "operation_conflict" 409)
        Op.check (decode_json old.response)
      | none => do
        let response ← effect
        Op.execute (Db.insert_operation
          ⟨actor, operation, request_sha256 action payload, canonical response⟩)
        return response) := by
    rintro actor (_ | old) <;> infer_instance
  unfold operate_once
  infer_instance

/-- An operation is replayed from its record, or runs its effect and is recorded. -/
theorem operate_once_ok {response : Json}
    (h : service.operate_once principal operation action payload effect role w =
      (.ok response, w')) :
    ∃ actor, service.actor principal role w = (.ok actor, w) ∧
      ((∃ old ∈ w.db.operations, (old.actor = actor ∧ old.id = operation) ∧
          old.request_sha256 = request_sha256 action payload ∧
          decode_json old.response = .ok response ∧ w = w') ∨
        (∀ old ∈ w.db.operations, ¬(old.actor = actor ∧ old.id = operation)) ∧
          ∃ v, effect w = (.ok response, v) ∧
            (∀ other ∈ v.db.operations, ¬(other.actor = actor ∧ other.id = operation)) ∧
            w'.files = v.files ∧ w'.db = { v.db with operations := v.db.operations ++
              [⟨actor, operation, request_sha256 action payload, canonical response⟩] }) := by
  obtain ⟨actor, _, hactor, h⟩ := Op.bind_eq_ok.mp h
  obtain ⟨rfl, _⟩ := actor_ok hactor
  refine ⟨actor, hactor, ?_⟩
  rw [Op.select_bind_eq_ok] at h
  cases hfind : Rows.find w.db.operations fun row => row.actor = actor ∧ row.id = operation with
  | some old =>
    rw [hfind] at h
    simp only [Op.require_bind_eq_ok, Op.check_eq_ok] at h
    obtain ⟨hmem, hkey⟩ := Rows.find_some hfind
    exact Or.inl ⟨old, hmem, of_decide_eq_true hkey, h.1, h.2.1, h.2.2⟩
  | none =>
    rw [hfind] at h
    obtain ⟨made, v, heffect, h⟩ := Op.bind_eq_ok.mp h
    simp only [Op.execute_bind_eq_ok, Op.pure_eq_ok] at h
    obtain ⟨_, db, hinsert, rfl, rfl⟩ := h
    obtain ⟨hfresh, rfl⟩ := Db.insert_operation_fresh hinsert
    exact Or.inr ⟨fun old hold => of_decide_eq_false (Rows.find_none.mp hfind old hold), v, heffect,
      hfresh, rfl, rfl⟩

theorem operate_outer {operation : Json} [Op.Local effect]
    (heffect : ∀ w w' response, Sane w.db → effect w = (.ok response, w') →
      Changes settings w'.files.held w.db w'.db) :
    Op.Outer settings (service.operate principal operation action payload effect role) := by
  refine Op.check_bind_outer fun _ _ => Op.check_bind_outer fun identity _ => ?_
  refine Op.transaction_advances fun w w' response hsane h => ?_
  obtain ⟨actor, _, ⟨_, _, _, _, _, rfl⟩ | ⟨_, v, hrun, hfresh, hfiles, hdb⟩⟩ := operate_once_ok h
  · exact ReflTransGen.refl
  · rw [hdb, hfiles]
    exact ReflTransGen.tail (heffect w v response hsane hrun) (.recorded _ _ hfresh)

end Operate

end ControlPlane

end control_plane
