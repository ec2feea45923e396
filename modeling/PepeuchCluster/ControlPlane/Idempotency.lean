import PepeuchCluster.ControlPlane.Credentials
import PepeuchCluster.ControlPlane.Missions
import PepeuchCluster.ControlPlane.Refusals

set_option synthInstance.maxSize 2048

open Relation

namespace control_plane

open ExecutionManager (Fences expire)

section Responses

/-! Every response of an operation is a dictionary that its record gives back. -/

theorem optionText_wellFormed (value : Option String) : (optionText value).WellFormed := by
  cases value <;> trivial

theorem map_wellFormed {α : Type} {f : α → Json} (h : ∀ a, (f a).WellFormed) (items : List α) :
    Json.WellFormedItems (items.map f) :=
  Json.wellFormedItems_iff.mpr (List.forall_mem_map.mpr fun a _ => h a)

theorem texts_wellFormed (texts : List String) : Json.WellFormedItems (texts.map .str) :=
  map_wellFormed (fun text => show (Json.str text).WellFormed from trivial) texts

theorem Plan.toJson_wellFormed (plan : Plan) : plan.toJson.WellFormed :=
  Json.dict_wellFormed (by simp) (by simp [Json.WellFormed, texts_wellFormed])

theorem TaskRow.toJson_wellFormed (task : TaskRow) : task.toJson.WellFormed :=
  Json.dict_wellFormed (by simp) (by simp [Json.WellFormed])

theorem AttemptRow.toJson_wellFormed (attempt : AttemptRow) : attempt.toJson.WellFormed :=
  Json.dict_wellFormed (by simp) (by simp [Json.WellFormed, optionText_wellFormed])

theorem provenance_wellFormed (capability : Capability) : (provenance capability).WellFormed := by
  cases capability <;> exact Json.dict_wellFormed (by simp) (by simp [Json.WellFormed])

theorem resultJson_wellFormed (entry : ResultRow × VersionRow) : (resultJson entry).WellFormed :=
  Json.dict_wellFormed (by simp) (by simp [Json.WellFormed, provenance_wellFormed])

theorem public_worker_wellFormed (row : IdentityRow) : (public_worker row).WellFormed := by
  have hlimits : row.limits.toJson.WellFormed :=
    Json.dict_wellFormed (by simp) (by simp [Json.WellFormed])
  have hcapabilities : (capabilitiesJson row.capabilities).WellFormed :=
    Json.arr_wellFormed (by simp [Json.WellFormed])
  refine Json.dict_wellFormed (by simp [public_fields]) ?_
  cases hsimulated : row.simulated <;>
    simp [public_fields, hsimulated, Json.WellFormed, hlimits, hcapabilities, Json.dict_wellFormed]

theorem no_request_wellFormed : ExecutionManager.no_request.WellFormed :=
  Json.dict_wellFormed (by simp) (by simp [Json.WellFormed])

theorem execution_request_wellFormed (attempt_id generation : String) (task : TaskRow)
    (mission : MissionRow) (started : String) (deadline : Number) (expected : Option String) :
    (ExecutionManager.execution_request attempt_id generation task mission started deadline
      expected).WellFormed := by
  have hmission : (Json.dict [("id", .str mission.id), ("title", .str mission.title),
      ("objective", .str mission.objective)]).WellFormed :=
    Json.dict_wellFormed (by simp) (by simp [Json.WellFormed])
  refine Json.dict_wellFormed (by simp)
    (List.forall_mem_singleton.mpr (Json.dict_wellFormed (by simp) ?_))
  simp [Json.WellFormed, hmission, TaskRow.toJson_wellFormed, texts_wellFormed,
    optionText_wellFormed]

theorem published_wellFormed
    (published : WorkspaceManager.Published) : published.toJson.WellFormed :=
  Json.dict_wellFormed (by simp) (by simp [Json.WellFormed])

theorem view_wellFormed {row : MissionRow} {db : Db} {view : Json}
    (h : ControlPlane.view row db = .ok view) :
    view.WellFormed := by
  unfold ControlPlane.view at h
  obtain ⟨capability, _, h⟩ := Except.bind_eq_ok.mp h
  have hworkspace : (Json.dict [("schema", .str "pepeuch.control-plane/workspace-reference/v1"),
      ("id", .str row.workspace_id), ("project", .str row.project)]).WellFormed :=
    Json.dict_wellFormed (by simp) (by simp [Json.WellFormed])
  have hsimulated : (Json.dict
      [("input", .str "local_user"), ("execution", .str "simulation_only")]).WellFormed :=
    Json.dict_wellFormed (by simp) (by simp [Json.WellFormed])
  have hcomputed :
    (Json.dict [("input", .str "local_user"), ("execution", .str "deterministic_cpu"),
      ("ai_inference", .bool false), ("os_isolation", .str "NOT VERIFIED")]).WellFormed :=
    Json.dict_wellFormed (by simp) (by simp [Json.WellFormed])
  have hattempts := map_wellFormed AttemptRow.toJson_wellFormed
    ((db.attempts_of row.id).insertionSort fun a b => a.number ≤ b.number)
  have hresults := map_wellFormed resultJson_wellFormed (db.results_of row.id)
  rw [← Except.ok.inj h]
  cases capability with
  | demo =>
    refine Json.dict_wellFormed (by simp) ?_
    cases htasks : db.tasks_of row.id <;>
      simp [Json.WellFormed, Json.WellFormedItems, hworkspace, hsimulated, hattempts, hresults,
        texts_wellFormed, map_wellFormed, TaskRow.toJson_wellFormed, Plan.toJson_wellFormed]
  | cpu_digest =>
    refine Json.dict_wellFormed (by simp) ?_
    cases htasks : db.tasks_of row.id <;>
      simp [Json.WellFormed, Json.WellFormedItems, hworkspace, hcomputed, hattempts, hresults,
        texts_wellFormed, map_wellFormed, TaskRow.toJson_wellFormed, Plan.toJson_wellFormed]

end Responses

namespace Op

/-- Whatever the action returns is a dictionary that its text gives back. -/
class Answers (op : Op Json) : Prop where
  wellFormed : ∀ w w' response, op w = (.ok response, w') → response.WellFormed

section Instances

variable {α : Type}

instance {x : Op α} {f : α → Op Json} [hf : ∀ a, Answers (f a)] : Answers (x >>= f) := by
  refine ⟨fun w w' response h => ?_⟩
  obtain ⟨a, v, _, hrest⟩ := bind_eq_ok.mp h
  exact (hf a).wellFormed v w' response hrest

theorem Answers.pure {response : Json} (h : response.WellFormed) : Answers (pure response) := by
  refine ⟨fun w w' returned hreturned => ?_⟩
  rw [← (pure_eq_ok.mp hreturned).1]
  exact h

instance (row : MissionRow) : Answers (query (ControlPlane.view row)) :=
  ⟨fun _ _ _ h => view_wellFormed (Prod.mk.inj h).1⟩

end Instances

end Op

section Effects

variable {service : ControlPlane} {principal : Principal}

instance (capability : Capability) (workspace_id title objective : String) (refs : List String) :
    Op.Answers (ControlPlane.create_mission_effect principal capability workspace_id title
      objective refs) := by
  unfold ControlPlane.create_mission_effect; infer_instance

instance (identity : String) :
    Op.Answers (ExecutionManager.approve_effect service principal identity) := by
  unfold ExecutionManager.approve_effect; infer_instance

instance (identity : String) : Op.Answers (ExecutionManager.cancel_effect principal identity) := by
  have hbranch : ∀ (mission : MissionRow) (waiting : Bool), Op.Answers (match waiting with
      | true => Op.query (ControlPlane.view mission)
      | false => do
        let mission ← ExecutionManager.cancel_mission principal mission
        Op.query (ControlPlane.view mission)) := by
    rintro mission (_ | _) <;> infer_instance
  unfold ExecutionManager.cancel_effect
  infer_instance

instance (identity : String) : Op.Answers (ExecutionManager.retry_effect principal identity) := by
  unfold ExecutionManager.retry_effect; infer_instance

instance (workspace_id : String) (output : Output) :
    Op.Answers (WorkspaceManager.upload_effect service principal workspace_id output) := by
  have hanswer : ∀ published : WorkspaceManager.Published, Op.Answers (pure published.toJson) :=
    fun published =>
    .pure (published_wellFormed published)
  unfold WorkspaceManager.upload_effect
  infer_instance

instance (identity : String) :
    Op.Answers (ControlPlane.revoke_worker_effect principal identity) := by
  refine ⟨fun w w' response h => ?_⟩
  obtain ⟨worker, u, hrevoke, h⟩ := Op.bind_eq_ok.mp h
  obtain ⟨_, v, _, h⟩ := Op.bind_eq_ok.mp h
  simp only [Op.select_bind_eq_ok, Op.demand_bind_eq_ok] at h
  obtain ⟨workspace, _, h⟩ := h
  obtain ⟨_, x, _, h⟩ := Op.bind_eq_ok.mp h
  obtain ⟨rfl, _⟩ := Op.pure_eq_ok.mp h
  simp only [WorkerRegistry.revoke, Op.check_bind_eq_ok] at hrevoke
  obtain ⟨_, _, hrevoke⟩ := hrevoke
  obtain ⟨_, _, _, hrevoke⟩ := Op.bind_eq_ok.mp hrevoke
  obtain ⟨_, _, _, hrevoke⟩ := Op.bind_eq_ok.mp hrevoke
  obtain ⟨row, _, _, hrevoke⟩ := Op.bind_eq_ok.mp hrevoke
  obtain ⟨rfl, _⟩ := Op.pure_eq_ok.mp hrevoke
  exact public_worker_wellFormed row

instance (worker : IdentityRow) (task : TaskRow) :
    Op.Answers (ExecutionManager.start_attempt service principal worker task) := by
  have hanswer :
    ∀ (attempt_id generation : String) (mission : MissionRow) (started : String) (deadline : Number)
      (expected : Option String),
        Op.Answers (pure (ExecutionManager.execution_request attempt_id generation task
          mission started deadline expected)) := fun _ _ _ _ _ _ =>
        .pure (execution_request_wellFormed _ _ _ _ _ _ _)
  unfold ExecutionManager.start_attempt
  infer_instance

instance : Op.Answers (ExecutionManager.claim_effect service principal) := by
  have hnone : Op.Answers (pure ExecutionManager.no_request) := .pure no_request_wellFormed
  have htasks : ∀ (worker : IdentityRow) (tasks : List (TaskRow × MissionRow)),
    Op.Answers (match tasks with
      | [] => return ExecutionManager.no_request
      | (task, _) :: _ => ExecutionManager.start_attempt service principal worker task) := by
    rintro worker (_ | ⟨⟨task, mission⟩, tasks⟩) <;> infer_instance
  have hbranch : ∀ (worker : IdentityRow) (busy : Bool), Op.Answers (match busy with
      | true => return ExecutionManager.no_request
      | false => do
        let tasks ← Op.select fun db => db.queued_tasks principal.identity
        match tasks with
        | [] => return ExecutionManager.no_request
        | (task, _) :: _ => ExecutionManager.start_attempt service principal worker task) := by
    rintro worker (_ | _) <;> infer_instance
  unfold ExecutionManager.claim_effect
  infer_instance

end Effects

/-- The actor that an operation of the principal is recorded under. -/
def Principal.actor (principal : Principal) : Role → String
  | .worker => principal.identity ++ "@" ++ toString (principal.credential_epoch.getD 0)
  | _ => principal.identity

/-- The record of an operation, with the response that it replays. -/
def Recorded (db : Db) (actor operation digest : String) (response : Json) : Prop :=
  ∃ old ∈ db.operations, (old.actor = actor ∧ old.id = operation) ∧ old.request_sha256 = digest ∧
    decode_json old.response = .ok response

/-- The actor of the principal is accepted wherever the identities are these. -/
def Acting (service : ControlPlane) (db : Db) (principal : Principal) (role : Role) : Prop :=
  ∀ w : World, w.db.worker_identities = db.worker_identities →
    service.actor principal role w = (.ok (principal.actor role), w)

section Records

variable {service : ControlPlane} {principal : Principal} {role : Role} {w w' : World} {db db' : Db}
  {actor operation digest : String} {response : Json}

theorem actor_eq (h : service.actor principal role w = (.ok actor, w')) :
    actor = principal.actor role := by
  obtain ⟨_, hactor⟩ := ControlPlane.actor_ok h
  cases role with
  | worker =>
    obtain ⟨worker, hworker, rfl⟩ := hactor
    rw [Principal.actor, hworker.epoch, Option.getD_some]
  | admin => exact hactor
  | system => exact hactor

theorem acting_of_ne (hrole : role ≠ .worker) : Acting service db principal role := by
  intro w _
  cases role with
  | worker => exact absurd rfl hrole
  | admin => rfl
  | system => rfl

/-- A worker that was accepted is accepted again while it holds its credential. -/
theorem authorize_again {settings : Settings} {row : IdentityRow} (hextends : Extends db db')
    (hkeys : Keyed db') (hheld : Holds db' principal)
    (h : WorkerRegistry.authorize settings principal w = (.ok row, w'))
    (hdb : w.db.worker_identities = db.worker_identities) :
    ∀ v : World, v.db.worker_identities = db'.worker_identities →
      WorkerRegistry.authorize settings principal v = (.ok row, v) := by
  obtain ⟨_, hworker, hrole⟩ := WorkerRegistry.authorize_ok h
  simp only [WorkerRegistry.authorize, Op.require_bind_eq_ok, Op.select_bind_eq_ok,
    Op.demand_bind_eq_ok, Op.check_bind_eq_ok] at h
  obtain ⟨_, found, _, _, accepted, hpolicy, hlast⟩ := h
  obtain ⟨rfl, _⟩ := Op.pure_eq_ok.mp hlast
  -- the identity is still the same row: any other one has a higher epoch
  obtain ⟨later, hlater⟩ := hheld
  have hsame : later = found := by
    have hid : later.id = found.id := hlater.id.trans hworker.id.symm
    have hepoch := Option.some.inj (hlater.epoch.symm.trans hworker.epoch)
    rcases hextends.credential hkeys (hdb ▸ hworker.mem) hlater.mem hid with hsame | hhigher
    · exact hsame
    · omega
  subst hsame
  intro v hv
  have hfind : Rows.find v.db.worker_identities (fun row => row.id = principal.identity) =
      some later := by
    rw [hv]
    exact (Rows.find_key_iff hkeys.identities).mpr ⟨hlater.mem, hlater.id⟩
  simp only [WorkerRegistry.authorize, Op.require_bind_eq_ok, Op.select_bind_eq_ok,
    Op.demand_bind_eq_ok, Op.check_bind_eq_ok]
  exact ⟨hrole, later, hfind, ⟨hlater.status, hlater.epoch⟩, accepted, hpolicy, rfl⟩

theorem acting_of_holds (hextends : Extends db db') (hkeys : Keyed db')
    (hheld : Holds db' principal) (h : service.actor principal .worker w = (.ok actor, w'))
    (hdb : w.db.worker_identities = db.worker_identities) :
    Acting service db' principal .worker := by
  obtain ⟨worker, _, hauthorize, _⟩ := Op.bind_eq_ok.mp h
  obtain ⟨_, hworker, _⟩ := WorkerRegistry.authorize_ok hauthorize
  intro v hv
  have hrun := authorize_again hextends hkeys hheld hauthorize hdb v hv
  refine Op.bind_eq_ok.mpr ⟨worker, v, hrun, ?_⟩
  rw [Principal.actor, hworker.epoch]
  rfl

theorem Recorded.of_prefix (h : Recorded db actor operation digest response)
    (hextends : Extends db db') :
    Recorded db' actor operation digest response := by
  obtain ⟨old, hold, hrest⟩ := h
  exact ⟨old, hextends.operations.subset hold, hrest⟩

theorem Fences.operations {reason : String} (h : Fences reason db db') :
    db'.operations = db.operations := by
  rw [h.frame]

theorem Fences.identities {reason : String} (h : Fences reason db db') :
    db'.worker_identities = db.worker_identities := by
  rw [h.frame]

end Records

namespace Op

/-- Here the action answers with the response, unless its environment fails, and at most an expiry
    comes of it. -/
def Replays (op : Op Json) (w : World) (response : Json) : Prop :=
  ((op w).1 = .ok response ∨ ∃ failure, Environmental failure ∧ (op w).1 = .error failure) ∧
    Fences "attempt_expired" w.db (op w).2.db

theorem Replays.transaction {body : Op Json} {w : World} {response : Json}
    (h : body w = (.ok response, w)) :
    Replays (transaction body) w response := by
  rw [Replays, Op.transaction, h]
  dsimp only
  cases w.supply.fault 0 with
  | some fault => exact ⟨.inr ⟨_, robust_fault fault, rfl⟩, ReflTransGen.refl⟩
  | none => exact ⟨.inl rfl, ReflTransGen.refl⟩

/-- An expiry before the action does not change what it answers. -/
theorem Replays.expire {op : Op Json} {w : World} {response : Json} (hsane : Sane w.db)
    (h : ∀ v : World, Fences "attempt_expired" w.db v.db → Replays op v response) :
    Replays (expire >>= fun _ => op) w response := by
  have hfences := (inferInstance : Expiring ExecutionManager.expire).fences w hsane
  cases hexpire : ExecutionManager.expire w with
  | mk result v =>
    rw [hexpire] at hfences
    cases result with
    | error failure =>
      have hrun : (ExecutionManager.expire >>= fun _ => op) w = (.error failure, v) := by
        rw [Effect.bind_apply, hexpire]
      have hrobust := (ExecutionManager.fence_robust hsane).transaction failure v hexpire
      rw [Replays, hrun]
      exact ⟨.inr ⟨failure, hrobust, rfl⟩, hfences⟩
    | ok a =>
      have hrun : (ExecutionManager.expire >>= fun _ => op) w = op v := by
        rw [Effect.bind_apply, hexpire]
      obtain ⟨hanswer, hlater⟩ := h v hfences
      rw [Replays, hrun]
      exact ⟨hanswer, ReflTransGen.trans hfences hlater⟩

/-- An operation that runs once, and is replayed from its record afterwards. -/
class Once (service : ControlPlane) (principal : Principal) (role : Role) (action : String)
    (payload : Json) (op : Op Json) : Prop where
  recorded : ∀ {w w' response}, op w = (.ok response, w') →
    ∃ operation, item payload "operation_id" = .str operation ∧ Recorded w'.db
      (principal.actor role) operation (ControlPlane.request_sha256 action payload) response
  acted : ∀ {w w' response}, Sane w.db → op w = (.ok response, w') → ∃ v v' actor,
    v.db.worker_identities = w.db.worker_identities ∧
      service.actor principal role v = (.ok actor, v')
  replayed : ∀ {w w' response}, op w = (.ok response, w') → ∀ v operation kept, Sane v.db →
    item payload "operation_id" = .str operation →
    Recorded v.db (principal.actor role) operation
      (ControlPlane.request_sha256 action payload) kept →
    Acting service v.db principal role → Replays op v kept
  refused : ∀ {w w' response}, op w = (.ok response, w') → Sane w.db → ∀ operation digest kept,
    item payload "operation_id" = .str operation →
    Recorded w.db (principal.actor role) operation digest kept →
    digest = ControlPlane.request_sha256 action payload

section Instances

variable {α : Type} {service : ControlPlane} {principal : Principal} {role : Role} {action : String}
  {payload : Json}
  {w w' : World}

instance {result : Except Failure α} {f : α → Op Json}
    [hf : ∀ a, Once service principal role action payload (f a)] :
    Once service principal role action payload (check result >>= f) where
  recorded h := by
    obtain ⟨a, _, hrest⟩ := check_bind_eq_ok.mp h
    exact (hf a).recorded hrest
  acted hsane h := by
    obtain ⟨a, _, hrest⟩ := check_bind_eq_ok.mp h
    exact (hf a).acted hsane hrest
  replayed h v operation kept hsane hoperation hrecorded hacting := by
    obtain ⟨a, rfl, hrest⟩ := check_bind_eq_ok.mp h
    exact (hf a).replayed hrest v operation kept hsane hoperation hrecorded hacting
  refused h hsane := by
    obtain ⟨a, _, hrest⟩ := check_bind_eq_ok.mp h
    exact (hf a).refused hrest hsane

instance {condition : Prop} {_ : Decidable condition} {failure : Failure} {f : Unit → Op Json}
    [hf : ∀ a, Once service principal role action payload (f a)] :
    Once service principal role action payload (require condition failure >>= f) where
  recorded h := (hf ()).recorded (require_bind_eq_ok.mp h).2
  acted hsane h := (hf ()).acted hsane (require_bind_eq_ok.mp h).2
  replayed h v operation kept hsane hoperation hrecorded hacting := by
    obtain ⟨hcondition, hrest⟩ := require_bind_eq_ok.mp h
    have hpass : require condition failure = pure () := if_pos hcondition
    rw [hpass]
    exact (hf ()).replayed hrest v operation kept hsane hoperation hrecorded hacting
  refused h hsane := (hf ()).refused (require_bind_eq_ok.mp h).2 hsane

/-- A recorded operation is not run again. -/
theorem operate_once_replay {operation : String} {effect : Op Json} {kept : Json}
    (hkeys : Keyed w.db) (hrecorded : Recorded w.db (principal.actor role) operation
      (ControlPlane.request_sha256 action payload) kept)
    (hacting : Acting service w.db principal role) :
    service.operate_once principal operation action payload effect role w = (.ok kept, w) := by
  obtain ⟨old, hold, hkey, hdigest, hdecode⟩ := hrecorded
  have hfind : Rows.find w.db.operations (fun row => row.actor = principal.actor role ∧
      row.id = operation) = some old :=
    Rows.find_unique hold (decide_eq_true hkey) fun other hother hsame => by
      obtain ⟨hactor, hid⟩ := of_decide_eq_true hsame
      exact Rows.eq_of_key hkeys.operations hother hold
        (Prod.ext (hactor.trans hkey.1.symm) (hid.trans hkey.2.symm))
  refine bind_eq_ok.mpr ⟨principal.actor role, w, hacting w rfl, ?_⟩
  rw [select_bind_eq_ok, hfind]
  exact require_bind_eq_ok.mpr ⟨hdigest, check_eq_ok.mpr ⟨hdecode, rfl⟩⟩

instance {op : Op Json} [hop : Once service principal role action payload op] :
    Once service principal role action payload (expire >>= fun _ => op) where
  recorded h := by
    obtain ⟨_, v, _, hrest⟩ := bind_eq_ok.mp h
    exact hop.recorded hrest
  acted hsane h := by
    obtain ⟨_, v, hexpire, hrest⟩ := bind_eq_ok.mp h
    have hfences := expire_ok hsane hexpire
    obtain ⟨u, u', actor, hsame, hactor⟩ := hop.acted (Fences.sane hfences hsane) hrest
    exact ⟨u, u', actor, hsame.trans (Fences.identities hfences), hactor⟩
  replayed h v operation kept hsane hoperation hrecorded hacting := by
    obtain ⟨_, _, _, hrest⟩ := bind_eq_ok.mp h
    refine Replays.expire hsane fun u hfences => ?_
    have hkept : Recorded u.db (principal.actor role) operation
        (ControlPlane.request_sha256 action payload) kept := by
      rwa [Recorded, Fences.operations hfences]
    exact hop.replayed hrest u operation kept (Fences.sane hfences hsane) hoperation hkept
      fun x hx => hacting x (hx.trans (Fences.identities hfences))
  refused h hsane operation digest kept hoperation hrecorded := by
    obtain ⟨_, v, hexpire, hrest⟩ := bind_eq_ok.mp h
    have hfences := expire_ok hsane hexpire
    obtain ⟨old, hold, hmatch⟩ := hrecorded
    exact hop.refused hrest (Fences.sane hfences hsane) operation digest kept hoperation
      ⟨old, Fences.operations hfences ▸ hold, hmatch⟩

instance {effect : Op Json} [heffect : Answers effect] : Once service principal role action payload
    (service.operate principal (item payload "operation_id") action payload effect role) where
  recorded := by
    intro w w' response h
    simp only [ControlPlane.operate, check_bind_eq_ok] at h
    obtain ⟨_, _, operation, hoperation, h⟩ := h
    obtain ⟨v, hrun, _, rfl⟩ := transaction_eq_ok.mp h
    refine ⟨operation, operation_id_ok hoperation, ?_⟩
    obtain ⟨actor, hactor, ⟨old, hold, hkey, hdigest, hdecode, rfl⟩ | ⟨_, x, hrun, _, _, hdb⟩⟩ :=
      ControlPlane.operate_once_ok hrun
    · rw [← actor_eq hactor]
      exact ⟨old, hold, hkey, hdigest, hdecode⟩
    · refine ⟨⟨actor, operation, ControlPlane.request_sha256 action payload, canonical response⟩,
        ?_, ⟨actor_eq hactor, rfl⟩, rfl, decode_canonical (heffect.wellFormed _ _ _ hrun)⟩
      change _ ∈ v.db.operations
      rw [hdb]
      exact List.mem_append_right _ (List.mem_singleton_self _)
  acted _ h := by
    simp only [ControlPlane.operate, check_bind_eq_ok] at h
    obtain ⟨_, _, operation, hoperation, h⟩ := h
    obtain ⟨v, hrun, _, _⟩ := transaction_eq_ok.mp h
    obtain ⟨actor, hactor, _⟩ := ControlPlane.operate_once_ok hrun
    exact ⟨_, _, actor, rfl, hactor⟩
  replayed h v operation kept hsane hoperation hrecorded hacting := by
    simp only [ControlPlane.operate, check_bind_eq_ok] at h
    obtain ⟨_, hrole, used, hused, _⟩ := h
    obtain rfl : operation = used := Json.str.inj (hoperation.symm.trans (operation_id_ok hused))
    have hrun :
      service.operate principal (item payload "operation_id") action payload effect role v =
        transaction (service.operate_once principal operation action payload effect role) v := by
      unfold ControlPlane.operate
      rw [hrole, hused]
      rfl
    rw [Replays, hrun]
    exact Replays.transaction (operate_once_replay hsane.keyed hrecorded hacting)
  refused h hsane operation digest kept hoperation hrecorded := by
    simp only [ControlPlane.operate, check_bind_eq_ok] at h
    obtain ⟨_, _, used, hused, h⟩ := h
    obtain rfl : operation = used := Json.str.inj (hoperation.symm.trans (operation_id_ok hused))
    obtain ⟨v, hrun, _, _⟩ := transaction_eq_ok.mp h
    obtain ⟨old, hold, ⟨hactor, hid⟩, hdigest, _⟩ := hrecorded
    obtain ⟨actor, hacted, ⟨other, hother, ⟨hactor', hid'⟩, hdigest', _⟩ | ⟨hfresh, _⟩⟩ :=
      ControlPlane.operate_once_ok hrun
    · have hname := actor_eq hacted
      have hsame := Rows.eq_of_key hsane.keyed.operations hold hother (Prod.ext
        (hactor.trans (hname.symm.trans hactor'.symm)) (hid.trans hid'.symm))
      rw [← hdigest, hsame, hdigest']
    · exact absurd ⟨hactor.trans (actor_eq hacted).symm, hid⟩ (hfresh old hold)

end Instances

end Op

namespace Operation

/-- The action text that the operation is recorded with. -/
def name : Operation → String
  | create_mission _ => ControlPlane.create_action .demo
  | create_cpu_mission _ => ControlPlane.create_action .cpu_digest
  | approve identity _ => "approve:" ++ identity
  | cancel identity _ => "cancel:" ++ identity
  | retry identity _ => "retry:" ++ identity
  | upload workspace_id _ => "upload:" ++ workspace_id
  | revoke_worker identity _ => "revoke_worker:" ++ identity
  | claim _ => "claim"

def payload : Operation → Json
  | create_mission data => data
  | create_cpu_mission data => data
  | approve _ data => data
  | cancel _ data => data
  | retry _ data => data
  | upload _ data => data
  | revoke_worker _ data => data
  | claim data => data

def role : Operation → Role
  | claim _ => .worker
  | _ => .admin

def digest (action : Operation) : String := ControlPlane.request_sha256 action.name action.payload

instance (service : ControlPlane) (principal : Principal) (action : Operation) :
    Op.Once service principal action.role action.name action.payload
      (action.perform service principal) := by
  cases action <;> simp only [name, payload, role, perform]
  · unfold ControlPlane.create_mission ControlPlane.create_mission_as; infer_instance
  · unfold ControlPlane.create_cpu_mission ControlPlane.create_mission_as; infer_instance
  · unfold ExecutionManager.approve; infer_instance
  · unfold ExecutionManager.cancel; infer_instance
  · unfold ExecutionManager.retry; infer_instance
  · unfold WorkspaceManager.upload; infer_instance
  · unfold ControlPlane.revoke_worker; infer_instance
  · unfold ExecutionManager.claim; infer_instance

end Operation

namespace ControlPlane

variable (service : ControlPlane) (boot : Boot) (calls : List Call)

/-- Submitted again, the operation is answered as before unless its environment fails, and at most
    an expiry comes of it. -/
def Settled (installation : Installation) (principal : Principal) (action : Operation)
    (reply : Reply) : Prop :=
  ∀ supply, (service.outcome installation ⟨.operation principal action, supply⟩ = .ok reply ∨
      ∃ failure, Environmental failure ∧
        service.outcome installation ⟨.operation principal action, supply⟩ = .error failure) ∧
    Fences "attempt_expired" installation.db
      (service.step installation ⟨.operation principal action, supply⟩).db

/-- Another operation with the same operation identifier is refused, and at most an expiry comes of
    it. -/
def Occupied (installation : Installation) (principal : Principal) (action : Operation) : Prop :=
  ∀ (other : Operation) supply, other.role = action.role → other.digest ≠ action.digest →
    item other.payload "operation_id" = item action.payload "operation_id" →
    (∃ failure, service.outcome installation ⟨.operation principal other, supply⟩ =
      .error failure) ∧ Fences "attempt_expired" installation.db
    (service.step installation ⟨.operation principal other, supply⟩).db

theorem replayed_json {installation : Installation} {request : Request}
    {supply : Supply} {op : Op Json} {response : Json}
    (hrequest : request.perform service = Reply.json <$> op)
    (h : Op.Replays op (installation.world supply) response) :
    (service.outcome installation ⟨request, supply⟩ = .ok (.json response) ∨
      ∃ failure, Environmental failure ∧
      service.outcome installation ⟨request, supply⟩ = .error failure) ∧
    Fences "attempt_expired" installation.db (service.step installation ⟨request, supply⟩).db := by
  obtain ⟨hanswer, hfences⟩ := h
  cases hrun : op (installation.world supply) with
  | mk result v =>
    have hcall : request.perform service (installation.world supply) =
        (result.map Reply.json, v) := by
      rw [hrequest]
      change (op >>= fun response => pure (Reply.json response)) _ = _
      rw [Effect.bind_apply, hrun]
      cases result <;> rfl
    have houtcome : service.outcome installation ⟨request, supply⟩ = result.map Reply.json :=
      congrArg Prod.fst hcall
    have hstep : (service.step installation ⟨request, supply⟩).db = v.db :=
      congrArg (fun run => run.2.db) hcall
    rw [hrun] at hanswer hfences
    rw [houtcome, hstep]
    refine ⟨?_, hfences⟩
    rcases hanswer with rfl | ⟨failure, hfailure, rfl⟩
    · exact .inl rfl
    · exact .inr ⟨failure, hfailure, rfl⟩

/-- The record of an answered operation stays, whatever calls follow. -/
theorem recorded_later {principal : Principal} {action : Operation}
    {supply : Supply} {reply : Reply} (h : service.outcome (service.after boot calls)
      ⟨.operation principal action, supply⟩ = .ok reply) (more : List Call) :
    ∃ response operation, reply = .json response ∧
      item action.payload "operation_id" = .str operation ∧
      Recorded (service.after boot (calls ++ ⟨.operation principal action, supply⟩ :: more)).db
        (principal.actor action.role) operation action.digest response := by
  have honce : Op.Once service principal action.role action.name action.payload
      (action.perform service principal) :=
    inferInstance
  obtain ⟨response, v, hop, hdb, hreply⟩ := step_json service rfl h
  obtain ⟨operation, hoperation, hrecorded⟩ := honce.recorded hop
  refine ⟨response, operation, hreply, hoperation, ?_⟩
  have hextends :=
    after_extends service boot (calls ++ [⟨.operation principal action, supply⟩]) more
  rw [List.append_assoc, List.singleton_append] at hextends
  refine Recorded.of_prefix ?_ hextends
  rw [after_append]
  change Recorded (service.step (service.after boot calls) _).db _ _ _ _
  rw [hdb]
  exact hrecorded

/-- Operations run once. Whatever calls follow an answered operation, restarts included, submitting
    it again is answered with the same response, for a worker as long as it holds its credential,
    and changes nothing beyond the expiry of leases; another operation under its identifier is
    refused; and a call that raises records nothing. -/
theorem operations_idempotent :
    (∀ principal action supply reply,
      service.outcome (service.after boot calls) ⟨.operation principal action, supply⟩ = .ok reply →
      ∀ more, service.Occupied (service.after boot
        (calls ++ ⟨.operation principal action, supply⟩ :: more)) principal action ∧
        ((action.role = .worker →
            Holds (service.after boot (calls ++ ⟨.operation principal action, supply⟩ :: more)).db
              principal) →
          service.Settled (service.after boot
            (calls ++ ⟨.operation principal action, supply⟩ :: more)) principal action reply)) ∧
    ∀ call failure, service.outcome (service.after boot calls) call = .error failure →
      (service.step (service.after boot calls) call).db.operations =
        (service.after boot calls).db.operations := by
  have hsane := after_sane service boot calls
  refine ⟨fun principal action supply reply hreply more => ?_, fun call failure hfailure => ?_⟩
  · have honce : Op.Once service principal action.role action.name action.payload
        (action.perform service principal) :=
      inferInstance
    obtain ⟨response, operation, rfl, hoperation, hrecorded⟩ :=
      recorded_later service boot calls hreply more
    have hlater := after_sane service boot (calls ++ ⟨.operation principal action, supply⟩ :: more)
    refine ⟨fun other again hrole hdigest hsame => ?_,
      fun hheld again => replayed_json service rfl ?_⟩
    · have hother : Op.Once service principal other.role other.name other.payload
          (other.perform service principal) :=
        inferInstance
      cases hagain : service.outcome
        (service.after boot (calls ++ ⟨.operation principal action, supply⟩ :: more))
          ⟨.operation principal other, again⟩ with
      | error failure => exact ⟨⟨failure, rfl⟩, refused hlater hagain⟩
      | ok accepted =>
        obtain ⟨_, v, hop, _, _⟩ := step_json service rfl hagain
        rw [← hrole] at hrecorded
        exact absurd (hother.refused hop hlater operation _ response
          (hsame.trans hoperation) hrecorded).symm hdigest
    · obtain ⟨_, v, hop, _, _⟩ := step_json service rfl hreply
      refine honce.replayed hop _ operation response hlater hoperation hrecorded ?_
      by_cases hrole : action.role = .worker
      · obtain ⟨u, u', actor, hidentities, hactor⟩ := honce.acted hsane hop
        rw [hrole] at hactor ⊢
        exact acting_of_holds (after_extends service boot calls _) hlater.keyed
          (hheld hrole) hactor hidentities
      · exact acting_of_ne hrole
  · exact Fences.operations (refused hsane hfailure)

end ControlPlane

end control_plane
