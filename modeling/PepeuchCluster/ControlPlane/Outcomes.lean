import PepeuchCluster.ControlPlane.Changes

namespace control_plane

theorem isIdentifier_identity_text {kind : Char} (hkind : ('a' ≤ kind && kind ≤ 'z') = true)
    (uuid : BitVec 128) : isIdentifier (identity_text kind uuid) = true := by
  have hhex : (Sha256.hex 32 uuid.toNat).all Sha256.isHex = true :=
    List.all_eq_true.mpr fun c hc => Sha256.isHex_of_mem_hex hc
  simp only [isIdentifier, identity_text, String.toList_ofList, hkind, Sha256.hex_length, hhex]
  rfl

namespace Op

variable {α β : Type} {w w' : World}

theorem bind_eq_ok {x : Op α} {f : α → Op β} {b : β} :
    (x >>= f) w = (.ok b, w') ↔ ∃ a v, x w = (.ok a, v) ∧ f a v = (.ok b, w') :=
  Effect.bind_eq_ok

@[simp] theorem pure_eq_ok {a b : α} : (pure a : Op α) w = (.ok b, w') ↔ a = b ∧ w = w' :=
  Effect.pure_eq_ok

@[simp] theorem check_eq_ok {result : Except Failure α} {a : α} :
    check result w = (.ok a, w') ↔ result = .ok a ∧ w = w' :=
  Effect.ofExcept_eq_ok

@[simp] theorem require_eq_ok {condition : Prop} [Decidable condition]
    {failure : Failure} {u : Unit} :
    require condition failure w = (.ok u, w') ↔ condition ∧ w = w' :=
  Effect.require_eq_ok

@[simp] theorem demand_eq_ok {value : Option α} {failure : Failure} {a : α} :
    demand value failure w = (.ok a, w') ↔ value = some a ∧ w = w' :=
  Effect.demand_eq_ok

@[simp] theorem select_eq_ok {query : Db → α} {a : α} :
    select query w = (.ok a, w') ↔ query w.db = a ∧ w = w' := by
  simp [select]

@[simp] theorem query_eq_ok {select : Db → Except Failure α} {a : α} :
    query select w = (.ok a, w') ↔ select w.db = .ok a ∧ w = w' := by
  simp [query]

@[simp] theorem clock_eq_ok {now : Number} :
    clock w = (.ok now, w') ↔ w.supply.clock 0 = now ∧ w.tick = w' := by
  simp [clock]

@[simp] theorem new_id_eq_ok {kind : Char} {id : String} :
    new_id kind w = (.ok id, w') ↔
      identity_text kind (w.supply.uuid 0) = id ∧ w.draw = w' := by
  simp [new_id]

@[simp] theorem token_urlsafe_eq_ok {token : Token} :
    token_urlsafe w = (.ok token, w') ↔ w.supply.secret 0 = token ∧ w.reveal = w' := by
  simp [token_urlsafe]

@[simp] theorem execute_eq_ok {statement : Db → Option Db} {u : Unit} :
    execute statement w = (.ok u, w') ↔ w.supply.fault 0 = none ∧
      ∃ db, statement w.db = some db ∧ w.with_db db = w' := by
  unfold execute
  cases w.supply.fault 0 with
  | some fault => simp
  | none => cases statement w.db <;> simp

section Sequences

/-! The same for a step that another action follows. -/

variable {f : α → Op β} {b : β}

theorem select_bind_eq_ok {query : Db → α} :
    (select query >>= f) w = (.ok b, w') ↔ f (query w.db) w = (.ok b, w') := by
  simp [bind_eq_ok]

theorem query_bind_eq_ok {select : Db → Except Failure α} :
    (query select >>= f) w = (.ok b, w') ↔ ∃ a, select w.db = .ok a ∧ f a w = (.ok b, w') := by
  simp [bind_eq_ok]

theorem check_bind_eq_ok {result : Except Failure α} :
    (check result >>= f) w = (.ok b, w') ↔ ∃ a, result = .ok a ∧ f a w = (.ok b, w') := by
  simp [bind_eq_ok]

theorem demand_bind_eq_ok {value : Option α} {failure : Failure} :
    (demand value failure >>= f) w = (.ok b, w') ↔ ∃ a, value = some a ∧ f a w = (.ok b, w') := by
  simp [bind_eq_ok]

theorem require_bind_eq_ok {condition : Prop} [Decidable condition] {failure : Failure}
    {f : Unit → Op β} :
    (require condition failure >>= f) w = (.ok b, w') ↔ condition ∧ f () w = (.ok b, w') := by
  simp only [bind_eq_ok, require_eq_ok]
  constructor
  · rintro ⟨_, _, ⟨hcondition, rfl⟩, hf⟩
    exact ⟨hcondition, hf⟩
  · rintro ⟨hcondition, hf⟩
    exact ⟨(), _, ⟨hcondition, rfl⟩, hf⟩

theorem clock_bind_eq_ok {f : Number → Op β} :
    (clock >>= f) w = (.ok b, w') ↔ f (w.supply.clock 0) w.tick = (.ok b, w') := by
  simp [bind_eq_ok]

theorem new_id_bind_eq_ok {kind : Char} {f : String → Op β} :
    (new_id kind >>= f) w = (.ok b, w') ↔
      f (identity_text kind (w.supply.uuid 0)) w.draw = (.ok b, w') := by
  simp [bind_eq_ok]

theorem execute_bind_eq_ok {statement : Db → Option Db} {f : Unit → Op β} :
    (execute statement >>= f) w = (.ok b, w') ↔ w.supply.fault 0 = none ∧
      ∃ db, statement w.db = some db ∧ f () (w.with_db db) = (.ok b, w') := by
  simp only [bind_eq_ok, execute_eq_ok]
  constructor
  · rintro ⟨_, _, ⟨hfault, db, hdb, rfl⟩, hf⟩
    exact ⟨hfault, db, hdb, hf⟩
  · rintro ⟨hfault, db, hdb, hf⟩
    exact ⟨(), _, ⟨hfault, db, hdb, rfl⟩, hf⟩

end Sequences

@[simp] theorem content_eq_ok {path : Path} {data : Option Bytes} :
    content path w = (.ok data, w') ↔ w.files path = data ∧ w = w' := by
  simp [content]

theorem file_step_eq_ok {partially : Nat → Files → Files} {change : Files → Files} {u : Unit} :
    file_step partially change w = (.ok u, w') ↔ w.supply.fault 0 = none ∧
      w.with_files (change w.files) = w' := by
  unfold file_step
  cases w.supply.fault 0 <;> simp

theorem read_private_ok {path : Path} {limit : Nat} {data : Bytes}
    (h : read_private path limit w = (.ok data, w')) :
    w.files path = some data ∧ data.length ≤ limit ∧ w' = w.with_files w.files := by
  simp only [read_private, bind_eq_ok, file_step_eq_ok, content_eq_ok, demand_eq_ok, require_eq_ok,
    pure_eq_ok] at h
  obtain ⟨_, _, ⟨_, rfl⟩, _, _, ⟨rfl, rfl⟩, _, _, ⟨hdata, rfl⟩, _, _, ⟨hlimit, rfl⟩, rfl, rfl⟩ := h
  exact ⟨hdata, hlimit, rfl⟩

theorem ensuring_eq_ok {body : Op α} {cleanup : Op Unit} {a : α} :
    ensuring body cleanup w = (.ok a, w') ↔ ∃ v u, body w = (.ok a, v) ∧ cleanup v = (.ok u, w') :=
  Effect.ensuring_eq_ok

theorem transaction_eq_ok {body : Op α} {a : α} :
    transaction body w = (.ok a, w') ↔ ∃ v, body w = (.ok a, v) ∧ v.supply.fault 0 = none ∧
      { v with supply := v.supply.step, commits := v.commits ++ [v.db] } = w' := by
  unfold transaction
  cases h : body w with
  | mk result v =>
    cases result with
    | error failure => simp
    | ok b => cases hfault : v.supply.fault 0 <;> simp_all

end Op

namespace Db

variable {db db' : Db}

theorem insert_mission_eq_some {row : MissionRow} :
    insert_mission row db = some db' ↔
      ((∀ other ∈ db.missions, other.id ≠ row.id) ∧
        ∃ workspace ∈ db.workspaces, workspace.id = row.workspace_id) ∧
      { db with missions := db.missions ++ [row] } = db' := by
  unfold insert_mission
  split <;> simp_all

theorem insert_task_eq_some {row : TaskRow} :
    insert_task row db = some db' ↔
      ((∀ other ∈ db.tasks, other.id ≠ row.id ∧ other.mission_id ≠ row.mission_id) ∧
        ∃ mission ∈ db.missions, mission.id = row.mission_id) ∧
      { db with tasks := db.tasks ++ [row] } = db' := by
  unfold insert_task
  split <;> simp_all

theorem insert_attempt_eq_some {row : AttemptRow} :
    insert_attempt row db = some db' ↔
      ((∀ other ∈ db.attempts, other.id ≠ row.id ∧ other.generation ≠ row.generation ∧
          ¬(other.task_id = row.task_id ∧ other.number = row.number)) ∧
        ∃ task ∈ db.tasks, task.id = row.task_id) ∧
      { db with attempts := db.attempts ++ [row] } = db' := by
  unfold insert_attempt
  split
  · next h => simp only [Option.some.injEq]; exact ⟨fun heq => ⟨h, heq⟩, fun heq => heq.2⟩
  · next h => simp only [reduceCtorEq, false_iff]; exact fun heq => h heq.1

theorem insert_file_eq_some {row : FileRow} :
    insert_file row db = some db' ↔
      ((∀ other ∈ db.files, other.id ≠ row.id ∧
          ¬(other.workspace_id = row.workspace_id ∧ nocase other.name = nocase row.name)) ∧
        ∃ workspace ∈ db.workspaces, workspace.id = row.workspace_id) ∧
      { db with files := db.files ++ [row] } = db' := by
  unfold insert_file
  split
  · next h => simp only [Option.some.injEq]; exact ⟨fun heq => ⟨h, heq⟩, fun heq => heq.2⟩
  · next h => simp only [reduceCtorEq, false_iff]; exact fun heq => h heq.1

theorem insert_version_fresh {row : VersionRow} (h : insert_version row db = some db') :
    (∀ other ∈ db.versions, other.id ≠ row.id) ∧
      db' = { db with versions := db.versions ++ [row] } := by
  unfold insert_version at h
  split at h
  · next hfresh => exact ⟨fun other hother => (hfresh.1 other hother).1, (Option.some.inj h).symm⟩
  · cases h

theorem insert_result_fresh {row : ResultRow} (h : insert_result row db = some db') :
    (∀ other ∈ db.results, other.id ≠ row.id ∧ other.attempt_id ≠ row.attempt_id) ∧
      db' = { db with results := db.results ++ [row] } := by
  unfold insert_result at h
  split at h
  · next hfresh => exact ⟨hfresh.1, (Option.some.inj h).symm⟩
  · cases h

theorem insert_event_fresh {row : EventRow} (h : insert_event row db = some db') :
    (∀ other ∈ db.events, other.id ≠ row.id) ∧
      (∃ workspace ∈ db.workspaces, workspace.id = row.workspace_id) ∧
      db' =
        { db with events := db.events ++ [{ row with sequence := next_sequence db.events }] } := by
  unfold insert_event at h
  split at h
  · next hfresh => exact ⟨hfresh.1, hfresh.2.2, (Option.some.inj h).symm⟩
  · cases h

theorem insert_operation_fresh {row : OperationRow} (h : insert_operation row db = some db') :
    (∀ other ∈ db.operations, ¬(other.actor = row.actor ∧ other.id = row.id)) ∧
      db' = { db with operations := db.operations ++ [row] } := by
  unfold insert_operation at h
  split at h
  · next hfresh => exact ⟨hfresh, (Option.some.inj h).symm⟩
  · cases h

theorem insert_identity_fresh {row : IdentityRow} (h : insert_identity row db = some db') :
    (∀ other ∈ db.worker_identities, other.id ≠ row.id) ∧
      db' = { db with worker_identities := db.worker_identities ++ [row] } := by
  unfold insert_identity at h
  split at h
  · next hfresh => exact ⟨hfresh, (Option.some.inj h).symm⟩
  · cases h

theorem insert_epoch_fresh {row : EpochRow} (h : insert_epoch row db = some db') :
    (∀ other ∈ db.attempt_worker_epochs, other.attempt_id ≠ row.attempt_id) ∧
      db' = { db with attempt_worker_epochs := db.attempt_worker_epochs ++ [row] } := by
  unfold insert_epoch at h
  split at h
  · next hfresh => exact ⟨hfresh.1, (Option.some.inj h).symm⟩
  · cases h

end Db

namespace ControlPlane

variable {w w' : World} {principal : Principal}

/-- An audit entry is appended, and nothing else of the index changes. -/
theorem audit_ok {workspace_id : String} {mission_id : Option String} {type : EventType}
    {details : List (String × String)} {u : Unit}
    (h : audit principal workspace_id mission_id type details w = (.ok u, w')) :
    ∃ event, NoteEvent mission_id workspace_id type details event ∧
      event.actor = principal.identity ∧ Logged w.db.events [event] ∧
      (∃ workspace ∈ w.db.workspaces, workspace.id = workspace_id) ∧
      w'.db = { w.db with events := w.db.events ++ [event] } := by
  simp only [audit, Op.bind_eq_ok, Op.require_eq_ok, Op.new_id_eq_ok,
    Op.clock_eq_ok, Op.check_eq_ok, Op.execute_eq_ok] at h
  obtain ⟨_, _, ⟨_, rfl⟩, id, _, ⟨hid, rfl⟩, _, _, ⟨_, rfl⟩, created_at, _, ⟨_, rfl⟩, _, db,
    hinsert, rfl⟩ := h
  obtain ⟨hfresh, hworkspace, rfl⟩ := Db.insert_event_fresh hinsert
  refine ⟨⟨Db.next_sequence w.db.events, id, mission_id, workspace_id, principal.identity,
    created_at, type, details⟩, ⟨rfl, rfl, rfl, rfl⟩, rfl, ⟨hfresh, rfl, ?_, trivial⟩,
    hworkspace, rfl⟩
  rw [← hid]
  exact isIdentifier_identity_text (by decide) _

theorem transition_ok {row row' : MissionRow} {target : State} {reason : Option String}
    (h : transition principal row target reason w = (.ok row', w')) :
    target ∈ TRANSITIONS row.state ∧ ∃ event, StateEvent row target event ∧
      (event.actor = principal.identity ∧
        event.details =
          ("state", target.text) :: (reason.map fun reason => ("reason", reason)).toList) ∧
      Logged w.db.events [event] ∧
      w'.db.find_mission row.id = some row' ∧
      w'.db = { w.db with
        missions := Rows.update w.db.missions (fun other => other.id = row.id) fun other =>
          { other with state := target }
        events := w.db.events ++ [event] } := by
  simp only [transition, set_mission_state, Op.bind_eq_ok, Op.require_eq_ok, Op.execute_eq_ok,
    Op.select_eq_ok, Op.demand_eq_ok] at h
  obtain ⟨_, _, ⟨hallowed, rfl⟩, _, _, ⟨_, _, hset, rfl⟩, _, v, haudit, _, _, ⟨rfl, rfl⟩,
    hfind, rfl⟩ := h
  obtain rfl := Option.some.inj hset
  obtain ⟨event, hevent, hactor, hlogged, _, hdb⟩ := audit_ok haudit
  refine ⟨hallowed, event, ⟨hevent.mission_id, hevent.workspace_id, hevent.type, ?_⟩,
    ⟨hactor, hevent.details⟩, hlogged, hfind, hdb⟩
  simp [hevent.details]

end ControlPlane

end control_plane
