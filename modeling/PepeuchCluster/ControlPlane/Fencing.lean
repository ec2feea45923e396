import PepeuchCluster.ControlPlane.Steps

open Relation

namespace control_plane

namespace Op

/-- A part of a transaction that reads the index only. -/
class Reads {α : Type} (op : Op α) : Prop where
  same : Effect.Keeps (fun w w' => w'.db = w.db) op

section Instances

variable {α β : Type}

instance (a : α) : Reads (pure a) := ⟨fun _ => rfl⟩

instance {x : Op α} {f : α → Op β} [hx : Reads x] [hf : ∀ a, Reads (f a)] : Reads (x >>= f) :=
  ⟨Effect.Keeps.bind hx.same (fun a => (hf a).same) fun _ _ _ h h' => h'.trans h⟩

instance (result : Except Failure α) : Reads (check result) := ⟨fun _ => rfl⟩

instance (condition : Prop) {_ : Decidable condition} (failure : Failure) :
    Reads (require condition failure) := by
  unfold require Effect.require
  split <;> exact ⟨fun _ => rfl⟩

instance (value : Option α) (failure : Failure) : Reads (demand value failure) := by
  cases value <;> exact ⟨fun _ => rfl⟩

instance (query : Db → α) : Reads (select query) := ⟨fun _ => rfl⟩

instance (select : Db → Except Failure α) : Reads (query select) := ⟨fun _ => rfl⟩

instance : Reads clock := ⟨fun _ => rfl⟩

instance (kind : Char) : Reads (new_id kind) := ⟨fun _ => rfl⟩

instance : Reads token_urlsafe := ⟨fun _ => rfl⟩

instance (path : Path) : Reads (content path) := ⟨fun _ => rfl⟩

instance (path : Path) : Reads (lexists path) := ⟨fun _ => rfl⟩

instance (partially : Nat → Files → Files) (change : Files → Files) :
    Reads (file_step partially change) := by
  refine ⟨fun w => ?_⟩
  unfold file_step
  cases w.supply.fault 0 <;> rfl

instance (path : Path) (data : Bytes) : Reads (write_new path data) := by
  unfold write_new
  infer_instance

instance (path : Path) (limit : Nat) : Reads (read_private path limit) := by
  unfold read_private
  infer_instance

instance (source target : Path) : Reads (replace source target) := by
  unfold replace
  infer_instance

instance : Reads fsync := by
  unfold fsync
  infer_instance

instance (path : Path) : Reads (unlink path) := by
  unfold unlink
  infer_instance

instance {body : Op α} {cleanup : Op Unit} [hbody : Reads body] [hcleanup : Reads cleanup] :
    Reads (ensuring body cleanup) :=
  ⟨Effect.Keeps.ensuring _ hbody.same hcleanup.same fun _ _ _ h h' => h'.trans h⟩

end Instances

variable {α : Type} {w w' : World}

theorem Reads.db {op : Op α} [h : Reads op] {result : Except Failure α}
    (hop : op w = (result, w')) :
    w'.db = w.db := by
  have hsame := h.same w
  rwa [hop] at hsame

theorem Local.of_run {op : Op α} [h : Local op] {result : Except Failure α}
    (hop : op w = (result, w')) :
    Within w w' := by
  have hwithin := h.within w
  rwa [hop] at hwithin

/-- A transaction that only reads commits the index as it is. -/
instance (priority := low) {settings : Settings} {body : Op α} [Local body] [Reads body] :
    Outer settings (transaction body) :=
  transaction_advances fun w w' a _ h => by rw [Reads.db h]; exact ReflTransGen.refl

end Op

/-- The principal is a worker of the index, with its current epoch. -/
structure Authorised (db : Db) (principal : Principal) (worker : IdentityRow) : Prop where
  mem : worker ∈ db.worker_identities
  id : worker.id = principal.identity
  status : worker.status = .active
  epoch : principal.credential_epoch = some worker.credential_epoch

namespace WorkerRegistry

variable {w w' : World} {principal : Principal} {settings : Settings}

instance : Op.Local (authorize settings principal) := by unfold authorize; infer_instance

instance : Op.Reads (authorize settings principal) := by unfold authorize; infer_instance

instance (active_only : Bool) : Op.Local (list active_only) := by unfold list; infer_instance

instance (active_only : Bool) : Op.Reads (list active_only) := by unfold list; infer_instance

instance (identity : String) :
    Op.Local (identity_row identity) := by unfold identity_row; infer_instance

instance (identity : String) :
    Op.Reads (identity_row identity) := by unfold identity_row; infer_instance

theorem authorize_ok {worker : IdentityRow}
    (h : authorize settings principal w = (.ok worker, w')) :
    w = w' ∧ Authorised w.db principal worker ∧ principal.role = .worker := by
  simp only [authorize, Op.bind_eq_ok, Op.require_eq_ok, Op.select_eq_ok,
    Op.demand_eq_ok, Op.check_eq_ok, Op.pure_eq_ok] at h
  obtain ⟨_, _, ⟨hrole, rfl⟩, _, _, ⟨rfl, rfl⟩, row, _, ⟨hfind, rfl⟩, _, _,
    ⟨⟨hactive, hepoch⟩, rfl⟩, _, _, ⟨_, rfl⟩, rfl, rfl⟩ := h
  obtain ⟨hmem, hid⟩ := Rows.find_some hfind
  exact ⟨rfl, ⟨hmem, of_decide_eq_true hid, hactive, hepoch⟩, hrole⟩

theorem identity_row_ok {identity : String} {row : IdentityRow}
    (h : identity_row identity w = (.ok row, w')) :
    w = w' ∧ row ∈ w.db.worker_identities ∧ row.id = identity := by
  simp only [identity_row, Op.bind_eq_ok, Op.select_eq_ok, Op.demand_eq_ok] at h
  obtain ⟨_, _, ⟨rfl, rfl⟩, hfind, rfl⟩ := h
  obtain ⟨hmem, hid⟩ := Rows.find_some hfind
  exact ⟨rfl, hmem, by simpa using hid⟩

end WorkerRegistry

namespace ControlPlane

variable {w w' : World} {principal : Principal} {service : ControlPlane}

instance (identity : String) :
    Op.Local (mission principal identity) := by unfold mission; infer_instance

instance (identity : String) :
    Op.Reads (mission principal identity) := by unfold mission; infer_instance

instance (workspace_id : String) : Op.Local (workspace_access principal workspace_id) := by
  unfold workspace_access; infer_instance

instance (workspace_id : String) : Op.Reads (workspace_access principal workspace_id) := by
  unfold workspace_access; infer_instance

instance (workspace_id : String) (mission_id : Option String) (type : EventType)
    (details : List (String × String)) :
    Op.Local (audit principal workspace_id mission_id type details) := by
  unfold audit; infer_instance

instance (row : MissionRow) (target : State) (reason : Option String) :
    Op.Local (transition principal row target reason) := by
  unfold transition set_mission_state; infer_instance

instance (role : Role) : Op.Local (service.actor principal role) := by
  cases role <;> (unfold actor; infer_instance)

instance (role : Role) : Op.Reads (service.actor principal role) := by
  cases role <;> (unfold actor; infer_instance)

theorem mission_ok {identity : String} {row : MissionRow}
    (h : mission principal identity w = (.ok row, w')) :
    w = w' ∧ row ∈ w.db.missions ∧ row.id = identity ∧ row.owner = principal.identity := by
  simp only [mission, Op.bind_eq_ok, Op.check_eq_ok, Op.select_eq_ok, Op.demand_eq_ok] at h
  obtain ⟨_, _, ⟨_, rfl⟩, _, _, ⟨_, rfl⟩, _, _, ⟨rfl, rfl⟩, hfind, rfl⟩ := h
  obtain ⟨hmem, hid⟩ := Rows.find_some hfind
  exact ⟨rfl, hmem, of_decide_eq_true hid⟩

theorem workspace_access_ok {workspace_id : String} {row : WorkspaceRow}
    (h : workspace_access principal workspace_id w = (.ok row, w')) :
    w = w' ∧ row ∈ w.db.workspaces ∧ row.id = workspace_id := by
  simp only [workspace_access, Op.bind_eq_ok, Op.check_eq_ok, Op.select_eq_ok, Op.demand_eq_ok] at h
  obtain ⟨_, _, ⟨_, rfl⟩, _, _, ⟨rfl, rfl⟩, hfind, rfl⟩ := h
  obtain ⟨hmem, hid⟩ := Rows.find_some hfind
  exact ⟨rfl, hmem, (of_decide_eq_true hid).1⟩

end ControlPlane

namespace ExecutionManager

variable {w w' : World} {reason : String} {expired_only : Bool}

instance (identity : String) (change : AttemptRow → AttemptRow) :
    Op.Local (set_attempt identity change) := by
  unfold set_attempt; infer_instance

instance (selected : TaskRow → Bool) (target : State) :
    Op.Local (set_task_state selected target) := by
  unfold set_task_state; infer_instance

instance (attempt : AttemptRow) : Op.Local (spared expired_only attempt) := by
  cases expired_only <;> (unfold spared; infer_instance)

instance (attempt : AttemptRow) : Op.Reads (spared expired_only attempt) := by
  cases expired_only <;> (unfold spared; infer_instance)

instance (row : AttemptRow × TaskRow) : Op.Local (interrupt reason row) := by
  unfold interrupt; infer_instance

instance (row : AttemptRow × TaskRow) : Op.Local (fence_row reason expired_only row) := by
  have hbranch : ∀ spared : Bool, Op.Local (match spared with
      | true => pure ()
      | false => interrupt reason row) := by
    rintro (_ | _) <;> infer_instance
  unfold fence_row
  infer_instance

instance (rows : List (AttemptRow × TaskRow)) : Op.Local (fence_rows reason expired_only rows) := by
  induction rows with
  | nil => unfold fence_rows; infer_instance
  | cons row rows ih => unfold fence_rows; infer_instance

instance (worker : Option String) : Op.Local (fence reason expired_only worker) := by
  unfold fence; infer_instance

/-- A row that `_fence` has selected and that is still to be interrupted. -/
def Pending (db : Db) (row : AttemptRow × TaskRow) : Prop :=
  row.1 ∈ db.attempts ∧ row.1.state.active = true ∧
    ∃ task ∈ db.tasks, task.id = row.1.task_id ∧ task.mission_id = row.2.mission_id

theorem interrupt_ok {row : AttemptRow × TaskRow} {u : Unit} (hrow : Pending w.db row)
    (h : interrupt reason row w = (.ok u, w')) : Fence reason row.1 w.db w'.db := by
  simp only [interrupt, set_attempt, set_task_state, Op.bind_eq_ok, Op.execute_eq_ok,
    Op.select_eq_ok, Op.demand_eq_ok, Op.pure_eq_ok] at h
  obtain ⟨_, _, ⟨_, _, hattempts, rfl⟩, _, _, ⟨_, _, htasks, rfl⟩, _, _, ⟨rfl, rfl⟩, mission, _,
    ⟨hfind, rfl⟩, _, _, htransition, _, rfl⟩ := h
  obtain rfl := Option.some.inj hattempts
  obtain rfl := Option.some.inj htasks
  obtain ⟨hallowed, event, hevent, hnote, hlogged, _, hdb⟩ := ControlPlane.transition_ok htransition
  obtain ⟨hattempt, hactive, task, htask, hlink, howner⟩ := hrow
  obtain ⟨hmission, hid⟩ := Rows.find_some hfind
  rw [hdb]
  exact .row _ task mission event hattempt hactive htask hlink hmission
    ((of_decide_eq_true hid).trans howner.symm) hallowed hevent hlogged hnote

theorem fence_row_ok {row : AttemptRow × TaskRow} {u : Unit} (hrow : Pending w.db row)
    (h : fence_row reason expired_only row w = (.ok u, w')) :
    w'.db = w.db ∨ Fence reason row.1 w.db w'.db := by
  simp only [fence_row, Op.bind_eq_ok] at h
  obtain ⟨kept, v, hspared, h⟩ := h
  have hsame := Op.Reads.db hspared
  cases kept with
  | true =>
    simp only [Op.pure_eq_ok] at h
    rw [← h.2, hsame]
    exact Or.inl rfl
  | false =>
    rw [← hsame] at hrow ⊢
    exact Or.inr (interrupt_ok hrow h)

theorem Fence.pending {attempt : AttemptRow} {db db' : Db} (h : Fence reason attempt db db')
    {row : AttemptRow × TaskRow} (hrow : Pending db row) (hother : row.1.id ≠ attempt.id) :
    Pending db' row := by
  obtain ⟨task, mission, event, hattempt, hactive, htask, hlink, hmission, howner, hallowed,
    hevent, hlogged⟩ := h
  obtain ⟨hmem, hrowActive, own, hown, hid, hownMission⟩ := hrow
  refine ⟨Rows.mem_update.mpr (Or.inl ⟨hmem, by simpa using hother⟩), hrowActive, ?_⟩
  cases hselected : decide (own.id = attempt.task_id) with
  | true => exact ⟨_, Rows.mem_update.mpr (Or.inr ⟨own, hown, hselected, rfl⟩), hid, hownMission⟩
  | false => exact ⟨own, Rows.mem_update.mpr (Or.inl ⟨hown, hselected⟩), hid, hownMission⟩

/-- Any number of interruptions for one reason. -/
def Fences (reason : String) : Db → Db → Prop :=
  ReflTransGen fun db db' => ∃ attempt, Fence reason attempt db db'

theorem Fences.changes {settings : Settings} {held : String → Option Bytes} {db db' : Db}
    (h : Fences reason db db') : Changes settings held db db' :=
  ReflTransGen.mono (fun _ _ ⟨attempt, hfence⟩ => Change.fenced _ _ reason attempt hfence) _ _ h

theorem fence_rows_ok {rows : List (AttemptRow × TaskRow)} {u : Unit}
    (hids : (rows.map (·.1.id)).Nodup) (hrows : ∀ row ∈ rows, Pending w.db row)
    (h : fence_rows reason expired_only rows w = (.ok u, w')) :
    Fences reason w.db w'.db := by
  induction rows generalizing w with
  | nil =>
    simp only [fence_rows, Op.pure_eq_ok] at h
    rw [← h.2]
    exact ReflTransGen.refl
  | cons row rows ih =>
    simp only [fence_rows, Op.bind_eq_ok] at h
    obtain ⟨_, v, hrow, hrest⟩ := h
    obtain ⟨hfresh, hids⟩ := List.nodup_cons.mp hids
    have hstep := fence_row_ok (hrows row (by simp)) hrow
    have hpending : ∀ other ∈ rows, Pending v.db other := by
      intro other hother
      have hbefore := hrows other (List.mem_cons_of_mem _ hother)
      rcases hstep with hsame | hfence
      · rwa [hsame]
      · exact Fence.pending hfence hbefore fun heq => hfresh (List.mem_map.mpr ⟨other, hother, heq⟩)
    have htail := ih hids hpending hrest
    rcases hstep with hsame | hfence
    · rwa [hsame] at htail
    · exact ReflTransGen.head ⟨row.1, hfence⟩ htail

theorem active_attempts_pending {db : Db} (hkeys : Keyed db) (worker : Option String) :
    ((db.active_attempts worker).map (·.1.id)).Nodup ∧ ∀ row ∈ db.active_attempts worker,
      Pending db row := by
  constructor
  · refine List.Sublist.nodup (Rows.flatMap_sublist fun attempt _ => ?_) hkeys.attempts
    split
    · rcases Rows.filter_key hkeys.tasks attempt.task_id with hnone | ⟨task, _, _, hone⟩
      · rw [hnone]
        exact List.nil_sublist _
      · rw [hone]
        exact List.Sublist.refl _
    · exact List.nil_sublist _
  · intro row hrow
    obtain ⟨attempt, hattempt, hrow⟩ := List.mem_flatMap.mp hrow
    split at hrow
    · next hactive =>
      obtain ⟨task, htask, rfl⟩ := List.mem_map.mp hrow
      obtain ⟨hmem, hid⟩ := List.mem_filter.mp htask
      exact ⟨hattempt, hactive.1, task, hmem, of_decide_eq_true hid, rfl⟩
    · cases hrow

/-- `_fence` interrupts some of the active attempts, and does nothing else. -/
theorem fence_ok {worker : Option String} {u : Unit} (hkeys : Keyed w.db)
    (h : fence reason expired_only worker w = (.ok u, w')) : Fences reason w.db w'.db := by
  simp only [fence, Op.bind_eq_ok, Op.select_eq_ok] at h
  obtain ⟨_, _, ⟨rfl, rfl⟩, hrows⟩ := h
  obtain ⟨hids, hpending⟩ := active_attempts_pending hkeys worker
  exact fence_rows_ok hids hpending hrows

instance {settings : Settings} : Op.Outer settings expire :=
  Op.transaction_advances fun _ _ _ hsane h => (fence_ok hsane.keyed h).changes

instance {settings : Settings} : Op.Outer settings recover :=
  Op.transaction_advances fun _ _ _ hsane h => (fence_ok hsane.keyed h).changes

end ExecutionManager

end control_plane
