import PepeuchCluster.ControlPlane.Fencing

set_option synthInstance.maxSize 512

open Relation

namespace control_plane

namespace ControlPlane

variable {w w' : World} {principal : Principal} {settings : Settings}

instance (workspace : WorkspaceRow) (refs : List String) :
    Op.Reads (reference_check workspace refs) := by
  induction refs with
  | nil => unfold reference_check; infer_instance
  | cons reference refs ih => unfold reference_check; infer_instance

instance (workspace : WorkspaceRow) (refs : List String) :
    Op.Local (reference_check workspace refs) := by
  induction refs with
  | nil => unfold reference_check; infer_instance
  | cons reference refs ih => unfold reference_check; infer_instance

instance (workspace_id identity : String) (capability : Capability) :
    Op.Local (audit_contract principal workspace_id identity capability) := by
  cases capability <;> (unfold audit_contract; infer_instance)

instance (capability : Capability) (workspace_id title objective : String) (refs : List String) :
    Op.Local (create_mission_effect principal capability workspace_id title objective refs) := by
  unfold create_mission_effect; infer_instance

/-- The row that a transition returns is its mission in the new state. -/
theorem transition_row_ok {row row' : MissionRow} {target : State} {reason : Option String}
    (hkeys : Keyed w.db) (hrow : row ∈ w.db.missions)
    (h : transition principal row target reason w = (.ok row', w')) :
    row' = { row with state := target } := by
  obtain ⟨_, _, _, _, _, hfind, hdb⟩ := transition_ok h
  obtain ⟨hmem, hid⟩ := Rows.find_some hfind
  rw [hdb] at hmem
  rcases Rows.mem_update.mp hmem with ⟨_, hother⟩ | ⟨old, hold, hselected, rfl⟩
  · simp only [decide_eq_false_iff_not] at hother
    exact absurd (of_decide_eq_true hid) hother
  · rw [Rows.eq_of_key hkeys.missions hold hrow (of_decide_eq_true hselected)]

theorem audit_contract_ok (mission : MissionRow) {capability : Capability} {events : Rows EventRow}
    {created : EventRow} {u : Unit} (hevents : w.db.events = events ++ [created])
    (hlogged : Logged events [created])
    (hcreated : NoteEvent (some mission.id) mission.workspace_id .mission_created
      [("state", State.draft.text)] created)
    (h : audit_contract principal mission.workspace_id mission.id capability w = (.ok u, w')) :
    ∃ more, CreationEvents mission capability more ∧ Logged events more ∧
      w'.db = { w.db with events := events ++ more } := by
  cases capability with
  | demo =>
    simp only [audit_contract, Op.pure_eq_ok] at h
    obtain ⟨_, rfl⟩ := h
    refine ⟨[created], ⟨created, hcreated, rfl⟩, hlogged, ?_⟩
    rw [← hevents]
  | cpu_digest =>
    obtain ⟨contract, hcontract, _, hnext, _, hdb⟩ := audit_ok h
    refine ⟨[created, contract], ⟨created, hcreated, contract, rfl, hcontract⟩, ?_, ?_⟩
    · rw [hevents] at hnext
      exact ⟨hlogged.1, hlogged.2.1, hlogged.2.2.1, hnext⟩
    · rw [hdb, hevents, List.append_assoc]
      rfl

/-- A creation commits the mission with its events. -/
theorem create_mission_effect_ok {held : String → Option Bytes} {capability : Capability}
    {workspace_id title objective : String} {refs : List String} {response : Json}
    (htext : isText title 160 ∧ isText objective 4000)
    (hrefs : refs.length ≤ 32 ∧ (∀ reference ∈ refs, isIdentifier reference = true) ∧
      (capability = .cpu_digest → refs = []))
    (h : create_mission_effect principal capability workspace_id title objective refs w =
      (.ok response, w')) :
    Change settings held w.db w'.db := by
  simp only [create_mission_effect, Op.bind_eq_ok, Op.new_id_eq_ok, Op.clock_eq_ok, Op.check_eq_ok,
    Op.execute_eq_ok, Op.query_eq_ok, Db.insert_mission_eq_some] at h
  obtain ⟨workspace, _, haccess, _, v, hcheck, identity, _, ⟨hid, rfl⟩, _, _,
    ⟨_, rfl⟩, created_at, _, ⟨_, rfl⟩, _, _, ⟨_, db, ⟨⟨hfresh, hworkspace⟩, rfl⟩, rfl⟩, _, x,
      haudit, _, y, hcontract, row, _, hrow, _,
    rfl⟩ := h
  obtain ⟨rfl, _, rfl⟩ := workspace_access_ok haccess
  obtain ⟨rfl, _, _, _⟩ := mission_ok hrow
  have hread := Op.Reads.db hcheck
  obtain ⟨created, hcreated, _, hlogged, _, hdb⟩ := audit_ok haudit
  have hevents := congrArg (·.events) hdb
  obtain ⟨more, hmore, hloggedMore, hfinal⟩ := audit_contract_ok
    ⟨identity, principal.identity, workspace.project, workspace.id, title, objective, .draft,
      created_at, refs⟩
    hevents hlogged hcreated hcontract
  rw [hfinal, hdb, ← hread]
  refine .created _ _ capability more hfresh ?_ hworkspace rfl htext hrefs hmore hloggedMore
  rw [← hid]
  exact isIdentifier_identity_text (by decide) _

end ControlPlane

namespace ExecutionManager

variable {w w' : World} {principal : Principal} {service : ControlPlane} {settings : Settings}

instance (identity : String) (capability : Capability) (plan : Plan) :
    Op.Local (insert_task identity capability plan) := by unfold insert_task; infer_instance

instance (identity : String) : Op.Local (approve_effect service principal identity) := by
  unfold approve_effect; infer_instance

instance (mission_id : String) (target : State) :
    Op.Local (set_running_attempts mission_id target) := by
  unfold set_running_attempts; infer_instance

instance (mission : MissionRow) : Op.Local (cancel_mission principal mission) := by
  unfold cancel_mission; infer_instance

instance (identity : String) : Op.Local (cancel_effect principal identity) := by
  have hbranch : ∀ (mission : MissionRow) (waiting : Bool), Op.Local (match waiting with
      | true => Op.query (ControlPlane.view mission)
      | false => do
        let mission ← cancel_mission principal mission
        Op.query (ControlPlane.view mission)) := by
    rintro mission (_ | _) <;> infer_instance
  unfold cancel_effect
  infer_instance

instance (identity : String) : Op.Local (retry_effect principal identity) := by
  unfold retry_effect; infer_instance

theorem insert_task_ok {identity : String} {capability : Capability} {plan : Plan} {u : Unit}
    (h : insert_task identity capability plan w = (.ok u, w')) :
    ∃ task : TaskRow, (∀ other ∈ w.db.tasks, other.id ≠ task.id ∧ other.mission_id ≠ identity) ∧
      isIdentifier task.id = true ∧ task.mission_id = identity ∧ task.role = plan.role ∧
      task.capability = capability ∧ task.worker_id = plan.worker_id ∧ task.state = .queued ∧
      w'.db = { w.db with tasks := w.db.tasks ++ [task] } := by
  simp only [insert_task, Op.bind_eq_ok, Op.new_id_eq_ok, Op.execute_eq_ok,
    Db.insert_task_eq_some] at h
  obtain ⟨id, _, ⟨hid, rfl⟩, _, _, ⟨⟨hfresh, _⟩, rfl⟩, rfl⟩ := h
  refine ⟨⟨id, identity, plan.role, capability, plan.worker_id, .queued, plan⟩, hfresh, ?_, rfl,
    rfl, rfl, rfl, rfl, rfl⟩
  rw [← hid]
  exact isIdentifier_identity_text (by decide) _

/-- An approval commits both transitions with the task between them. -/
theorem approve_effect_ok {held : String → Option Bytes} {identity : String} {response : Json}
    (hkeys : Keyed w.db) (h : approve_effect service principal identity w = (.ok response, w')) :
    Change settings held w.db w'.db := by
  simp only [approve_effect, Op.bind_eq_ok, Op.require_eq_ok, Op.query_eq_ok, Op.check_eq_ok] at h
  obtain ⟨mission, _, hmission, _, _, ⟨hstate, rfl⟩, workers, _, hworkers, _, _, ⟨_, rfl⟩,
    plan, _, ⟨_, rfl⟩, capability, _, ⟨hcapability, rfl⟩, _, _, ⟨hplan, rfl⟩, approved, v, hfirst,
      _, x, htask, queued, y, hsecond,
    _, rfl⟩ := h
  obtain ⟨rfl, hmem, rfl, _⟩ := ControlPlane.mission_ok hmission
  simp only [WorkerRegistry.list, Op.select_eq_ok] at hworkers
  obtain ⟨rfl, rfl⟩ := hworkers
  obtain rfl := ControlPlane.transition_row_ok hkeys hmem hfirst
  obtain ⟨_, approval, happroval, _, hlogged, _, hdb⟩ := ControlPlane.transition_ok hfirst
  obtain ⟨task, hfresh, hid, howner, hrole, hcap, hworker, hqueued, htasks⟩ := insert_task_ok htask
  obtain ⟨_, queueing, hqueueing, _, hlogged', _, hfinal⟩ := ControlPlane.transition_ok hsecond
  obtain ⟨_, _, hplanRole, _, _, _, worker, hlisted, hnamed, hcapable⟩ := hplan
  rw [htasks, hdb] at hfinal hlogged'
  rw [hdb] at hfresh
  have hmerge : Rows.update (Rows.update w.db.missions (fun row => row.id = mission.id) fun row =>
        { row with state := .approved }) (fun row => row.id = mission.id) (fun row =>
        { row with state := .queued }) =
      Rows.update w.db.missions (fun row => row.id = mission.id) fun row =>
        { row with state := .queued } :=
    Rows.update_update (fun _ => rfl) fun _ => rfl
  have hplanned : Planned w.db mission task := by
    refine ⟨howner, hqueued, hfresh,
      hid, by rw [hrole, hcap, hplanRole], by rw [hcap]; exact hcapability, ?_⟩
    refine ⟨worker, ?_, by rw [hnamed, hworker], by rwa [hcap]⟩
    exact (List.mem_insertionSort _).mp (List.mem_filter.mp hlisted).1
  rw [hfinal]
  simp only [hmerge, List.append_assoc]
  exact .approved _ mission task approval queueing hmem hstate hplanned happroval
    ⟨hqueueing.mission_id, hqueueing.workspace_id, hqueueing.type, hqueueing.state⟩
    ⟨hlogged.1, hlogged.2.1, hlogged.2.2.1, hlogged'⟩

/-- A cancellation moves the mission, its task and its running attempt together. -/
theorem cancel_effect_ok {held : String → Option Bytes} {identity : String} {response : Json}
    (h : cancel_effect principal identity w = (.ok response, w')) :
    w'.db = w.db ∨ Change settings held w.db w'.db := by
  simp only [cancel_effect, Op.bind_eq_ok] at h
  obtain ⟨mission, _, hmission, h⟩ := h
  obtain ⟨rfl, hmem, rfl, _⟩ := ControlPlane.mission_ok hmission
  cases hwaiting : decide (mission.state = .cancel_requested) with
  | true =>
    simp only [hwaiting, Op.query_eq_ok] at h
    exact Or.inl (by rw [h.2])
  | false =>
    simp only [hwaiting, cancel_mission, set_task_state, set_running_attempts,
      Op.bind_eq_ok, Op.query_eq_ok, Op.execute_eq_ok, Op.pure_eq_ok] at h
    obtain ⟨_, _, ⟨_, v, htransition, _, _, ⟨_, _, htasks, rfl⟩, _, _, ⟨_, _, hattempts, rfl⟩, rfl,
      rfl⟩, _, rfl⟩ := h
    obtain rfl := Option.some.inj htasks
    obtain rfl := Option.some.inj hattempts
    obtain ⟨hallowed, event, hevent, _, hlogged, _, hdb⟩ := ControlPlane.transition_ok htransition
    -- the attempts are selected by the tasks after their update, which keeps every identifier
    have hselected : ∀ (db : Db) (attempt : AttemptRow), (({ db with
          tasks := Rows.update db.tasks (fun task => task.mission_id = mission.id) fun task =>
            { task with state := cancel_target mission.state } } : Db).tasks_of mission.id).any
          (fun task => task.id = attempt.task_id) =
        (db.tasks_of mission.id).any fun task => task.id = attempt.task_id := by
      intro db attempt
      have hset : ({ db with
            tasks := Rows.update db.tasks (fun task => task.mission_id = mission.id) fun task =>
              { task with state := cancel_target mission.state } } : Db).tasks_of mission.id =
          Rows.update (db.tasks_of mission.id) (fun task => task.mission_id = mission.id)
            fun task =>
            { task with state := cancel_target mission.state } :=
              Db.tasks_of_set_state mission.id rfl
      rw [hset, Rows.update, List.any_map]
      congr 1
      funext task
      by_cases htask : task.mission_id = mission.id <;> simp [htask]
    simp only [World.with_db_db, hselected]
    rw [hdb]
    exact Or.inr
      (.cancelled _ mission event hmem hallowed (of_decide_eq_false hwaiting) hevent hlogged)

theorem retry_effect_ok {held : String → Option Bytes} {identity : String} {response : Json}
    (h : retry_effect principal identity w = (.ok response, w')) :
    Change settings held w.db w'.db := by
  simp only [retry_effect, set_task_state, Op.bind_eq_ok, Op.require_eq_ok, Op.execute_eq_ok,
    Op.query_eq_ok] at h
  obtain ⟨mission, _, hmission, _, _, ⟨hstate, rfl⟩, _, v, htransition, _, _,
    ⟨_, _, htasks, rfl⟩, _, rfl⟩ := h
  obtain rfl := Option.some.inj htasks
  obtain ⟨rfl, hmem, rfl, _⟩ := ControlPlane.mission_ok hmission
  obtain ⟨_, event, hevent, _, hlogged, _, hdb⟩ := ControlPlane.transition_ok htransition
  rw [hdb]
  exact .retried _ mission event hmem hstate hevent hlogged

end ExecutionManager

end control_plane
