import PepeuchCluster.ControlPlane.Results

set_option synthInstance.maxSize 2048

namespace control_plane

namespace Op

/-- A call, or a part of one, that adds no version. -/
class Sparing {α : Type} (op : Op α) : Prop where
  versions : Effect.Keeps (fun w w' => w'.db.versions = w.db.versions) op

section Instances

variable {α β : Type}

instance (priority := low) {op : Op α} [h : Reads op] : Sparing op :=
  ⟨fun w => congrArg Db.versions (h.same w)⟩

instance {x : Op α} {f : α → Op β} [hx : Sparing x] [hf : ∀ a, Sparing (f a)] : Sparing (x >>= f) :=
  ⟨Effect.Keeps.bind hx.versions (fun a => (hf a).versions) fun _ _ _ h h' => h'.trans h⟩

instance (f : α → β) {x : Op α} [hx : Sparing x] : Sparing (f <$> x) := by
  have hbind : Sparing (x >>= fun a => pure (f a)) := inferInstance
  exact hbind

instance {body : Op α} [hbody : Sparing body] : Sparing (transaction body) := by
  refine ⟨fun w => ?_⟩
  have hversions := hbody.versions w
  unfold transaction
  cases hrun : body w with
  | mk result w' =>
    rw [hrun] at hversions
    cases result with
    | error failure => rfl
    | ok a =>
      cases hfault : w'.supply.fault 0 with
      | some fault =>
        simp only [hfault]
      | none =>
        simp only [hfault]
        exact hversions

theorem execute_sparing {statement : Db → Option Db}
    (h : ∀ db db', statement db = some db' → db'.versions = db.versions) :
    Sparing (execute statement) := by
  refine ⟨fun w => ?_⟩
  unfold execute
  cases w.supply.fault 0 with
  | some fault => rfl
  | none =>
    cases hstatement : statement w.db with
    | none => rfl
    | some db => exact h w.db db hstatement

instance (row : MissionRow) : Sparing (execute (Db.insert_mission row)) := by
  apply execute_sparing
  intro db db' h
  rw [← (Db.insert_mission_eq_some.mp h).2]

instance (row : TaskRow) : Sparing (execute (Db.insert_task row)) := by
  apply execute_sparing
  intro db db' h
  rw [← (Db.insert_task_eq_some.mp h).2]

instance (row : AttemptRow) : Sparing (execute (Db.insert_attempt row)) := by
  apply execute_sparing
  intro db db' h
  rw [← (Db.insert_attempt_eq_some.mp h).2]

instance (row : EpochRow) : Sparing (execute (Db.insert_epoch row)) := by
  apply execute_sparing
  intro db db' h
  rw [(Db.insert_epoch_fresh h).2]

instance (row : EventRow) : Sparing (execute (Db.insert_event row)) := by
  apply execute_sparing
  intro db db' h
  rw [(Db.insert_event_fresh h).2.2]

instance (row : OperationRow) : Sparing (execute (Db.insert_operation row)) := by
  apply execute_sparing
  intro db db' h
  rw [(Db.insert_operation_fresh h).2]

instance (row : IdentityRow) : Sparing (execute (Db.insert_identity row)) := by
  apply execute_sparing
  intro db db' h
  rw [(Db.insert_identity_fresh h).2]

/-- A statement that changes rows of other tables. -/
theorem execute_change_sparing {change : Db → Db} (h : ∀ db, (change db).versions = db.versions) :
    Sparing (execute fun db => some (change db)) := by
  apply execute_sparing
  intro db db' hsome
  rw [← Option.some.inj hsome, h]

end Instances

end Op

section Sparing

variable {service : ControlPlane} {principal : Principal} {settings : Settings}

instance (workspace_id : String) (mission_id : Option String) (type : EventType)
    (details : List (String × String)) :
    Op.Sparing (ControlPlane.audit principal workspace_id mission_id type details) := by
  unfold ControlPlane.audit; infer_instance

instance (row : MissionRow) (target : State) (reason : Option String) :
    Op.Sparing (ControlPlane.transition principal row target reason) := by
  have hset : Op.Sparing (ControlPlane.set_mission_state row.id target) :=
    Op.execute_change_sparing fun _ => rfl
  unfold ControlPlane.transition; infer_instance

instance (identity : String) (change : AttemptRow → AttemptRow) :
    Op.Sparing (ExecutionManager.set_attempt identity change) :=
  Op.execute_change_sparing fun _ => rfl

instance (selected : TaskRow → Bool) (target : State) :
    Op.Sparing (ExecutionManager.set_task_state selected target) :=
  Op.execute_change_sparing fun _ => rfl

instance (mission_id : String) (target : State) :
    Op.Sparing (ExecutionManager.set_running_attempts mission_id target) :=
  Op.execute_change_sparing fun _ => rfl

instance (identity : String) (change : IdentityRow → IdentityRow) :
    Op.Sparing (WorkerRegistry.set_identity identity change) :=
  Op.execute_change_sparing fun _ => rfl

instance (reason : String) (expired_only : Bool) (row : AttemptRow × TaskRow) :
    Op.Sparing (ExecutionManager.fence_row reason expired_only row) := by
  have hinterrupt : Op.Sparing (ExecutionManager.interrupt reason row) := by
    unfold ExecutionManager.interrupt; infer_instance
  have hbranch : ∀ spared : Bool, Op.Sparing (match spared with
      | true => pure ()
      | false => ExecutionManager.interrupt reason row) := by
    rintro (_ | _) <;> infer_instance
  unfold ExecutionManager.fence_row; infer_instance

instance (reason : String) (expired_only : Bool) (rows : List (AttemptRow × TaskRow)) :
    Op.Sparing (ExecutionManager.fence_rows reason expired_only rows) := by
  induction rows with
  | nil => unfold ExecutionManager.fence_rows; infer_instance
  | cons row rows ih => unfold ExecutionManager.fence_rows; infer_instance

instance (reason : String) (expired_only : Bool) (worker : Option String) :
    Op.Sparing (ExecutionManager.fence reason expired_only worker) := by
  unfold ExecutionManager.fence; infer_instance

instance : Op.Sparing ExecutionManager.expire := by unfold ExecutionManager.expire; infer_instance

instance (operation : Json) (action : String) (payload : Json) (role : Role) {effect : Op Json}
    [heffect : Op.Sparing effect] :
    Op.Sparing (service.operate principal operation action payload effect role) := by
  have hbranch : ∀ (actor identity : String) (old : Option OperationRow), Op.Sparing (match old with
      | some old => do
        Op.require (old.request_sha256 = ControlPlane.request_sha256 action payload)
          (Problem "operation_conflict" 409)
        Op.check (decode_json old.response)
      | none => do
        let response ← effect
        Op.execute
          (Db.insert_operation ⟨actor, identity, ControlPlane.request_sha256 action payload,
            canonical response⟩)
        return response) := by
    rintro actor identity (_ | old) <;> infer_instance
  unfold ControlPlane.operate ControlPlane.operate_once; infer_instance

instance (capability : Capability) (workspace_id title objective : String) (refs : List String) :
    Op.Sparing (ControlPlane.create_mission_effect principal capability workspace_id title
      objective refs) := by
  have hcontract : ∀ workspace_id identity,
      Op.Sparing (ControlPlane.audit_contract principal workspace_id identity capability) := by
    intro workspace_id identity
    cases capability <;> (unfold ControlPlane.audit_contract; infer_instance)
  unfold ControlPlane.create_mission_effect; infer_instance

instance (identity : String) :
    Op.Sparing (ExecutionManager.approve_effect service principal identity) := by
  unfold ExecutionManager.approve_effect ExecutionManager.insert_task; infer_instance

instance (identity : String) : Op.Sparing (ExecutionManager.cancel_effect principal identity) := by
  have hcancel : ∀ mission, Op.Sparing (ExecutionManager.cancel_mission principal mission) := by
    intro mission
    unfold ExecutionManager.cancel_mission; infer_instance
  have hbranch : ∀ (mission : MissionRow) (waiting : Bool), Op.Sparing (match waiting with
      | true => Op.query (ControlPlane.view mission)
      | false => do
        let mission ← ExecutionManager.cancel_mission principal mission
        Op.query (ControlPlane.view mission)) := by
    rintro mission (_ | _) <;> infer_instance
  unfold ExecutionManager.cancel_effect; infer_instance

instance (identity : String) : Op.Sparing (ExecutionManager.retry_effect principal identity) := by
  unfold ExecutionManager.retry_effect; infer_instance

instance (identity : String) :
    Op.Sparing (ControlPlane.revoke_worker_effect principal identity) := by
  have hretire : ∀ row, Op.Sparing (WorkerRegistry.deactivate row) := by
    intro row
    unfold WorkerRegistry.deactivate
    split <;> infer_instance
  unfold ControlPlane.revoke_worker_effect WorkerRegistry.revoke; infer_instance

instance : Op.Sparing (ExecutionManager.claim_effect service principal) := by
  have hstart : ∀ worker task,
      Op.Sparing (ExecutionManager.start_attempt service principal worker task) := by
    intro worker task
    unfold ExecutionManager.start_attempt; infer_instance
  have htasks : ∀ (worker : IdentityRow) (tasks : List (TaskRow × MissionRow)),
    Op.Sparing (match tasks with
      | [] => pure ExecutionManager.no_request
      | (task, _) :: _ => ExecutionManager.start_attempt service principal worker task) := by
    rintro worker (_ | ⟨⟨task, mission⟩, rest⟩) <;> infer_instance
  have hbranch : ∀ (worker : IdentityRow) (busy : Bool), Op.Sparing (match busy with
      | true => pure ExecutionManager.no_request
      | false => do
        let tasks ← Op.select fun db => db.queued_tasks principal.identity
        match tasks with
        | [] => pure ExecutionManager.no_request
        | (task, _) :: _ => ExecutionManager.start_attempt service principal worker task) := by
    rintro worker (_ | _) <;> infer_instance
  unfold ExecutionManager.claim_effect; infer_instance

instance (identity : String) (reactivate : Bool) :
    Op.Sparing (WorkerRegistry.rotate identity reactivate) := by
  unfold WorkerRegistry.rotate WorkerRegistry.renew WorkerRegistry.audit; infer_instance

instance (capabilities limits : Json) :
    Op.Sparing (WorkerRegistry.enroll settings capabilities limits) := by
  unfold WorkerRegistry.enroll WorkerRegistry.issue WorkerRegistry.audit; infer_instance

end Sparing

/-- Every call but an upload and a result adds no version. -/
theorem Request.publishing (service : ControlPlane) (request : Request) :
    (∃ principal workspace_id data, request = .operation principal (.upload workspace_id data)) ∨
      (∃ principal identity data, request = .finish principal identity data) ∨
      Op.Sparing (request.perform service) := by
  cases request with
  | operation principal action =>
    cases action with
    | upload workspace_id data => exact .inl ⟨principal, workspace_id, data, rfl⟩
    | _ =>
      refine .inr (.inr ?_)
      simp only [Request.perform, Operation.perform]
      first
      | unfold ControlPlane.create_mission ControlPlane.create_mission_as; infer_instance
      | unfold ControlPlane.create_cpu_mission ControlPlane.create_mission_as; infer_instance
      | unfold ExecutionManager.approve; infer_instance
      | unfold ExecutionManager.cancel; infer_instance
      | unfold ExecutionManager.retry; infer_instance
      | unfold ControlPlane.revoke_worker; infer_instance
      | unfold ExecutionManager.claim; infer_instance
  | finish principal identity data => exact .inr (.inl ⟨principal, identity, data, rfl⟩)
  | _ =>
    refine .inr (.inr ?_)
    simp only [Request.perform]
    first
    | infer_instance
    | unfold ExecutionManager.state; infer_instance
    | unfold ControlPlane.get_mission; infer_instance
    | unfold ControlPlane.list_missions; infer_instance
    | unfold ControlPlane.events; infer_instance
    | unfold ExecutionManager.nodes; infer_instance
    | unfold WorkspaceManager.list_files; infer_instance
    | unfold WorkspaceManager.download; infer_instance
    | unfold ExecutionManager.recover; infer_instance

/-- What the publication of a call is prepared on: the workspace, the name and the version that it
    expects. -/
inductive Prepared (service : ControlPlane) (db : Db) :
    Request → String → String → Option String → Prop where
  | upload (principal : Principal) (workspace_id : String) (data : Json) (output : Output)
      (houtput : output_data (without_operation data) service.settings.max_file_bytes =
        .ok output) :
      Prepared service db (.operation principal (.upload workspace_id data))
        workspace_id output.name
        output.expected_version
  | result (principal : Principal) (identity : String) (data : Json) (attempt : AttemptRow)
      (task : TaskRow)
      (mission : MissionRow) (hattempt : attempt ∈ db.attempts ∧ attempt.id = identity)
      (htask : task ∈ db.tasks ∧ task.id = attempt.task_id)
      (hmission : mission ∈ db.missions ∧ mission.id = task.mission_id) :
      Prepared service db (.finish principal identity data) mission.workspace_id "resultat.md"
        attempt.expected_version

/-- The file has a version that came after the expected one. -/
def Superseded (db : Db) (workspace_id name : String) (expected : Option String) : Prop :=
  ∃ file ∈ db.files, (file.workspace_id = workspace_id ∧ nocase file.name = nocase name) ∧
    ∃ latest ∈ db.versions, latest.file_id = file.id ∧
      ∀ identity, expected = some identity →
        ∃ earlier ∈ db.versions, earlier.id = identity ∧ earlier.number < latest.number

section Updates

variable {service : ControlPlane} {settings : Settings} {held : String → Option Bytes} {db db' : Db}
  {workspace_id name : String} {expected mission_id attempt_id : Option String}
    {publication : Publication}

theorem Prepared.unique {request : Request} {workspace_id' name' : String}
    {expected' : Option String} (h : Prepared service db request workspace_id name expected)
    (h' : Prepared service db request workspace_id' name' expected') (hkeys : Keyed db) :
    workspace_id = workspace_id' ∧ name = name' ∧ expected = expected' := by
  cases h with
  | upload principal workspace_id data output houtput =>
    cases h' with
    | upload _ _ _ other hother =>
      rw [houtput] at hother
      rw [Except.ok.inj hother]
      exact ⟨rfl, rfl, rfl⟩
  | result principal identity data attempt task mission hattempt htask hmission =>
    cases h' with
    | result _ _ _ attempt' task' mission' hattempt' htask' hmission' =>
      obtain rfl :=
        Rows.eq_of_key hkeys.attempts hattempt.1 hattempt'.1 (hattempt.2.trans hattempt'.2.symm)
      obtain rfl := Rows.eq_of_key hkeys.tasks htask.1 htask'.1 (htask.2.trans htask'.2.symm)
      obtain rfl :=
        Rows.eq_of_key hkeys.missions hmission.1 hmission'.1 (hmission.2.trans hmission'.2.symm)
      exact ⟨rfl, rfl, rfl⟩

theorem Superseded.later (h : Superseded db workspace_id name expected)
    (hextends : Extends db db') :
    Superseded db' workspace_id name expected := by
  obtain ⟨file, hfile, hplace, latest, hlatest, howner, hexpected⟩ := h
  refine ⟨file, hextends.files.subset hfile, hplace, latest,
    hextends.versions.subset hlatest, howner, ?_⟩
  intro identity hidentity
  obtain ⟨earlier, hearlier, hid, hnumber⟩ := hexpected identity hidentity
  exact ⟨earlier, hextends.versions.subset hearlier, hid, hnumber⟩

/-- A publication supersedes what it was prepared on. -/
theorem Published.supersedes
    (h : Published settings held db workspace_id name expected mission_id attempt_id publication)
    (hlinked : Linked db) (hfiles : db'.files = db.files ++ publication.new_file.toList)
    (hversions : db'.versions = db.versions ++ [publication.version]) :
    Superseded db' workspace_id name expected := by
  obtain ⟨file, hfile, hid, hname, hworkspace⟩ := h.place
  have hsucceeds : Succeeds db' expected publication.version := by
    apply h.succeeds hlinked
    intro other hother
    rw [hversions]
    exact List.mem_append_left _ hother
  refine ⟨file, hfiles ▸ hfile, ⟨hworkspace, hname⟩, publication.version, ?_, hid.symm, ?_⟩
  · rw [hversions]
    exact List.mem_append_right _ (List.mem_singleton_self _)
  · rintro identity rfl
    obtain ⟨earlier, hearlier, hidentity, _, hnumber⟩ := hsucceeds
    exact ⟨earlier, hearlier, hidentity, by omega⟩

/-- The newest version has the highest number. -/
theorem newest_ge {versions : List VersionRow} {version : VersionRow} (h : version ∈ versions) :
    ∃ top, newest versions = some top ∧ version.number ≤ top.number := by
  induction versions using List.reverseRecOn with
  | nil => cases h
  | append_singleton earlier last ih =>
    rw [newest_append]
    rcases List.mem_append.mp h with hearlier | hlast
    · obtain ⟨top, htop, hle⟩ := ih hearlier
      rw [htop, newer]
      split
      · next hless => exact ⟨last, rfl, by omega⟩
      · exact ⟨top, rfl, hle⟩
    · rw [List.mem_singleton.mp hlast]
      cases newest earlier with
      | none => exact ⟨last, rfl, Nat.le_refl _⟩
      | some previous =>
        rw [newer]
        split
        · exact ⟨last, rfl, Nat.le_refl _⟩
        · next hless => exact ⟨previous, rfl, by omega⟩

/-- What is superseded is not published. -/
theorem Superseded.refuses {name' : String} (h : Superseded db workspace_id name expected)
    (hname : nocase name' = nocase name) (hkeys : Keyed db) :
    ¬ Published settings held db workspace_id name' expected mission_id attempt_id publication := by
  intro hpublished
  obtain ⟨file, hfile, ⟨hworkspace, hfold⟩, latest, hlatest, howner, hexpected⟩ := h
  have hfind : db.find_file workspace_id name' = some file := by
    apply Rows.find_unique hfile (decide_eq_true ⟨hworkspace, hfold.trans hname.symm⟩)
    intro other hother hsame
    obtain ⟨hworkspace', hfold'⟩ := of_decide_eq_true hsame
    exact Rows.eq_of_key hkeys.names hother hfile
      (Prod.ext (hworkspace'.trans hworkspace.symm) (hfold'.trans (hname.trans hfold.symm)))
  obtain ⟨top, htop, hle⟩ :=
    @newest_ge (db.versions_of file.id) latest
      (List.mem_filter.mpr ⟨hlatest, decide_eq_true howner⟩)
  have hcurrent := hpublished.current
  rw [hfind] at hcurrent
  change expected = (newest (db.versions_of file.id)).map (·.id) at hcurrent
  rw [htop] at hcurrent
  obtain ⟨earlier, hearlier, hid, hless⟩ := hexpected top.id hcurrent
  have hsame := Rows.eq_of_key hkeys.versions hearlier (List.mem_filter.mp (newest_mem htop)).1 hid
  rw [hsame] at hless
  omega

end Updates

/-- One publication, after the expiry of leases. -/
structure Publishes (settings : Settings) (db db' : Db) (workspace_id name : String)
    (expected : Option String) (publication : Publication) : Prop where
  published : ∃ v held mission_id attempt_id, ExecutionManager.Fences "attempt_expired" db v ∧
    Published settings held v workspace_id name expected mission_id attempt_id publication
  files : db'.files = db.files ++ publication.new_file.toList
  versions : db'.versions = db.versions ++ [publication.version]

section Calls

variable {service : ControlPlane} {principal : Principal} {w w' : World} {response data : Json}

theorem Fences.files {reason : String} {db db' : Db} (h : ExecutionManager.Fences reason db db') :
    db'.files = db.files := by
  rw [h.frame]

theorem Fences.versions {reason : String} {db db' : Db}
    (h : ExecutionManager.Fences reason db db') :
    db'.versions = db.versions := by
  rw [h.frame]

/-- The task and the mission of an attempt are the ones that it had before an expiry. -/
theorem Fences.earlier_mission {reason : String} {db db' : Db} {attempt : AttemptRow}
    {task : TaskRow} {mission : MissionRow} (h : ExecutionManager.Fences reason db db')
    (hsane : Sane db) (hattempt : attempt ∈ db.attempts)
    (htask : task ∈ db'.tasks ∧ task.id = attempt.task_id)
    (hmission : mission ∈ db'.missions ∧ mission.id = task.mission_id) :
    ∃ earlier ∈ db.tasks, ∃ old ∈ db.missions, earlier.id = attempt.task_id ∧
      old.id = earlier.mission_id ∧ old.workspace_id = mission.workspace_id := by
  obtain ⟨hsane', hextends, _⟩ := Fences.shelved h hsane
  obtain ⟨earlier, hearlier, hlink⟩ :=
    List.mem_map.mp (hsane.linked.attempts (List.mem_map_of_mem hattempt))
  obtain ⟨later, hlater, hid, howner, _⟩ := hextends.later_task hearlier
  obtain rfl :=
    Rows.eq_of_key hsane'.keyed.tasks hlater htask.1 (hid.trans (hlink.trans htask.2.symm))
  obtain ⟨old, hold, holdid⟩ := List.mem_map.mp (hsane.linked.tasks (List.mem_map_of_mem hearlier))
  obtain ⟨current, hcurrent, hfixed⟩ :=
    List.mem_map.mp (hextends.missions.subset (List.mem_map_of_mem hold))
  have hcurrentid : current.fixed.id = old.fixed.id := congrArg MissionRow.id hfixed
  have hworkspace : current.fixed.workspace_id = old.fixed.workspace_id :=
    congrArg MissionRow.workspace_id hfixed
  obtain rfl := Rows.eq_of_key hsane'.keyed.missions hcurrent hmission.1
    (Eq.trans hcurrentid (holdid.trans (howner.symm.trans hmission.2.symm)))
  exact ⟨earlier, hearlier, old, hold, hlink, holdid, Eq.symm hworkspace⟩

/-- An answered upload is a replay, or a publication. -/
theorem upload_publishes {workspace_id : String}
    (h : WorkspaceManager.upload service principal workspace_id data w = (.ok response, w')) :
    w'.db.versions = w.db.versions ∨ ∃ output publication,
      output_data (without_operation data) service.settings.max_file_bytes = .ok output ∧
      Publishes service.settings w.db w'.db workspace_id output.name output.expected_version
        publication := by
  simp only [WorkspaceManager.upload, ControlPlane.operate, Op.check_bind_eq_ok] at h
  obtain ⟨_, _, _, _, output, houtput, _, _, operation, _, h⟩ := h
  obtain ⟨v, hrun, _, rfl⟩ := Op.transaction_eq_ok.mp h
  obtain ⟨_, _, ⟨_, _, _, _, _, rfl⟩ | ⟨_, u, heffect, _, _, hdb⟩⟩ :=
    ControlPlane.operate_once_ok hrun
  · exact .inl rfl
  · simp only [WorkspaceManager.upload_effect, Op.bind_eq_ok, Op.pure_eq_ok] at heffect
    obtain ⟨_, _, haccess, _, _, hpublish, _, rfl⟩ := heffect
    obtain ⟨rfl, _, _⟩ := ControlPlane.workspace_access_ok haccess
    obtain ⟨publication, _, hpublished, _, _, hrows⟩ :=
      WorkspaceManager.publish_ok (output_data_ok houtput).1 hpublish
    refine .inr ⟨output, publication, houtput, ⟨_, _, _, _, .refl, hpublished⟩, ?_, ?_⟩
    · change v.db.files = _
      rw [hdb, hrows]
    · change v.db.versions = _
      rw [hdb, hrows]

/-- An answered result is one without output, a duplicate, or a publication. -/
theorem finish_publishes {identity : String} (hsane : Sane w.db)
    (h : ExecutionManager.finish service principal identity data w = (.ok response, w')) :
    w'.db.versions = w.db.versions ∨ ∃ attempt task mission publication,
      (attempt ∈ w.db.attempts ∧ attempt.id = identity) ∧
        (task ∈ w.db.tasks ∧ task.id = attempt.task_id) ∧
      (mission ∈ w.db.missions ∧ mission.id = task.mission_id) ∧
      Publishes service.settings w.db w'.db mission.workspace_id "resultat.md"
        attempt.expected_version
        publication := by
  obtain ⟨result, v, u, _, hresult, _, hid, hfences, hrun, hdb⟩ := finish_split hsane h
  have hfiles := Fences.files hfences
  have hversions := Fences.versions hfences
  rw [hdb]
  obtain ⟨worker, attempt, task, _, _, hattemptid, _, _, _, ⟨_, _, rfl⟩ | ⟨mission, hsettle, _⟩⟩ :=
    ExecutionManager.finish_effect_ok (from_dict_ok hresult) hrun
  · exact .inl hversions
  · generalize u.db = db', result.status = status, result.error_code = error_code at hsettle
    cases hsettle with
    | ended => exact .inl hversions
    | completed _ publication row event hsettling hpublished =>
      have hattempt := Fences.active hfences hsettling.claimed.1 hsettling.active
      obtain ⟨earlier, hearlier, old, hold, hlink, howner, hworkspace⟩ :=
        Fences.earlier_mission hfences hsane hattempt hsettling.of_task hsettling.of_mission
      rw [← hworkspace] at hpublished
      exact .inr
        ⟨attempt, earlier, old, publication, ⟨hattempt, hattemptid.trans hid⟩, ⟨hearlier, hlink⟩,
          ⟨hold, howner⟩, ⟨v.db, _, _, _, hfences, hpublished⟩, by rw [hfiles], by rw [hversions]⟩

end Calls

namespace ControlPlane

variable (service : ControlPlane) (boot : Boot) (calls : List Call)

variable {service} in
/-- Only uploads and results add versions: one at a time, where and on what they were prepared. -/
theorem published_by {installation : Installation} {request : Request} {supply : Supply}
    (hsane : Sane installation.db)
    (h : (service.step installation ⟨request, supply⟩).db.versions ≠ installation.db.versions) :
    ∃ workspace_id name expected publication,
      Prepared service installation.db request workspace_id name expected ∧
      Publishes service.settings installation.db (service.step installation ⟨request, supply⟩).db
        workspace_id name
        expected publication := by
  cases houtcome : service.outcome installation ⟨request, supply⟩ with
  | error failure => exact absurd (Fences.versions (refused hsane houtcome)) h
  | ok reply =>
    obtain ⟨principal, workspace_id, data, rfl⟩ | ⟨principal, identity, data, rfl⟩ | hsparing :=
      Request.publishing service request
    · obtain ⟨_, v, hop, hdb, _⟩ := step_json service rfl houtcome
      rw [hdb] at h ⊢
      obtain hsame | ⟨output, publication, houtput, hpublishes⟩ := upload_publishes hop
      · exact absurd hsame h
      · exact ⟨_, _, _, publication, .upload principal workspace_id data output houtput, hpublishes⟩
    · obtain ⟨_, v, hop, hdb, _⟩ := step_json service rfl houtcome
      rw [hdb] at h ⊢
      obtain hsame | ⟨attempt, task, mission, publication, hattempt, htask, hmission, hpublishes⟩ :=
        finish_publishes hsane hop
      · exact absurd hsame h
      · exact ⟨_, _, _, publication,
          .result principal identity data attempt task mission hattempt htask hmission, hpublishes⟩
    · exact absurd (hsparing.versions (installation.world supply)) h

/-- No update is lost. Whatever call adds a version is an upload or a result, and the version comes
    directly after the one that it was prepared on, in the file of that name; from then on,
    whatever calls follow, nothing else that was prepared on the same version is published there. -/
theorem no_update_lost : ∀ request supply,
    let before := service.after boot calls
    let after := service.step before ⟨request, supply⟩
    after.db.versions ≠ before.db.versions →
    ∃ workspace_id name expected version,
      Prepared service before.db request workspace_id name expected ∧
      after.db.versions = before.db.versions ++ [version] ∧ Succeeds after.db expected version ∧
      (∃ file ∈ after.db.files, file.id = version.file_id ∧ nocase file.name = nocase name ∧
        file.workspace_id = workspace_id) ∧
      ∀ more other name' again, nocase name' = nocase name →
        let later := service.after boot (calls ++ ⟨request, supply⟩ :: more)
        Prepared service later.db other workspace_id name' expected →
        (service.step later ⟨other, again⟩).db.versions = later.db.versions := by
  intro request supply before after hadded
  have hsane := after_sane service boot calls
  obtain ⟨workspace_id, name, expected, publication, hprepared, hpublishes⟩ :=
    published_by hsane hadded
  obtain ⟨v, held, mission_id, attempt_id, hfences, hpublished⟩ := hpublishes.published
  have hlinked := (Op.Fences.sane hfences hsane).linked
  have hfiles : after.db.files = v.files ++ publication.new_file.toList := by
    rw [Fences.files hfences]
    exact hpublishes.files
  have hversions : after.db.versions = v.versions ++ [publication.version] := by
    rw [Fences.versions hfences]
    exact hpublishes.versions
  refine ⟨workspace_id, name, expected, publication.version, hprepared,
    hpublishes.versions, ?_, ?_, ?_⟩
  · apply hpublished.succeeds hlinked
    intro other hother
    rw [hversions]
    exact List.mem_append_left _ hother
  · rw [hfiles]
    exact hpublished.place
  · intro more other name' again hname later hprepared'
    by_contra hagain
    have hlater := after_sane service boot (calls ++ ⟨request, supply⟩ :: more)
    have hsuperseded : Superseded later.db workspace_id name expected := by
      apply (hpublished.supersedes hlinked hfiles hversions).later
      have hextends := after_extends service boot (calls ++ [⟨request, supply⟩]) more
      rw [List.append_assoc, List.singleton_append, after_append] at hextends
      exact hextends
    obtain ⟨workspace_id', name'', expected', publication', hother, hpublishes'⟩ :=
      published_by hlater hagain
    obtain ⟨rfl, rfl, rfl⟩ := hprepared'.unique hother hlater.keyed
    obtain ⟨v', held', _, _, hfences', hpublished'⟩ := hpublishes'.published
    obtain ⟨hsane', hextends', _⟩ := Fences.shelved hfences' hlater
    exact (hsuperseded.later hextends').refuses hname hsane'.keyed hpublished'

end ControlPlane

end control_plane
