import PepeuchCluster.ControlPlane.Publishing

set_option synthInstance.maxSize 2048

open Relation

namespace control_plane

namespace ExecutionManager

variable {w w' : World} {principal : Principal} {service : ControlPlane} {reason : String}

instance (worker : IdentityRow) (task : TaskRow) :
    Op.Local (start_attempt service principal worker task) := by
  unfold start_attempt; infer_instance

instance : Op.Local (claim_effect service principal) := by
  have hbranch : ∀ (worker : IdentityRow) (busy : Bool), Op.Local (match busy with
      | true => return no_request
      | false => do
        let tasks ← Op.select fun db => db.queued_tasks principal.identity
        match tasks with
        | [] => return no_request
        | (task, _) :: _ => start_attempt service principal worker task) := by
    rintro worker (_ | _)
    · have htasks : ∀ tasks : List (TaskRow × MissionRow), Op.Local (match tasks with
          | [] => return no_request
          | (task, _) :: _ => start_attempt service principal worker task) := by
        rintro (_ | ⟨⟨task, mission⟩, tasks⟩) <;> infer_instance
      infer_instance
    · infer_instance
  unfold claim_effect
  infer_instance

instance (principal : Principal) (mission : MissionRow) (attempt : AttemptRow)
    (capability : Capability) (result : ExecutionResult) :
    Op.Local (settle_outputs service principal mission attempt capability result) := by
  unfold settle_outputs
  split <;> infer_instance

instance (attempt : AttemptRow) (task : TaskRow) (result : ExecutionResult)
    (content_hash : String) :
    Op.Local (accept_result service principal attempt task result content_hash) := by
  unfold accept_result; infer_instance

instance (result : ExecutionResult) : Op.Local (finish_effect service principal result) := by
  have hbranch :
    ∀ (attempt : AttemptRow) (task : TaskRow) (held : Option String) (content_hash : String),
      Op.Local (match held with
        | some held => do
          Op.require (held = content_hash) (Problem "result_conflict" 409)
          return accepted true task.mission_id
        | none => accept_result service principal attempt task result content_hash) := by
    rintro attempt task (_ | held) content_hash <;> infer_instance
  unfold finish_effect
  infer_instance

/-- An interruption leaves the files, the identities and the records as they are. -/
theorem Fences.frame {db db' : Db} (h : Fences reason db db') :
    db' = { db with
      missions := db'.missions
      tasks := db'.tasks
      attempts := db'.attempts
      events := db'.events } := by
  induction h with
  | refl => rfl
  | tail _ hfence ih =>
    obtain ⟨attempt, ⟨_⟩⟩ := hfence
    rw [ih]

/-- What a claim answers, for the attempt that it has started. -/
def Issued (settings : Settings) (worker : IdentityRow) (mission : MissionRow) (task : TaskRow)
    (attempt : AttemptRow) (response : Json) : Prop :=
  ∃ now deadline, timestamp now = .ok attempt.started_at ∧
    Number.later now (min settings.attempt_seconds worker.limits.lease_seconds) = some deadline ∧
    Number.real deadline = some attempt.deadline ∧
    response =
      execution_request attempt.id attempt.generation task mission attempt.started_at deadline
      attempt.expected_version

theorem start_attempt_ok {worker : IdentityRow} {task : TaskRow} {response : Json}
    (hkeys : Keyed w.db) (hworker : worker ∈ w.db.worker_identities)
    (hactive : worker.status = .active) (hid : worker.id = principal.identity)
    (hfree : ∀ other ∈ w.db.attempts, other.worker_id = worker.id → other.state.active = false)
    (htask : task ∈ w.db.tasks) (hqueued : task.state = .queued)
    (hassigned : task.worker_id = worker.id)
    (hready : ∃ mission ∈ w.db.missions, mission.id = task.mission_id ∧ mission.state = .queued)
    (h : start_attempt service principal worker task w = (.ok response, w')) :
    ∃ mission attempt, Claim worker mission task attempt w.db w'.db ∧
      Issued service.settings worker mission task attempt response := by
  simp only [start_attempt, set_task_state, Op.select_bind_eq_ok, Op.demand_bind_eq_ok,
    Op.new_id_bind_eq_ok, Op.clock_bind_eq_ok, Op.check_bind_eq_ok, Op.execute_bind_eq_ok,
      World.draw_db, World.tick_db] at h
  obtain ⟨mission, hfind, started, hstarted, deadline, hdeadline, lease, hlease, _, db,
    hinsert, _, recorded, hepoch, _, _, htasks, h⟩ := h
  obtain ⟨_, u, htransition, h⟩ := Op.bind_eq_ok.mp h
  obtain ⟨_, v, haudit, h⟩ := Op.bind_eq_ok.mp h
  simp only [Op.query_bind_eq_ok, Op.pure_eq_ok] at h
  obtain ⟨_, _, rfl, rfl⟩ := h
  obtain ⟨⟨hfresh, _⟩, rfl⟩ := Db.insert_attempt_eq_some.mp hinsert
  obtain ⟨hunrecorded, rfl⟩ := Db.insert_epoch_fresh hepoch
  obtain rfl := Option.some.inj htasks
  obtain ⟨hmission, howner⟩ := Rows.find_some hfind
  have howner := of_decide_eq_true howner
  obtain ⟨ready, hmem, hlink, hstate⟩ := hready
  obtain rfl := Rows.eq_of_key hkeys.missions hmission hmem (howner.trans hlink.symm)
  obtain ⟨_, event, hevent, _, hlogged, _, hdb⟩ := ControlPlane.transition_ok htransition
  obtain ⟨note, hnote, _, hlogged', _, hfinal⟩ := ControlPlane.audit_ok haudit
  rw [hdb] at hfinal hlogged'
  rw [← hid] at hnote hfinal hfresh
  have hidentity : isIdentifier (identity_text 'a' (w.supply.uuid 0)) = true :=
    isIdentifier_identity_text (by decide) _
  have hgeneration : isIdentifier (identity_text 'g' (w.draw.supply.uuid 0)) = true :=
    isIdentifier_identity_text (by decide) _
  generalize identity_text 'a' (w.supply.uuid 0) = identity at *
  generalize identity_text 'g' (w.draw.supply.uuid 0) = generation at *
  let attempt : AttemptRow :=
    ⟨identity, task.id, w.db.next_attempt task.id, worker.id, .running, generation,
      started, lease, w.db.expected_version mission.workspace_id, none, none⟩
  have hattempt : Started w.db worker mission task attempt :=
    ⟨rfl, rfl, rfl, rfl, fun other hother => ⟨(hfresh other hother).1, (hfresh other hother).2.1⟩,
      ⟨hidentity, hgeneration⟩, rfl, rfl, hunrecorded⟩
  have hissued : Issued service.settings worker mission task attempt
      (execution_request identity generation task mission started deadline
        attempt.expected_version) :=
    ⟨_, deadline, hstarted, hdeadline, hlease, rfl⟩
  refine ⟨mission, attempt, ?_, hissued⟩
  rw [hfinal]
  simp only [World.with_db_db, List.append_assoc]
  exact .row _ event note hworker hactive hmission htask hstate hqueued howner.symm hassigned
    hfree hattempt hevent
    hnote ⟨hlogged.1, hlogged.2.1, hlogged.2.2.1, hlogged'⟩

theorem queued_tasks_ready {db : Db} {worker : String} {row : TaskRow × MissionRow}
    (h : row ∈ db.queued_tasks worker) :
    row.1 ∈ db.tasks ∧ row.1.state = .queued ∧ row.1.worker_id = worker ∧
      ∃ mission ∈ db.missions, mission.id = row.1.mission_id ∧ mission.state = .queued := by
  obtain ⟨task, htask, hrow⟩ := List.mem_flatMap.mp ((List.mem_insertionSort _).mp h)
  split at hrow
  · next hready =>
    obtain ⟨mission, hmission, rfl⟩ := List.mem_map.mp hrow
    obtain ⟨hmem, hqueued⟩ := List.mem_filter.mp hmission
    exact ⟨htask, hready.1, hready.2, mission, hmem, of_decide_eq_true hqueued⟩
  · cases hrow

/-- A claim fences what has expired, and then starts at most one attempt. -/
theorem claim_effect_ok {response : Json} (hsane : Sane w.db)
    (h : claim_effect service principal w = (.ok response, w')) :
    ∃ db worker, Fences "attempt_expired" w.db db ∧ Authorised db principal worker ∧
      (response = no_request ∧ w'.db = db ∨ ∃ mission task attempt,
        Claim worker mission task attempt db w'.db ∧
          Issued service.settings worker mission task attempt response) := by
  obtain ⟨worker, u, hauthorize, h⟩ := Op.bind_eq_ok.mp h
  obtain ⟨rfl, hworker, _⟩ := WorkerRegistry.authorize_ok hauthorize
  obtain ⟨_, v, hfence, h⟩ := Op.bind_eq_ok.mp h
  have hfences := fence_ok hsane.keyed hfence
  have hchanges : Changes service.settings v.files.held w.db v.db := hfences.changes
  have hkeys := (hchanges.sane hsane).keyed
  have hidentities := congrArg (·.worker_identities) hfences.frame
  have hauthorised : Authorised v.db principal worker :=
      { hworker with mem := hidentities ▸ hworker.mem }
  refine ⟨v.db, worker, hfences, hauthorised, ?_⟩
  rw [Op.select_bind_eq_ok] at h
  cases hbusy : v.db.attempts.any fun attempt =>
      attempt.worker_id = principal.identity ∧ attempt.state.active = true with
  | true =>
    rw [hbusy] at h
    obtain ⟨rfl, rfl⟩ := Op.pure_eq_ok.mp h
    exact Or.inl ⟨rfl, rfl⟩
  | false =>
    rw [hbusy] at h
    change (Op.select (fun db => db.queued_tasks principal.identity) >>= _) v = _ at h
    rw [Op.select_bind_eq_ok] at h
    cases htasks : v.db.queued_tasks principal.identity with
    | nil =>
      rw [htasks] at h
      obtain ⟨rfl, rfl⟩ := Op.pure_eq_ok.mp h
      exact Or.inl ⟨rfl, rfl⟩
    | cons row rows =>
      rw [htasks] at h
      obtain ⟨task, queued⟩ := row
      obtain ⟨htask, hqueued, hassigned, hready⟩ :=
        queued_tasks_ready
          (htasks ▸ List.mem_cons_self : (task, queued) ∈ v.db.queued_tasks principal.identity)
      have hfree : ∀ other ∈ v.db.attempts, other.worker_id = worker.id →
          other.state.active = false := by
        intro other hother hworker
        by_contra hbusyOther
        have hnone := List.any_eq_false.mp hbusy other hother
        simp [hworker, hauthorised.id, Bool.of_not_eq_false hbusyOther] at hnone
      obtain ⟨mission, attempt, hclaim, hissued⟩ :=
        start_attempt_ok hkeys hauthorised.mem hauthorised.status
          hauthorised.id hfree htask hqueued (hassigned.trans hauthorised.id.symm) hready h
      exact Or.inr ⟨mission, task, attempt, hclaim, hissued⟩

theorem settle_outputs_ok {mission : MissionRow} {attempt : AttemptRow} {capability : Capability}
    {result : ExecutionResult} {u : Unit}
    (h : settle_outputs service principal mission attempt capability result w = (.ok u, w')) :
    (result.status = .completed ∧ result.error_code = none ∧ ∃ output published,
      result.outputs = [output] ∧
        WorkspaceManager.publish_result service principal mission attempt capability output w =
          (.ok published, w')) ∨
      (result.status ≠ .completed ∧ result.outputs = [] ∧
        result.error_code ∈ accepted_errors capability result.status ∧ w = w') := by
  by_cases hstatus : result.status = .completed
  · simp only [settle_outputs, hstatus] at h
    simp only [Op.require_bind_eq_ok, Op.demand_bind_eq_ok] at h
    obtain ⟨⟨herror, hlength⟩, output, houtput, h⟩ := h
    obtain ⟨published, v, hpublish, h⟩ := Op.bind_eq_ok.mp h
    obtain ⟨_, rfl⟩ := Op.pure_eq_ok.mp h
    obtain ⟨only, honly⟩ := List.length_eq_one_iff.mp hlength
    rw [honly] at houtput
    obtain rfl := Option.some.inj houtput
    exact Or.inl ⟨hstatus, herror, only, published, honly, hpublish⟩
  · have hplain : settle_outputs service principal mission attempt capability result =
        Op.require
          (result.outputs = [] ∧ result.error_code ∈ accepted_errors capability result.status)
          (Problem "invalid_failure_result") := by
      unfold settle_outputs
      split
      · contradiction
      · rfl
    rw [hplain] at h
    obtain ⟨⟨hempty, herror⟩, rfl⟩ := Op.require_eq_ok.mp h
    exact Or.inr ⟨hstatus, hempty, herror, rfl⟩

/-- The digest that `finish` keeps of a result. -/
def result_hash (result : ExecutionResult) : String := sha256 (encode (canonical result.to_dict))

/-- The checks of a result that have no row to show for them. -/
structure Checked (service : ControlPlane) (principal : Principal) (mission : MissionRow)
    (attempt : AttemptRow) (task : TaskRow) (result : ExecutionResult) (w : World) : Prop where
  cancelled : mission.state = .cancel_requested →
    result.status = .cancelled ∧ result.outputs = [] ∧ result.error_code = none
  outputs : result.status ≠ .completed → result.outputs = [] ∧
    result.error_code ∈ accepted_errors task.capability result.status
  deadline : ∃ settled, settle_outputs service principal mission attempt task.capability result w =
    (.ok (), settled) ∧ (settled.supply.clock 0).value < attempt.deadline.value

theorem accept_result_ok {worker : IdentityRow} {attempt : AttemptRow} {task : TaskRow}
    {result : ExecutionResult} {content_hash : String} {response : Json}
    (hworker : Authorised w.db principal worker) (hattempt : attempt ∈ w.db.attempts)
    (hclaimed : attempt.worker_id = principal.identity) (htask : task ∈ w.db.tasks)
    (hlink : task.id = attempt.task_id)
    (hepoch : w.db.epoch_of attempt.id = some worker.credential_epoch)
    (hunsettled : attempt.result_sha256 = none)
    (hfinal : result.status ∈ [State.completed, .failed, .interrupted, .cancelled])
    (h : accept_result service principal attempt task result content_hash w = (.ok response, w')) :
    ∃ mission,
      Settle service.settings w'.files.held worker attempt task mission content_hash result.status
        result.error_code w.db w'.db ∧
      Checked service principal mission attempt task result w ∧
      response = accepted false mission.id := by
  simp only [accept_result, Op.select_bind_eq_ok, Op.require_bind_eq_ok, Op.demand_bind_eq_ok] at h
  obtain ⟨hactive, mission, hfind, hcancel, hopen, h⟩ := h
  obtain ⟨_, u, hsettled, h⟩ := Op.bind_eq_ok.mp h
  simp only [Op.clock_bind_eq_ok, Op.require_bind_eq_ok, set_attempt, set_task_state,
    Op.execute_bind_eq_ok] at h
  obtain ⟨hdeadline, _, _, hattempts, _, _, htasks, h⟩ := h
  obtain ⟨_, v, htransition, h⟩ := Op.bind_eq_ok.mp h
  obtain ⟨rfl, rfl⟩ := Op.pure_eq_ok.mp h
  obtain rfl := Option.some.inj hattempts
  obtain rfl := Option.some.inj htasks
  obtain ⟨hmission, howner⟩ := Rows.find_some hfind
  obtain ⟨hallowed, event, hevent, _, hlogged, _, hdb⟩ := ControlPlane.transition_ok htransition
  simp only [World.with_db_db, World.tick_db] at hdb hlogged
  have hsettling : Settling w.db worker attempt task mission result.status := by
    refine ⟨⟨hworker.mem, hworker.status⟩,
      ⟨hattempt, hclaimed.trans hworker.id.symm⟩,
        ⟨htask, hlink⟩, ⟨hmission, of_decide_eq_true howner⟩, hepoch, hunsettled, hactive,
        ⟨fun hstate => (hcancel hstate).1, ?_⟩,
      hallowed, hfinal⟩
    intro hstatus
    by_contra hstate
    exact hopen hstate hstatus
  have hheld : Held.le u.files.held v.files.held := (Op.Local.of_run htransition).held
  refine ⟨mission, ?_, ⟨hcancel, fun hstatus => ?_, u, hsettled, hdeadline⟩, rfl⟩
  · rcases settle_outputs_ok hsettled with ⟨hstatus, herror, output, published, _, hpublish⟩ |
      ⟨hstatus, _, _, rfl⟩
    · obtain ⟨publication, row, hpublished, hnote, hfresh, hid, hrow, hversion,
        hprovenance, hrows⟩ :=
        WorkspaceManager.publish_result_ok hpublish
      rw [hrows] at hdb hlogged
      rw [hstatus] at hevent hdb hsettling ⊢
      rw [herror] at hdb ⊢
      rw [hdb]
      simp only [List.append_assoc]
      exact .completed _ publication row event hsettling (hpublished.mono hheld) hfresh hid
        ⟨hrow, hversion, hprovenance⟩ hevent ⟨hnote.1, hnote.2.1, hnote.2.2.1, hlogged⟩
    · rw [hdb]
      exact .ended _ result.status result.error_code event hsettling hstatus hevent hlogged
  · rcases settle_outputs_ok hsettled with ⟨hcompleted, _⟩ | ⟨_, hempty, herror, _⟩
    · exact absurd hcompleted hstatus
    · exact ⟨hempty, herror⟩

/-- A result is accepted once, and its exact repetition changes nothing. -/
theorem finish_effect_ok {result : ExecutionResult} {response : Json}
    (hfinal : result.status ∈ [State.completed, .failed, .interrupted, .cancelled])
    (h : finish_effect service principal result w = (.ok response, w')) :
    ∃ worker attempt task, Authorised w.db principal worker ∧ attempt ∈ w.db.attempts ∧
      attempt.id = result.attempt_id ∧ attempt.worker_id = principal.identity ∧
      attempt.generation = result.generation ∧
      w.db.epoch_of attempt.id = some worker.credential_epoch ∧ (attempt.result_sha256 =
        some (result_hash result) ∧ response = accepted true task.mission_id ∧ w = w' ∨
        ∃ mission,
          Settle service.settings w'.files.held worker attempt task mission (result_hash result)
            result.status result.error_code w.db w'.db ∧
          Checked service principal mission attempt task result w ∧
          response = accepted false mission.id) := by
  obtain ⟨worker, u, hauthorize, h⟩ := Op.bind_eq_ok.mp h
  obtain ⟨rfl, hworker, _⟩ := WorkerRegistry.authorize_ok hauthorize
  simp only [Op.select_bind_eq_ok, Op.demand_bind_eq_ok] at h
  obtain ⟨⟨attempt, task⟩, hfound, h⟩ := h
  simp only [Op.select_bind_eq_ok, Op.require_bind_eq_ok] at h
  obtain ⟨hgeneration, hepoch, h⟩ := h
  simp only [Db.find_attempt, Option.bind_eq_bind, Option.bind_eq_some_iff] at hfound
  obtain ⟨found, hfind, foundTask, hfindTask, hpair⟩ := hfound
  obtain ⟨rfl, rfl⟩ := Prod.mk.inj (Option.some.inj hpair)
  obtain ⟨hattempt, hid⟩ := Rows.find_some hfind
  obtain ⟨hid, hclaimed⟩ := of_decide_eq_true hid
  obtain ⟨htask, hlink⟩ := Rows.find_some hfindTask
  rw [← hid] at hepoch
  refine ⟨worker, found, foundTask, hworker, hattempt, hid, hclaimed, hgeneration, hepoch, ?_⟩
  cases hsettled : found.result_sha256 with
  | some held =>
    rw [hsettled] at h
    simp only [Op.require_bind_eq_ok, Op.pure_eq_ok] at h
    obtain ⟨rfl, rfl, rfl⟩ := h
    exact Or.inl ⟨rfl, rfl, rfl⟩
  | none =>
    rw [hsettled] at h
    exact Or.inr (accept_result_ok hworker hattempt hclaimed htask
      (of_decide_eq_true hlink) hepoch hsettled hfinal h)

end ExecutionManager

end control_plane
