import PepeuchCluster.ControlPlane.Idempotency
import PepeuchCluster.Json.Objects

set_option synthInstance.maxSize 2048

open Relation

namespace control_plane

open ExecutionManager (Fences expire result_hash accepted)

/-- The attempt has this result, which its worker delivered for a task of the mission. -/
structure Delivered (db : Db) (principal : Principal) (result : ExecutionResult)
    (mission_id : String) (attempt : AttemptRow) (task : TaskRow) : Prop where
  of_attempt : attempt ∈ db.attempts ∧ attempt.id = result.attempt_id ∧
    attempt.worker_id = principal.identity
  generation : attempt.generation = result.generation
  held : attempt.result_sha256 = some (result_hash result)
  of_task : task ∈ db.tasks ∧ task.id = attempt.task_id ∧ task.mission_id = mission_id

section Deliveries

variable {settings : Settings} {held : String → Option Bytes} {db db' : Db} {principal : Principal}
  {result : ExecutionResult} {mission_id : String} {attempt : AttemptRow} {task : TaskRow}

theorem Settle.delivered {worker : IdentityRow} {mission : MissionRow} {status : State}
    {error_code : Option String} (h : Settle settings held worker attempt task mission
      (result_hash result) status error_code db db')
    (hid : attempt.id = result.attempt_id) (hworker : attempt.worker_id = principal.identity)
    (hgeneration : attempt.generation = result.generation) :
    ∃ attempt task, Delivered db' principal result mission.id attempt task := by
  cases h with
  | ended _ _ _ event hsettling =>
    refine
      ⟨{ attempt with state := status, result_sha256 := some (result_hash result), error_code },
        { task with state := status }, ⟨?_, hid, hworker⟩, hgeneration, rfl, ?_,
          hsettling.of_task.2,
        hsettling.of_mission.2.symm⟩
    · exact Rows.mem_update.mpr (.inr ⟨attempt, hsettling.claimed.1, by simp, rfl⟩)
    · exact Rows.mem_update.mpr
        (.inr ⟨task, hsettling.of_task.1, by simp [hsettling.of_task.2], rfl⟩)
  | completed _ publication row event hsettling =>
    refine ⟨{ attempt with
      state := .completed, result_sha256 := some (result_hash result), error_code := none },
      { task with state := .completed }, ⟨?_, hid, hworker⟩, hgeneration, rfl, ?_,
      hsettling.of_task.2, hsettling.of_mission.2.symm⟩
    · exact Rows.mem_update.mpr (.inr ⟨attempt, hsettling.claimed.1, by simp, rfl⟩)
    · exact Rows.mem_update.mpr
        (.inr ⟨task, hsettling.of_task.1, by simp [hsettling.of_task.2], rfl⟩)

theorem Settle.settling {worker : IdentityRow} {mission : MissionRow} {content_hash : String}
    {status : State} {error_code : Option String}
    (h : Settle settings held worker attempt task mission content_hash status error_code db db') :
    ∃ worker status, Settling db worker attempt task mission status := by
  cases h with
  | ended _ status _ _ hsettling => exact ⟨worker, status, hsettling⟩
  | completed _ _ _ _ hsettling => exact ⟨worker, .completed, hsettling⟩

/-- What is delivered stays delivered. -/
theorem Delivered.later (h : Delivered db principal result mission_id attempt task)
    (hsane : Sane db) (hshelved : Shelved db db') :
    ∃ attempt task, Delivered db' principal result mission_id attempt task := by
  obtain ⟨hsane', hextends, hkept⟩ := hshelved hsane
  have hsealed : Sealed db attempt := .inr (by rw [h.held]; exact Option.some_ne_none _)
  obtain ⟨later, hlater, hsame⟩ := List.mem_map.mp (hkept attempt h.of_attempt.1 hsealed)
  obtain ⟨hid, hrest⟩ := Prod.mk.inj hsame
  obtain ⟨hworker, hresult⟩ := Prod.mk.inj hrest
  -- the row with the same fixed columns is the same row
  obtain ⟨other, hother, hfixed⟩ :=
    List.mem_map.mp (hextends.attempts.subset (List.mem_map_of_mem h.of_attempt.1))
  have hotherid : other.fixed.id = attempt.fixed.id := congrArg AttemptRow.id hfixed
  obtain rfl := Rows.eq_of_key hsane'.keyed.attempts hother hlater (Eq.trans hotherid hid.symm)
  have hgeneration : other.fixed.generation = attempt.fixed.generation :=
    congrArg AttemptRow.generation hfixed
  have htaskid : other.fixed.task_id = attempt.fixed.task_id := congrArg AttemptRow.task_id hfixed
  obtain ⟨task', htask, htid, hmission, _⟩ := hextends.later_task h.of_task.1
  exact ⟨other, task', ⟨hlater, hid.trans h.of_attempt.2.1, hworker.trans h.of_attempt.2.2⟩,
    Eq.trans hgeneration h.generation, hresult.trans h.held, htask,
      htid.trans (h.of_task.2.1.trans (Eq.symm htaskid)),
    hmission.trans h.of_task.2.2⟩

end Deliveries

theorem find_attempt_some {db : Db} {identity worker : String} {attempt : AttemptRow}
    {task : TaskRow} (h : db.find_attempt identity worker = some (attempt, task)) :
    (attempt ∈ db.attempts ∧ attempt.id = identity ∧ attempt.worker_id = worker) ∧ task ∈ db.tasks ∧
      task.id = attempt.task_id := by
  simp only [Db.find_attempt, Option.bind_eq_bind, Option.bind_eq_some_iff] at h
  obtain ⟨found, hfind, foundTask, hfindTask, hpair⟩ := h
  obtain ⟨rfl, rfl⟩ := Prod.mk.inj (Option.some.inj hpair)
  obtain ⟨hattempt, hkey⟩ := Rows.find_some hfind
  obtain ⟨htask, hlink⟩ := Rows.find_some hfindTask
  exact ⟨⟨hattempt, of_decide_eq_true hkey⟩, htask, of_decide_eq_true hlink⟩

theorem find_attempt_eq {db : Db} {identity worker : String} {attempt : AttemptRow} {task : TaskRow}
    (hkeys : Keyed db) (hattempt : attempt ∈ db.attempts) (hid : attempt.id = identity)
    (hworker : attempt.worker_id = worker) (htask : task ∈ db.tasks)
    (hlink : task.id = attempt.task_id) :
    db.find_attempt identity worker = some (attempt, task) := by
  have hfind : Rows.find db.attempts (fun attempt => attempt.id = identity ∧
      attempt.worker_id = worker) = some attempt :=
    Rows.find_unique hattempt (decide_eq_true ⟨hid, hworker⟩) fun other hother hsame =>
      Rows.eq_of_key hkeys.attempts hother hattempt ((of_decide_eq_true hsame).1.trans hid.symm)
  have hfindTask : db.find_task attempt.task_id = some task :=
    (Rows.find_key_iff hkeys.tasks).mpr ⟨htask, hlink⟩
  rw [Db.find_attempt, hfind]
  change (db.find_task attempt.task_id).bind _ = _
  rw [hfindTask]
  rfl

section Finishes

variable {service : ControlPlane} {principal : Principal} {w w' : World} {identity : String}
  {data response : Json}

/-- What `finish` checks before its second transaction. -/
theorem finish_split (hsane : Sane w.db)
    (h : ExecutionManager.finish service principal identity data w = (.ok response, w')) :
    ∃ result v u, require_role principal .worker = .ok () ∧
      ExecutionResult.from_dict data = .ok result ∧ identifier (.str identity) = .ok identity ∧
      result.attempt_id = identity ∧ Fences "attempt_expired" w.db v.db ∧
      ExecutionManager.finish_effect service principal result v = (.ok response, u) ∧
      w'.db = u.db := by
  simp only [ExecutionManager.finish, Op.check_bind_eq_ok, Op.require_bind_eq_ok] at h
  obtain ⟨_, hrole, result, hresult, identity', hidentity, hid, h⟩ := h
  obtain ⟨_, v, hexpire, h⟩ := Op.bind_eq_ok.mp h
  obtain ⟨u, hrun, _, rfl⟩ := Op.transaction_eq_ok.mp h
  obtain rfl : identity = identity' := Json.str.inj (identifier_ok hidentity).1
  exact ⟨result, v, u, hrole, hresult, hidentity, hid, expire_ok hsane hexpire, hrun, rfl⟩

/-- The checks that a first result and its repetition share. -/
theorem finish_effect_found {result : ExecutionResult}
    (h : ExecutionManager.finish_effect service principal result w = (.ok response, w')) :
    ∃ worker attempt task, WorkerRegistry.authorize service.settings principal w = (.ok worker, w) ∧
      w.db.find_attempt result.attempt_id principal.identity = some (attempt, task) ∧
      attempt.generation = result.generation ∧
      w.db.epoch_of result.attempt_id = some worker.credential_epoch ∧
      ∀ digest, attempt.result_sha256 = some digest →
        digest = result_hash result ∧ response = accepted true task.mission_id ∧ w = w' := by
  obtain ⟨worker, u, hauthorize, h⟩ := Op.bind_eq_ok.mp h
  obtain ⟨rfl, _, _⟩ := WorkerRegistry.authorize_ok hauthorize
  simp only [Op.select_bind_eq_ok, Op.demand_bind_eq_ok] at h
  obtain ⟨⟨attempt, task⟩, hfound, h⟩ := h
  simp only [Op.select_bind_eq_ok, Op.require_bind_eq_ok] at h
  obtain ⟨hgeneration, hepoch, h⟩ := h
  refine ⟨worker, attempt, task, hauthorize, hfound, hgeneration, hepoch, fun digest hdigest => ?_⟩
  rw [hdigest] at h
  simp only [Op.require_bind_eq_ok, Op.pure_eq_ok] at h
  obtain ⟨hsame, hresponse, hworld⟩ := h
  exact ⟨hsame, hresponse.symm, hworld⟩

/-- An answered result is delivered. -/
theorem finish_delivers (hsane : Sane w.db)
    (h : ExecutionManager.finish service principal identity data w = (.ok response, w')) :
    ∃ result duplicate mission_id attempt task, ExecutionResult.from_dict data = .ok result ∧
      result.attempt_id = identity ∧ response = accepted duplicate mission_id ∧
      Delivered w'.db principal result mission_id attempt task := by
  obtain ⟨result, v, u, _, hresult, _, hid, hfences, hrun, hdb⟩ := finish_split hsane h
  obtain ⟨_, attempt, task, _, hfound, hgeneration, _, hrepeated⟩ := finish_effect_found hrun
  obtain ⟨⟨hattempt, hattemptid, hclaimed⟩, htask, hlink⟩ := find_attempt_some hfound
  rw [hdb]
  cases hheld : attempt.result_sha256 with
  | some digest =>
    obtain ⟨rfl, hresponse, rfl⟩ := hrepeated digest hheld
    exact ⟨result, true, task.mission_id, attempt, task, hresult, hid, hresponse,
      ⟨hattempt, hattemptid, hclaimed⟩, hgeneration, hheld, htask, hlink, rfl⟩
  | none =>
    obtain ⟨worker, other, task', _, hother, hotherid, hclaimed', hgeneration', _,
      ⟨hsettled, _⟩ | ⟨mission, hsettle, _, hresponse⟩⟩ :=
      ExecutionManager.finish_effect_ok (from_dict_ok hresult) hrun
    · have hkeys := (Op.Fences.sane hfences hsane).keyed
      have hsame := Rows.eq_of_key hkeys.attempts hattempt hother (hattemptid.trans hotherid.symm)
      rw [hsame, hsettled] at hheld
      cases hheld
    · obtain ⟨attempt', task', hdelivered⟩ := hsettle.delivered hotherid hclaimed' hgeneration'
      exact ⟨result, false, mission.id, attempt', task', hresult, hid, hresponse, hdelivered⟩

variable {result : ExecutionResult} {mission_id : String} {attempt : AttemptRow} {task : TaskRow}

theorem Fences.shelved {reason : String} {db db' : Db} (h : Fences reason db db') :
    Shelved db db' :=
  Shelved.of_changes (h.changes : Changes .default (fun _ => none) db db')

/-- Once a result is delivered, only the same one is answered, and nothing but an expiry comes of
    it. -/
theorem Delivered.answers (h : Delivered w.db principal result mission_id attempt task)
    (hsane : Sane w.db) {other : Principal} {payload : Json} (hnamed : result.attempt_id = identity)
    (hanswer : ExecutionManager.finish service other identity payload w = (.ok response, w')) :
    response = accepted true mission_id ∧ other.identity = principal.identity ∧
      (∃ repeated, ExecutionResult.from_dict payload = .ok repeated ∧
        result_hash repeated = result_hash result) ∧
      Fences "attempt_expired" w.db w'.db := by
  obtain ⟨repeated, v, u, _, hrepeated, _, hid, hfences, hrun, hdb⟩ := finish_split hsane hanswer
  have hsane' := Op.Fences.sane hfences hsane
  obtain ⟨later, task', hlater⟩ := h.later hsane (Fences.shelved hfences)
  obtain ⟨_, found, foundTask, _, hfound, _, _, hsame⟩ := finish_effect_found hrun
  obtain ⟨⟨hattempt, hattemptid, hclaimed⟩, htask, hlink⟩ := find_attempt_some hfound
  obtain rfl := Rows.eq_of_key hsane'.keyed.attempts hattempt hlater.of_attempt.1
    (hattemptid.trans (hid.trans (hnamed.symm.trans hlater.of_attempt.2.1.symm)))
  obtain rfl :=
    Rows.eq_of_key hsane'.keyed.tasks htask hlater.of_task.1 (hlink.trans hlater.of_task.2.1.symm)
  obtain ⟨hdigest, hresponse, rfl⟩ := hsame _ hlater.held
  refine ⟨?_, hclaimed.symm.trans hlater.of_attempt.2.2,
    ⟨repeated, hrepeated, hdigest.symm⟩, hdb ▸ hfences⟩
  rw [hresponse, hlater.of_task.2.2]

/-- The same result again is answered with the same mission, while the worker holds its
    credential. -/
theorem Delivered.repeated {v : World} (h : Delivered v.db principal result mission_id attempt task)
    (hsane : Sane w.db) (hresult : ExecutionResult.from_dict data = .ok result)
    (hanswer : ExecutionManager.finish service principal identity data w = (.ok response, w'))
    (hextends : Extends w.db v.db) (hsane' : Sane v.db) (hheld : Holds v.db principal) :
    Op.Replays (ExecutionManager.finish service principal identity data) v
      (accepted true mission_id) := by
  obtain ⟨first, x, _, hrole, hfirst, hidentity, hid, hfences, hrun, _⟩ :=
    finish_split hsane hanswer
  obtain rfl : result = first := Except.ok.inj (hresult.symm.trans hfirst)
  obtain ⟨worker, _, _, hauthorize, _, _, hepoch, _⟩ := finish_effect_found hrun
  have hcall : ExecutionManager.finish service principal identity data v =
      (expire >>= fun _ => Op.transaction (ExecutionManager.finish_effect service principal result))
        v := by
    have hpass : Op.require (result.attempt_id = identity) (Problem "attempt_mismatch" 409) =
        pure () := if_pos hid
    unfold ExecutionManager.finish
    rw [hrole, hresult, hidentity]
    change (Op.require (result.attempt_id = identity) (Problem "attempt_mismatch" 409) >>=
      fun _ => _) v = _
    rw [hpass]
    rfl
  rw [Op.Replays, hcall]
  refine Op.Replays.expire hsane' fun u hlater => Op.Replays.transaction ?_
  obtain ⟨hsane'', hextends', _⟩ := Fences.shelved hlater hsane'
  obtain ⟨attempt', task', hdelivered⟩ := h.later hsane' (Fences.shelved hlater)
  have hheld' : Holds u.db principal := by
    obtain ⟨row, hrow⟩ := hheld
    exact ⟨row, { hrow with mem := Fences.identities hlater ▸ hrow.mem }⟩
  have hauthorized := authorize_again (hextends.trans hextends') hsane''.keyed hheld' hauthorize
    (Fences.identities hfences) u rfl
  have hfind := find_attempt_eq hsane''.keyed hdelivered.of_attempt.1 hdelivered.of_attempt.2.1
    hdelivered.of_attempt.2.2 hdelivered.of_task.1 hdelivered.of_task.2.1
  have hepoch' : u.db.epoch_of result.attempt_id = some worker.credential_epoch := by
    have hbefore : w.db.epoch_of result.attempt_id = some worker.credential_epoch := by
      rw [← hepoch, Db.epoch_of, Db.epoch_of, hfences.frame]
    exact (hextends.trans hextends').epoch_of hbefore
  refine Op.bind_eq_ok.mpr ⟨worker, u, hauthorized, ?_⟩
  simp only [Op.select_bind_eq_ok, Op.demand_bind_eq_ok]
  refine ⟨(attempt', task'), hfind, ?_⟩
  simp only [Op.select_bind_eq_ok, Op.require_bind_eq_ok]
  refine ⟨hdelivered.generation, hepoch', ?_⟩
  rw [hdelivered.held, ← hdelivered.of_task.2.2]
  exact Op.require_bind_eq_ok.mpr ⟨rfl, Op.pure_eq_ok.mpr ⟨rfl, rfl⟩⟩

end Finishes

theorem accepted_duplicate (duplicate : Bool) (mission_id : String) :
    (accepted duplicate mission_id).lookup "duplicate" = some (.bool duplicate) := by
  rw [accepted, Json.lookup_dict (by simp)]
  rfl

theorem Fences.active {reason : String} {db db' : Db} (h : Fences reason db db')
    {attempt : AttemptRow} (hattempt : attempt ∈ db'.attempts)
    (hactive : attempt.state.active = true) : attempt ∈ db.attempts := by
  induction h with
  | refl => exact hattempt
  | tail _ hfence ih =>
    obtain ⟨fenced, hfence⟩ := hfence
    exact ih (hfence.active hattempt hactive).1

namespace ControlPlane

variable (service : ControlPlane) (boot : Boot) (calls : List Call)

variable {service boot calls} in
/-- An answered result is delivered, and stays so whatever calls follow. -/
theorem delivered_later {principal : Principal} {identity : String} {data : Json}
    {supply : Supply} {reply : Reply} (h : service.outcome (service.after boot calls)
      ⟨.finish principal identity data, supply⟩ = .ok reply) :
    ∃ result duplicate mission_id, ExecutionResult.from_dict data = .ok result ∧
      result.attempt_id = identity ∧ reply = .json (accepted duplicate mission_id) ∧
      ∀ more, ∃ attempt task,
        Delivered (service.after boot
          (calls ++ ⟨.finish principal identity data, supply⟩ :: more)).db principal result
          mission_id attempt task := by
  have hsane := after_sane service boot calls
  obtain ⟨response, v, hop, hdb, rfl⟩ := step_json service rfl h
  obtain ⟨result, duplicate, mission_id, attempt, task, hresult, hid, rfl, hdelivered⟩ :=
    finish_delivers hsane hop
  refine ⟨result, duplicate, mission_id, hresult, hid, rfl, fun more => ?_⟩
  rw [← hdb] at hdelivered
  have hstep :
      Sane (service.step (service.after boot calls) ⟨.finish principal identity data, supply⟩).db :=
    (step_progress hsane _).sane hsane
  obtain ⟨commits, _, htrail⟩ := (run_progress hstep more).trail
  rw [after_append]
  exact hdelivered.later hstep (Shelved.of_changes htrail.changes)

/-- A result is accepted once, for an attempt of its worker that is under way and has none. Whatever
    calls follow an answered result, no other result of the attempt is answered, and the same one
    again is answered as a duplicate, for its worker as long as it holds its credential, or fails in
    its environment, in both cases with no change beyond the expiry of leases. -/
theorem results_accepted_once :
    (∀ principal identity data supply mission_id,
      service.outcome (service.after boot calls) ⟨.finish principal identity data, supply⟩ =
        .ok (.json (accepted false mission_id)) →
      ∃ attempt ∈ (service.after boot calls).db.attempts, attempt.id = identity ∧
        attempt.worker_id = principal.identity ∧ attempt.state.active = true ∧
        attempt.result_sha256 = none) ∧
    ∀ principal identity data supply reply,
      service.outcome (service.after boot calls) ⟨.finish principal identity data, supply⟩ =
        .ok reply →
      ∃ result duplicate mission_id, ExecutionResult.from_dict data = .ok result ∧
        reply = .json (accepted duplicate mission_id) ∧
        ∀ more,
          let later := service.after boot
            (calls ++ ⟨.finish principal identity data, supply⟩ :: more)
          (∀ other payload again answer,
            service.outcome later ⟨.finish other identity payload, again⟩ = .ok answer →
            answer = .json (accepted true mission_id) ∧ other.identity = principal.identity ∧
              (∃ repeated, ExecutionResult.from_dict payload = .ok repeated ∧
                result_hash repeated = result_hash result) ∧
              Fences "attempt_expired" later.db
                (service.step later ⟨.finish other identity payload, again⟩).db) ∧
          (Holds later.db principal → ∀ again,
            (service.outcome later ⟨.finish principal identity data, again⟩ =
              .ok (.json (accepted true mission_id)) ∨ ∃ failure, Environmental failure ∧
                service.outcome later ⟨.finish principal identity data, again⟩ = .error failure) ∧
            Fences "attempt_expired" later.db
              (service.step later ⟨.finish principal identity data, again⟩).db) := by
  have hsane := after_sane service boot calls
  refine ⟨fun principal identity data supply mission_id hreply => ?_,
    fun principal identity data supply reply hreply => ?_⟩
  · obtain ⟨response, v, hop, _, hresponse⟩ := step_json service rfl hreply
    obtain ⟨result, x, u, _, hresult, _, hid, hfences, hrun, _⟩ := finish_split hsane hop
    obtain rfl := Reply.json.inj hresponse
    obtain ⟨_, attempt, task, _, _, hattemptid, hclaimed, _, _,
      ⟨_, hduplicate, _⟩ | ⟨mission, hsettle, _⟩⟩ :=
      ExecutionManager.finish_effect_ok (from_dict_ok hresult) hrun
    · have hfirst := accepted_duplicate false mission_id
      rw [hduplicate, accepted_duplicate] at hfirst
      cases hfirst
    · obtain ⟨_, _, hsettling⟩ := hsettle.settling
      exact ⟨attempt, Fences.active hfences hsettling.claimed.1 hsettling.active,
        hattemptid.trans hid, hclaimed, hsettling.active, hsettling.unsettled⟩
  · obtain ⟨result, duplicate, mission_id, hresult, hid, hanswer, hdelivered⟩ :=
      delivered_later hreply
    refine ⟨result, duplicate, mission_id, hresult, hanswer, fun more => ?_⟩
    obtain ⟨attempt, task, hlater⟩ := hdelivered more
    have hsane' :=
      after_sane service boot (calls ++ ⟨.finish principal identity data, supply⟩ :: more)
    refine ⟨fun other payload again answer hagain => ?_, fun hheld again => ?_⟩
    · obtain ⟨response, v, hop, hdb, rfl⟩ := step_json service rfl hagain
      rw [hdb]
      obtain ⟨rfl, hsame, hrepeated, hfences⟩ := Delivered.answers hlater hsane' hid hop
      exact ⟨rfl, hsame, hrepeated, hfences⟩
    · obtain ⟨response, v, hop, _, _⟩ := step_json service rfl hreply
      refine @replayed_json service _ (.finish principal identity data) again _ _ rfl ?_
      exact Delivered.repeated hlater hsane hresult hop
        (after_extends service boot calls _) hsane' hheld

end ControlPlane

end control_plane
