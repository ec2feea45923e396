import PepeuchCluster.ControlPlane.Ledger

open Relation

namespace control_plane

/-- What the tables say of every mission, task, attempt and worker together. -/
structure Consistent (db : Db) : Prop where
  approved : ∀ mission ∈ db.missions, mission.state ≠ .approved
  draft : ∀ mission ∈ db.missions, mission.state = .draft → db.tasks_of mission.id = []
  planned : ∀ mission ∈ db.missions,
    some State.approved.text ∈ history db.ordered_events mission.id →
    ∃ task, db.tasks_of mission.id = [task] ∧ task.state = mission.state
  active : ∀ mission ∈ db.missions, mission.state.active = true ↔
    ((db.attempts_of mission.id).filter fun attempt => attempt.state.active).length = 1
  latest : ∀ mission ∈ db.missions, ∀ attempt ∈ db.attempts_of mission.id,
    attempt.state.active = true → attempt.state = mission.state ∧
      ∀ other ∈ db.attempts_of mission.id, other.number ≤ attempt.number
  numbers : ∀ task ∈ db.tasks, ∃ count,
    (db.attempts.filter fun attempt => attempt.task_id = task.id).map
    (·.number) = List.range' 1 count
  assigned : ∀ attempt ∈ db.attempts, ∃ task ∈ db.tasks, task.id = attempt.task_id ∧
    attempt.worker_id = task.worker_id ∧ ∃ worker ∈ db.worker_identities,
      worker.id = task.worker_id ∧ ∃ capability, worker.capabilities = [capability] ∧
        ControlPlane.required_capability task.mission_id db = .ok capability
  exclusive : ∀ worker_id, (db.attempts.filter fun attempt =>
    attempt.worker_id = worker_id ∧ attempt.state.active = true).length ≤ 1

namespace Activity

variable {state : State} {attempts : List AttemptRow}

theorem count_active (h : Activity state attempts) :
    state.active = true ↔ (attempts.filter fun attempt => attempt.state.active).length = 1 := by
  rcases h with ⟨hidle, hall⟩ | ⟨hactive, earlier, last, rfl, hlast, hearlier⟩
  · have hnone : attempts.filter (fun attempt => attempt.state.active) = [] :=
      List.filter_eq_nil_iff.mpr fun attempt hattempt => by simp [hall attempt hattempt]
    simp [hidle, hnone]
  · have hnone : earlier.filter (fun attempt => attempt.state.active) = [] :=
      List.filter_eq_nil_iff.mpr fun attempt hattempt => by simp [hearlier attempt hattempt]
    rw [List.filter_append, hnone, List.filter_singleton, hlast, hactive]
    simp

/-- The active attempt has the highest number. -/
theorem active_latest (h : Activity state attempts) {attempt : AttemptRow}
    (hattempt : attempt ∈ attempts) (hactive : attempt.state.active = true)
    (hnumbers : attempts.map (·.number) = List.range' 1 attempts.length) :
    attempt.state = state ∧ ∀ other ∈ attempts, other.number ≤ attempt.number := by
  obtain ⟨_, earlier, rfl, hstate, _⟩ := h.last hattempt hactive
  refine ⟨hstate, fun other hother => ?_⟩
  rw [List.length_append, List.length_singleton, List.range'_concat, List.map_append] at hnumbers
  obtain ⟨hearlier, hlast⟩ := List.append_inj' hnumbers rfl
  have hlast : attempt.number = 1 + 1 * earlier.length := List.head_eq_of_cons_eq hlast
  rcases List.mem_append.mp hother with hother | hother
  · have hmem : other.number ∈ List.range' 1 earlier.length := hearlier ▸ List.mem_map_of_mem hother
    have := List.mem_range'_1.mp hmem
    omega
  · rw [List.mem_singleton.mp hother]

end Activity

theorem Coherent.activity {db : Db} (h : Coherent db) {mission : MissionRow}
    (hmission : mission ∈ db.missions) :
    Activity mission.state (db.attempts_of mission.id) := by
  rcases h.dossiers mission hmission with hunplanned | ⟨task, hunderway⟩
  · have hnone : db.attempts_of mission.id = [] := hunplanned.attempts
    refine Or.inl ⟨?_, hnone ▸ List.forall_mem_nil _⟩
    rcases hunplanned.state with hstate | hstate
    · exact congrArg State.active hstate
    · exact congrArg State.active hstate
  · exact hunderway.activity

theorem Coherent.task_attempts {db : Db} (h : Coherent db) (hlinked : Linked db)
    {task : TaskRow} (htask : task ∈ db.tasks) :
    ∃ mission ∈ db.missions, mission.id = task.mission_id ∧ (db.dossier mission).Underway task ∧
      db.attempts.filter (fun attempt => attempt.task_id = task.id) =
        db.attempts_of mission.id := by
  obtain ⟨mission, hmission, hid⟩ := List.mem_map.mp (hlinked.tasks (mem_ids htask))
  have hown : task ∈ db.tasks_of mission.id := Db.mem_tasks_of.mpr ⟨htask, hid.symm⟩
  rcases h.dossiers mission hmission with hunplanned | ⟨other, hunderway⟩
  · have hnone : db.tasks_of mission.id = [] := hunplanned.tasks
    rw [hnone] at hown
    cases hown
  · have htasks : db.tasks_of mission.id = [other] := hunderway.tasks
    rw [htasks, List.mem_singleton] at hown
    subst hown
    refine ⟨mission, hmission, hid, hunderway, ?_⟩
    rw [Db.attempts_of, htasks]
    simp [eq_comm]

theorem Sane.consistent {db : Db} (h : Sane db) (hledger : Ledger db) : Consistent db := by
  obtain ⟨hkeys, hlinked, hcoherent⟩ := h
  refine ⟨fun mission hmission => ?_, fun mission hmission hdraft => ?_,
    fun mission hmission happroved => ?_, fun mission hmission =>
      (hcoherent.activity hmission).count_active,
    fun mission hmission attempt hattempt hactive => ?_, fun task htask =>
      ?_, fun attempt hattempt => ?_,
    fun worker_id => ?_⟩
  · rcases hcoherent.dossiers mission hmission with hunplanned | ⟨task, hunderway⟩
    · rcases hunplanned.state with hstate | hstate <;> exact fun heq =>
        nomatch hstate.symm.trans heq
    · exact hunderway.state.2
  · rcases hcoherent.dossiers mission hmission with hunplanned | ⟨task, hunderway⟩
    · exact hunplanned.tasks
    · exact absurd hdraft hunderway.state.1
  · rw [hledger.ordered_events] at happroved
    obtain ⟨task, htask, hid⟩ := List.mem_map.mp ((hledger.approvals mission hmission).mp happroved)
    obtain ⟨owner, howner, hlink, hunderway, _⟩ := hcoherent.task_attempts hlinked htask
    obtain rfl := Rows.eq_of_key hkeys.missions howner hmission (hlink.trans hid)
    exact ⟨task, hunderway.tasks, hunderway.task_state⟩
  · obtain ⟨_, task, htask, howner, hlink⟩ := Db.mem_attempts_of.mp hattempt
    obtain ⟨owner, hmem, hid, hunderway, _⟩ := hcoherent.task_attempts hlinked htask
    obtain rfl := Rows.eq_of_key hkeys.missions hmem hmission (hid.trans howner)
    exact hunderway.activity.active_latest hattempt hactive hunderway.numbers
  · obtain ⟨mission, _, _, hunderway, hattempts⟩ := hcoherent.task_attempts hlinked htask
    rw [hattempts]
    exact ⟨_, hunderway.numbers⟩
  · obtain ⟨task, htask, hid⟩ := List.mem_map.mp (hlinked.attempts (mem_ids hattempt))
    obtain ⟨mission, hmission, hlink, hunderway, hattempts⟩ := hcoherent.task_attempts hlinked htask
    have hown : attempt ∈ db.attempts_of mission.id :=
      hattempts ▸ List.mem_filter.mpr ⟨hattempt, decide_eq_true hid.symm⟩
    obtain ⟨worker, hworker, hname, hcapabilities⟩ := hcoherent.assigned task htask
    obtain ⟨capability, hrequired, htasks⟩ := hcoherent.contracts mission hmission
    have hcapability := htasks task (Db.mem_tasks_of.mpr ⟨htask, hlink.symm⟩)
    exact ⟨task, htask, hid, hunderway.workers attempt hown, worker, hworker, hname, capability,
      hcapability ▸ hcapabilities, hlink ▸ hrequired⟩
  · refine Rows.length_le_one (hkeys.attempts.sublist (List.filter_sublist.map (·.id))) ?_
    intro first hfirst second hsecond
    obtain ⟨hfirst, hfirstWorker, hfirstActive⟩ := by simpa using hfirst
    obtain ⟨hsecond, hsecondWorker, hsecondActive⟩ := by simpa using hsecond
    exact hcoherent.exclusive first hfirst second hsecond (by simpa using hfirstActive)
      (by simpa using hsecondActive)
      (hfirstWorker.trans hsecondWorker.symm)

/-- A failure of the operating system, of SQLite on a drawn identifier, or of the clock. -/
def Environmental (failure : Failure) : Prop :=
  failure ∈ [.os_error, .killed, .integrity_error, .value_error, Problem "invalid_clock" 500]

instance (failure : Failure) : Decidable (Environmental failure) :=
  inferInstanceAs (Decidable (failure ∈ _))

namespace Op

/-- From this state, the action can only fail in its environment. -/
def Robust {α : Type} (op : Op α) (w : World) : Prop :=
  ∀ failure w', op w = (.error failure, w') → Environmental failure

variable {α β : Type} {w : World}

theorem Robust.bind {x : Op α} {f : α → Op β} (hx : Robust x w)
    (hf : ∀ a v, x w = (.ok a, v) → Robust (f a) v) : Robust (x >>= f) w := by
  intro failure w' h
  rcases Effect.bind_eq_error.mp h with hfail | ⟨a, v, hok, hrest⟩
  · exact hx failure w' hfail
  · exact hf a v hok failure w' hrest

theorem Robust.of_ok {op : Op α} {a : α} {v : World} (h : op w = (.ok a, v)) : Robust op w := by
  intro failure w' hfail
  rw [h] at hfail
  cases (Prod.mk.inj hfail).1

theorem robust_require {condition : Prop} [Decidable condition] {failure : Failure}
    (h : condition) :
    Robust (require condition failure) w :=
  have hpass : require condition failure w = (.ok (), w) := require_eq_ok.mpr ⟨h, rfl⟩
  .of_ok hpass

theorem robust_fault (fault : Fault) : Environmental fault.failure := by
  unfold Fault.failure
  split <;> decide

theorem robust_execute (statement : Db → Option Db) : Robust (execute statement) w := by
  intro failure w' h
  unfold execute at h
  split at h
  · rw [← Except.error.inj (Prod.mk.inj h).1]
    exact robust_fault _
  · split at h
    · rw [← Except.error.inj (Prod.mk.inj h).1]
      decide
    · cases (Prod.mk.inj h).1

theorem Robust.transaction {body : Op α} (h : Robust body w) : Robust (transaction body) w := by
  intro failure w' hfail
  unfold Op.transaction at hfail
  split at hfail
  · next other _ hbody =>
    rw [← Except.error.inj (Prod.mk.inj hfail).1]
    exact h other _ hbody
  · split at hfail
    · rw [← Except.error.inj (Prod.mk.inj hfail).1]
      exact robust_fault _
    · cases (Prod.mk.inj hfail).1

theorem Robust.map {x : Op α} (h : Robust x w) (f : α → β) : Robust (f <$> x) w :=
  Robust.bind (f := fun a => pure (f a)) h fun _ _ _ => .of_ok rfl

theorem robust_timestamp (now : Number) : Robust (check (timestamp now)) w := by
  intro failure w' h
  have hfailure : timestamp now = .error failure := (Prod.mk.inj h).1
  unfold timestamp at hfailure
  split at hfailure
  · rw [← Except.error.inj hfailure]
    decide
  · split at hfailure
    · cases hfailure
    · rw [← Except.error.inj hfailure]
      decide

end Op

namespace ControlPlane

variable {w : World} {principal : Principal}

theorem audit_robust {workspace_id : String} {mission_id : Option String} {type : EventType}
    {details : List (String × String)} (hdetails : ∀ detail ∈ details, detail.1 ∈ AUDIT_DETAILS) :
    Op.Robust (audit principal workspace_id mission_id type details) w := by
  refine .bind (Op.robust_require hdetails) fun _ _ _ => ?_
  refine .bind (.of_ok rfl) fun _ _ _ => .bind (.of_ok rfl) fun _ _ _ => ?_
  exact .bind (Op.robust_timestamp _) fun _ _ _ => Op.robust_execute _

/-- An allowed transition of a mission that exists goes through. -/
theorem transition_robust {row : MissionRow} {target : State} {reason : Option String}
    (hrow : row ∈ w.db.missions) (hallowed : target ∈ TRANSITIONS row.state) :
    Op.Robust (transition principal row target reason) w := by
  refine .bind (Op.robust_require hallowed) fun _ _ hchecked => ?_
  obtain ⟨_, rfl⟩ := Op.require_eq_ok.mp hchecked
  refine .bind (Op.robust_execute _) fun _ v hset => ?_
  refine .bind (audit_robust ?_) fun _ u haudit => ?_
  · cases reason <;> simp [AUDIT_DETAILS]
  · simp only [set_mission_state, Op.execute_eq_ok] at hset
    obtain ⟨_, db, hset, rfl⟩ := hset
    obtain rfl := Option.some.inj hset
    obtain ⟨_, _, _, _, _, hdb⟩ := audit_ok haudit
    have hfound : (Rows.find u.db.missions fun other => other.id = row.id).isSome = true := by
      rw [hdb]
      refine List.find?_isSome.mpr ⟨{ row with state := target }, ?_, by simp⟩
      exact Rows.mem_update.mpr (Or.inr ⟨row, hrow, by simp, rfl⟩)
    obtain ⟨found, hfind⟩ := Option.isSome_iff_exists.mp hfound
    refine .bind (.of_ok rfl) fun _ _ hselect => ?_
    obtain ⟨rfl, rfl⟩ := Op.select_eq_ok.mp hselect
    exact .of_ok (Op.demand_eq_ok.mpr ⟨hfind, rfl⟩)

end ControlPlane

namespace ExecutionManager

variable {w : World} {reason : String} {expired_only : Bool}

/-- The mission of a pending row is in an active state, which may be interrupted. -/
theorem Pending.mission {db : Db} {row : AttemptRow × TaskRow} (h : Pending db row)
    (hsane : Sane db) :
    ∃ mission, db.find_mission row.2.mission_id = some mission ∧ mission ∈ db.missions ∧
      State.interrupted ∈ TRANSITIONS mission.state := by
  obtain ⟨hattempt, hactive, task, htask, hlink, howner⟩ := h
  obtain ⟨mission, hmission, hid, hunderway, _⟩ := hsane.coherent.task_attempts hsane.linked htask
  have hown : row.1 ∈ db.attempts_of mission.id :=
    Db.mem_attempts_of.mpr ⟨hattempt, task, htask, hid.symm, hlink⟩
  refine ⟨mission, ?_, hmission, ?_⟩
  · rw [Db.find_mission, ← howner, ← hid]
    exact (Rows.find_key_iff hsane.keyed.missions).mpr ⟨hmission, rfl⟩
  · have hstate := (hunderway.activity.last hown hactive).1
    rcases State.active_iff.mp hstate with hstate | hstate
    · change mission.state = _ at hstate
      rw [hstate]
      decide
    · change mission.state = _ at hstate
      rw [hstate]
      decide

theorem interrupt_robust {row : AttemptRow × TaskRow} (hsane : Sane w.db)
    (hrow : Pending w.db row) :
    Op.Robust (interrupt reason row) w := by
  obtain ⟨mission, hfind, hmission, hallowed⟩ := hrow.mission hsane
  refine .bind (Op.robust_execute _) fun _ v hset => .bind (Op.robust_execute _) fun _ u hset' => ?_
  simp only [set_attempt, Op.execute_eq_ok] at hset
  simp only [set_task_state, Op.execute_eq_ok] at hset'
  obtain ⟨_, _, hset, rfl⟩ := hset
  obtain ⟨_, _, hset', rfl⟩ := hset'
  obtain rfl := Option.some.inj hset
  obtain rfl := Option.some.inj hset'
  refine .bind (.of_ok rfl) fun _ _ hselect => ?_
  obtain ⟨rfl, rfl⟩ := Op.select_eq_ok.mp hselect
  refine .bind (.of_ok (Op.demand_eq_ok.mpr ⟨hfind, rfl⟩)) fun _ _ hdemand => ?_
  obtain ⟨hsome, rfl⟩ := Op.demand_eq_ok.mp hdemand
  obtain rfl := Option.some.inj (hfind.symm.trans hsome)
  exact .bind (ControlPlane.transition_robust hmission hallowed) fun _ _ _ => .of_ok rfl

theorem fence_row_robust {row : AttemptRow × TaskRow} (hsane : Sane w.db)
    (hrow : Pending w.db row) :
    Op.Robust (fence_row reason expired_only row) w := by
  have hspared : Op.Robust (spared expired_only row.1) w := by
    cases expired_only <;> exact .of_ok rfl
  refine .bind hspared fun kept v hkept => ?_
  have hsame := Op.Reads.db hkept
  cases kept with
  | true => exact .of_ok rfl
  | false => exact interrupt_robust (hsame ▸ hsane) (hsame ▸ hrow)

theorem fence_rows_robust {rows : List (AttemptRow × TaskRow)} (hsane : Sane w.db)
    (hids : (rows.map (·.1.id)).Nodup) (hrows : ∀ row ∈ rows, Pending w.db row) :
    Op.Robust (fence_rows reason expired_only rows) w := by
  induction rows generalizing w with
  | nil => exact .of_ok rfl
  | cons row rows ih =>
    refine .bind (fence_row_robust hsane (hrows row (by simp))) fun _ v hrow => ?_
    obtain ⟨hfresh, hids⟩ := List.nodup_cons.mp hids
    rcases fence_row_ok (hrows row (by simp)) hrow with hsame | hfence
    · exact ih (hsame ▸ hsane) hids fun other hother =>
        hsame ▸ hrows other (List.mem_cons_of_mem _ hother)
    · have hchange : Change .default (fun _ => none) w.db v.db := .fenced _ _ reason row.1 hfence
      refine ih (hchange.sane hsane) hids fun other hother => ?_
      exact Fence.pending hfence (hrows other (List.mem_cons_of_mem _ hother)) fun heq =>
        hfresh (List.mem_map.mpr ⟨other, hother, heq⟩)

theorem fence_robust {worker : Option String} (hsane : Sane w.db) :
    Op.Robust (fence reason expired_only worker) w := by
  refine .bind (.of_ok rfl) fun rows v hselect => ?_
  obtain ⟨rfl, rfl⟩ := Op.select_eq_ok.mp hselect
  obtain ⟨hids, hpending⟩ := active_attempts_pending hsane.keyed worker
  exact fence_rows_robust hsane hids hpending

end ExecutionManager

namespace ControlPlane

open ExecutionManager (fence)

variable (service : ControlPlane) (boot : Boot) (calls : List Call)

/-- In every run every committed state is consistent. Wherever an operation may have got
    to from there, interrupting attempts only fails if the environment does, and so do
    `expire` and `recover`, which do nothing else. -/
theorem missions_consistent :
    (∀ db ∈ (service.after boot calls).commits, Consistent db) ∧
      (∀ held w, Changes service.settings held (service.after boot calls).db w.db →
        ∀ reason expired_only worker failure w',
          fence reason expired_only worker w = (.error failure, w') → Environmental failure) ∧
      ∀ request ∈ [Request.expire, Request.recover], ∀ supply failure,
        service.outcome (service.after boot calls) ⟨request, supply⟩ = .error failure →
          Environmental failure := by
  have hsane := after_sane service boot calls
  refine ⟨fun db hdb => ?_, fun held w hchanges reason expired_only worker => ?_,
    fun request hrequest supply => ?_⟩
  · exact (committed_sane service boot calls db hdb).consistent
      ((committed_ledger service boot calls).2 db hdb)
  · exact ExecutionManager.fence_robust (hchanges.sane hsane)
  · have hfence : ∀ reason expired_only, Op.Robust (Op.transaction (fence reason expired_only none))
        ((service.after boot calls).world supply) :=
      fun _ _ => (ExecutionManager.fence_robust hsane).transaction
    intro failure hfailure
    rcases List.mem_pair.mp hrequest with rfl | rfl
    · exact (hfence "attempt_expired" true).map (fun _ => Reply.done) failure _
        (Prod.ext hfailure rfl)
    · exact (hfence "backend_restart" false).map (fun _ => Reply.done) failure _
        (Prod.ext hfailure rfl)

end ControlPlane

end control_plane
