import PepeuchCluster.ControlPlane.Keys

namespace control_plane

/-- The active attempt of a mission in an active state is its last one. -/
def Activity (state : State) (attempts : List AttemptRow) : Prop :=
  (state.active = false ∧ ∀ attempt ∈ attempts, attempt.state.active = false) ∨
    state.active = true ∧ ∃ earlier last, attempts = earlier ++ [last] ∧ last.state = state ∧
      ∀ attempt ∈ earlier, attempt.state.active = false

/-- A mission with its tasks and the attempts at them, in their order. -/
structure Dossier where
  mission : MissionRow
  tasks : List TaskRow
  attempts : List AttemptRow

namespace Dossier

structure Unplanned (dossier : Dossier) : Prop where
  state : dossier.mission.state = .draft ∨ dossier.mission.state = .cancelled
  tasks : dossier.tasks = []
  attempts : dossier.attempts = []

structure Underway (dossier : Dossier) (task : TaskRow) : Prop where
  state : dossier.mission.state ≠ .draft ∧ dossier.mission.state ≠ .approved
  tasks : dossier.tasks = [task]
  task_state : task.state = dossier.mission.state
  numbers : dossier.attempts.map (·.number) = List.range' 1 dossier.attempts.length
  workers : ∀ attempt ∈ dossier.attempts, attempt.worker_id = task.worker_id
  activity : Activity dossier.mission.state dossier.attempts

def Coherent (dossier : Dossier) : Prop := dossier.Unplanned ∨ ∃ task, dossier.Underway task

end Dossier

def Db.dossier (db : Db) (mission : MissionRow) : Dossier :=
  ⟨mission, db.tasks_of mission.id, db.attempts_of mission.id⟩

/-- Missions, tasks, attempts and workers agree with each other. -/
structure Coherent (db : Db) : Prop where
  dossiers : ∀ mission ∈ db.missions, (db.dossier mission).Coherent
  contracts : ∀ mission ∈ db.missions, ∃ capability,
    ControlPlane.required_capability mission.id db = .ok capability ∧
      ∀ task ∈ db.tasks_of mission.id, task.capability = capability
  assigned : ∀ task ∈ db.tasks, ∃ worker ∈ db.worker_identities,
    worker.id = task.worker_id ∧ worker.capabilities = [task.capability]
  exclusive : ∀ first ∈ db.attempts, ∀ second ∈ db.attempts, first.state.active = true →
    second.state.active = true → first.worker_id = second.worker_id → first.id = second.id
  single : ∀ worker ∈ db.worker_identities, ∃ capability, worker.capabilities = [capability]

theorem foldr_max_eq {numbers : List Nat} {bound : Nat} (h : ∀ number ∈ numbers, number ≤ bound) :
    numbers.foldr max bound = bound := by
  induction numbers with
  | nil => rfl
  | cons number numbers ih =>
    rw [List.foldr_cons, ih fun other hother => h other (List.mem_cons_of_mem _ hother)]
    exact Nat.max_eq_right (h number (by simp))

theorem foldr_max_range' (count : Nat) : (List.range' 1 count).foldr max 0 = count := by
  cases count with
  | zero => rfl
  | succ count =>
    rw [List.range'_concat, List.foldr_append]
    have hbound : ∀ number ∈ List.range' 1 count, number ≤ 1 + 1 * count := by
      intro number hnumber
      have := List.mem_range'_1.mp hnumber
      omega
    rw [List.foldr_cons, List.foldr_nil, Nat.max_zero, foldr_max_eq hbound]
    omega

namespace Activity

variable {state target : State} {attempts : List AttemptRow} {attempt : AttemptRow}

theorem last (h : Activity state attempts) (hattempt : attempt ∈ attempts)
    (hactive : attempt.state.active = true) :
    state.active = true ∧ ∃ earlier, attempts = earlier ++ [attempt] ∧ attempt.state = state ∧
      ∀ other ∈ earlier, other.state.active = false := by
  rcases h with ⟨_, hidle⟩ | ⟨hstate, earlier, last, rfl, hlast, hearlier⟩
  · simp [hidle attempt hattempt] at hactive
  · rcases List.mem_append.mp hattempt with hold | hlastMem
    · simp [hearlier attempt hold] at hactive
    · obtain rfl := List.mem_singleton.mp hlastMem
      exact ⟨hstate, earlier, rfl, hlast, hearlier⟩

theorem idle (h : Activity state attempts) (hstate : state.active = false) :
    ∀ attempt ∈ attempts, attempt.state.active = false := by
  rcases h with ⟨_, hidle⟩ | ⟨hactive, _⟩
  · exact hidle
  · simp [hstate] at hactive

/-- The active attempt stops, and no other one was active. -/
theorem stop (h : Activity state attempts) (hattempt : attempt ∈ attempts)
    (hactive : attempt.state.active = true) {change : AttemptRow → AttemptRow}
    (hchange : ∀ row, (change row).state = target) (htarget : target.active = false) :
    Activity target (Rows.update attempts (fun row => row.id = attempt.id) change) := by
  obtain ⟨_, earlier, rfl, _, hearlier⟩ := h.last hattempt hactive
  refine Or.inl ⟨htarget, fun row hrow => ?_⟩
  rcases Rows.mem_update.mp hrow with ⟨hrow, hother⟩ | ⟨old, _, _, rfl⟩
  · rcases List.mem_append.mp hrow with hrow | hrow
    · exact hearlier row hrow
    · obtain rfl := List.mem_singleton.mp hrow
      simp at hother
  · rw [hchange]
    exact htarget

end Activity

namespace Db

variable {db db' : Db}

theorem mem_tasks_of {task : TaskRow} {identity : String} :
    task ∈ db.tasks_of identity ↔ task ∈ db.tasks ∧ task.mission_id = identity := by
  simp [tasks_of]

theorem mem_attempts_of {attempt : AttemptRow} {identity : String} :
    attempt ∈ db.attempts_of identity ↔
      attempt ∈ db.attempts ∧ ∃ task ∈ db.tasks, task.mission_id = identity ∧
      task.id = attempt.task_id := by
  simp [attempts_of, mem_tasks_of, and_assoc]

/-- An attempt belongs to one mission. -/
theorem attempts_of_unique (hkeys : Keyed db) {attempt : AttemptRow} {first second : String}
    (hfirst : attempt ∈ db.attempts_of first) (hsecond : attempt ∈ db.attempts_of second) :
    first = second := by
  obtain ⟨_, task, htask, rfl, hid⟩ := mem_attempts_of.mp hfirst
  obtain ⟨_, other, hother, rfl, hid'⟩ := mem_attempts_of.mp hsecond
  rw [Rows.eq_of_key hkeys.tasks htask hother (hid.trans hid'.symm)]

theorem attempts_of_eq (hids : ∀ identity,
    (db'.tasks_of identity).map (·.id) = (db.tasks_of identity).map (·.id)) (identity : String) :
    db'.attempts_of identity = db'.attempts.filter fun attempt =>
      (db.tasks_of identity).any fun task => task.id = attempt.task_id := by
  unfold attempts_of
  apply List.filter_congr
  intro attempt _
  have hany : ∀ tasks : List TaskRow, (tasks.any fun task => task.id = attempt.task_id) =
      (tasks.map (·.id)).any fun id => id = attempt.task_id := fun tasks => by
    rw [List.any_map]
    rfl
  rw [hany, hany, hids]

theorem tasks_of_set_state {mission : MissionRow} {target : State} (identity : String)
    (htasks :
    db'.tasks = Rows.update db.tasks (fun task => task.mission_id = mission.id) fun task =>
      { task with state := target }) :
    db'.tasks_of identity =
      Rows.update (db.tasks_of identity) (fun task => task.mission_id = mission.id)
      fun task => { task with state := target } := by
  rw [tasks_of, htasks]
  exact Rows.filter_update fun _ => rfl

/-- Selecting the task itself or the tasks of its mission is the same. -/
theorem update_task_eq (hkeys : Keyed db) {task : TaskRow} (htask : task ∈ db.tasks)
    (change : TaskRow → TaskRow) :
    Rows.update db.tasks (fun row => row.id = task.id) change =
      Rows.update db.tasks (fun row => row.mission_id = task.mission_id) change := by
  apply Rows.update_congr
  intro row hrow
  rw [decide_eq_decide]
  constructor
  · intro heq
    rw [Rows.eq_of_key hkeys.tasks hrow htask heq]
  · intro heq
    rw [Rows.eq_of_key hkeys.plans hrow htask heq]

end Db

theorem required_capability_append {db db' : Db} {more : List EventRow} {identity : String}
    (hevents : db'.events = db.events ++ more)
    (hmore : ∀ event ∈ more, event.mission_id = some identity →
      event.type ≠ .mission_execution_contract_v1) :
    ControlPlane.required_capability identity db' =
      ControlPlane.required_capability identity db := by
  have hnone : more.filter (fun event =>
      event.mission_id = some identity ∧ event.type = .mission_execution_contract_v1) = [] := by
    rw [List.filter_eq_nil_iff]
    intro event hevent
    simpa using hmore event hevent
  unfold ControlPlane.required_capability
  rw [hevents, List.filter_append, hnone, List.append_nil]

namespace Coherent

variable {db db' : Db}

/-- A change of one mission's state, seen from outside its dossier. -/
structure Moves (db db' : Db) (mission : MissionRow) (target : State)
    (more : List EventRow) : Prop where
  mem : mission ∈ db.missions
  missions : db'.missions = Rows.update db.missions (fun row => row.id = mission.id) fun row =>
    { row with state := target }
  others : ∀ identity, identity ≠ mission.id →
    db'.tasks_of identity = db.tasks_of identity ∧
    db'.attempts_of identity = db.attempts_of identity
  capability : ∀ task ∈ db'.tasks_of mission.id,
    ControlPlane.required_capability mission.id db = .ok task.capability
  assigned : ∀ task ∈ db'.tasks, ∃ worker ∈ db.worker_identities,
    worker.id = task.worker_id ∧ worker.capabilities = [task.capability]
  identities : db'.worker_identities = db.worker_identities
  events : db'.events = db.events ++ more
  contracts : ∀ event ∈ more, event.type ≠ .mission_execution_contract_v1
  exclusive : ∀ first ∈ db'.attempts, ∀ second ∈ db'.attempts, first.state.active = true →
    second.state.active = true → first.worker_id = second.worker_id → first.id = second.id

/-- Only the dossier of the mission that moved has to be looked at. -/
theorem moved (h : Coherent db) (hkeys : Keyed db) {mission : MissionRow} {target : State}
    {more : List EventRow} (hmoves : Moves db db' mission target more)
    (hself : (db'.dossier { mission with state := target }).Coherent) : Coherent db' := by
  have horigin : ∀ row ∈ db'.missions, (row = { mission with state := target }) ∨
      row ∈ db.missions ∧ row.id ≠ mission.id := by
    intro row hrow
    rw [hmoves.missions] at hrow
    rcases Rows.mem_update.mp hrow with ⟨hrow, hother⟩ | ⟨old, hold, hsel, rfl⟩
    · exact Or.inr ⟨hrow, by simpa using hother⟩
    · have hid : old.id = mission.id := by simpa using hsel
      rw [Rows.eq_of_key hkeys.missions hold hmoves.mem hid]
      exact Or.inl rfl
  have hrequired : ∀ identity, ControlPlane.required_capability identity db' =
      ControlPlane.required_capability identity db := fun identity =>
    required_capability_append hmoves.events fun event hevent _ => hmoves.contracts event hevent
  refine ⟨fun row hrow => ?_, fun row hrow => ?_, ?_, hmoves.exclusive, ?_⟩
  · rcases horigin row hrow with rfl | ⟨hold, hne⟩
    · exact hself
    · obtain ⟨htasks, hattempts⟩ := hmoves.others row.id hne
      have hdossier : db'.dossier row = db.dossier row := by
        rw [Db.dossier, Db.dossier, htasks, hattempts]
      rw [hdossier]
      exact h.dossiers row hold
  · rcases horigin row hrow with rfl | ⟨hold, hne⟩
    · obtain ⟨capability, hcapability, _⟩ := h.contracts mission hmoves.mem
      refine ⟨capability, (hrequired _).trans hcapability, fun task htask => ?_⟩
      exact Except.ok.inj ((hmoves.capability task htask).symm.trans hcapability)
    · rw [(hmoves.others row.id hne).1, hrequired]
      exact h.contracts row hold
  · rw [hmoves.identities]
    exact hmoves.assigned
  · rw [hmoves.identities]
    exact h.single

/-- An update of attempts that keeps what identifies them and activates none. -/
structure Steady (attempts : Rows AttemptRow) (selected : AttemptRow → Bool)
    (change : AttemptRow → AttemptRow) : Prop where
  id : ∀ row, (change row).id = row.id
  task_id : ∀ row, (change row).task_id = row.task_id
  number : ∀ row, (change row).number = row.number
  worker_id : ∀ row, (change row).worker_id = row.worker_id
  active : ∀ row ∈ attempts, selected row = true → (change row).state.active = true →
    row.state.active = true

theorem Steady.exclusive {selected : AttemptRow → Bool} {change : AttemptRow → AttemptRow}
    (hsteady : Steady db.attempts selected change) (h : Coherent db) :
    ∀ first ∈ Rows.update db.attempts selected change,
      ∀ second ∈ Rows.update db.attempts selected change, first.state.active = true →
        second.state.active = true → first.worker_id = second.worker_id → first.id = second.id := by
  have horigin : ∀ row ∈ Rows.update db.attempts selected change, row.state.active = true →
      ∃ old ∈ db.attempts, old.state.active = true ∧ old.id = row.id ∧
      old.worker_id = row.worker_id := by
    intro row hrow hactive
    rcases Rows.mem_update.mp hrow with ⟨hrow, _⟩ | ⟨old, hold, hselected, rfl⟩
    · exact ⟨row, hrow, hactive, rfl, rfl⟩
    · exact ⟨old, hold, hsteady.active old hold hselected hactive, (hsteady.id old).symm,
        (hsteady.worker_id old).symm⟩
  intro first hfirst second hsecond hactive hactive' hworker
  obtain ⟨a, ha, haactive, haid, haworker⟩ := horigin first hfirst hactive
  obtain ⟨b, hb, hbactive, hbid, hbworker⟩ := horigin second hsecond hactive'
  rw [← haid, ← hbid]
  exact h.exclusive a ha b hb haactive hbactive (haworker.trans (hworker.trans hbworker.symm))

/-- The tables of a change that sets the states of a mission and its tasks. -/
structure Sets (db db' : Db) (mission : MissionRow) (target : State)
    (more : List EventRow) : Prop where
  mem : mission ∈ db.missions
  missions : db'.missions = Rows.update db.missions (fun row => row.id = mission.id) fun row =>
    { row with state := target }
  tasks : db'.tasks = Rows.update db.tasks (fun task => task.mission_id = mission.id) fun task =>
    { task with state := target }
  identities : db'.worker_identities = db.worker_identities
  events : db'.events = db.events ++ more
  contracts : ∀ event ∈ more, event.type ≠ .mission_execution_contract_v1

theorem Sets.tasks_other {mission : MissionRow} {target : State} {more : List EventRow}
    (hsets : Sets db db' mission target more) {identity : String} (hne : identity ≠ mission.id) :
    db'.tasks_of identity = db.tasks_of identity := by
  rw [Db.tasks_of_set_state identity hsets.tasks]
  apply Rows.update_eq_self
  intro task htask
  simpa [(Db.mem_tasks_of.mp htask).2] using hne

theorem Sets.attempts_of {mission : MissionRow} {target : State} {more : List EventRow}
    (hsets : Sets db db' mission target more) (identity : String) :
    db'.attempts_of identity = db'.attempts.filter fun attempt =>
      (db.tasks_of identity).any fun task => task.id = attempt.task_id := by
  apply Db.attempts_of_eq
  intro identity
  rw [Db.tasks_of_set_state identity hsets.tasks]
  exact Rows.update_map fun _ => rfl

theorem Sets.moves {mission : MissionRow} {target : State} {more : List EventRow}
    (hsets : Sets db db' mission target more) (h : Coherent db)
    (hattempts : ∀ identity, identity ≠ mission.id →
      db'.attempts_of identity = db.attempts_of identity)
    (hexclusive : ∀ first ∈ db'.attempts, ∀ second ∈ db'.attempts, first.state.active = true →
      second.state.active = true → first.worker_id = second.worker_id → first.id = second.id) :
    Moves db db' mission target more := by
  have horigin : ∀ task ∈ db'.tasks, ∃ old ∈ db.tasks, old.mission_id = task.mission_id ∧
      old.worker_id = task.worker_id ∧ old.capability = task.capability := by
    intro task htask
    rw [hsets.tasks] at htask
    rcases Rows.mem_update.mp htask with ⟨htask, _⟩ | ⟨old, hold, _, rfl⟩
    · exact ⟨task, htask, rfl, rfl, rfl⟩
    · exact ⟨old, hold, rfl, rfl, rfl⟩
  refine ⟨hsets.mem, hsets.missions,
    fun identity hne => ⟨hsets.tasks_other hne, hattempts identity hne⟩,
    fun task htask => ?_, fun task htask => ?_, hsets.identities, hsets.events,
    hsets.contracts, hexclusive⟩
  · obtain ⟨htask, hmission⟩ := Db.mem_tasks_of.mp htask
    obtain ⟨old, hold, hlink, _, hcapability⟩ := horigin task htask
    obtain ⟨capability, hrequired, hcapabilities⟩ := h.contracts mission hsets.mem
    rw [← hcapability, hcapabilities old (Db.mem_tasks_of.mpr ⟨hold, hlink.trans hmission⟩)]
    exact hrequired
  · obtain ⟨old, hold, _, hworker, hcapability⟩ := horigin task htask
    rw [← hworker, ← hcapability]
    exact h.assigned old hold

/-- States set by one mission's change, with some of its attempts updated. -/
theorem set_states (h : Coherent db) (hkeys : Keyed db) {mission : MissionRow} {target : State}
    {more : List EventRow} (hsets : Sets db db' mission target more) {selected : AttemptRow → Bool}
    {change : AttemptRow → AttemptRow}
    (hattempts : db'.attempts = Rows.update db.attempts selected change)
    (hsteady : Steady db.attempts selected change)
    (hown : ∀ attempt ∈ db.attempts, selected attempt = true → attempt ∈ db.attempts_of mission.id)
    {task : TaskRow} (hunderway : (db.dossier mission).Underway task)
    (htarget : target ≠ .draft ∧ target ≠ .approved)
    (hactivity : Activity target (Rows.update (db.attempts_of mission.id) selected change)) :
    Coherent db' := by
  have hupdate : ∀ identity, db'.attempts_of identity =
      Rows.update (db.attempts_of identity) selected change := by
    intro identity
    rw [hsets.attempts_of, hattempts, Db.attempts_of]
    apply Rows.filter_update
    intro row
    rw [hsteady.task_id]
  refine h.moved hkeys (hsets.moves h (fun identity hne => ?_) ?_)
    (Or.inr ⟨{ task with state := target }, ?_⟩)
  · rw [hupdate]
    apply Rows.update_eq_self
    intro attempt hattempt
    by_contra hselected
    have hmem := (Db.mem_attempts_of.mp hattempt).1
    exact hne (Db.attempts_of_unique hkeys hattempt (hown attempt hmem (by simpa using hselected)))
  · rw [hattempts]
    exact hsteady.exclusive h
  · have htasks : db.tasks_of mission.id = [task] := hunderway.tasks
    have htask : task.mission_id = mission.id :=
      (Db.mem_tasks_of.mp (htasks ▸ List.mem_singleton_self task)).2
    refine ⟨htarget, ?_, rfl, ?_, ?_, ?_⟩
    · change db'.tasks_of mission.id = _
      rw [Db.tasks_of_set_state _ hsets.tasks, htasks]
      simp [Rows.update, htask]
    · change (db'.attempts_of mission.id).map (·.number) =
        List.range' 1 (db'.attempts_of mission.id).length
      rw [hupdate, Rows.update_map hsteady.number, Rows.update_length]
      exact hunderway.numbers
    · change ∀ attempt ∈ db'.attempts_of mission.id, attempt.worker_id = task.worker_id
      rw [hupdate]
      intro attempt hattempt
      rcases Rows.mem_update.mp hattempt with ⟨hattempt, _⟩ | ⟨old, hold, _, rfl⟩
      · exact hunderway.workers attempt hattempt
      · rw [hsteady.worker_id]
        exact hunderway.workers old hold
    · change Activity target (db'.attempts_of mission.id)
      rw [hupdate]
      exact hactivity

/-- Changes that leave missions, tasks and attempts alone. -/
theorem still (h : Coherent db) {more : List EventRow} (hmissions : db'.missions = db.missions)
    (htasks : db'.tasks = db.tasks) (hattempts : db'.attempts = db.attempts)
    (hevents : db'.events = db.events ++ more)
    (hmore : ∀ event ∈ more, event.type ≠ .mission_execution_contract_v1)
    (hkept : ∀ worker ∈ db.worker_identities, ∃ kept ∈ db'.worker_identities,
      kept.id = worker.id ∧ kept.capabilities = worker.capabilities)
    (hsingle : ∀ worker ∈ db'.worker_identities, ∃ capability, worker.capabilities = [capability]) :
    Coherent db' := by
  have htasks_of : ∀ identity, db'.tasks_of identity = db.tasks_of identity := fun identity => by
    rw [Db.tasks_of, Db.tasks_of, htasks]
  have hdossier : ∀ mission, db'.dossier mission = db.dossier mission := fun mission => by
    rw [Db.dossier, Db.dossier, Db.attempts_of, Db.attempts_of, htasks_of, hattempts]
  refine ⟨fun mission hmission => ?_, fun mission hmission => ?_, fun task htask => ?_, ?_, hsingle⟩
  · rw [hdossier]
    exact h.dossiers mission (hmissions ▸ hmission)
  · rw [htasks_of, required_capability_append hevents fun event hevent _ => hmore event hevent]
    exact h.contracts mission (hmissions ▸ hmission)
  · obtain ⟨worker, hworker, hid, hcapabilities⟩ := h.assigned task (htasks ▸ htask)
    obtain ⟨kept, hkeptMem, hkeptId, hkeptCapabilities⟩ := hkept worker hworker
    exact ⟨kept, hkeptMem, hkeptId.trans hid, hkeptCapabilities.trans hcapabilities⟩
  · rw [hattempts]
    exact h.exclusive

/-- Identities may change their status, epoch and credential. -/
theorem still_updated (h : Coherent db) {more : List EventRow} {selected : IdentityRow → Bool}
    {change : IdentityRow → IdentityRow}
    (hidentities : db'.worker_identities = Rows.update db.worker_identities selected change)
    (hchange : ∀ row, (change row).id = row.id ∧ (change row).capabilities = row.capabilities)
    (hmissions : db'.missions = db.missions) (htasks : db'.tasks = db.tasks)
    (hattempts : db'.attempts = db.attempts) (hevents : db'.events = db.events ++ more)
    (hmore : ∀ event ∈ more, event.type ≠ .mission_execution_contract_v1) : Coherent db' := by
  refine h.still hmissions htasks hattempts hevents hmore (fun worker hworker => ?_)
    fun worker hworker => ?_
  · rw [hidentities]
    cases hselected : selected worker with
    | true =>
      exact ⟨_, Rows.mem_update.mpr (Or.inr ⟨worker, hworker, hselected, rfl⟩), hchange worker⟩
    | false => exact ⟨worker, Rows.mem_update.mpr (Or.inl ⟨hworker, hselected⟩), rfl, rfl⟩
  · rw [hidentities] at hworker
    rcases Rows.mem_update.mp hworker with ⟨hworker, _⟩ | ⟨old, hold, _, rfl⟩
    · exact h.single worker hworker
    · rw [(hchange old).2]
      exact h.single old hold

theorem underway_of_state (h : Coherent db) {mission : MissionRow}
    (hmission : mission ∈ db.missions) (hdraft : mission.state ≠ .draft)
    (hcancelled : mission.state ≠ .cancelled) :
    ∃ task, (db.dossier mission).Underway task := by
  rcases h.dossiers mission hmission with hunplanned | hunderway
  · rcases hunplanned.state with hstate | hstate
    · exact absurd hstate hdraft
    · exact absurd hstate hcancelled
  · exact hunderway

/-- The mission of an attempt is under way, in the state of an active attempt. -/
theorem underway_of_attempt (h : Coherent db) {mission : MissionRow}
    (hmission : mission ∈ db.missions) {attempt : AttemptRow}
    (hattempt : attempt ∈ db.attempts_of mission.id) :
    ∃ task, (db.dossier mission).Underway task := by
  rcases h.dossiers mission hmission with hunplanned | hunderway
  · have hnone : db.attempts_of mission.id = [] := hunplanned.attempts
    rw [hnone] at hattempt
    cases hattempt
  · exact hunderway

/-- An active attempt ends, and its task and mission with it. -/
theorem ended (h : Coherent db) (hkeys : Keyed db) {attempt : AttemptRow} {task : TaskRow}
    {mission : MissionRow} {target : State} {more : List EventRow}
    {change : AttemptRow → AttemptRow} (hattempt : attempt ∈ db.attempts)
    (hactive : attempt.state.active = true) (htask : task ∈ db.tasks)
    (hlink : task.id = attempt.task_id) (hmission : mission ∈ db.missions)
    (howner : mission.id = task.mission_id)
    (hmissions : db'.missions = Rows.update db.missions (fun row => row.id = mission.id) fun row =>
      { row with state := target })
    (htasks : db'.tasks = Rows.update db.tasks (fun row => row.id = attempt.task_id) fun row =>
      { row with state := target })
    (hattempts : db'.attempts = Rows.update db.attempts (fun row => row.id = attempt.id) change)
    (hchange : ∀ row, (change row).id = row.id ∧ (change row).task_id = row.task_id ∧
      (change row).number = row.number ∧ (change row).worker_id = row.worker_id ∧
      (change row).state = target)
    (hfinal : target ∈ [State.completed, .failed, .interrupted, .cancelled])
    (hidentities : db'.worker_identities = db.worker_identities)
      (hevents : db'.events = db.events ++ more)
    (hmore : ∀ event ∈ more, event.type ≠ .mission_execution_contract_v1) : Coherent db' := by
  have hinactive : target.active = false := by
    simp only [List.mem_cons, List.not_mem_nil, or_false] at hfinal
    rcases hfinal with rfl | rfl | rfl | rfl <;> rfl
  have hopen : target ≠ .draft ∧ target ≠ .approved := by
    simp only [List.mem_cons, List.not_mem_nil, or_false] at hfinal
    rcases hfinal with rfl | rfl | rfl | rfl <;> decide
  have hown : attempt ∈ db.attempts_of mission.id :=
    Db.mem_attempts_of.mpr ⟨hattempt, task, htask, howner.symm, hlink⟩
  obtain ⟨planned, hunderway⟩ := h.underway_of_attempt hmission hown
  rw [← hlink, Db.update_task_eq hkeys htask, ← howner] at htasks
  refine h.set_states hkeys ⟨hmission, hmissions, htasks, hidentities, hevents, hmore⟩ hattempts
    ⟨fun row => (hchange row).1, fun row => (hchange row).2.1, fun row => (hchange row).2.2.1,
      fun row => (hchange row).2.2.2.1, fun row _ _ hrow => ?_⟩
    (fun row hrow hselected => ?_) hunderway hopen
    (hunderway.activity.stop hown hactive (fun row => (hchange row).2.2.2.2) hinactive)
  · rw [(hchange row).2.2.2.2, hinactive] at hrow
    cases hrow
  · rwa [Rows.eq_of_key hkeys.attempts hrow hattempt (by simpa using hselected)]

end Coherent

theorem StateEvent.plain {mission : MissionRow} {target : State} {event : EventRow}
    (h : StateEvent mission target event) : event.type ≠ .mission_execution_contract_v1 := by
  simp [h.type]

theorem NoteEvent.plain {mission_id : Option String} {workspace_id : String} {type : EventType}
    {details : List (String × String)} {event : EventRow}
    (h : NoteEvent mission_id workspace_id type details event)
    (htype : type ≠ .mission_execution_contract_v1) :
    event.type ≠ .mission_execution_contract_v1 := by
  rwa [h.type]

namespace Change

variable {settings : Settings} {held : String → Option Bytes} {db db' : Db}

theorem cancelled_activity {state : State} {attempts : List AttemptRow}
    {selected : AttemptRow → Bool} (h : Activity state attempts)
    (hwaiting : state ≠ .cancel_requested)
    (hselected : ∀ attempt ∈ attempts, selected attempt = decide (attempt.state = .running)) :
    Activity (ExecutionManager.cancel_target state) (Rows.update attempts selected fun attempt =>
      { attempt with state := ExecutionManager.cancel_target state }) := by
  rcases h with ⟨hstate, hidle⟩ | ⟨hstate, earlier, last, rfl, hlast, hearlier⟩
  · have hnot : state ≠ .running := by
      rintro rfl
      cases hstate
    rw [Rows.update_eq_self fun attempt hattempt => ?_, ExecutionManager.cancel_target, if_neg hnot]
    · exact Or.inl ⟨rfl, hidle⟩
    · rw [hselected attempt hattempt, decide_eq_false_iff_not]
      intro hrunning
      have hcontra := hidle attempt hattempt
      rw [hrunning] at hcontra
      cases hcontra
  · have hrunning : state = .running := by
      rcases State.active_iff.mp hstate with hrunning | hrequested
      · exact hrunning
      · exact absurd hrequested hwaiting
    subst hrunning
    refine Or.inr ⟨rfl, earlier, { last with state := .cancel_requested }, ?_, rfl, hearlier⟩
    have hlastSelected : selected last = true := by
      rw [hselected last (by simp), hlast]
      rfl
    rw [Rows.update_append, Rows.update_eq_self fun attempt hattempt => ?_]
    · simp [Rows.update, hlastSelected, ExecutionManager.cancel_target]
    · rw [hselected attempt (by simp [hattempt]), decide_eq_false_iff_not]
      intro hrunning
      have hcontra := hearlier attempt hattempt
      rw [hrunning] at hcontra
      cases hcontra

theorem coherent_created (h : Coherent db) (hlinked : Linked db) {mission : MissionRow}
    {capability : Capability} {events : List EventRow}
    (hfresh : ∀ other ∈ db.missions, other.id ≠ mission.id) (hstate : mission.state = .draft)
    (hcreation : CreationEvents mission capability events) :
    Coherent { db with missions := db.missions ++ [mission], events := db.events ++ events } := by
  have hnew : mission.id ∉ db.missions.map (·.id) := by
    simpa using fun other hother => hfresh other hother
  have hnotasks : db.tasks_of mission.id = [] := by
    rw [Db.tasks_of, List.filter_eq_nil_iff]
    intro task htask hlink
    exact hnew (hlinked.tasks (by simpa [← of_decide_eq_true hlink] using ⟨task, htask, rfl⟩))
  have hcontract : ControlPlane.required_capability mission.id
      { db with missions := db.missions ++ [mission], events := db.events ++ events } =
        .ok capability := by
    have hnone : db.events.filter (fun event =>
        event.mission_id = some mission.id ∧ event.type = .mission_execution_contract_v1) = [] := by
      rw [List.filter_eq_nil_iff]
      intro event hevent hmatch
      have hmission : event.mission_id = some mission.id := (of_decide_eq_true hmatch).1
      exact hnew (hlinked.event_missions (List.mem_filterMap.mpr ⟨event, hevent, hmission⟩))
    obtain ⟨first, hfirst, hmore⟩ := hcreation
    unfold ControlPlane.required_capability
    rw [List.filter_append, hnone, List.nil_append]
    cases capability with
    | demo =>
      obtain rfl := hmore
      simp [hfirst.type]
    | cpu_digest =>
      obtain ⟨contract, rfl, hnote⟩ := hmore
      simp [hfirst.type, hnote.type, hnote.mission_id, hnote.details]
  have hsame : ∀ other ∈ db.missions, ControlPlane.required_capability other.id
      { db with missions := db.missions ++ [mission], events := db.events ++ events } =
        ControlPlane.required_capability other.id db := by
    intro other hother
    refine required_capability_append rfl fun event hevent hmission => ?_
    obtain ⟨first, hfirst, hmore⟩ := hcreation
    have hforeign : ∀ note : EventRow, note.mission_id = some mission.id →
        event = note → False := by
      rintro note hnote rfl
      exact hfresh other hother (Option.some.inj (hmission.symm.trans hnote))
    cases capability with
    | demo =>
      obtain rfl := hmore
      exact (hforeign first hfirst.mission_id (List.mem_singleton.mp hevent)).elim
    | cpu_digest =>
      obtain ⟨contract, rfl, hnote⟩ := hmore
      rcases List.mem_pair.mp hevent with heq | heq
      · exact (hforeign first hfirst.mission_id heq).elim
      · exact (hforeign contract hnote.mission_id heq).elim
  refine ⟨fun row hrow => ?_, fun row hrow => ?_, h.assigned, h.exclusive, h.single⟩
  · rcases List.mem_append.mp hrow with hrow | hrow
    · exact h.dossiers row hrow
    · obtain rfl := List.mem_singleton.mp hrow
      refine Or.inl ⟨Or.inl hstate, hnotasks, ?_⟩
      change db.attempts_of row.id = []
      simp [Db.attempts_of, hnotasks]
  · rcases List.mem_append.mp hrow with hrow | hrow
    · rw [hsame row hrow]
      exact h.contracts row hrow
    · obtain rfl := List.mem_singleton.mp hrow
      refine ⟨capability, hcontract, fun task htask => ?_⟩
      change task ∈ db.tasks_of row.id at htask
      rw [hnotasks] at htask
      cases htask

theorem coherent_approved (h : Coherent db) (hkeys : Keyed db) (hlinked : Linked db)
    {mission : MissionRow} {task : TaskRow} {approval queueing : EventRow}
    (hmission : mission ∈ db.missions) (hstate : mission.state = .draft)
    (htask : Planned db mission task) (happroval : StateEvent mission .approved approval)
    (hqueueing : StateEvent mission .queued queueing)
    (hmissions : db'.missions = Rows.update db.missions (fun row => row.id = mission.id) fun row =>
      { row with state := .queued })
    (htasks : db'.tasks = db.tasks ++ [task]) (hattempts : db'.attempts = db.attempts)
    (hidentities : db'.worker_identities = db.worker_identities)
    (hevents : db'.events = db.events ++ [approval, queueing]) : Coherent db' := by
  have hunplanned : (db.dossier mission).Unplanned := by
    rcases h.dossiers mission hmission with hunplanned | ⟨_, hunderway⟩
    · exact hunplanned
    · exact absurd hstate hunderway.state.1
  have hnotasks : db.tasks_of mission.id = [] := hunplanned.tasks
  have hself : db'.tasks_of mission.id = [task] := by
    rw [Db.tasks_of, htasks, List.filter_append, ← Db.tasks_of, hnotasks]
    simp [htask.mission_id]
  have hother : ∀ identity, identity ≠ mission.id →
      db'.tasks_of identity = db.tasks_of identity := by
    intro identity hne
    rw [Db.tasks_of, htasks, List.filter_append, ← Db.tasks_of]
    simp [htask.mission_id, Ne.symm hne]
  have hforeign : ∀ attempt ∈ db.attempts, task.id ≠ attempt.task_id := by
    intro attempt hattempt heq
    obtain ⟨other, hother, hid⟩ := List.mem_map.mp (hlinked.attempts (mem_ids hattempt))
    exact (htask.fresh other hother).1 (hid.trans heq.symm)
  have hnone : db'.attempts_of mission.id = [] := by
    rw [Db.attempts_of, hself, hattempts, List.filter_eq_nil_iff]
    intro attempt hattempt
    simpa using hforeign attempt hattempt
  refine h.moved hkeys
    ⟨hmission, hmissions, fun identity hne => ⟨hother identity hne, ?_⟩, fun row hrow => ?_,
      fun row hrow => ?_, hidentities, hevents, ?_, ?_⟩
    (Or.inr ⟨task, ?_, hself, htask.state, ?_, ?_, ?_⟩)
  · rw [Db.attempts_of, hother identity hne, hattempts, ← Db.attempts_of]
  · rw [hself, List.mem_singleton] at hrow
    rw [hrow]
    exact htask.capability
  · rw [htasks] at hrow
    rcases List.mem_append.mp hrow with hrow | hrow
    · exact h.assigned row hrow
    · obtain rfl := List.mem_singleton.mp hrow
      obtain ⟨worker, hworker, hid, hcapability⟩ := htask.worker
      obtain ⟨capability, hsingle⟩ := h.single worker hworker
      rw [hsingle, List.mem_singleton] at hcapability
      exact ⟨worker, hworker, hid, hcapability ▸ hsingle⟩
  · simpa using ⟨happroval.plain, hqueueing.plain⟩
  · rw [hattempts]
    exact h.exclusive
  · exact ⟨nofun, nofun⟩
  · change (db'.attempts_of mission.id).map (·.number) =
      List.range' 1 (db'.attempts_of mission.id).length
    rw [hnone]
    rfl
  · change ∀ attempt ∈ db'.attempts_of mission.id, attempt.worker_id = task.worker_id
    rw [hnone]
    exact List.forall_mem_nil _
  · change Activity .queued (db'.attempts_of mission.id)
    rw [hnone]
    exact Or.inl ⟨rfl, List.forall_mem_nil _⟩

theorem coherent_retried (h : Coherent db) (hkeys : Keyed db) {mission : MissionRow}
    {event : EventRow} (hmission : mission ∈ db.missions)
    (hstate : mission.state = .failed ∨ mission.state = .interrupted)
    (hevent : StateEvent mission .queued event)
    (hmissions : db'.missions = Rows.update db.missions (fun row => row.id = mission.id) fun row =>
      { row with state := .queued })
    (htasks : db'.tasks = Rows.update db.tasks (fun row => row.mission_id = mission.id) fun row =>
      { row with state := .queued })
    (hattempts : db'.attempts = db.attempts)
    (hidentities : db'.worker_identities = db.worker_identities)
    (hevents : db'.events = db.events ++ [event]) : Coherent db' := by
  have hopen : mission.state ≠ .draft ∧ mission.state ≠ .cancelled := by
    rcases hstate with hstate | hstate <;> rw [hstate] <;> exact ⟨nofun, nofun⟩
  have hinactive : mission.state.active = false := by
    rcases hstate with hstate | hstate <;> rw [hstate] <;> rfl
  obtain ⟨task, hunderway⟩ := h.underway_of_state hmission hopen.1 hopen.2
  have hnone : ∀ attempts : Rows AttemptRow, Rows.update attempts (fun _ => false) id = attempts :=
    fun _ => Rows.update_eq_self fun _ _ => rfl
  refine h.set_states hkeys
    ⟨hmission, hmissions, htasks, hidentities, hevents, by simpa using hevent.plain⟩
    (hattempts.trans (hnone _).symm)
    ⟨fun _ => rfl, fun _ => rfl, fun _ => rfl, fun _ => rfl, fun _ _ _ hactive => hactive⟩
    (fun _ _ hselected => nomatch hselected) hunderway ⟨nofun, nofun⟩ ?_
  rw [hnone]
  exact Or.inl ⟨rfl, hunderway.activity.idle hinactive⟩

theorem coherent_cancelled (h : Coherent db) (hkeys : Keyed db) {mission : MissionRow}
    {event : EventRow} (hmission : mission ∈ db.missions)
    (hwaiting : mission.state ≠ .cancel_requested)
    (hevent : StateEvent mission (ExecutionManager.cancel_target mission.state) event)
    (hmissions : db'.missions = Rows.update db.missions (fun row => row.id = mission.id) fun row =>
      { row with state := ExecutionManager.cancel_target mission.state })
    (htasks : db'.tasks = Rows.update db.tasks (fun row => row.mission_id = mission.id) fun row =>
      { row with state := ExecutionManager.cancel_target mission.state })
    (hattempts : db'.attempts = Rows.update db.attempts
      (fun attempt => ((db.tasks_of mission.id).any fun task => task.id = attempt.task_id) ∧
        attempt.state = .running)
      fun attempt => { attempt with state := ExecutionManager.cancel_target mission.state })
    (hidentities : db'.worker_identities = db.worker_identities)
    (hevents : db'.events = db.events ++ [event]) : Coherent db' := by
  have htarget : ExecutionManager.cancel_target mission.state ≠ .draft ∧
      ExecutionManager.cancel_target mission.state ≠ .approved := by
    unfold ExecutionManager.cancel_target
    split <;> exact ⟨nofun, nofun⟩
  have hsets :
      Coherent.Sets db db' mission (ExecutionManager.cancel_target mission.state) [event] :=
    ⟨hmission, hmissions, htasks, hidentities, hevents, by simpa using hevent.plain⟩
  have hany : ∀ attempt ∈ db.attempts_of mission.id,
      ((db.tasks_of mission.id).any fun task => task.id = attempt.task_id) = true := by
    intro attempt hattempt
    obtain ⟨_, task, htask, hlink, hid⟩ := Db.mem_attempts_of.mp hattempt
    exact List.any_eq_true.mpr ⟨task, Db.mem_tasks_of.mpr ⟨htask, hlink⟩, by simpa using hid⟩
  have hsteady : Coherent.Steady db.attempts
      (fun attempt => ((db.tasks_of mission.id).any fun task => task.id = attempt.task_id) ∧
        attempt.state = .running)
      fun attempt => { attempt with state := ExecutionManager.cancel_target mission.state } := by
    refine ⟨fun _ => rfl, fun _ => rfl, fun _ => rfl, fun _ => rfl, fun row _ hselected _ => ?_⟩
    rw [(of_decide_eq_true hselected).2]
    rfl
  have hown : ∀ attempt ∈ db.attempts, decide (((db.tasks_of mission.id).any fun task =>
      task.id = attempt.task_id) = true ∧ attempt.state = .running) = true →
        attempt ∈ db.attempts_of mission.id := by
    intro attempt hattempt hselected
    obtain ⟨task, htask, hid⟩ := List.any_eq_true.mp (of_decide_eq_true hselected).1
    obtain ⟨hmem, hlink⟩ := Db.mem_tasks_of.mp htask
    exact Db.mem_attempts_of.mpr ⟨hattempt, task, hmem, hlink, by simpa using hid⟩
  rcases h.dossiers mission hmission with hunplanned | ⟨task, hunderway⟩
  · have hnoattempts : db.attempts_of mission.id = [] := hunplanned.attempts
    have hnotrunning : mission.state ≠ .running := by
      rcases hunplanned.state with hstate | hstate
      · change mission.state = .draft at hstate
        rw [hstate]
        nofun
      · change mission.state = .cancelled at hstate
        rw [hstate]
        nofun
    have hsame : db'.attempts = db.attempts := by
      rw [hattempts]
      apply Rows.update_eq_self
      intro attempt hattempt
      by_contra hselected
      have hmem := hown attempt hattempt (Bool.of_not_eq_false hselected)
      rw [hnoattempts] at hmem
      cases hmem
    refine h.moved hkeys (hsets.moves h (fun identity hne => ?_) ?_) (Or.inl ⟨Or.inr ?_, ?_, ?_⟩)
    · rw [hsets.attempts_of, hsame, ← Db.attempts_of]
    · rw [hsame]
      exact h.exclusive
    · exact if_neg hnotrunning
    · change db'.tasks_of mission.id = []
      rw [Db.tasks_of_set_state _ htasks, show db.tasks_of mission.id = [] from hunplanned.tasks]
      rfl
    · change db'.attempts_of mission.id = []
      rw [hsets.attempts_of, hsame, ← Db.attempts_of, hnoattempts]
  · refine h.set_states hkeys hsets hattempts hsteady hown hunderway htarget ?_
    apply cancelled_activity hunderway.activity hwaiting
    intro attempt hattempt
    simp [hany attempt hattempt]

theorem coherent_claimed (h : Coherent db) (hkeys : Keyed db) {worker : IdentityRow}
    {mission : MissionRow} {task : TaskRow} {attempt : AttemptRow} {event started : EventRow}
    (hmission : mission ∈ db.missions) (htask : task ∈ db.tasks) (hstate : mission.state = .queued)
    (hlink : task.mission_id = mission.id) (hassigned : task.worker_id = worker.id)
    (hfree : ∀ other ∈ db.attempts, other.worker_id = worker.id → other.state.active = false)
    (hattempt : Started db worker mission task attempt) (hevent : StateEvent mission .running event)
    (hstarted : NoteEvent (some mission.id) mission.workspace_id .attempt_started
      [("attempt_id", attempt.id), ("task_id", task.id), ("worker_id", worker.id)] started)
    (hmissions : db'.missions = Rows.update db.missions (fun row => row.id = mission.id) fun row =>
      { row with state := .running })
    (htasks : db'.tasks = Rows.update db.tasks (fun row => row.id = task.id) fun row =>
      { row with state := .running })
    (hattempts : db'.attempts = db.attempts ++ [attempt])
    (hidentities : db'.worker_identities = db.worker_identities)
    (hevents : db'.events = db.events ++ [event, started]) : Coherent db' := by
  have hdraft : mission.state ≠ .draft := by rw [hstate]; nofun
  have hcancelled : mission.state ≠ .cancelled := by rw [hstate]; nofun
  obtain ⟨planned, hunderway⟩ := h.underway_of_state hmission hdraft hcancelled
  have hplanned : db.tasks_of mission.id = [planned] := hunderway.tasks
  have hsame : task = planned := by
    have hmem : task ∈ db.tasks_of mission.id := Db.mem_tasks_of.mpr ⟨htask, hlink⟩
    rwa [hplanned, List.mem_singleton] at hmem
  subst hsame
  have hsets : Coherent.Sets db db' mission .running [event, started] := by
    rw [Db.update_task_eq hkeys htask, hlink] at htasks
    exact ⟨hmission, hmissions, htasks, hidentities, hevents, by simpa using
      ⟨hevent.plain, hstarted.plain nofun⟩⟩
  have hnumber : attempt.number = (db.attempts_of mission.id).length + 1 := by
    have hfilter : db.attempts.filter (fun other => other.task_id = task.id) =
        db.attempts_of mission.id := by
      rw [Db.attempts_of, hplanned]
      simp [eq_comm]
    rw [hattempt.number, Db.next_attempt, hfilter]
    have hmax : (db.attempts_of mission.id).foldr (fun attempt best => max attempt.number best) 0 =
        ((db.attempts_of mission.id).map (·.number)).foldr max 0 := by
      rw [List.foldr_map]
    have hnumbers : (db.attempts_of mission.id).map (·.number) =
        List.range' 1 (db.attempts_of mission.id).length := hunderway.numbers
    rw [hmax, hnumbers, foldr_max_range']
  have hidle : ∀ other ∈ db.attempts_of mission.id, other.state.active = false :=
    hunderway.activity.idle (by change mission.state.active = false; rw [hstate]; rfl)
  have hself : db'.attempts_of mission.id = db.attempts_of mission.id ++ [attempt] := by
    rw [hsets.attempts_of, hattempts, List.filter_append, ← Db.attempts_of, hplanned]
    simp [hattempt.task_id]
  refine h.moved hkeys (hsets.moves h (fun identity hne => ?_) ?_)
    (Or.inr ⟨{ task with state := .running }, ⟨nofun, nofun⟩, ?_, rfl, ?_, ?_, ?_⟩)
  · rw [hsets.attempts_of, hattempts, List.filter_append, ← Db.attempts_of]
    have hforeign : ∀ row ∈ db.tasks_of identity, row.id ≠ attempt.task_id := by
      intro row hrow heq
      obtain ⟨hmem, hid⟩ := Db.mem_tasks_of.mp hrow
      rw [Rows.eq_of_key hkeys.tasks hmem htask (heq.trans hattempt.task_id)] at hid
      exact hne (hid.symm.trans hlink)
    simpa using hforeign
  · rw [hattempts]
    intro first hfirst second hsecond hactive hactive' hworker
    rcases List.mem_append.mp hfirst with hfirst | hfirst <;>
      rcases List.mem_append.mp hsecond with hsecond | hsecond
    · exact h.exclusive first hfirst second hsecond hactive hactive' hworker
    · rw [List.mem_singleton.mp hsecond, hattempt.worker_id] at hworker
      rw [hfree first hfirst hworker] at hactive
      cases hactive
    · rw [List.mem_singleton.mp hfirst, hattempt.worker_id] at hworker
      rw [hfree second hsecond hworker.symm] at hactive'
      cases hactive'
    · rw [List.mem_singleton.mp hfirst, List.mem_singleton.mp hsecond]
  · change db'.tasks_of mission.id = _
    rw [Db.tasks_of_set_state _ hsets.tasks, hplanned]
    simp [Rows.update, hlink]
  · change (db'.attempts_of mission.id).map (·.number) =
      List.range' 1 (db'.attempts_of mission.id).length
    have hnumbers : (db.attempts_of mission.id).map (·.number) =
        List.range' 1 (db.attempts_of mission.id).length := hunderway.numbers
    rw [hself, List.map_append, hnumbers, List.length_append, List.length_singleton,
      List.range'_concat]
    simp [hnumber, Nat.add_comm]
  · change ∀ other ∈ db'.attempts_of mission.id, other.worker_id = task.worker_id
    rw [hself]
    intro other hother
    rcases List.mem_append.mp hother with hother | hother
    · exact hunderway.workers other hother
    · rw [List.mem_singleton.mp hother, hattempt.worker_id, hassigned]
  · change Activity .running (db'.attempts_of mission.id)
    exact Or.inr ⟨rfl, _, attempt, hself, hattempt.state, hidle⟩

theorem coherent (h : Change settings held db db') (hkeys : Keyed db) (hlinked : Linked db)
    (hcoherent : Coherent db) : Coherent db' := by
  cases h with
  | created mission capability events hfresh hid hworkspace hstate htext hfiles hevents hlogged =>
    exact coherent_created hcoherent hlinked hfresh hstate hevents
  | approved mission task approval queueing hmission hstate htask happroval hqueueing hlogged =>
    exact coherent_approved hcoherent hkeys hlinked hmission hstate htask happroval hqueueing
      rfl rfl rfl rfl rfl
  | cancelled mission event hmission hallowed hwaiting hevent hlogged =>
    exact coherent_cancelled hcoherent hkeys hmission hwaiting hevent rfl rfl rfl rfl rfl
  | retried mission event hmission hstate hevent hlogged =>
    exact coherent_retried hcoherent hkeys hmission hstate hevent rfl rfl rfl rfl rfl
  | claimed _ worker mission task attempt hclaim =>
    obtain ⟨event, started, hworker, hactive, hmission, htask, hstate, hqueued, hlink, hassigned,
      hfree, hattempt, hevent, hstarted, hlogged⟩ := hclaim
    exact coherent_claimed hcoherent hkeys hmission htask hstate hlink hassigned hfree
      hattempt hevent hstarted
      rfl rfl rfl rfl rfl
  | fenced _ reason attempt hfence =>
    obtain ⟨task, mission, event, hattempt, hactive, htask, hlink, hmission, howner, hallowed,
      hevent, hlogged⟩ :=
      hfence
    exact hcoherent.ended hkeys hattempt hactive htask hlink hmission howner rfl rfl rfl
      (fun _ => ⟨rfl, rfl, rfl, rfl, rfl⟩) (by decide) rfl rfl (by simpa using hevent.plain)
  | settled _ worker attempt task mission content_hash status error_code hsettle =>
    cases hsettle with
    | ended _ _ _ event hsettling hopen hevent hlogged =>
      exact hcoherent.ended hkeys hsettling.claimed.1 hsettling.active hsettling.of_task.1
        hsettling.of_task.2 hsettling.of_mission.1 hsettling.of_mission.2 rfl rfl rfl
          (fun _ => ⟨rfl, rfl, rfl, rfl, rfl⟩)
        hsettling.final rfl rfl (by simpa using hevent.plain)
    | completed _ publication result event hsettling hpublished hfresh hid hresult hevent hlogged =>
      exact hcoherent.ended hkeys hsettling.claimed.1 hsettling.active hsettling.of_task.1
        hsettling.of_task.2 hsettling.of_mission.1 hsettling.of_mission.2 rfl rfl rfl
          (fun _ => ⟨rfl, rfl, rfl, rfl, rfl⟩)
        (by decide) rfl rfl (by simpa using ⟨hpublished.event.plain nofun, hevent.plain⟩)
  | uploaded workspace_id name expected publication hpublished hlogged =>
    exact hcoherent.still rfl rfl rfl rfl (by simpa using hpublished.event.plain nofun)
      (fun worker hworker => ⟨worker, hworker, rfl, rfl⟩) hcoherent.single
  | enrolled worker workspace_id event hfresh hid hcapability hlimits hepoch hworkspace
      hevent hlogged =>
    refine hcoherent.still rfl rfl rfl rfl (by simpa using hevent.plain nofun)
      (fun other hother => ⟨other, List.mem_append_left _ hother, rfl, rfl⟩) fun other hother => ?_
    rcases List.mem_append.mp hother with hother | hother
    · exact hcoherent.single other hother
    · rw [List.mem_singleton.mp hother]
      exact hcapability
  | rotated worker digest updated_at reason workspace_id event hworker hworkspace hevent hlogged =>
    exact hcoherent.still_updated rfl (fun _ => ⟨rfl, rfl⟩) rfl rfl rfl rfl
      (by simpa using hevent.plain nofun)
  | revoked worker updated_at hworker hactive =>
    exact hcoherent.still_updated rfl (fun _ => ⟨rfl, rfl⟩) rfl rfl rfl (List.append_nil _).symm
      (List.forall_mem_nil _)
  | noted worker workspace_id event hworkspace hevent hlogged =>
    exact hcoherent.still rfl rfl rfl rfl (by simpa using hevent.plain nofun)
      (fun worker hworker => ⟨worker, hworker, rfl, rfl⟩) hcoherent.single
  | recorded operation hfresh =>
    exact hcoherent.still rfl rfl rfl (List.append_nil _).symm (List.forall_mem_nil _)
      (fun worker hworker => ⟨worker, hworker, rfl, rfl⟩) hcoherent.single

end Change

end control_plane
