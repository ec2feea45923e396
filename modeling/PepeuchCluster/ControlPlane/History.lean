import PepeuchCluster.ControlPlane.Runs

namespace control_plane

/-- A mission apart from its state. -/
def MissionRow.fixed (row : MissionRow) : MissionRow := { row with state := .draft }

/-- A task apart from its state. -/
def TaskRow.fixed (row : TaskRow) : TaskRow := { row with state := .draft }

/-- An attempt apart from its outcome. -/
def AttemptRow.fixed (row : AttemptRow) : AttemptRow :=
  { row with state := .draft, result_sha256 := none, error_code := none }

/-- An identity apart from its credential. -/
def IdentityRow.fixed (row : IdentityRow) : IdentityRow :=
  { row with status := .active, credential_sha256 := "", credential_epoch := 0, updated_at := "" }

/-- What a later state of the index keeps of an earlier one. -/
structure Extends (db db' : Db) : Prop where
  workspaces : db'.workspaces = db.workspaces
  missions : db.missions.map MissionRow.fixed <+: db'.missions.map MissionRow.fixed
  closed : ∀ mission ∈ db.missions, TRANSITIONS mission.state = [] → mission ∈ db'.missions
  tasks : db.tasks.map TaskRow.fixed <+: db'.tasks.map TaskRow.fixed
  attempts : db.attempts.map AttemptRow.fixed <+: db'.attempts.map AttemptRow.fixed
  ended : ∀ attempt ∈ db.attempts, attempt.state.active = false → attempt ∈ db'.attempts
  files : db.files <+: db'.files
  versions : db.versions <+: db'.versions
  results : db.results <+: db'.results
  events : db.events <+: db'.events
  operations : db.operations <+: db'.operations
  epochs : db.attempt_worker_epochs <+: db'.attempt_worker_epochs
  identities : db.worker_identities.map IdentityRow.fixed <+:
    db'.worker_identities.map IdentityRow.fixed
  credentials : ∀ worker ∈ db.worker_identities, ∃ later ∈ db'.worker_identities,
    later.id = worker.id ∧ (later = worker ∨ worker.credential_epoch < later.credential_epoch)

namespace Extends

variable {db db' db'' : Db}

theorem refl (db : Db) : Extends db db where
  workspaces := rfl
  missions := List.prefix_rfl
  closed _ hmission _ := hmission
  tasks := List.prefix_rfl
  attempts := List.prefix_rfl
  ended _ hattempt _ := hattempt
  files := List.prefix_rfl
  versions := List.prefix_rfl
  results := List.prefix_rfl
  events := List.prefix_rfl
  operations := List.prefix_rfl
  epochs := List.prefix_rfl
  identities := List.prefix_rfl
  credentials worker hworker := ⟨worker, hworker, rfl, .inl rfl⟩

theorem trans (h : Extends db db') (h' : Extends db' db'') : Extends db db'' where
  workspaces := h'.workspaces.trans h.workspaces
  missions := h.missions.trans h'.missions
  closed mission hmission hstate := h'.closed mission (h.closed mission hmission hstate) hstate
  tasks := h.tasks.trans h'.tasks
  attempts := h.attempts.trans h'.attempts
  ended attempt hattempt hstate := h'.ended attempt (h.ended attempt hattempt hstate) hstate
  files := h.files.trans h'.files
  versions := h.versions.trans h'.versions
  results := h.results.trans h'.results
  events := h.events.trans h'.events
  operations := h.operations.trans h'.operations
  epochs := h.epochs.trans h'.epochs
  identities := h.identities.trans h'.identities
  credentials worker hworker := by
    obtain ⟨next, hnext, hid, hepoch⟩ := h.credentials worker hworker
    obtain ⟨last, hlast, hid', hepoch'⟩ := h'.credentials next hnext
    refine ⟨last, hlast, hid'.trans hid, ?_⟩
    rcases hepoch with rfl | hepoch
    · exact hepoch'
    · rcases hepoch' with rfl | hepoch'
      · exact .inr hepoch
      · exact .inr (hepoch.trans hepoch')

end Extends

section Updates

variable {α β κ : Type} [DecidableEq κ] {rows : Rows α} {selected : α → Bool} {change : α → α}

theorem prefix_update {column : α → β} (h : ∀ row, column (change row) = column row) :
    rows.map column <+: (Rows.update rows selected change).map column := by
  rw [Rows.update_map h]

/-- A row that is not the updated one stays. -/
theorem mem_update_of_ne {key : α → κ} (hkeys : (rows.map key).Nodup) {updated row : α}
    (hupdated : updated ∈ rows) (hrow : row ∈ rows) (hne : row ≠ updated) :
    row ∈ Rows.update rows (fun other => key other = key updated) change :=
  Rows.mem_update.mpr
    (.inl ⟨hrow, decide_eq_false fun hkey => hne (Rows.eq_of_key hkeys hrow hupdated hkey)⟩)

end Updates

namespace Change

variable {settings : Settings} {held : String → Option Bytes} {db db' : Db}

/-- A mission that moves had a transition left. -/
theorem closed_update {mission : MissionRow} (target : State) (hkeys : Keyed db)
    (hmission : mission ∈ db.missions) (hallowed : target ∈ TRANSITIONS mission.state)
    {change : MissionRow → MissionRow} :
    ∀ other ∈ db.missions, TRANSITIONS other.state = [] →
      other ∈ Rows.update db.missions (fun row => row.id = mission.id) change := by
  intro other hother hclosed
  refine mem_update_of_ne hkeys.missions hmission hother ?_
  rintro rfl
  rw [hclosed] at hallowed
  exact List.not_mem_nil hallowed

theorem ended_update {attempt : AttemptRow} (hkeys : Keyed db) (hattempt : attempt ∈ db.attempts)
    (hactive : attempt.state.active = true) {change : AttemptRow → AttemptRow} :
    ∀ other ∈ db.attempts, other.state.active = false →
      other ∈ Rows.update db.attempts (fun row => row.id = attempt.id) change := by
  intro other hother hended
  refine mem_update_of_ne hkeys.attempts hattempt hother ?_
  rintro rfl
  rw [hactive] at hended
  cases hended

theorem credentials_update {worker : IdentityRow} (hkeys : Keyed db)
    (hworker : worker ∈ db.worker_identities) {change : IdentityRow → IdentityRow}
    (hid : (change worker).id = worker.id)
    (hepoch : (change worker).credential_epoch = worker.credential_epoch + 1) :
    ∀ other ∈ db.worker_identities,
      ∃ later ∈ Rows.update db.worker_identities (fun row => row.id = worker.id) change,
      later.id = other.id ∧ (later = other ∨ other.credential_epoch < later.credential_epoch) := by
  intro other hother
  by_cases hsame : other = worker
  · subst hsame
    refine ⟨change other, Rows.mem_update.mpr (.inr ⟨other, hother, by simp, rfl⟩), hid, .inr ?_⟩
    rw [hepoch]
    exact Nat.lt_succ_self _
  · exact ⟨other, mem_update_of_ne hkeys.identities hworker hother hsame, rfl, .inl rfl⟩

/-- Every change keeps the history. -/
theorem extends_of_sane (h : Change settings held db db') (hsane : Sane db) : Extends db db' := by
  have hkeys := hsane.keyed
  cases h with
  | created mission capability events =>
    exact { Extends.refl db with
      missions := by rw [List.map_append]; exact List.prefix_append _ _
      closed := fun other hother _ => List.mem_append_left _ hother
      events := List.prefix_append _ _ }
  | approved mission task approval queueing hmission hstate =>
    exact { Extends.refl db with
      missions := prefix_update fun _ => rfl
      closed := closed_update .approved hkeys hmission (by rw [hstate]; decide)
      tasks := by rw [List.map_append]; exact List.prefix_append _ _
      events := List.prefix_append _ _ }
  | cancelled mission event hmission hallowed =>
    exact { Extends.refl db with
      missions := prefix_update fun _ => rfl
      closed := closed_update _ hkeys hmission hallowed
      tasks := prefix_update fun _ => rfl
      attempts := prefix_update fun _ => rfl
      ended := fun attempt hattempt hended => by
        refine Rows.mem_update.mpr (.inl ⟨hattempt, decide_eq_false fun hselected => ?_⟩)
        rw [hselected.2] at hended
        cases hended
      events := List.prefix_append _ _ }
  | retried mission event hmission hstate =>
    exact { Extends.refl db with
      missions := prefix_update fun _ => rfl
      closed := closed_update .queued hkeys hmission (by
        rcases hstate with hstate | hstate <;> (rw [hstate]; decide))
      tasks := prefix_update fun _ => rfl
      events := List.prefix_append _ _ }
  | claimed _ worker mission task attempt hclaim =>
    obtain ⟨event, started, hworker, hactive, hmission, htask, hstate⟩ := hclaim
    exact { Extends.refl db with
      missions := prefix_update fun _ => rfl
      closed := closed_update .running hkeys hmission (by rw [hstate]; decide)
      tasks := prefix_update fun _ => rfl
      attempts := by rw [List.map_append]; exact List.prefix_append _ _
      ended := fun other hother _ => List.mem_append_left _ hother
      epochs := List.prefix_append _ _
      events := List.prefix_append _ _ }
  | fenced _ reason attempt hfence =>
    obtain ⟨task, mission, event, hattempt, hactive, htask, hlink, hmission, howner, hallowed⟩ :=
      hfence
    exact { Extends.refl db with
      missions := prefix_update fun _ => rfl
      closed := closed_update _ hkeys hmission hallowed
      tasks := prefix_update fun _ => rfl
      attempts := prefix_update fun _ => rfl
      ended := ended_update hkeys hattempt hactive
      events := List.prefix_append _ _ }
  | settled _ worker attempt task mission content_hash status error_code hsettle =>
    cases hsettle with
    | ended _ _ _ event hsettling =>
      exact { Extends.refl db with
        missions := prefix_update fun _ => rfl
        closed := closed_update _ hkeys hsettling.of_mission.1 hsettling.allowed
        tasks := prefix_update fun _ => rfl
        attempts := prefix_update fun _ => rfl
        ended := ended_update hkeys hsettling.claimed.1 hsettling.active
        events := List.prefix_append _ _ }
    | completed _ publication result event hsettling =>
      exact { Extends.refl db with
        missions := prefix_update fun _ => rfl
        closed := closed_update _ hkeys hsettling.of_mission.1 hsettling.allowed
        tasks := prefix_update fun _ => rfl
        attempts := prefix_update fun _ => rfl
        ended := ended_update hkeys hsettling.claimed.1 hsettling.active
        files := List.prefix_append _ _
        versions := List.prefix_append _ _
        results := List.prefix_append _ _
        events := List.prefix_append _ _ }
  | uploaded =>
    exact { Extends.refl db with
      files := List.prefix_append _ _
      versions := List.prefix_append _ _
      events := List.prefix_append _ _ }
  | enrolled worker =>
    exact { Extends.refl db with
      identities := by rw [List.map_append]; exact List.prefix_append _ _
      credentials := fun other hother => ⟨other, List.mem_append_left _ hother, rfl, .inl rfl⟩
      events := List.prefix_append _ _ }
  | rotated worker digest updated_at reason workspace_id event hworker =>
    exact { Extends.refl db with
      identities := prefix_update fun _ => rfl
      credentials := credentials_update hkeys hworker rfl rfl
      events := List.prefix_append _ _ }
  | revoked worker updated_at hworker =>
    exact { Extends.refl db with
      identities := prefix_update fun _ => rfl
      credentials := credentials_update hkeys hworker rfl rfl }
  | noted =>
    exact { Extends.refl db with events := List.prefix_append _ _ }
  | recorded =>
    exact { Extends.refl db with operations := List.prefix_append _ _ }

end Change

/-- Along a run that starts in a sane state, what is kept adds up. -/
def Grows (db db' : Db) : Prop := Sane db → Sane db' ∧ Extends db db'

namespace Grows

variable {settings : Settings} {held : String → Option Bytes} {db db' db'' : Db} {commits : List Db}

theorem refl (db : Db) : Grows db db := fun hsane => ⟨hsane, Extends.refl db⟩

theorem trans (h : Grows db db') (h' : Grows db' db'') : Grows db db'' := fun hsane => by
  obtain ⟨hsane', hextends⟩ := h hsane
  obtain ⟨hsane'', hextends'⟩ := h' hsane'
  exact ⟨hsane'', hextends.trans hextends'⟩

theorem of_change (h : Change settings held db db') : Grows db db' :=
  fun hsane => ⟨h.sane hsane, h.extends_of_sane hsane⟩

theorem of_changes (h : Changes settings held db db') : Grows db db' := by
  induction h with
  | refl => exact Grows.refl db
  | tail _ hchange ih => exact ih.trans (of_change hchange)

end Grows

theorem Progress.extends_of_sane {settings : Settings} {before later : Installation}
    (h : Progress settings before later) (hsane : Sane before.db) : Extends before.db later.db := by
  obtain ⟨commits, _, htrail⟩ := h.trail
  exact (Grows.of_changes htrail.changes hsane).2

namespace ControlPlane

variable (service : ControlPlane) (boot : Boot) (calls : List Call)

theorem committed_extends : (service.after boot calls).commits.Pairwise Extends := by
  have hgrows := after_pairwise service boot calls Grows.refl Grows.trans Grows.of_change
  refine hgrows.imp_of_mem fun hearlier _ h => ?_
  exact (h (committed_sane service boot calls _ hearlier)).2

/-- More calls only add to what some calls have left. -/
theorem after_append (more : List Call) :
    service.after boot (calls ++ more) = service.run (service.after boot calls) more :=
  List.foldl_append

theorem after_extends (more : List Call) :
    Extends (service.after boot calls).db (service.after boot (calls ++ more)).db := by
  rw [after_append]
  exact (run_progress (after_sane service boot calls) more).extends_of_sane
    (after_sane service boot calls)

/-- What was committed is never rewritten. In every run, and whatever calls follow, the files,
    versions, results, events, records and epochs of a committed state begin those of every
    later one, missions, tasks and attempts only change their outcome, which is final once it
    is reached, and a credential is only replaced under a higher epoch. -/
theorem history_kept :
    (service.after boot calls).commits.Pairwise Extends ∧
      ∀ more, Extends (service.after boot calls).db (service.after boot (calls ++ more)).db :=
  ⟨committed_extends service boot calls, after_extends service boot calls⟩

end ControlPlane

end control_plane
