import PepeuchCluster.ControlPlane.Contents

namespace control_plane

theorem newest_mem {versions : List VersionRow} {version : VersionRow}
    (h : newest versions = some version) :
    version ∈ versions := by
  induction versions using List.reverseRecOn generalizing version with
  | nil => cases h
  | append_singleton earlier last ih =>
    rw [newest_append] at h
    cases hprevious : newest earlier with
    | none =>
      rw [hprevious, newer] at h
      rw [← Option.some.inj h]
      exact List.mem_append_right _ (List.mem_singleton_self _)
    | some previous =>
      rw [hprevious, newer] at h
      split at h
      · rw [← Option.some.inj h]
        exact List.mem_append_right _ (List.mem_singleton_self _)
      · rw [← Option.some.inj h]
        exact List.mem_append_left _ (ih hprevious)

/-- The version comes directly after the expected one, or is the first of its file. -/
def Succeeds (db : Db) (expected : Option String) (version : VersionRow) : Prop :=
  match expected with
  | none => version.number = 1
  | some identity => ∃ earlier ∈ db.versions, earlier.id = identity ∧
      earlier.file_id = version.file_id ∧ earlier.number + 1 = version.number

/-- An accepted result, with the attempt, task and mission that it completes and the version that it
    published. -/
structure Completes (db : Db) (result : ResultRow) (attempt : AttemptRow) (task : TaskRow)
    (mission : MissionRow) (version : VersionRow) (file : FileRow) : Prop where
  of_attempt : attempt ∈ db.attempts ∧ attempt.id = result.attempt_id
  of_task : task ∈ db.tasks ∧ task.id = attempt.task_id
  of_mission : mission ∈ db.missions ∧ mission.id = task.mission_id
  of_version : version ∈ db.versions ∧ version.id = result.version_id
  of_file : file ∈ db.files ∧ file.id = version.file_id
  accepted : attempt.state = .completed ∧ attempt.result_sha256.isSome = true ∧
    attempt.error_code = none
  closed : mission.state = .completed
  author : version.mission_id = some mission.id ∧ version.attempt_id = some attempt.id
  place : nocase file.name = nocase "resultat.md" ∧ file.workspace_id = mission.workspace_id
  provenance : result.provenance = task.capability
  succeeds : Succeeds db attempt.expected_version version

/-- Completed attempts and missions, published results and result rows account for each other. -/
structure Accounted (db : Db) : Prop where
  results : ∀ result ∈ db.results, ∃ attempt task mission version file,
    Completes db result attempt task mission version file
  attempts : ∀ attempt ∈ db.attempts, attempt.state = .completed →
    ∃ result ∈ db.results, result.attempt_id = attempt.id
  versions : ∀ version ∈ db.versions, version.attempt_id ≠ none →
    ∃ result ∈ db.results, result.version_id = version.id
  missions : ∀ mission ∈ db.missions, mission.state = .completed → ∃ result ∈ db.results,
    ∃ attempt ∈ db.attempts, ∃ task ∈ db.tasks, attempt.id = result.attempt_id ∧
      task.id = attempt.task_id ∧ task.mission_id = mission.id
  single : ∀ first ∈ db.results, ∀ second ∈ db.results, ∀ attempt ∈ db.attempts,
    ∀ other ∈ db.attempts, attempt.id = first.attempt_id → other.id = second.attempt_id →
      attempt.task_id = other.task_id → first = second

section Steps

variable {settings : Settings} {held : String → Option Bytes} {db db' : Db} {result : ResultRow}
  {attempt : AttemptRow} {task : TaskRow} {mission : MissionRow} {version : VersionRow}
    {file : FileRow}

/-- The task of a later state has the same identity, mission and capability. -/
theorem Extends.later_task (h : Extends db db') (htask : task ∈ db.tasks) :
    ∃ later ∈ db'.tasks, later.id = task.id ∧ later.mission_id = task.mission_id ∧
      later.capability = task.capability := by
  obtain ⟨later, hlater, hfixed⟩ := List.mem_map.mp (h.tasks.subset (List.mem_map_of_mem htask))
  have hid : later.fixed.id = task.fixed.id := congrArg TaskRow.id hfixed
  have hmission : later.fixed.mission_id = task.fixed.mission_id :=
    congrArg TaskRow.mission_id hfixed
  have hcapability : later.fixed.capability = task.fixed.capability :=
    congrArg TaskRow.capability hfixed
  exact ⟨later, hlater, hid, hmission, hcapability⟩

theorem Succeeds.of_subset {expected : Option String} (h : Succeeds db expected version)
    (hversions : ∀ other ∈ db.versions, other ∈ db'.versions) : Succeeds db' expected version := by
  cases expected with
  | none => exact h
  | some identity =>
    obtain ⟨earlier, hearlier, hsame⟩ := h
    exact ⟨earlier, hversions earlier hearlier, hsame⟩

/-- A completion stays as it is. -/
theorem Completes.of_extends (h : Completes db result attempt task mission version file)
    (hextends : Extends db db') :
    ∃ later, Completes db' result attempt later mission version file := by
  obtain ⟨later, hlater, hid, hmission, hcapability⟩ := hextends.later_task h.of_task.1
  have hended : attempt.state.active = false := by rw [h.accepted.1]; rfl
  have hclosed : TRANSITIONS mission.state = [] := by rw [h.closed]; rfl
  exact ⟨later, {
    of_attempt := ⟨hextends.ended attempt h.of_attempt.1 hended, h.of_attempt.2⟩
    of_task := ⟨hlater, hid.trans h.of_task.2⟩
    of_mission :=
      ⟨hextends.closed mission h.of_mission.1 hclosed, h.of_mission.2.trans hmission.symm⟩
    of_version := ⟨hextends.versions.subset h.of_version.1, h.of_version.2⟩
    of_file := ⟨hextends.files.subset h.of_file.1, h.of_file.2⟩
    accepted := h.accepted
    closed := h.closed
    author := h.author
    place := h.place
    provenance := h.provenance.trans hcapability.symm
    succeeds := h.succeeds.of_subset fun other hother => hextends.versions.subset hother }⟩

/-- Rows of a later state that only changed their outcome still belong to the same task. -/
theorem Extends.later_attempt (h : Extends db db') (hattempt : attempt ∈ db.attempts) :
    ∃ later ∈ db'.attempts, later.id = attempt.id ∧ later.task_id = attempt.task_id := by
  obtain ⟨later, hlater, hfixed⟩ :=
    List.mem_map.mp (h.attempts.subset (List.mem_map_of_mem hattempt))
  have hid : later.fixed.id = attempt.fixed.id := congrArg AttemptRow.id hfixed
  have htask : later.fixed.task_id = attempt.fixed.task_id := congrArg AttemptRow.task_id hfixed
  exact ⟨later, hlater, hid, htask⟩

/-- The attempt of an earlier result had its task then. -/
theorem Extends.earlier_attempt (h : Extends db db') (hsane : Sane db) (hsane' : Sane db')
    (hresult : result ∈ db.results) (hattempt : attempt ∈ db'.attempts)
    (hid : attempt.id = result.attempt_id) :
    ∃ old ∈ db.attempts, old.id = result.attempt_id ∧ old.task_id = attempt.task_id := by
  obtain ⟨old, hold, holdid⟩ :=
    List.mem_map.mp (hsane.linked.result_attempts (List.mem_map_of_mem hresult))
  obtain ⟨later, hlater, hlaterid, htask⟩ := h.later_attempt hold
  have hsame :=
    Rows.eq_of_key hsane'.keyed.attempts hlater hattempt (hlaterid.trans (holdid.trans hid.symm))
  exact ⟨old, hold, holdid, hsame ▸ htask.symm⟩

/-- Changes that complete nothing. -/
theorem Accounted.still (h : Accounted db) (hsane : Sane db) (hsane' : Sane db')
    (hextends : Extends db db') (hresults : db'.results = db.results)
    (hattempts : ∀ attempt ∈ db'.attempts, attempt.state = .completed → attempt ∈ db.attempts)
    (hmissions : ∀ mission ∈ db'.missions, mission.state = .completed → mission ∈ db.missions)
    (hversions : ∀ version ∈ db'.versions, version.attempt_id ≠ none → version ∈ db.versions) :
    Accounted db' where
  results result hresult := by
    rw [hresults] at hresult
    obtain ⟨attempt, task, mission, version, file, hcompletes⟩ := h.results result hresult
    obtain ⟨later, hlater⟩ := hcompletes.of_extends hextends
    exact ⟨attempt, later, mission, version, file, hlater⟩
  attempts attempt hattempt hstate := by
    rw [hresults]
    exact h.attempts attempt (hattempts attempt hattempt hstate) hstate
  versions version hversion hauthor := by
    rw [hresults]
    exact h.versions version (hversions version hversion hauthor) hauthor
  missions mission hmission hstate := by
    obtain ⟨result, hresult, attempt, hattempt, task, htask, hid, hlink, howner⟩ :=
      h.missions mission (hmissions mission hmission hstate) hstate
    obtain ⟨attempt', hattempt', hid', hlink'⟩ := hextends.later_attempt hattempt
    obtain ⟨task', htask', hsame, howner', _⟩ := hextends.later_task htask
    exact ⟨result, hresults ▸ hresult, attempt', hattempt', task', htask', hid'.trans hid,
      hsame.trans (hlink.trans hlink'.symm), howner'.trans howner⟩
  single first hfirst second hsecond attempt hattempt other hother hid hid' htask := by
    rw [hresults] at hfirst hsecond
    obtain ⟨old, hold, holdid, holdtask⟩ :=
      hextends.earlier_attempt hsane hsane' hfirst hattempt hid
    obtain ⟨old', hold', holdid', holdtask'⟩ :=
      hextends.earlier_attempt hsane hsane' hsecond hother hid'
    refine h.single first hfirst second hsecond old hold old' hold' holdid holdid' ?_
    rw [holdtask, holdtask', htask]

theorem completed_mission {rows : Rows MissionRow} {selected : MissionRow → Bool}
    {change : MissionRow → MissionRow} (h : ∀ row, (change row).state ≠ .completed)
    (mission : MissionRow) (hmission : mission ∈ Rows.update rows selected change)
    (hstate : mission.state = .completed) : mission ∈ rows :=
  Rows.mem_of_update (P := fun row => row.state = .completed) h hmission hstate

theorem completed_attempt {rows : Rows AttemptRow} {selected : AttemptRow → Bool}
    {change : AttemptRow → AttemptRow} (h : ∀ row, (change row).state ≠ .completed)
    (attempt : AttemptRow) (hattempt : attempt ∈ Rows.update rows selected change)
    (hstate : attempt.state = .completed) : attempt ∈ rows :=
  Rows.mem_of_update (P := fun row => row.state = .completed) h hattempt hstate

/-- Publishing appends the version that the expected one precedes. -/
theorem Published.succeeds {workspace_id name : String}
    {expected mission_id attempt_id : Option String} {publication : Publication}
    (h : Published settings held db workspace_id name expected mission_id attempt_id publication)
    (hlinked : Linked db) (hversions : ∀ other ∈ db.versions, other ∈ db'.versions) :
    Succeeds db' expected publication.version := by
  have hnumber := h.number
  rw [h.current]
  rcases h.target hlinked with ⟨file, _, _, hid, _, hcurrent⟩ |
    ⟨file, _, _, _, _, _, _, _, hcurrent⟩
  · rw [hcurrent] at hnumber ⊢
    cases hnewest : newest (db.versions_of file.id) with
    | none =>
      rw [hnewest] at hnumber
      exact hnumber
    | some previous =>
      rw [hnewest] at hnumber
      obtain ⟨hmem, howner⟩ := List.mem_filter.mp (newest_mem hnewest)
      exact ⟨previous, hversions previous hmem, rfl,
        (of_decide_eq_true howner).trans hid.symm, hnumber.symm⟩
  · rw [hcurrent] at hnumber ⊢
    exact hnumber

/-- The file of a publication, with the name that it was found or made under. -/
theorem Published.place {workspace_id name : String}
    {expected mission_id attempt_id : Option String} {publication : Publication}
    (h : Published settings held db workspace_id name expected mission_id attempt_id publication) :
    ∃ file ∈ db.files ++ publication.new_file.toList, file.id = publication.version.file_id ∧
      nocase file.name = nocase name ∧ file.workspace_id = workspace_id := by
  have hfile := h.file
  cases hnew : publication.new_file with
  | none =>
    rw [hnew] at hfile
    obtain ⟨file, hfind, hid⟩ := hfile
    obtain ⟨hmem, hkey⟩ := Rows.find_some hfind
    obtain ⟨hworkspace, hname⟩ := of_decide_eq_true hkey
    exact ⟨file, List.mem_append_left _ hmem, hid.symm, hname, hworkspace⟩
  | some file =>
    rw [hnew] at hfile
    obtain ⟨_, hworkspace, hname, hid, _⟩ := hfile
    exact ⟨file, by simp, hid.symm, by rw [hname], hworkspace⟩

theorem Settle.accounted {worker : IdentityRow} {content_hash : String} {status : State}
    {error_code : Option String}
    (h : Settle settings held worker attempt task mission content_hash status error_code db db')
    (hsane : Sane db) (hsane' : Sane db') (hextends : Extends db db') (haccounted : Accounted db) :
    Accounted db' := by
  cases h with
  | ended _ _ _ event hsettling hopen =>
    exact haccounted.still hsane hsane' hextends rfl (completed_attempt fun _ => hopen)
      (completed_mission fun _ => hopen) fun version hversion _ => hversion
  | completed _ publication result event hsettling hpublished hfresh hid hresult =>
    have hopen : mission.state ≠ .completed := fun hstate => by
      have hallowed := hsettling.allowed
      rw [hstate] at hallowed
      exact List.not_mem_nil hallowed
    -- no earlier result was of this task: its mission would have been closed
    have hnew : ∀ other ∈ db.results, ∀ old ∈ db.attempts, old.id = other.attempt_id →
        old.task_id ≠ attempt.task_id := by
      intro other hother old hold hlink htask
      obtain ⟨attempt', task', mission', version', file', hcompletes⟩ :=
        haccounted.results other hother
      have hsame := Rows.eq_of_key hsane.keyed.attempts hold hcompletes.of_attempt.1
        (hlink.trans hcompletes.of_attempt.2.symm)
      have htask' := Rows.eq_of_key hsane.keyed.tasks hcompletes.of_task.1 hsettling.of_task.1 (by
        rw [hcompletes.of_task.2, ← hsame, htask, hsettling.of_task.2])
      have hmission :=
        Rows.eq_of_key hsane.keyed.missions hcompletes.of_mission.1 hsettling.of_mission.1 (by
          rw [hcompletes.of_mission.2, htask', hsettling.of_mission.2])
      exact hopen (hmission ▸ hcompletes.closed)
    let attempt' : AttemptRow :=
        { attempt with state := .completed, result_sha256 := some content_hash, error_code := none }
    let task' : TaskRow := { task with state := .completed }
    have hattempt' : attempt' ∈ Rows.update db.attempts (fun row => row.id = attempt.id) fun row =>
        { row with state := .completed, result_sha256 := some content_hash, error_code := none } :=
      Rows.mem_update.mpr (.inr ⟨attempt, hsettling.claimed.1, by simp, rfl⟩)
    have htask' : task' ∈ Rows.update db.tasks (fun row => row.id = attempt.task_id) fun row =>
        { row with state := .completed } :=
      Rows.mem_update.mpr (.inr ⟨task, hsettling.of_task.1, by simp [hsettling.of_task.2], rfl⟩)
    have hof_result : ∀ {row},
      row ∈ Rows.update db.attempts (fun row => row.id = attempt.id) (fun row =>
        { row with state := .completed, result_sha256 := some content_hash, error_code := none }) →
        row.id = result.attempt_id → row = attempt' := fun hrow hrowid =>
      Rows.eq_of_key hsane'.keyed.attempts hrow hattempt' (hrowid.trans hresult.1)
    refine ⟨?_, ?_, ?_, ?_, ?_⟩
    · refine List.forall_mem_append.mpr ⟨fun other hother => ?_, List.forall_mem_singleton.mpr ?_⟩
      · obtain ⟨attempt, task, mission, version, file, hcompletes⟩ :=
          haccounted.results other hother
        obtain ⟨later, hlater⟩ := hcompletes.of_extends hextends
        exact ⟨attempt, later, mission, version, file, hlater⟩
      · obtain ⟨file, hfile, hfileid, hname, hworkspace⟩ := hpublished.place
        exact ⟨attempt', task', { mission with state := .completed }, publication.version, file, {
          of_attempt := ⟨hattempt', hresult.1.symm⟩
          of_task := ⟨htask', hsettling.of_task.2⟩
          of_mission := ⟨Rows.mem_update.mpr (.inr ⟨mission, hsettling.of_mission.1, by simp, rfl⟩),
            hsettling.of_mission.2⟩
          of_version := ⟨by simp, hresult.2.1.symm⟩
          of_file := ⟨hfile, hfileid⟩
          accepted := ⟨rfl, rfl, rfl⟩
          closed := rfl
          author := hpublished.author
          place := ⟨hname, hworkspace⟩
          provenance := hresult.2.2
          succeeds := hpublished.succeeds hsane.linked fun other hother =>
            hextends.versions.subset hother }⟩
    · intro other hother hstate
      rcases Rows.mem_update.mp hother with ⟨hother, _⟩ | ⟨old, _, hselected, rfl⟩
      · obtain ⟨found, hfound, hlink⟩ := haccounted.attempts other hother hstate
        exact ⟨found, List.mem_append_left _ hfound, hlink⟩
      · exact ⟨result, by simp, hresult.1.trans (of_decide_eq_true hselected).symm⟩
    · refine List.forall_mem_append.mpr
        ⟨fun version hversion hauthor => ?_, List.forall_mem_singleton.mpr fun _ => ?_⟩
      · obtain ⟨found, hfound, hlink⟩ := haccounted.versions version hversion hauthor
        exact ⟨found, List.mem_append_left _ hfound, hlink⟩
      · exact ⟨result, by simp, hresult.2.1⟩
    · intro other hother hstate
      rcases Rows.mem_update.mp hother with ⟨hother, _⟩ | ⟨old, _, hselected, rfl⟩
      · obtain ⟨found, hfound, attempt, hattempt, task, htask, hlink, hown, howner⟩ :=
          haccounted.missions other hother hstate
        obtain ⟨later, hlater, hlaterid, hlatertask⟩ := hextends.later_attempt hattempt
        obtain ⟨later', hlater', hlaterid', hlaterowner, _⟩ := hextends.later_task htask
        exact ⟨found, List.mem_append_left _ hfound, later, hlater, later', hlater',
          hlaterid.trans hlink, hlaterid'.trans (hown.trans hlatertask.symm),
            hlaterowner.trans howner⟩
      · exact ⟨result, by simp, attempt', hattempt', task', htask', hresult.1.symm,
          hsettling.of_task.2, hsettling.of_mission.2.symm.trans (of_decide_eq_true hselected).symm⟩
    · intro first hfirst second hsecond x hx y hy hxid hyid htask
      rcases List.mem_append.mp hfirst with hfirst |
        hfirst <;> rcases List.mem_append.mp hsecond with hsecond | hsecond
      · obtain ⟨old, hold, holdid, holdtask⟩ := hextends.earlier_attempt hsane hsane' hfirst hx hxid
        obtain ⟨old', hold', holdid', holdtask'⟩ :=
          hextends.earlier_attempt hsane hsane' hsecond hy hyid
        exact haccounted.single first hfirst second hsecond old hold old' hold' holdid holdid'
          (by rw [holdtask, holdtask', htask])
      · obtain ⟨old, hold, holdid, holdtask⟩ := hextends.earlier_attempt hsane hsane' hfirst hx hxid
        rw [List.mem_singleton.mp hsecond] at hyid
        exact absurd (by rw [holdtask, htask, hof_result hy hyid])
          (hnew first hfirst old hold holdid)
      · obtain ⟨old, hold, holdid, holdtask⟩ :=
          hextends.earlier_attempt hsane hsane' hsecond hy hyid
        rw [List.mem_singleton.mp hfirst] at hxid
        exact absurd (by rw [holdtask, ← htask, hof_result hx hxid])
          (hnew second hsecond old hold holdid)
      · rw [List.mem_singleton.mp hfirst, List.mem_singleton.mp hsecond]

/-- A cancellation does not complete anything. -/
theorem cancel_target_open (state : State) : ExecutionManager.cancel_target state ≠ .completed := by
  unfold ExecutionManager.cancel_target
  split <;> exact nofun

theorem Change.accounted (h : Change settings held db db') (hsane : Sane db)
    (haccounted : Accounted db) :
    Accounted db' := by
  have hsane' := h.sane hsane
  have hextends := h.extends_of_sane hsane
  cases h with
  | created new capability events _ _ _ hstate =>
    refine haccounted.still hsane hsane' hextends rfl (fun _ hattempt _ => hattempt)
      (fun other hother hcompleted => ?_)
      fun _ hversion _ => hversion
    rcases List.mem_append.mp hother with hother | hother
    · exact hother
    · rw [List.mem_singleton.mp hother, hstate] at hcompleted
      cases hcompleted
  | approved =>
    exact haccounted.still hsane hsane' hextends rfl (fun _ hattempt _ => hattempt)
      (completed_mission fun _ => State.noConfusion) fun _ hversion _ => hversion
  | cancelled =>
    exact haccounted.still hsane hsane' hextends rfl
      (completed_attempt fun _ => cancel_target_open _)
      (completed_mission fun _ => cancel_target_open _) fun _ hversion _ => hversion
  | retried =>
    exact haccounted.still hsane hsane' hextends rfl (fun _ hattempt _ => hattempt)
      (completed_mission fun _ => State.noConfusion) fun _ hversion _ => hversion
  | claimed _ worker mission task started hclaim =>
    cases hclaim with
    | row event note hworker hactive hmission htask hstate hqueued hlink hassigned hfree hstarted =>
      refine haccounted.still hsane hsane' hextends rfl (fun other hother hcompleted => ?_)
        (completed_mission fun _ => State.noConfusion) fun _ hversion _ => hversion
      rcases List.mem_append.mp hother with hother | hother
      · exact hother
      · rw [List.mem_singleton.mp hother, hstarted.state] at hcompleted
        cases hcompleted
  | fenced _ reason attempt hfence =>
    cases hfence
    exact haccounted.still hsane hsane' hextends rfl (completed_attempt fun _ => State.noConfusion)
      (completed_mission fun _ => State.noConfusion) fun _ hversion _ => hversion
  | settled _ worker attempt task mission content_hash status error_code hsettle =>
    exact hsettle.accounted hsane hsane' hextends haccounted
  | uploaded workspace_id name expected publication hpublished =>
    -- the administrator's version has no author
    refine haccounted.still hsane hsane' hextends rfl (fun _ hattempt _ => hattempt)
      (fun _ hmission _ => hmission)
      fun version hversion hauthor => ?_
    rcases List.mem_append.mp hversion with hversion | hversion
    · exact hversion
    · rw [List.mem_singleton.mp hversion] at hauthor
      exact absurd hpublished.author.2 hauthor
  | _ =>
    exact haccounted.still hsane hsane' hextends rfl (fun _ hattempt _ => hattempt)
      (fun _ hmission _ => hmission)
      fun _ hversion _ => hversion

theorem install_accounted (settings : Settings) (boot : Boot) :
    Accounted (install settings boot) := by
  constructor <;> simp [install]

end Steps

section Views

variable {db : Db} {mission : MissionRow} {entry : ResultRow × VersionRow}

theorem mem_results_of : entry ∈ db.results_of mission.id ↔
    entry.1 ∈ db.results ∧ entry.2 ∈ db.versions ∧ entry.2.id = entry.1.version_id ∧
      entry.2.mission_id = some mission.id := by
  simp only [Db.results_of, List.mem_flatMap, List.mem_map, List.mem_filter, decide_eq_true_iff]
  constructor
  · rintro ⟨result, hresult, version, ⟨hversion, hid, howner⟩, rfl⟩
    exact ⟨hresult, hversion, hid, howner⟩
  · rintro ⟨hresult, hversion, hid, howner⟩
    exact ⟨entry.1, hresult, entry.2, ⟨hversion, hid, howner⟩, rfl⟩

/-- An entry of a mission's view is the completion of that mission. -/
theorem Accounted.completes_of_entry (h : Accounted db) (hkeys : Keyed db)
    (hmission : mission ∈ db.missions) (hentry : entry ∈ db.results_of mission.id) :
    ∃ attempt task file, Completes db entry.1 attempt task mission entry.2 file := by
  obtain ⟨hresult, hversion, hid, howner⟩ := mem_results_of.mp hentry
  obtain ⟨attempt, task, mission', version, file, hcompletes⟩ := h.results entry.1 hresult
  obtain rfl := Rows.eq_of_key hkeys.versions hversion hcompletes.of_version.1
    (hid.trans hcompletes.of_version.2.symm)
  have hsame : mission.id = mission'.id := Option.some.inj (howner.symm.trans hcompletes.author.1)
  obtain rfl := Rows.eq_of_key hkeys.missions hmission hcompletes.of_mission.1 hsame
  exact ⟨attempt, task, file, hcompletes⟩

/-- A completed mission shows a completion. -/
theorem Accounted.entry_of_completed (h : Accounted db) (hkeys : Keyed db)
    (hmission : mission ∈ db.missions) (hstate : mission.state = .completed) :
    ∃ entry, entry ∈ db.results_of mission.id := by
  obtain ⟨result, hresult, attempt, hattempt, task, htask, hid, hlink, howner⟩ :=
    h.missions mission hmission hstate
  obtain ⟨attempt', task', mission', version, file, hcompletes⟩ := h.results result hresult
  obtain rfl := Rows.eq_of_key hkeys.attempts hattempt hcompletes.of_attempt.1
    (hid.trans hcompletes.of_attempt.2.symm)
  obtain rfl :=
    Rows.eq_of_key hkeys.tasks htask hcompletes.of_task.1 (hlink.trans hcompletes.of_task.2.symm)
  have hsame : mission'.id = mission.id := hcompletes.of_mission.2.trans howner
  refine ⟨(result, version),
    mem_results_of.mpr ⟨hresult, hcompletes.of_version.1, hcompletes.of_version.2, ?_⟩⟩
  rw [hcompletes.author.1, hsame]

/-- A mission has one task, so it shows at most one completion. -/
theorem Accounted.length_results_of (h : Accounted db) (hkeys : Keyed db)
    (hmission : mission ∈ db.missions) :
    (db.results_of mission.id).length ≤ 1 := by
  have hone : ((db.results_of mission.id).map (·.1.id)).Nodup := by
    refine hkeys.results.sublist (Rows.flatMap_sublist fun result _ => ?_)
    -- at most one version has the identifier that the result refers to
    have hfilter : (db.versions.filter fun version => version.id = result.version_id ∧
        version.mission_id = some mission.id).length ≤ 1 :=
      Rows.length_le_one (hkeys.versions.sublist (List.filter_sublist.map _))
          fun first hfirst second hsecond => by
        rw [(of_decide_eq_true (List.mem_filter.mp hfirst).2).1,
          (of_decide_eq_true (List.mem_filter.mp hsecond).2).1]
    rw [List.map_map]
    generalize db.versions.filter _ = versions at hfilter
    match versions, hfilter with
    | [], _ => exact List.nil_sublist _
    | [version], _ => exact List.Sublist.refl _
  refine Rows.length_le_one hone fun first hfirst second hsecond => ?_
  obtain ⟨attempt, task, file, hcompletes⟩ := h.completes_of_entry hkeys hmission hfirst
  obtain ⟨other, task', file', hcompletes'⟩ := h.completes_of_entry hkeys hmission hsecond
  have htask : task = task' := Rows.eq_of_key hkeys.plans hcompletes.of_task.1 hcompletes'.of_task.1
    (hcompletes.of_mission.2.symm.trans hcompletes'.of_mission.2)
  have hsame := h.single first.1 (mem_results_of.mp hfirst).1 second.1
    (mem_results_of.mp hsecond).1 attempt hcompletes.of_attempt.1 other
    hcompletes'.of_attempt.1 hcompletes.of_attempt.2 hcompletes'.of_attempt.2 (by
      rw [← hcompletes.of_task.2, ← hcompletes'.of_task.2, htask])
  rw [hsame]

end Views

namespace ControlPlane

variable (service : ControlPlane) (boot : Boot) (calls : List Call)

theorem committed_accounted : ∀ db ∈ (service.after boot calls).commits, Accounted db :=
  (after_invariant service boot calls (install_accounted service.settings boot) Change.accounted).2

/-- Results are exactly the completions. In every committed state of every run a completed mission
    shows one result, whose attempt was accepted for the mission's task, with a version of
    resultat.md that its attempt published directly after the version it had been given; no
    other mission shows a result, and no other version was published by an attempt. -/
theorem completions_accounted :
    (∀ db ∈ (service.after boot calls).commits, Accounted db) ∧
      ∀ db ∈ (service.after boot calls).commits, ∀ mission ∈ db.missions,
        if mission.state = .completed then
          ∃ result attempt task version file, db.results_of mission.id = [(result, version)] ∧
            Completes db result attempt task mission version file
        else db.results_of mission.id = [] := by
  refine ⟨committed_accounted service boot calls, fun db hdb mission hmission => ?_⟩
  have haccounted := committed_accounted service boot calls db hdb
  have hkeys := (committed_sane service boot calls db hdb).keyed
  split
  · next hstate =>
    obtain ⟨entry, hentry⟩ := haccounted.entry_of_completed hkeys hmission hstate
    obtain ⟨attempt, task, file, hcompletes⟩ := haccounted.completes_of_entry hkeys hmission hentry
    have hlength := haccounted.length_results_of hkeys hmission
    refine ⟨entry.1, attempt, task, entry.2, file, ?_, hcompletes⟩
    obtain ⟨only, honly⟩ :=
      List.length_eq_one_iff.mp (Nat.le_antisymm hlength (List.length_pos_of_mem hentry))
    rw [honly] at hentry ⊢
    rw [List.mem_singleton.mp hentry]
  · next hstate =>
    refine List.eq_nil_iff_forall_not_mem.mpr fun entry hentry => ?_
    obtain ⟨attempt, task, file, hcompletes⟩ := haccounted.completes_of_entry hkeys hmission hentry
    exact hstate hcompletes.closed

end ControlPlane

end control_plane
