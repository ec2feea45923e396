import PepeuchCluster.ControlPlane.Outcomes
import Mathlib.Logic.Relation

namespace control_plane

/-- The declared keys are unique in every table. -/
structure Keyed (db : Db) : Prop where
  missions : (db.missions.map (·.id)).Nodup
  tasks : (db.tasks.map (·.id)).Nodup
  plans : (db.tasks.map (·.mission_id)).Nodup
  attempts : (db.attempts.map (·.id)).Nodup
  generations : (db.attempts.map (·.generation)).Nodup
  files : (db.files.map (·.id)).Nodup
  names : (db.files.map fun file => (file.workspace_id, nocase file.name)).Nodup
  versions : (db.versions.map (·.id)).Nodup
  results : (db.results.map (·.id)).Nodup
  result_attempts : (db.results.map (·.attempt_id)).Nodup
  events : (db.events.map (·.id)).Nodup
  operations : (db.operations.map fun operation => (operation.actor, operation.id)).Nodup
  identities : (db.worker_identities.map (·.id)).Nodup
  epochs : (db.attempt_worker_epochs.map (·.attempt_id)).Nodup

/-- The declared references lead to rows that exist. -/
structure Linked (db : Db) : Prop where
  missions : db.missions.map (·.workspace_id) ⊆ db.workspaces.map (·.id)
  tasks : db.tasks.map (·.mission_id) ⊆ db.missions.map (·.id)
  attempts : db.attempts.map (·.task_id) ⊆ db.tasks.map (·.id)
  files : db.files.map (·.workspace_id) ⊆ db.workspaces.map (·.id)
  versions : db.versions.map (·.file_id) ⊆ db.files.map (·.id)
  version_missions : db.versions.filterMap (·.mission_id) ⊆ db.missions.map (·.id)
  version_attempts : db.versions.filterMap (·.attempt_id) ⊆ db.attempts.map (·.id)
  result_attempts : db.results.map (·.attempt_id) ⊆ db.attempts.map (·.id)
  result_versions : db.results.map (·.version_id) ⊆ db.versions.map (·.id)
  event_missions : db.events.filterMap (·.mission_id) ⊆ db.missions.map (·.id)
  event_workspaces : db.events.map (·.workspace_id) ⊆ db.workspaces.map (·.id)
  epochs : db.attempt_worker_epochs.map (·.attempt_id) ⊆ db.attempts.map (·.id)

theorem Logged.nodup {events : Rows EventRow} {more : List EventRow} (h : Logged events more)
    (hevents : (events.map (·.id)).Nodup) : ((events ++ more).map (·.id)).Nodup := by
  induction more generalizing events with
  | nil => simpa using hevents
  | cons event rest ih =>
    obtain ⟨hfresh, _, _, hrest⟩ := h
    simpa using ih hrest (Rows.nodup_append hevents hfresh)

theorem Published.files_nodup {settings : Settings} {held : String → Option Bytes} {db : Db}
    {workspace_id name : String} {expected mission_id attempt_id : Option String}
    {publication : Publication}
    (h : Published settings held db workspace_id name expected mission_id attempt_id publication)
    (hkeys : Keyed db) :
    ((db.files ++ publication.new_file.toList).map (·.id)).Nodup ∧
      ((db.files ++ publication.new_file.toList).map
        fun file => (file.workspace_id, nocase file.name)).Nodup := by
  have hfile := h.file
  cases hnew : publication.new_file with
  | none => simpa using ⟨hkeys.files, hkeys.names⟩
  | some file =>
    rw [hnew] at hfile
    obtain ⟨hmissing, hworkspace, hname, _, _, hfresh, _⟩ := hfile
    refine ⟨Rows.nodup_append hkeys.files hfresh, Rows.nodup_append hkeys.names ?_⟩
    intro other hother heq
    simp only [Prod.mk.injEq, hworkspace, hname] at heq
    have hnot := Rows.find_none.mp hmissing other hother
    simp [heq] at hnot

namespace Change

variable {settings : Settings} {held : String → Option Bytes} {db db' : Db}

theorem keyed (h : Change settings held db db') (hkeys : Keyed db) : Keyed db' := by
  cases h with
  | created mission capability events hfresh hid hworkspace hstate htext hfiles hevents hlogged =>
    exact { hkeys with
      missions := Rows.nodup_append hkeys.missions hfresh
      events := hlogged.nodup hkeys.events }
  | approved mission task approval queueing hmission hstate htask happroval hqueueing hlogged =>
    exact { hkeys with
      missions := Rows.nodup_update (fun _ => rfl) hkeys.missions
      tasks := Rows.nodup_append hkeys.tasks fun other hother => (htask.fresh other hother).1
      plans := Rows.nodup_append hkeys.plans fun other hother => by
        rw [htask.mission_id]
        exact (htask.fresh other hother).2
      events := hlogged.nodup hkeys.events }
  | cancelled mission event hmission hallowed hwaiting hevent hlogged =>
    exact { hkeys with
      missions := Rows.nodup_update (fun _ => rfl) hkeys.missions
      tasks := Rows.nodup_update (fun _ => rfl) hkeys.tasks
      plans := Rows.nodup_update (fun _ => rfl) hkeys.plans
      attempts := Rows.nodup_update (fun _ => rfl) hkeys.attempts
      generations := Rows.nodup_update (fun _ => rfl) hkeys.generations
      events := hlogged.nodup hkeys.events }
  | retried mission event hmission hstate hevent hlogged =>
    exact { hkeys with
      missions := Rows.nodup_update (fun _ => rfl) hkeys.missions
      tasks := Rows.nodup_update (fun _ => rfl) hkeys.tasks
      plans := Rows.nodup_update (fun _ => rfl) hkeys.plans
      events := hlogged.nodup hkeys.events }
  | claimed _ worker mission task attempt hclaim =>
    obtain ⟨event, started, hworker, hactive, hmission, htask, hstate, hqueued, hlink, hassigned,
      hfree, hattempt, hevent, hstarted, hlogged⟩ := hclaim
    exact { hkeys with
      missions := Rows.nodup_update (fun _ => rfl) hkeys.missions
      tasks := Rows.nodup_update (fun _ => rfl) hkeys.tasks
      plans := Rows.nodup_update (fun _ => rfl) hkeys.plans
      attempts := Rows.nodup_append hkeys.attempts fun other hother =>
        (hattempt.fresh other hother).1
      generations := Rows.nodup_append hkeys.generations fun other hother =>
        (hattempt.fresh other hother).2
      epochs := Rows.nodup_append hkeys.epochs hattempt.epoch
      events := hlogged.nodup hkeys.events }
  | fenced _ reason attempt hfence =>
    obtain ⟨task, mission, event, hattempt, hactive, htask, hlink, hmission, howner, hallowed,
      hevent, hlogged⟩ :=
      hfence
    exact { hkeys with
      missions := Rows.nodup_update (fun _ => rfl) hkeys.missions
      tasks := Rows.nodup_update (fun _ => rfl) hkeys.tasks
      plans := Rows.nodup_update (fun _ => rfl) hkeys.plans
      attempts := Rows.nodup_update (fun _ => rfl) hkeys.attempts
      generations := Rows.nodup_update (fun _ => rfl) hkeys.generations
      events := hlogged.nodup hkeys.events }
  | settled _ worker attempt task mission content_hash status error_code hsettle =>
    cases hsettle with
    | ended _ _ _ event hsettling hopen hevent hlogged =>
      exact { hkeys with
        missions := Rows.nodup_update (fun _ => rfl) hkeys.missions
        tasks := Rows.nodup_update (fun _ => rfl) hkeys.tasks
        plans := Rows.nodup_update (fun _ => rfl) hkeys.plans
        attempts := Rows.nodup_update (fun _ => rfl) hkeys.attempts
        generations := Rows.nodup_update (fun _ => rfl) hkeys.generations
        events := hlogged.nodup hkeys.events }
    | completed _ publication result event hsettling hpublished hfresh hid hresult hevent hlogged =>
      exact { hkeys with
        missions := Rows.nodup_update (fun _ => rfl) hkeys.missions
        tasks := Rows.nodup_update (fun _ => rfl) hkeys.tasks
        plans := Rows.nodup_update (fun _ => rfl) hkeys.plans
        attempts := Rows.nodup_update (fun _ => rfl) hkeys.attempts
        generations := Rows.nodup_update (fun _ => rfl) hkeys.generations
        files := (hpublished.files_nodup hkeys).1
        names := (hpublished.files_nodup hkeys).2
        versions := Rows.nodup_append hkeys.versions hpublished.fresh
        results := Rows.nodup_append hkeys.results fun other hother => (hfresh other hother).1
        result_attempts := Rows.nodup_append hkeys.result_attempts fun other hother =>
          (hfresh other hother).2
        events := hlogged.nodup hkeys.events }
  | uploaded workspace_id name expected publication hpublished hlogged =>
    exact { hkeys with
      files := (hpublished.files_nodup hkeys).1
      names := (hpublished.files_nodup hkeys).2
      versions := Rows.nodup_append hkeys.versions hpublished.fresh
      events := hlogged.nodup hkeys.events }
  | enrolled worker workspace_id event hfresh hid hcapability hlimits hepoch hworkspace
      hevent hlogged =>
    exact { hkeys with
      identities := Rows.nodup_append hkeys.identities hfresh
      events := hlogged.nodup hkeys.events }
  | rotated worker digest updated_at reason workspace_id event hworker hworkspace hevent hlogged =>
    exact { hkeys with
      identities := Rows.nodup_update (fun _ => rfl) hkeys.identities
      events := hlogged.nodup hkeys.events }
  | revoked worker updated_at hworker hactive =>
    exact { hkeys with
      identities := Rows.nodup_update (fun _ => rfl) hkeys.identities }
  | noted worker workspace_id event hworkspace hevent hlogged =>
    exact { hkeys with events := hlogged.nodup hkeys.events }
  | recorded operation hfresh =>
    exact { hkeys with
      operations := Rows.nodup_append hkeys.operations fun other hother heq =>
        hfresh other hother (by simpa using heq) }

end Change

section Links

variable {settings : Settings} {held : String → Option Bytes} {db db' : Db}

theorem mem_ids {α : Type} {rows : Rows α} {key : α → String} {row : α} (h : row ∈ rows) :
    key row ∈ rows.map key :=
  List.mem_map_of_mem h

theorem Published.file_mem {workspace_id name : String}
    {expected mission_id attempt_id : Option String} {publication : Publication}
    (h : Published settings held db workspace_id name expected mission_id attempt_id publication) :
    publication.version.file_id ∈ (db.files ++ publication.new_file.toList).map (·.id) := by
  have hfile := h.file
  cases hnew : publication.new_file with
  | none =>
    rw [hnew] at hfile
    obtain ⟨file, hfind, hid⟩ := hfile
    rw [hid]
    exact mem_ids (List.mem_append_left _ (Rows.find_some hfind).1)
  | some file =>
    rw [hnew] at hfile
    rw [hfile.2.2.2.1]
    exact mem_ids (List.mem_append_right _ (List.mem_singleton_self _))

theorem Published.files_refer {workspace_id name : String}
    {expected mission_id attempt_id : Option String} {publication : Publication}
    (h : Published settings held db workspace_id name expected mission_id attempt_id publication)
    (hlinked : Linked db) :
    (db.files ++ publication.new_file.toList).map (·.workspace_id) ⊆ db.workspaces.map (·.id) := by
  have hfile := h.file
  cases hnew : publication.new_file with
  | none => simpa using hlinked.files
  | some file =>
    rw [hnew] at hfile
    obtain ⟨workspace, hworkspace, hid⟩ := h.workspace
    refine Rows.refers_append hlinked.files ?_
    rw [hfile.2.1, ← hid]
    exact mem_ids hworkspace

/-- What an event may refer to. -/
def EventRow.Refers (event : EventRow) (missions workspaces : List String) : Prop :=
  (∀ identity, event.mission_id = some identity → identity ∈ missions) ∧
    event.workspace_id ∈ workspaces

theorem refers_event {missions workspaces : List String} {events : Rows EventRow} {event : EventRow}
    (hold : events.filterMap (·.mission_id) ⊆ missions ∧ events.map (·.workspace_id) ⊆ workspaces)
    (hevent : event.Refers missions workspaces) :
    (events ++ [event]).filterMap (·.mission_id) ⊆ missions ∧
      (events ++ [event]).map (·.workspace_id) ⊆ workspaces := by
  refine ⟨?_, Rows.refers_append hold.2 hevent.2⟩
  rw [List.filterMap_append]
  refine List.append_subset.mpr ⟨hold.1, fun value hvalue => ?_⟩
  obtain ⟨other, hother, heq⟩ := List.mem_filterMap.mp hvalue
  rw [List.mem_singleton.mp hother] at heq
  exact hevent.1 value heq

theorem refers_pair {missions workspaces : List String} {events : Rows EventRow}
    {first second : EventRow}
    (hold : events.filterMap (·.mission_id) ⊆ missions ∧ events.map (·.workspace_id) ⊆ workspaces)
    (hfirst : first.Refers missions workspaces) (hsecond : second.Refers missions workspaces) :
    (events ++ [first, second]).filterMap (·.mission_id) ⊆ missions ∧
      (events ++ [first, second]).map (·.workspace_id) ⊆ workspaces := by
  simpa using refers_event (refers_event hold hfirst) hsecond

theorem StateEvent.refers {mission : MissionRow} {target : State} {event : EventRow}
    (h : StateEvent mission target event) (hmission : mission ∈ db.missions) (hlinked : Linked db) :
    event.Refers (db.missions.map (·.id)) (db.workspaces.map (·.id)) := by
  refine ⟨fun identity heq => ?_, ?_⟩
  · obtain rfl := Option.some.inj (h.mission_id.symm.trans heq)
    exact mem_ids hmission
  · rw [h.workspace_id]
    exact hlinked.missions (mem_ids hmission)

theorem NoteEvent.refers {mission_id : Option String} {workspace_id : String} {type : EventType}
    {details : List (String × String)} {event : EventRow} {missions workspaces : List String}
    (h : NoteEvent mission_id workspace_id type details event)
    (hmission : ∀ identity, mission_id = some identity → identity ∈ missions)
    (hworkspace : workspace_id ∈ workspaces) : event.Refers missions workspaces := by
  refine ⟨fun identity heq => hmission identity (h.mission_id.symm.trans heq), ?_⟩
  rwa [h.workspace_id]

end Links

namespace Change

variable {settings : Settings} {held : String → Option Bytes} {db db' : Db}

theorem linked (h : Change settings held db db') (hlinked : Linked db) : Linked db' := by
  have hold : ∀ {workspace_id}, (∃ workspace ∈ db.workspaces, workspace.id = workspace_id) →
      workspace_id ∈ db.workspaces.map (·.id) := by
    rintro _ ⟨workspace, hworkspace, rfl⟩
    exact mem_ids hworkspace
  have hledger := And.intro hlinked.event_missions hlinked.event_workspaces
  cases h with
  | created mission capability events hfresh hid hworkspace hstate htext hfiles hevents hlogged =>
    have hids : db.missions.map (·.id) ⊆ (db.missions ++ [mission]).map (·.id) :=
      Rows.referred_append _ (List.Subset.refl _)
    have hself : mission.id ∈ (db.missions ++ [mission]).map (·.id) := by simp
    have hrefers : ∀ identity, some mission.id = some identity →
        identity ∈ (db.missions ++ [mission]).map (·.id) := by
      rintro _ ⟨⟩
      exact hself
    have hledger' :=
      And.intro (List.Subset.trans hlinked.event_missions hids) hlinked.event_workspaces
    have hevents' :
      (db.events ++ events).filterMap (·.mission_id) ⊆ (db.missions ++ [mission]).map (·.id) ∧
        (db.events ++ events).map (·.workspace_id) ⊆ db.workspaces.map (·.id) := by
      obtain ⟨first, hfirst, hmore⟩ := hevents
      cases capability with
      | demo =>
        obtain rfl := hmore
        exact refers_event hledger' (hfirst.refers hrefers (hold hworkspace))
      | cpu_digest =>
        obtain ⟨contract, rfl, hcontract⟩ := hmore
        exact refers_pair hledger' (hfirst.refers hrefers (hold hworkspace))
          (hcontract.refers hrefers (hold hworkspace))
    exact { hlinked with
      missions := Rows.refers_append hlinked.missions (hold hworkspace)
      tasks := Rows.referred_append _ hlinked.tasks
      version_missions := Rows.referred_append _ hlinked.version_missions
      event_missions := hevents'.1
      event_workspaces := hevents'.2 }
  | approved mission task approval queueing hmission hstate htask happroval hqueueing hlogged =>
    have hevents :=
      refers_pair hledger (happroval.refers hmission hlinked) (hqueueing.refers hmission hlinked)
    exact { hlinked with
      missions := Rows.refers_update (fun _ => rfl) hlinked.missions
      tasks := Rows.referred_update (fun _ => rfl)
        (Rows.refers_append hlinked.tasks (htask.mission_id ▸ mem_ids hmission))
      attempts := Rows.referred_append _ hlinked.attempts
      version_missions := Rows.referred_update (fun _ => rfl) hlinked.version_missions
      event_missions := Rows.referred_update (fun _ => rfl) hevents.1
      event_workspaces := hevents.2 }
  | cancelled mission event hmission hallowed hwaiting hevent hlogged =>
    have hevents := refers_event hledger (hevent.refers hmission hlinked)
    exact { hlinked with
      missions := Rows.refers_update (fun _ => rfl) hlinked.missions
      tasks := Rows.referred_update (fun _ => rfl) (Rows.refers_update (fun _ => rfl) hlinked.tasks)
      attempts :=
        Rows.referred_update (fun _ => rfl) (Rows.refers_update (fun _ => rfl) hlinked.attempts)
      version_missions := Rows.referred_update (fun _ => rfl) hlinked.version_missions
      version_attempts := Rows.referred_update (fun _ => rfl) hlinked.version_attempts
      result_attempts := Rows.referred_update (fun _ => rfl) hlinked.result_attempts
      epochs := Rows.referred_update (fun _ => rfl) hlinked.epochs
      event_missions := Rows.referred_update (fun _ => rfl) hevents.1
      event_workspaces := hevents.2 }
  | retried mission event hmission hstate hevent hlogged =>
    have hevents := refers_event hledger (hevent.refers hmission hlinked)
    exact { hlinked with
      missions := Rows.refers_update (fun _ => rfl) hlinked.missions
      tasks := Rows.referred_update (fun _ => rfl) (Rows.refers_update (fun _ => rfl) hlinked.tasks)
      attempts := Rows.referred_update (fun _ => rfl) hlinked.attempts
      version_missions := Rows.referred_update (fun _ => rfl) hlinked.version_missions
      event_missions := Rows.referred_update (fun _ => rfl) hevents.1
      event_workspaces := hevents.2 }
  | claimed _ worker mission task attempt hclaim =>
    obtain ⟨event, started, hworker, hactive, hmission, htask, hstate, hqueued, hlink, hassigned,
      hfree, hattempt, hevent, hstarted, hlogged⟩ := hclaim
    have hids : db.attempts.map (·.id) ⊆ (db.attempts ++ [attempt]).map (·.id) :=
      Rows.referred_append _ (List.Subset.refl _)
    have hevents := refers_pair hledger (hevent.refers hmission hlinked) (hstarted.refers
      (fun _ heq => Option.some.inj heq ▸ mem_ids hmission) (hlinked.missions (mem_ids hmission)))
    exact { hlinked with
      missions := Rows.refers_update (fun _ => rfl) hlinked.missions
      tasks := Rows.referred_update (fun _ => rfl) (Rows.refers_update (fun _ => rfl) hlinked.tasks)
      attempts := Rows.referred_update (fun _ => rfl)
        (Rows.refers_append hlinked.attempts (hattempt.task_id ▸ mem_ids htask))
      version_missions := Rows.referred_update (fun _ => rfl) hlinked.version_missions
      version_attempts := Rows.referred_append _ hlinked.version_attempts
      result_attempts := Rows.referred_append _ hlinked.result_attempts
      epochs := Rows.refers_append (Rows.referred_append _ hlinked.epochs) (by simp)
      event_missions := Rows.referred_update (fun _ => rfl) hevents.1
      event_workspaces := hevents.2 }
  | fenced _ reason attempt hfence =>
    obtain ⟨task, mission, event, hattempt, hactive, htask, hlink, hmission, howner, hallowed,
      hevent, hlogged⟩ :=
      hfence
    have hevents := refers_event hledger (hevent.refers hmission hlinked)
    exact { hlinked with
      missions := Rows.refers_update (fun _ => rfl) hlinked.missions
      tasks := Rows.referred_update (fun _ => rfl) (Rows.refers_update (fun _ => rfl) hlinked.tasks)
      attempts :=
        Rows.referred_update (fun _ => rfl) (Rows.refers_update (fun _ => rfl) hlinked.attempts)
      version_missions := Rows.referred_update (fun _ => rfl) hlinked.version_missions
      version_attempts := Rows.referred_update (fun _ => rfl) hlinked.version_attempts
      result_attempts := Rows.referred_update (fun _ => rfl) hlinked.result_attempts
      epochs := Rows.referred_update (fun _ => rfl) hlinked.epochs
      event_missions := Rows.referred_update (fun _ => rfl) hevents.1
      event_workspaces := hevents.2 }
  | settled _ worker attempt task mission content_hash status error_code hsettle =>
    cases hsettle with
    | ended _ _ _ event hsettling hopen hevent hlogged =>
      have hevents := refers_event hledger (hevent.refers hsettling.of_mission.1 hlinked)
      exact { hlinked with
        missions := Rows.refers_update (fun _ => rfl) hlinked.missions
        tasks :=
          Rows.referred_update (fun _ => rfl) (Rows.refers_update (fun _ => rfl) hlinked.tasks)
        attempts :=
          Rows.referred_update (fun _ => rfl) (Rows.refers_update (fun _ => rfl) hlinked.attempts)
        version_missions := Rows.referred_update (fun _ => rfl) hlinked.version_missions
        version_attempts := Rows.referred_update (fun _ => rfl) hlinked.version_attempts
        result_attempts := Rows.referred_update (fun _ => rfl) hlinked.result_attempts
        epochs := Rows.referred_update (fun _ => rfl) hlinked.epochs
        event_missions := Rows.referred_update (fun _ => rfl) hevents.1
        event_workspaces := hevents.2 }
    | completed _ publication result event hsettling hpublished hfresh hid hresult hevent hlogged =>
      have hmission := hsettling.of_mission.1
      have hevents := refers_pair hledger (hpublished.event.refers
        (fun _ heq => Option.some.inj heq ▸ mem_ids hmission) (hold hpublished.workspace))
        (hevent.refers hmission hlinked)
      exact { hlinked with
        missions := Rows.refers_update (fun _ => rfl) hlinked.missions
        tasks :=
          Rows.referred_update (fun _ => rfl) (Rows.refers_update (fun _ => rfl) hlinked.tasks)
        attempts :=
          Rows.referred_update (fun _ => rfl) (Rows.refers_update (fun _ => rfl) hlinked.attempts)
        files := hpublished.files_refer hlinked
        versions := Rows.refers_append (Rows.referred_append _ hlinked.versions) hpublished.file_mem
        version_missions := Rows.referred_update (fun _ => rfl) (by
          rw [List.filterMap_append]
          refine List.append_subset.mpr ⟨hlinked.version_missions, ?_⟩
          simpa [hpublished.author.1] using ⟨mission, hmission, rfl⟩)
        version_attempts := Rows.referred_update (fun _ => rfl) (by
          rw [List.filterMap_append]
          refine List.append_subset.mpr ⟨hlinked.version_attempts, ?_⟩
          simpa [hpublished.author.2] using ⟨attempt, hsettling.claimed.1, rfl⟩)
        result_attempts := Rows.referred_update (fun _ => rfl)
          (Rows.refers_append hlinked.result_attempts (hresult.1 ▸ mem_ids hsettling.claimed.1))
        result_versions := Rows.refers_append (Rows.referred_append _ hlinked.result_versions)
          (by simp [hresult.2.1])
        epochs := Rows.referred_update (fun _ => rfl) hlinked.epochs
        event_missions := Rows.referred_update (fun _ => rfl) hevents.1
        event_workspaces := hevents.2 }
  | uploaded workspace_id name expected publication hpublished hlogged =>
    have hevents :=
      refers_event hledger (hpublished.event.refers (by simp) (hold hpublished.workspace))
    exact { hlinked with
      files := hpublished.files_refer hlinked
      versions := Rows.refers_append (Rows.referred_append _ hlinked.versions) hpublished.file_mem
      version_missions := by
        rw [List.filterMap_append]
        refine List.append_subset.mpr ⟨hlinked.version_missions, ?_⟩
        simp [hpublished.author.1]
      version_attempts := by
        rw [List.filterMap_append]
        refine List.append_subset.mpr ⟨hlinked.version_attempts, ?_⟩
        simp [hpublished.author.2]
      result_versions := Rows.referred_append _ hlinked.result_versions
      event_missions := hevents.1
      event_workspaces := hevents.2 }
  | enrolled worker workspace_id event hfresh hid hcapability hlimits hepoch hworkspace
      hevent hlogged =>
    have hevents := refers_event hledger (hevent.refers (by simp) (hold hworkspace))
    exact { hlinked with event_missions := hevents.1, event_workspaces := hevents.2 }
  | rotated worker digest updated_at reason workspace_id event hworker hworkspace hevent hlogged =>
    have hevents := refers_event hledger (hevent.refers (by simp) (hold hworkspace))
    exact { hlinked with event_missions := hevents.1, event_workspaces := hevents.2 }
  | revoked worker updated_at hworker hactive => exact { hlinked with }
  | noted worker workspace_id event hworkspace hevent hlogged =>
    have hevents := refers_event hledger (hevent.refers (by simp) (hold hworkspace))
    exact { hlinked with event_missions := hevents.1, event_workspaces := hevents.2 }
  | recorded operation hfresh => exact { hlinked with }

end Change

end control_plane
