import PepeuchCluster.Discovery.ManualRuns

namespace discovery

/-- The resume argument that the events of a run make. -/
def descriptors_of (events : List ManualEvent) : Json :=
  .dict (events.map fun event => (event.source, event.resume))

/-- The event tells again what an earlier one has told. -/
structure Retells (event old : ManualEvent) : Prop where
  complete : event.complete = true
  cached : event.execution = none
  snapshot_id : event.snapshot_id = old.snapshot_id
  captured_at : event.captured_at = old.captured_at
  resume : event.resume = old.resume

section Descriptors

variable {done : List ManualEvent} {old : ManualEvent}

theorem event_keys (events : List ManualEvent) :
    (events.map fun event => (event.source, event.resume)).map Prod.fst =
      events.map ManualEvent.source := by
  rw [List.map_map]
  rfl

theorem descriptors_of_keys (source : String) :
    source ∈ (descriptors_of done).entries.map Prod.fst ↔ source ∈ done.map ManualEvent.source := by
  have hperm :=
    (Json.sortFields_perm (done.map fun event => (event.source, event.resume))).map Prod.fst
  rw [event_keys] at hperm
  exact hperm.mem_iff

theorem descriptors_of_item (hdistinct : (done.map ManualEvent.source).Nodup) (hold : old ∈ done) :
    (descriptors_of done).item old.source = old.resume := by
  have hkeys : ((done.map fun event => (event.source, event.resume)).map Prod.fst).Nodup := by
    rwa [event_keys]
  have hmem : (old.source, old.resume) ∈ done.map fun event => (event.source, event.resume) :=
    List.mem_map_of_mem hold
  rw [descriptors_of, Json.item_dict hkeys, (Json.find_key_iff hkeys).mpr hmem]
  rfl

variable [Unicode]

/-- A task is of a registered source. -/
theorem SourceTask.registered (task : SourceTask) :
    task.source ∈ SOURCE_SPECS.map SourceSpec.source := by
  have hvalid := task.valid.1
  simp only [safe_selection, Except.bind_eq_ok] at hvalid
  obtain ⟨spec, hspec, _⟩ := hvalid
  have hfind := (source_spec_ok.mp hspec).2
  have hname : spec.source = task.source := by simpa using List.find?_some hfind
  exact hname ▸ List.mem_map_of_mem (List.mem_of_find?_eq_some hfind)

theorem registered_spared :
    ∀ source ∈ SOURCE_SPECS.map SourceSpec.source, folded source ∉ SECRET_KEYS :=
  spared_ascii (by decide)

variable [Datetime] {plan next : ManualPlan} {task : SourceTask} {archive after : Archive}
  {epoch : Binary64}

/-- What a run has told as complete is in the archive. -/
structure Backing (plan : ManualPlan) (archive : Archive) (done : List ManualEvent) : Prop where
  distinct : (done.map ManualEvent.source).Nodup
  backed : ∀ event ∈ done, ∃ task ∈ plan.tasks, ∃ entry, Entrusted plan task archive event entry

theorem Backing.later (h : Backing plan archive done) (hextends : Extends archive after) :
    Backing plan after done :=
  ⟨h.distinct, fun event hevent => by
    obtain ⟨task, htask, entry, hentry⟩ := h.backed event hevent
    exact ⟨task, htask, entry, hentry.later hextends⟩⟩

/-- The descriptors of a run are a resume argument. -/
theorem Backing.descriptors (h : Backing plan archive done) :
    (descriptors_of done).WellFormed ∧ Plain (descriptors_of done) := by
  constructor
  · refine Json.dict_wellFormed ?_ ?_
    · rw [event_keys]
      exact h.distinct
    · intro field hfield
      obtain ⟨event, hevent, rfl⟩ := List.mem_map.mp hfield
      obtain ⟨_, _, _, hentry⟩ := h.backed event hevent
      exact hentry.wellFormed
  · refine plain_dict fun field hfield => ?_
    obtain ⟨event, hevent, rfl⟩ := List.mem_map.mp hfield
    obtain ⟨task, _, _, hentry⟩ := h.backed event hevent
    exact ⟨hentry.source ▸ registered_spared _ task.registered, hentry.plain⟩

/-- The plan of a later run, that takes up what an earlier one has told. -/
structure Continues (plan next : ManualPlan) (done : List ManualEvent)
    (epoch : Binary64) : Prop where
  tasks : next.tasks = plan.tasks
  archive : next.archive = plan.archive
  contexts : next.contexts = plan.contexts
  trusted_issuers : next.trusted_issuers = plan.trusted_issuers
  issuer : next.issuer = plan.issuer
  key : next.key = plan.key
  resume : next.resume.json = descriptors_of done
  now : timestamp next.now = .ok epoch
  fresh : ∃ max_age ∈ next.max_age_seconds, 0 ≤ max_age ∧ max_age ≤ 604800 ∧ ∀ event ∈ done, ∃ age,
    age_of epoch event.captured_at = .ok age ∧ 0 ≤ age.value ∧ age.value < max_age

namespace Continues

theorem descriptors (h : Continues plan next done epoch) :
    next.descriptors = descriptors_of done := by
  unfold ManualPlan.descriptors
  rw [h.resume]
  rfl

theorem context (h : Continues plan next done epoch) (source : String) :
    next.context source = plan.context source := by
  rw [ManualPlan.context, ManualPlan.context, h.contexts]

theorem entrusted (h : Continues plan next done epoch) {entry : Value}
    (hentry : Entrusted plan task archive old entry) : Entrusted next task archive old entry := by
  refine { hentry with absolute := ?_, cached := ?_, resumable := ?_ }
  · rw [h.archive]
    exact hentry.absolute
  · rw [h.trusted_issuers]
    exact hentry.cached
  · have hresumable := hentry.resumable
    rw [Resumable, ← h.context] at hresumable
    exact hresumable

/-- The freshness of what was told before. -/
theorem aged (h : Continues plan next done epoch) (hold : old ∈ done) : ∃ age,
    age_of epoch old.captured_at = .ok age ∧ 0 ≤ age.value ∧
      age.value < next.max_age_seconds.getD 0 := by
  obtain ⟨max_age, hmax, _, _, hdone⟩ := h.fresh
  obtain ⟨age, hage, hpast, hfresh⟩ := hdone old hold
  refine ⟨age, hage, hpast, ?_⟩
  rwa [Option.mem_def.mp hmax, Option.getD_some]

end Continues

/-- What the first loop has found for a source that was complete is what it was then. -/
theorem Prepared.retells {clock : Now} {cached : Option (Json × Binary64)}
    (hcontinues : Continues plan next done epoch) (hbacking : Backing plan archive done)
    (hprepared : Prepared clock next epoch archive (descriptors_of done) task cached)
    (hold : old ∈ done) (hsource : old.source = task.source) :
    ∃ json age, cached = some (json, age) ∧
      Retells (cached_event (descriptors_of done) task json age) old := by
  have hitem : (descriptors_of done).item task.source = old.resume :=
    hsource ▸ descriptors_of_item hbacking.distinct hold
  have hkey : task.source ∈ (descriptors_of done).entries.map Prod.fst :=
    (descriptors_of_keys _).mpr (hsource ▸ List.mem_map_of_mem hold)
  obtain ⟨json, age, hloaded, hage, hcached⟩ := hprepared.loaded hkey
  obtain ⟨_, _, entry, hentry⟩ := hbacking.backed old hold
  obtain ⟨_, hvalid⟩ := hentry.cached
  rw [hitem, hentry.identity] at hloaded
  obtain rfl := hloaded.whole hvalid.plain hentry.file
  obtain ⟨age', hage', _, hfresh⟩ := hcontinues.aged hold
  rw [hentry.captured_at, hage] at hage'
  obtain rfl := Except.ok.inj hage'
  rw [if_pos hfresh] at hcached
  exact ⟨entry.json, age, hcached, rfl, rfl, hentry.snapshot_id.symm,
    hentry.captured_at.symm, hitem⟩

end Descriptors

section Calls

variable {done : List ManualEvent} {archive : Archive} {w : Workshop}

/-- What was complete before is not executed, and told as it was. -/
structure Renewed (done : List ManualEvent) (w : Workshop) : Prop where
  spared : ∀ trace ∈ w.executions, ∀ context resource remaining,
    .callback context resource remaining ∈ trace → ∀ old ∈ done, context.source ≠ old.source ∧
      resource.source ≠ old.source
  told : ∀ event ∈ w.told, ∀ old ∈ done, event.source = old.source → Retells event old

theorem on_archive_renewed {α : Type} (call : Call α) :
    Effect.Triple (Renewed done) (Manual.on_archive call) (fun _ w => Renewed done w)
      (fun _ w => Renewed done w) := by
  intro w h
  constructor
  · rintro a t ht
    obtain ⟨_, rfl⟩ := Prod.mk.inj ht
    exact ⟨h.spared, h.told⟩
  · rintro halt t ht
    obtain ⟨_, rfl⟩ := Prod.mk.inj ht
    exact ⟨h.spared, h.told⟩

theorem Renewed.told_event {w : Workshop} {event : ManualEvent} (h : Renewed done w)
    (hevent : ∀ old ∈ done, event.source = old.source → Retells event old) :
    Renewed done { w with told := w.told ++ [event] } := by
  refine ⟨h.spared, fun other hother => ?_⟩
  rcases List.mem_append.mp hother with hbefore | hlast
  · exact h.told other hbefore
  · rwa [List.mem_singleton.mp hlast]

theorem in_directory_returns {root : String} (hroot : isAbsolute root = true)
    (howned : archive.owned = true) :
    in_directory root (pure ()) ⟨archive, []⟩ = (.ok (), ⟨archive, []⟩) := by
  have hruns : Runs True (fun a => a = archive) (in_directory root (pure ()))
      (fun _ a => a = archive) fun _ _ => False :=
    Runs.in_directory (fun _ => hroot) (fun _ _ h => h ▸ howned) (fun _ h => h) (fun _ _ h => h)
      (fun _ _ h => h.elim)
      (fun _ _ _ hnot _ => hnot trivial) fun _ => Runs.pure fun _ h => h.1
  obtain ⟨hvalue, hfail⟩ := hruns ⟨archive, []⟩ ⟨rfl, fun _ => rfl⟩
  cases hcase : in_directory root (pure ()) ⟨archive, []⟩ with
  | mk result process =>
    cases result with
    | ok value =>
      obtain ⟨hsame, hfates⟩ := hvalue value process hcase
      obtain ⟨files, fates⟩ := process
      obtain rfl : files = archive := hsame
      obtain rfl : fates = [] := hfates trivial
      rfl
    | error failure => exact (hfail failure process hcase).elim

theorem Manual.checked_returns {α : Type} {result : Except Failure α} {a : α} (h : result = .ok a) :
    Manual.checked result w = (.ok a, w) := by
  rw [h]
  rfl

theorem Manual.on_archive_returns {α : Type} {call : Call α} {a : α}
    (h : call w.process = (.ok a, w.process)) :
    Manual.on_archive call w = (.ok a, w) := by
  simp only [Manual.on_archive, h, Except.mapError]

end Calls

section Loops

variable [Unicode] [Datetime] {plan next : ManualPlan} {task : SourceTask}
  {done : List ManualEvent} {clock : Now}
  {epoch : Binary64} {resume : Json}

/-- What the first loop is to find for a task. -/
def Remembers (done : List ManualEvent) (resume : Json) (task : SourceTask)
    (cached : Option (Json × Binary64)) : Prop :=
  ∀ old ∈ done, old.source = task.source → ∃ json age, cached = some (json, age) ∧
    Retells (cached_event resume task json age) old

theorem archived_renewed {result : SourceResult} {snapshot : Json} : Effect.Triple (Renewed done)
    (archived clock plan epoch task result snapshot)
      (fun event w => Renewed done w ∧ event.source = task.source)
    (fun _ w => Renewed done w) := by
  refine Effect.Triple.bind
    (Effect.Triple.weaken (Manual.checked_spec _) (fun _ h => h) (fun _ _ h => h.1)
      fun _ _ h => h) fun age => ?_
  refine Effect.Triple.bind
    (Effect.Triple.weaken (Manual.checked_spec _) (fun _ h => h) (fun _ _ h => h.1)
      fun _ _ h => h) fun _ => ?_
  refine Effect.Triple.bind
    (Effect.Triple.weaken (Manual.checked_spec _) (fun _ h => h) (fun _ _ h => h.1)
      fun _ _ h => h) fun entry => ?_
  refine Effect.Triple.bind (R := fun _ w => Renewed done w) ?_ fun token => ?_
  · exact fun w h => Effect.Triple.returns rfl ⟨h.spared, h.told⟩
  exact Effect.Triple.bind (on_archive_renewed _) fun identity =>
    Effect.Triple.pure fun w h => ⟨h, rfl⟩

omit [Datetime] in
/-- The requests of an execution are those of its own source. -/
theorem Renewed.executed {w : Workshop} {session : Session} (h : Renewed done w)
    (hnew : ∀ old ∈ done, old.source ≠ task.source) (haccepted : task.watch.Accepts session.trace) :
    Renewed done
      { w with runtime := session.runtime, executions := w.executions ++ [session.trace] } := by
  refine ⟨?_, h.told⟩
  intro trace htrace context resource remaining hevent old hold
  rcases List.mem_append.mp htrace with hbefore | hlast
  · exact h.spared trace hbefore context resource remaining hevent old hold
  · obtain rfl := List.mem_singleton.mp hlast
    obtain ⟨hcontext, hresource⟩ := dispatched_own haccepted hevent
    rw [hcontext, hresource]
    exact ⟨(hnew old hold).symm, (hnew old hold).symm⟩

variable [Stack]

theorem executed_renewed (hnew : ∀ old ∈ done, old.source ≠ task.source) :
    Effect.Triple (Renewed done) (Manual.executed clock task) (fun _ w => Renewed done w) fun _ w =>
      Renewed done w :=
  Manual.executed_spec (fun _ _ _ h hconcluded => h.executed hnew hconcluded.session.accepted)
    fun _ _ _ h hbroken => h.executed hnew hbroken.1.accepted

theorem run_source_renewed {cached : Option (Json × Binary64)}
    (hremembers : Remembers done resume task cached) :
    Effect.Triple (Renewed done) (run_source clock plan epoch resume task cached)
      (fun event w => Renewed done w ∧ ∀ old ∈ done, event.source = old.source → Retells event old)
      (fun _ w => Renewed done w) := by
  cases cached with
  | some found =>
    refine Effect.Triple.pure fun w h => ⟨h, fun old hold hsource => ?_⟩
    obtain ⟨json, age, hfound, hretells⟩ := hremembers old hold hsource.symm
    obtain rfl := Option.some.inj hfound
    exact hretells
  | none =>
    have hnew : ∀ old ∈ done, old.source ≠ task.source := by
      intro old hold hsource
      obtain ⟨_, _, hfound, _⟩ := hremembers old hold hsource
      cases hfound
    refine Effect.Triple.bind (executed_renewed hnew) fun result => ?_
    split
    · exact Effect.Triple.weaken archived_renewed (fun _ h => h)
        (fun _ _ h => ⟨h.1,
          fun old hold hsource => absurd (hsource.symm.trans h.2) (hnew old hold)⟩) fun _ _ h => h
    · exact Effect.Triple.pure fun w h =>
        ⟨h, fun old hold hsource => absurd hsource.symm (hnew old hold)⟩

theorem run_sources_renewed (pairs : List (SourceTask × Option (Json × Binary64)))
    (hremembers : ∀ pair ∈ pairs, Remembers done resume pair.1 pair.2) :
    Effect.Triple (Renewed done)
      (run_sources clock plan epoch resume pairs) (fun _ w => Renewed done w)
        (fun _ w => Renewed done w) := by
  induction pairs with
  | nil => exact Effect.Triple.pure fun w h => h
  | cons pair pairs ih =>
    obtain ⟨hfirst, hrest⟩ := List.forall_mem_cons.mp hremembers
    refine Effect.Triple.bind (run_source_renewed hfirst) fun event => ?_
    refine Effect.Triple.bind
      (Manual.tell_spec (fun w h => h.1.told_event h.2) fun w h => h.1.told_event h.2)
      fun _ => ?_
    exact Effect.Triple.bind (ih hrest) fun events => Effect.Triple.pure fun w h => h

end Loops

section Complete

variable [Unicode] [Datetime] {plan next : ManualPlan} {task : SourceTask}
  {done : List ManualEvent} {clock : Now}
  {epoch : Binary64} {resume : Json} {archive : Archive} {old : ManualEvent} {w : Workshop}

/-- A fresh descriptor of a stored checkpoint is resumed. -/
theorem resumed_returns {entry : Value} {age : Binary64}
    (hentry : Entrusted plan task archive old entry)
    (hkey : task.source ∈ resume.entries.map Prod.fst)
    (hitem : resume.item task.source = old.resume) (hage : age_of epoch old.captured_at = .ok age)
    (hpast : 0 ≤ age.value) (hfresh : age.value < plan.max_age_seconds.getD 0)
    (hprocess : w.process = ⟨archive, []⟩) :
    resumed clock plan epoch resume task w = (.ok (some (entry.json, age)), w) := by
  have hload : load_checkpoint clock plan.trusted_issuers plan.archive (old.resume.item "request")
      (old.resume.item "identity") w.process = (.ok entry.json, w.process) := by
    rw [hprocess]
    exact hentry.loads clock
  rw [hentry.captured_at] at hage
  unfold resumed
  rw [if_pos hkey, hitem]
  rw [Effect.bind_apply, Manual.checked_returns (demand_holds hentry.keys)]
  dsimp only
  rw [Effect.bind_apply, Manual.on_archive_returns hload]
  dsimp only
  rw [Effect.bind_apply, Manual.checked_returns (demand_holds hentry.resumable)]
  dsimp only
  rw [Effect.bind_apply, Manual.checked_returns hage]
  dsimp only
  rw [Effect.bind_apply, Manual.checked_returns (demand_holds hpast)]
  dsimp only
  rw [if_pos hfresh]
  rfl

/-- The first loop, where it resumes every source. -/
theorem resumes_returns (tasks : List SourceTask) (h : ∀ task ∈ tasks, ∃ found,
      resumed clock plan epoch resume task w = (.ok (some found), w)) :
    ∃ cached, resumes clock plan epoch resume tasks w = (.ok cached, w) ∧
      cached.map Prod.fst = tasks ∧ ∀ pair ∈ cached, ∃ found, pair.2 = some found := by
  induction tasks with
  | nil => exact ⟨[], rfl, rfl, List.forall_mem_nil _⟩
  | cons task tasks ih =>
    obtain ⟨⟨found, hfirst⟩, hrest⟩ := List.forall_mem_cons.mp h
    obtain ⟨cached, hresumes, htasks, hfound⟩ := ih hrest
    refine ⟨(task, some found) :: cached, ?_, congrArg _ htasks,
      List.forall_mem_cons.mpr ⟨⟨found, rfl⟩, hfound⟩⟩
    rw [resumes, Effect.bind_apply, hfirst]
    dsimp only
    rw [Effect.bind_apply, hresumes]
    rfl

theorem Continues.plannable {before : Binary64} (h : Continues plan next done epoch)
    (hplan : Plannable plan before) (hbacking : Backing plan archive done) :
    Plannable next epoch := by
  have hsources : next.sources = plan.sources := congrArg (List.map SourceTask.source) h.tasks
  obtain ⟨max_age, hmax, hlow, hhigh, _⟩ := h.fresh
  refine ⟨?_, ?_, ?_, ⟨max_age, hmax, hlow, hhigh⟩, h.now, ?_, ?_, ?_, ?_⟩
  · rw [h.tasks, hsources]
    exact hplan.tasks
  · rw [h.tasks]
    exact hplan.authorized
  · rw [enrolled, h.tasks, h.issuer, h.key, h.trusted_issuers]
    exact hplan.enrolled
  · rw [h.contexts, hsources]
    exact hplan.contexts
  · rw [h.contexts]
    exact hplan.aliases
  · rw [h.descriptors]
    exact hbacking.descriptors.2
  · rw [h.descriptors, hsources]
    refine ⟨rfl, fun source hsource => ?_⟩
    obtain ⟨event, hevent, rfl⟩ := List.mem_map.mp ((descriptors_of_keys source).mp hsource)
    obtain ⟨task, htask, entry, hentry⟩ := hbacking.backed event hevent
    exact hentry.source ▸ List.mem_map_of_mem htask

variable [Stack]

/-- The second loop, where every source is resumed. -/
theorem run_sources_returns (clock : Now) (plan : ManualPlan) (epoch : Binary64) (resume : Json)
    (pairs : List (SourceTask × Option (Json × Binary64)))
    (h : ∀ pair ∈ pairs, ∃ found, pair.2 = some found) (haccepts : ∀ n, w.accepts n = true) :
    ∃ events, run_sources clock plan epoch resume pairs w =
      (.ok events, { w with told := w.told ++ events }) ∧
        events.map ManualEvent.source = (pairs.map Prod.fst).map SourceTask.source ∧
      events.all ManualEvent.complete = true := by
  induction pairs generalizing w with
  | nil =>
    refine ⟨[], ?_, rfl, rfl⟩
    rw [run_sources, List.append_nil]
    rfl
  | cons pair pairs ih =>
    obtain ⟨task, cached⟩ := pair
    obtain ⟨⟨⟨json, age⟩, rfl⟩, hrest⟩ := List.forall_mem_cons.mp h
    obtain ⟨events, hrun, hsources, hcomplete⟩ :=
      ih (w := { w with told := w.told ++ [cached_event resume task json age] }) hrest haccepts
    refine ⟨cached_event resume task json age :: events, ?_, congrArg _ hsources, hcomplete⟩
    have htell : Manual.tell (cached_event resume task json age) w =
        (.ok (), { w with told := w.told ++ [cached_event resume task json age] }) := by
      simp [Manual.tell, haccepts]
    rw [run_sources, Effect.bind_apply, run_source, Effect.pure_apply]
    dsimp only
    rw [Effect.bind_apply, htell]
    dsimp only
    rw [Effect.bind_apply, hrun]
    dsimp only
    rw [Effect.pure_apply, List.append_assoc]
    rfl

/-- A run that takes up a complete one executes nothing, and is complete again. -/
theorem run_manual_returns {before : Binary64} (hcontinues : Continues plan next done epoch)
    (hplan : Plannable plan before) (hbacking : Backing plan archive done)
    (hdone : done.map ManualEvent.source = plan.sources) (hprocess : w.process = ⟨archive, []⟩)
    (haccepts : ∀ n, w.accepts n = true) : ∃ report events, run_manual clock next w =
      (.ok report, { w with told := w.told ++ events }) ∧ report.complete = true ∧
      events.map ManualEvent.source = plan.sources := by
  have hentries : ∀ task ∈ plan.tasks, ∃ old ∈ done, old.source = task.source ∧
      ∃ entry, Entrusted next task archive old entry := by
    intro task htask
    have hplanned : task.source ∈ done.map ManualEvent.source := by
      rw [hdone]
      exact List.mem_map_of_mem htask
    obtain ⟨old, hold, hsource⟩ := List.mem_map.mp hplanned
    obtain ⟨other, hother, entry, hentry⟩ := hbacking.backed old hold
    obtain rfl : other = task :=
      List.inj_on_of_nodup_map hplan.tasks.2 hother htask (hentry.source.symm.trans hsource)
    exact ⟨old, hold, hsource, entry, hcontinues.entrusted hentry⟩
  have hresumed : ∀ task ∈ plan.tasks, ∃ found,
      resumed clock next epoch (descriptors_of done) task w = (.ok (some found), w) := by
    intro task htask
    obtain ⟨old, hold, hsource, entry, hentry⟩ := hentries task htask
    obtain ⟨age, hage, hpast, hfresh⟩ := hcontinues.aged hold
    have hitem : (descriptors_of done).item task.source = old.resume :=
      hsource ▸ descriptors_of_item hbacking.distinct hold
    have hkey : task.source ∈ (descriptors_of done).entries.map Prod.fst :=
      (descriptors_of_keys _).mpr (hsource ▸ List.mem_map_of_mem hold)
    exact ⟨(entry.json, age), resumed_returns hentry hkey hitem hage hpast hfresh hprocess⟩
  obtain ⟨task, htask⟩ := List.exists_mem_of_ne_nil _ hplan.tasks.1
  obtain ⟨_, _, _, entry, hentry⟩ := hentries task htask
  have harguments : manual_arguments next = .ok (epoch, descriptors_of done) :=
    manual_arguments_ok.mpr ⟨hcontinues.plannable hplan hbacking, hcontinues.descriptors.symm⟩
  have hdirectory : in_directory next.archive (pure ()) w.process = (.ok (), w.process) := by
    rw [hprocess]
    exact in_directory_returns hentry.absolute hentry.owned
  obtain ⟨cached, hresumes, htasks, hfound⟩ := resumes_returns plan.tasks hresumed
  obtain ⟨events, hrun, hsources, hcomplete⟩ :=
    run_sources_returns clock next epoch (descriptors_of done) cached hfound haccepts
  rw [htasks] at hsources
  refine ⟨⟨events.all ManualEvent.complete, next.sources, events,
    next.tasks.all SourceTask.synthetic⟩, events, ?_, hcomplete, hsources⟩
  rw [run_manual, Effect.bind_apply, Manual.checked_returns harguments]
  dsimp only
  rw [Effect.bind_apply, Manual.on_archive_returns hdirectory]
  dsimp only
  rw [Effect.bind_apply, hcontinues.tasks, hresumes]
  dsimp only
  rw [Effect.bind_apply, hrun]
  rfl

end Complete

section Runs

variable [Unicode] [Datetime] {plan next : ManualPlan} {done : List ManualEvent} {epoch : Binary64}
  {start : Archive}

/-- What a run leaves as complete. -/
theorem Told.backing {ending : Except Halt ManualReport} {w : Workshop}
    (h : Told plan start ending w) :
    Backing plan w.process.archive (w.told.filter ManualEvent.complete) := by
  refine ⟨?_, fun event hevent => ?_⟩
  · rcases h.vouched with ⟨_, _, hnothing⟩ | ⟨⟨_, hplan⟩, _⟩
    · rw [hnothing]
      exact List.nodup_nil
    · have hsub :
          ((w.told.filter ManualEvent.complete).map ManualEvent.source).Sublist plan.sources :=
        (List.filter_sublist.map _).trans h.order.sublist
      exact hsub.nodup hplan.tasks.2
  · obtain ⟨htold, hcomplete⟩ := List.mem_filter.mp hevent
    exact h.backed event htold hcomplete

variable [Stack]

/-- A later run neither executes nor changes what was complete. -/
theorem run_manual_renewed (clock : Now) (hcontinues : Continues plan next done epoch)
    (hbacking : Backing plan start done) (hsound : ∃ saved, Sound saved start) :
    Effect.Triple (Idle start) (run_manual clock next)
      (fun _ w => Renewed done w) (fun _ w => Renewed done w) := by
  have hidle : ∀ w, Idle start w → Renewed done w := by
    rintro w ⟨_, hexecutions, htold⟩
    refine ⟨?_, ?_⟩
    · rw [hexecutions]
      exact List.forall_mem_nil _
    · rw [htold]
      exact List.forall_mem_nil _
  refine run_manual_rule hsound (fun _ => hidle) ?_
  intro epoch' cached hplan _ _ _ hprepared
  obtain rfl := Except.ok.inj (hcontinues.now.symm.trans hplan.now)
  rw [hcontinues.descriptors] at hprepared ⊢
  exact Effect.Triple.weaken (run_sources_renewed cached fun pair hpair old hold hsource =>
    (hprepared pair hpair).retells hcontinues hbacking hold hsource) hidle
    (fun _ _ h => h) fun _ _ h => h

/-- Whatever a run has told before it ended, a later run takes up from its descriptors: what was
    complete is told again as it was, without a request of its source, and where everything was
    complete nothing is executed at all. -/
theorem manual_runs_resumed (owned : Bool) (calls : List Invocation) (clock : Now)
    (plan : ManualPlan) (fates : List Fate) (runtime : ExecutionRuntime) (tokens : Nat → String)
    (accepts : Nat → Bool) :
    let run :=
      run_manual clock plan (.start (history (empty owned) calls) fates runtime tokens accepts)
    let left := settle (ended run.1) run.2.process.archive
    let done := run.2.told.filter ManualEvent.complete
    ((descriptors_of done).WellFormed ∧
      copy_metadata (descriptors_of done) = .ok (descriptors_of done)) ∧
    ∀ (more : List Invocation) (clock' : Now) (next : ManualPlan) (epoch : Binary64)
      (runtime' : ExecutionRuntime) (tokens' : Nat → String) (accepts' : Nat → Bool),
      Continues plan next done epoch →
      (∀ fates',
        let again := run_manual clock' next
          (.start (history left more) fates' runtime' tokens' accepts')
        (∀ event ∈ again.2.told, ∀ old ∈ done, event.source = old.source → Retells event old) ∧
        ∀ trace ∈ again.2.executions, ∀ context resource remaining,
          .callback context resource remaining ∈ trace → ∀ old ∈ done, context.source ≠ old.source ∧
            resource.source ≠ old.source) ∧
      (plan.tasks ≠ [] → done.map ManualEvent.source = plan.sources → (∀ n, accepts' n = true) →
        ∃ report events,
          run_manual clock' next (.start (history left more) [] runtime' tokens' accepts') =
            (.ok report, { Workshop.start (history left more) [] runtime' tokens' accepts' with
              told := events }) ∧
          report.complete = true ∧ events.map ManualEvent.source = plan.sources) := by
  intro run left done
  have htold : Told plan (history (empty owned) calls) run.1 run.2 :=
    run_manual_told owned calls clock plan fates runtime tokens accepts
  have hdone : Backing plan run.2.process.archive done := htold.backing
  obtain ⟨saved, hsound⟩ := htold.sound
  refine ⟨⟨hdone.descriptors.1,
    (copy_metadata_eq_ok hdone.descriptors.1).mpr ⟨hdone.descriptors.2, rfl⟩⟩, ?_⟩
  intro more clock' next epoch runtime' tokens' accepts' hcontinues
  have hextends : Extends run.2.process.archive (history left more) :=
    ((Extends.refl _).settled (ended run.1)).trans (hsound.history more).2
  have hbacking := hdone.later hextends
  constructor
  · intro fates' again
    obtain ⟨hvalue, hfail⟩ :=
      run_manual_renewed clock' hcontinues hbacking ⟨_, (hsound.history more).1⟩
        (.start (history left more) fates' runtime' tokens' accepts') ⟨rfl, rfl, rfl⟩
    have hrenewed : Renewed done again.2 := by
      rcases hagain : again.1 with halt | report
      · exact hfail halt again.2 (Prod.ext hagain rfl)
      · exact hvalue report again.2 (Prod.ext hagain rfl)
    exact ⟨hrenewed.told, hrenewed.spared⟩
  · intro htasks hall haccepts
    rcases htold.vouched with ⟨_, _, hnothing⟩ | ⟨⟨_, hplan⟩, _⟩
    · have hsources : plan.sources = [] := by
        rw [← hall]
        exact congrArg
          (fun told => (List.filter ManualEvent.complete told).map ManualEvent.source) hnothing
      exact absurd (List.map_eq_nil_iff.mp hsources) htasks
    · exact run_manual_returns hcontinues hplan hbacking hall rfl haccepts

end Runs

end discovery
