import PepeuchCluster.Discovery.Retries

namespace discovery

/-- The first reading of the clock. -/
theorem clock_spec (runtime : ExecutionRuntime) :
    Effect.Triple (· = Session.fresh runtime) Budget.clock
    (fun start s => (∃ now, runtime.monotonic 0 = .value now ∧ start = now.value) ∧
      s = (Session.fresh runtime).ticked)
    (fun raised s => (∀ now, runtime.monotonic 0 ≠ .value now) ∧ Stops raised s ∧
      s = (Session.fresh runtime).ticked) := by
  apply Act.get_bind
  rintro s rfl
  refine Effect.Triple.bind (R := fun _ t => t = { Session.fresh runtime with
    runtime := { runtime with monotonic := fun n => runtime.monotonic (n + 1) } })
    (Act.modify_spec (by rintro t rfl; rfl)) fun _ => ?_
  refine Effect.Triple.bind (R := fun _ t => t = (Session.fresh runtime).ticked)
    (Act.modify_spec (by rintro t rfl; rfl)) fun _ => ?_
  change Effect.Triple _ (Act.answered (runtime.monotonic 0) >>= fun now => pure now.value) _ _
  cases hreading : runtime.monotonic 0 with
  | value now => exact Effect.Triple.pure fun t ht => ⟨⟨now, rfl, rfl⟩, ht⟩
  | invalid => exact Effect.Triple.raise fun t ht => ⟨fun _ h => (by cases h), .inl ⟨_, rfl⟩, ht⟩
  | interrupted =>
    refine Effect.Triple.raise fun t ht =>
      ⟨fun _ h => (by cases h), .inr ⟨rfl, [], .monotonic .interrupted, ?_, rfl⟩, ht⟩
    rw [ht, ← hreading]
    rfl

section Results

variable [Unicode] {task : SourceTask} {s t : Session}

/-- The session has counted what its events tell, within the budget. -/
structure Accounted (task : SourceTask) (s : Session) : Prop where
  accepted : task.watch.Accepts s.trace
  context : (task.watch.after s.trace).context = none
  attempts : (task.watch.after s.trace).attempts = s.attempts
  requests : (task.watch.after s.trace).requests = s.requests
  elapsed : (task.watch.after s.trace).elapsed = s.elapsed
  counters : s.attempts ≤ task.policy.max_attempts ∧ s.requests ≤ task.policy.max_requests
  passed : 0 ≤ s.elapsed
  waited : ∀ waited, s.waited = some waited → 0 ≤ waited

theorem Settled.accounted (h : Settled task s) : Accounted task s := by
  obtain ⟨retry, htraced⟩ := h
  have hwatched := htraced.watched
  refine ⟨htraced.accepted, ?_, ?_, ?_, ?_, htraced.counters, ?_, htraced.waited⟩
  · rw [hwatched]
  · rw [hwatched]
  · rw [hwatched]
  · rw [hwatched]
  · exact Binary64.round_nonneg (sub_nonneg.mpr htraced.elapsed.2) htraced.elapsed.1

/-- A budget that starts with a reading of the clock. -/
theorem started {runtime : ExecutionRuntime} {now : Binary64}
    (hreading : runtime.monotonic 0 = .value now) :
    Due task 0 { (Session.fresh runtime).ticked with start := now.value, last := now.value } := by
  have htrace : ((Session.fresh runtime).ticked).trace = [] ++ [.monotonic (.value now)] := by
    rw [← hreading]
    rfl
  have helapsed : Binary64.round (now.value - now.value) = some 0 := by
    rw [sub_self, Binary64.round_zero]
  refine ⟨rfl, task.policy.valid.1, .fresh,
    ⟨?_, ?_, ⟨Nat.zero_le _, Nat.zero_le _⟩, ⟨helapsed, le_refl _⟩, ?_,
      fun _ h => by cases h⟩, .inl rfl⟩
  · change task.watch.Accepts ((Session.fresh runtime).ticked).trace
    rw [htrace]
    exact task.watch.accepts_snoc.mpr ⟨task.watch.accepts_nil, trivial⟩
  · change task.watch.after ((Session.fresh runtime).ticked).trace = _
    rw [htrace, task.watch.after_snoc]
    rfl
  · intro waited h
    exact (Option.some.inj h).le

/-- A clock that fails at once. -/
theorem unstarted {runtime : ExecutionRuntime}
    (hreading : ∀ now, runtime.monotonic 0 ≠ .value now) :
    Accounted task (Session.fresh runtime).ticked := by
  have htrace : ((Session.fresh runtime).ticked).trace =
      [] ++ [.monotonic (runtime.monotonic 0)] := rfl
  have hafter : task.watch.after ((Session.fresh runtime).ticked).trace = .initial := by
    rw [htrace, task.watch.after_snoc]
    cases h : runtime.monotonic 0 with
    | value now => exact absurd h (hreading now)
    | invalid => rfl
    | interrupted => rfl
  refine ⟨?_, ?_, ?_, ?_, ?_, ⟨Nat.zero_le _, Nat.zero_le _⟩, le_refl _, ?_⟩
  · rw [htrace]
    exact task.watch.accepts_snoc.mpr ⟨task.watch.accepts_nil, trivial⟩
  · rw [hafter]
    rfl
  · rw [hafter]
    rfl
  · rw [hafter]
    rfl
  · rw [hafter]
    rfl
  · intro waited h
    exact (Option.some.inj h).le

theorem measure_spec {reason : Reason} : Effect.Triple (Settled task) (measure task reason)
    (fun _ => Accounted task) fun raised s => raised = .interrupted ∧ Faulted task raised s := by
  unfold measure
  split
  · exact Effect.Triple.pure fun s hs => hs.accounted
  · refine Effect.Triple.bind
      (R := fun result s => (∀ remaining, result = .ok remaining → Settled task s) ∧
        ∀ raised, result = .error raised → Faulted task raised s) ?_ fun result => ?_
    · rintro s ⟨retry, htraced⟩
      refine Effect.Triple.weaken (Act.caught_spec (sample_spec htraced))
        (fun _ h => h) ?_ (fun _ _ h => h) s rfl
      rintro result t ⟨hvalue, hfail⟩
      exact ⟨fun remaining h => ⟨_, (hvalue remaining h).1⟩,
        fun raised h => (hfail raised h).faulted⟩
    · cases result with
      | ok remaining => exact Effect.Triple.pure fun s hs => (hs.1 _ rfl).accounted
      | error raised =>
        cases raised with
        | interrupted => exact Effect.Triple.raise fun s hs => ⟨rfl, hs.2 _ rfl⟩
        | _ => exact Effect.Triple.pure fun s hs => (hs.2 _ rfl).2.accounted

variable [Stack]

/-- What comes out of an execution instead of a result: an interrupt that has just come, or the
    error of a result that cannot be built, as the sum of its waits is too large or the snapshot of
    its last attempt too deep. -/
def Escapes (task : SourceTask) (raised : Raised) (s : Session) : Prop :=
  raised = .interrupted ∧ Interrupted s.trace ∨ raised = .value_error ∧
    (s.waited = none ∨ ∃ snapshot wellFormed, .returned ⟨task.source, s.attempts⟩
      (.ok (.observation snapshot wellFormed (some true))) ∈ s.trace ∧
      Stack.reports snapshot = false)

/-- An execution without a result. -/
def BrokenOff (task : SourceTask) (raised : Raised) (s : Session) : Prop :=
  Accounted task s ∧ Escapes task raised s

theorem Faulted.broken {raised : Raised} (h : Faulted task raised s)
    (hraised : ∀ reason, raised ≠ .execution_error reason) : BrokenOff task raised s := by
  obtain ⟨hstops, hsettled⟩ := h
  refine ⟨hsettled.accounted, .inl (hstops.resolve_left ?_)⟩
  rintro ⟨reason, h⟩
  exact hraised reason h

variable [Datetime] {now : Now}

/-- A result is checked again when it is built. What the engine found passes, unless the sum of its
    waits is too large or its snapshot too deep. -/
theorem source_result_cases (now : Now) (task : SourceTask) (result : SourceResult)
    (hsource : result.source = task.source) (hselection : result.selection = task.selection)
    (hresources : result.resources = task.resources)
    (hattempts : result.attempts ≤ result.policy.max_attempts)
    (hrequests : result.requests ≤ result.policy.max_requests)
    (helapsed : 0 ≤ result.elapsed_seconds)
    (hwait : ∀ waited, result.wait_seconds = some waited → 0 ≤ waited)
    (hpositive : result.status = .success ∨ result.status = .unchanged → result.complete = true ∧
      result.reason = none ∧ task.resources ⊆ result.policy.resources ∧
      ∃ snapshot, result.snapshot = some snapshot ∧ Validated now task snapshot)
    (hother : ¬ (result.status = .success ∨ result.status = .unchanged) →
      result.complete = false ∧ result.snapshot = none ∧ result.reason ≠ none) :
    source_result now result = .ok result ∧
      (∃ waited, result.wait_seconds = some waited ∧ 0 ≤ waited) ∨
      ∃ text, source_result now result = .error (.value_error text) ∧
        (result.wait_seconds = none ∨ ∃ snapshot, result.snapshot = some snapshot ∧
          Stack.reports snapshot = false) := by
  obtain ⟨hselected, hplanned, _⟩ := task.valid
  obtain ⟨source, selection, resources, status, reason, last_error, attempts, requests, elapsed,
    waiting, policy, idempotent, synthetic, complete, observed⟩ := result
  dsimp only at hsource hselection hresources hattempts hrequests helapsed hwait hpositive hother
  subst hsource hselection hresources
  unfold source_result
  dsimp only
  rw [hselected, Except.ok_bind, hplanned, Except.ok_bind, demand_holds ⟨hattempts, hrequests⟩,
    Except.ok_bind, demand_holds helapsed, Except.ok_bind]
  cases waiting with
  | none => exact .inr ⟨_, rfl, .inl rfl⟩
  | some waited =>
    have hnonneg := hwait waited rfl
    rw [demand_holds ⟨waited, rfl, hnonneg⟩, Except.ok_bind]
    split
    · next hstatus =>
      obtain ⟨hcomplete, hreason, hallowed, snapshot, rfl, hvalidated⟩ := hpositive hstatus
      dsimp only
      rw [demand_holds ⟨hcomplete, hreason⟩, Except.ok_bind, demand_holds hallowed, Except.ok_bind]
      cases hroom : Stack.reports snapshot with
      | false => exact .inr ⟨_, rfl, .inr ⟨snapshot, rfl, hroom⟩⟩
      | true =>
        rw [demand_holds rfl, Except.ok_bind, hvalidated]
        exact .inl ⟨rfl, waited, rfl, hnonneg⟩
    · next hstatus =>
      rw [demand_holds (hother hstatus), Except.ok_bind]
      exact .inl ⟨rfl, waited, rfl, hnonneg⟩

/-- How an execution has ended: a snapshot within the budget, or a reason. -/
structure Concluded (now : Now) (task : SourceTask) (result : SourceResult)
    (s : Session) : Prop where
  session : Accounted task s
  plan : result.source = task.source ∧ result.selection = task.selection ∧
    result.resources = task.resources ∧ result.policy = task.policy ∧
    result.idempotent = task.idempotent ∧ result.synthetic = task.synthetic
  counters : result.attempts = s.attempts ∧ result.requests = s.requests ∧
    result.elapsed_seconds = s.elapsed ∧ result.wait_seconds = s.waited
  waited : ∃ waited, result.wait_seconds = some waited ∧ 0 ≤ waited
  refused : result.snapshot = none → (result.status = .deferred ∨ result.status = .failed) ∧
    result.reason ≠ none ∧ result.complete = false
  published : ∀ snapshot, result.snapshot = some snapshot → result.status = .success ∧
    result.reason = none ∧ result.complete = true ∧
    result.elapsed_seconds < task.policy.total_seconds.value ∧
    task.resources ⊆ task.policy.resources ∧ Delivered now task result.attempts snapshot s

/-- What publishes nothing can be reported as long as its times are numbers. -/
theorem finish_refused {verdict : Verdict} (h : verdict.Refused) :
    Effect.Triple (Accounted task) (finish now task verdict) (Concluded now task)
      (BrokenOff task) := by
  obtain ⟨hsnapshot, hstatus, hreason⟩ := h
  have hother : ¬ (verdict.status = .success ∨ verdict.status = .unchanged) := by
    rcases hstatus with hstatus | hstatus <;> simp [hstatus]
  intro s hs
  have hresult := source_result_cases now task (report task verdict s) rfl rfl rfl
    hs.counters.1 hs.counters.2 hs.passed hs.waited (fun hpositive => absurd hpositive hother)
    fun _ => ⟨decide_eq_false hother, hsnapshot, hreason⟩
  rcases hresult with ⟨hresult, hwaited⟩ | ⟨text, hresult, hescapes⟩
  · have hfinish : finish now task verdict s = (.ok (report task verdict s), s) := by
      simp only [finish, Act.get, Effect.bind_apply, hresult, Except.mapError,
        Effect.ofExcept, if_neg hother, Effect.pure_apply]
    apply Effect.Triple.returns hfinish
    refine ⟨hs, ⟨rfl, rfl, rfl, rfl, rfl, rfl⟩, ⟨rfl, rfl, rfl, rfl⟩, hwaited, ?_, ?_⟩
    · exact fun _ => ⟨hstatus, hreason, decide_eq_false hother⟩
    · intro snapshot hsome
      cases hsnapshot.symm.trans hsome
  · have hfinish : finish now task verdict s = (.error .value_error, s) := by
      simp only [finish, Act.get, Effect.bind_apply, hresult, Except.mapError,
        Effect.ofExcept, Failure.raised]
    apply Effect.Triple.fails hfinish
    refine ⟨hs, .inr ⟨rfl, .inl (hescapes.resolve_right ?_)⟩⟩
    rintro ⟨snapshot, hsome, _⟩
    cases hsnapshot.symm.trans hsome

/-- A snapshot is published when there is time left after all the checks. -/
theorem finish_success {n : Nat} {snapshot : Json}
    (hallowed : task.resources ⊆ task.policy.resources) :
    Effect.Triple (fun s => Settled task s ∧ Delivered now task n snapshot s)
      (finish now task ⟨.success, none, some snapshot⟩) (Concluded now task)
      fun raised s => Faulted task raised s ∨ BrokenOff task raised s := by
  apply Act.get_bind
  rintro s ⟨hsettled, hdelivered⟩
  have hs := hsettled.accounted
  obtain ⟨retry, htraced⟩ := hsettled
  have hresult :=
    source_result_cases now task (report task ⟨.success, none, some snapshot⟩ s) rfl rfl rfl
      hs.counters.1 hs.counters.2 hs.passed hs.waited
      (fun _ => ⟨rfl, rfl, hallowed, snapshot, rfl, hdelivered.validated⟩) fun hother =>
        absurd (Or.inl rfl) hother
  rcases hresult with ⟨hresult, hwaited⟩ | ⟨text, hresult, hescapes⟩
  · rw [hresult]
    refine Effect.Triple.bind
      (R := fun result t => t = s ∧ result = report task ⟨.success, none, some snapshot⟩ s)
      (Effect.Triple.ofExcept ?_ ?_) fun result => ?_
    · exact fun t result ht hok => ⟨ht, (Except.ok.inj hok).symm⟩
    · rintro t raised _ ⟨⟩
    rw [if_pos (Or.inl rfl)]
    refine Effect.Triple.bind
      (R := fun _ t => Settled task t ∧ s.Steady t ∧ 0 < t.left task.policy ∧
        result = report task ⟨.success, none, some snapshot⟩ s) ?_ fun _ => Act.get_bind ?_
    · rintro t ⟨rfl, hreport⟩
      refine Effect.Triple.weaken (check_time_spec htraced)
        (fun _ h => h) ?_ (fun _ _ h => .inl h.faulted) t rfl
      rintro _ u ⟨hread, hsteady, _, htime⟩
      exact ⟨⟨_, hread⟩, hsteady, htime, hreport⟩
    rintro t ⟨ht, hsteady, htime, rfl⟩
    apply Effect.Triple.pure
    rintro u rfl
    refine ⟨ht.accounted, ⟨rfl, rfl, rfl, rfl, rfl, rfl⟩,
      ⟨hsteady.attempts.symm, hsteady.requests.symm, rfl, hsteady.waited.symm⟩, hwaited,
        fun h => ?_, ?_⟩
    · cases h
    · intro observed hobserved
      obtain rfl := Option.some.inj hobserved
      obtain rfl := hdelivered.attempts
      exact ⟨rfl, rfl, rfl, remaining_pos htime, hallowed, hdelivered.steady hsteady⟩
  · -- The error of the result is no `ExecutionError`.
    rw [hresult]
    refine Effect.Triple.bind (R := fun _ _ => False) (Effect.Triple.ofExcept ?_ ?_)
      fun result => ?_
    · rintro t result _ ⟨⟩
    · rintro t raised rfl hraised
      obtain rfl := Except.error.inj hraised
      refine .inr ⟨hs, .inr ⟨rfl, hescapes.imp_right ?_⟩⟩
      rintro ⟨observed, hobserved, hdeep⟩
      obtain rfl := Option.some.inj hobserved
      obtain ⟨wellFormed, hreturned⟩ := hdelivered.returned
      exact ⟨snapshot, wellFormed, hdelivered.attempts ▸ hreturned, hdeep⟩
    · rintro t ⟨⟩

theorem execute_spec : Effect.Triple (Due task 0) (execute now task) (Concluded now task)
    fun raised s => Faulted task raised s ∨ BrokenOff task raised s := by
  unfold execute
  split
  · next hallowed =>
    refine Effect.Triple.bind
      (Effect.Triple.weaken (attempts_spec (Nat.zero_add _)) (fun _ h => h) (fun _ _ h => h)
        fun _ _ h => .inl h) fun verdict => ?_
    rintro s ⟨hsettled, hverdict⟩
    rcases hverdict with hrefused | ⟨n, snapshot, rfl, hdelivered⟩
    · exact Effect.Triple.weaken (finish_refused hrefused) (fun _ h => h) (fun _ _ h => h)
        (fun _ _ h => .inr h) s
        hsettled.accounted
    · exact finish_success hallowed s ⟨hsettled, hdelivered⟩
  · rintro s ⟨_, _, retry, htraced, _⟩
    exact Effect.Triple.weaken (finish_refused (failed_refused _)) (fun _ h => h) (fun _ _ h => h)
      (fun _ _ h => .inr h) s (Settled.accounted ⟨retry, htraced⟩)

theorem conclude_spec {reason : Reason} : Effect.Triple (Accounted task) (conclude now task reason)
    (Concluded now task) (BrokenOff task) := by
  unfold conclude
  split
  · exact finish_refused (deferred_refused reason)
  · exact finish_refused (failed_refused reason)

theorem execute_source_spec (now : Now) (task : SourceTask) (runtime : ExecutionRuntime) :
    Effect.Triple (· = Session.fresh runtime) (execute_source now task) (Concluded now task)
      (BrokenOff task) := by
  refine Effect.Triple.bind (Act.caught_spec (clock_spec runtime)) fun clock => ?_
  cases clock with
  | error raised =>
    cases raised with
    | execution_error reason =>
      refine Effect.Triple.weaken conclude_spec ?_ (fun _ _ h => h) fun _ _ h => h
      rintro s ⟨_, hfail⟩
      obtain ⟨hreading, _, rfl⟩ := hfail _ rfl
      exact unstarted hreading
    | _ =>
      apply Effect.Triple.raise
      rintro s ⟨_, hfail⟩
      obtain ⟨hreading, hstops, rfl⟩ := hfail _ rfl
      exact ⟨unstarted hreading, .inl (hstops.resolve_left (by rintro ⟨_, ⟨⟩⟩))⟩
  | ok start =>
    refine Effect.Triple.bind (R := fun _ => Due task 0) (Act.modify_spec ?_) fun _ => ?_
    · rintro s ⟨hvalue, _⟩
      obtain ⟨⟨now, hreading, rfl⟩, rfl⟩ := hvalue start rfl
      exact started hreading
    refine Effect.Triple.bind (Act.caught_spec execute_spec) fun ending => ?_
    cases ending with
    | ok result => exact Effect.Triple.pure fun s hs => hs.1 result rfl
    | error raised =>
      cases raised with
      | execution_error reason =>
        refine Effect.Triple.bind (R := fun _ => Accounted task) ?_ fun _ => conclude_spec
        refine Effect.Triple.weaken measure_spec ?_ (fun _ _ h => h) ?_
        · rintro s ⟨_, hfail⟩
          rcases hfail _ rfl with hfaulted | ⟨_, hescapes⟩
          · exact hfaulted.2
          · rcases hescapes with ⟨⟨⟩, _⟩ | ⟨⟨⟩, _⟩
        · rintro raised s ⟨rfl, hfaulted⟩
          exact hfaulted.broken nofun
      | _ =>
        apply Effect.Triple.raise
        rintro s ⟨_, hfail⟩
        exact (hfail _ rfl).elim (fun h => h.broken nofun) id

/-- An execution ends with a result or breaks off. -/
theorem execute_source_concludes (now : Now) (task : SourceTask) (runtime : ExecutionRuntime) :
    let run := execute_source now task (.fresh runtime)
    (∃ result, run.1 = .ok result ∧ Concluded now task result run.2) ∨
      ∃ raised, run.1 = .error raised ∧ BrokenOff task raised run.2 := by
  obtain ⟨hvalue, hfail⟩ := execute_source_spec now task runtime _ rfl
  cases h : execute_source now task (.fresh runtime) with
  | mk ending s =>
    cases ending with
    | ok result => exact .inl ⟨result, rfl, hvalue result s h⟩
    | error raised => exact .inr ⟨raised, rfl, hfail raised s h⟩

end Results

section Contract

variable [Unicode] {task : SourceTask}

theorem SourceTask.after_attempts (task : SourceTask) (trace : List Event) :
    (task.watch.after trace).attempts = trace.countP Event.starts := by
  apply task.watch.after_count Watched.attempts Event.starts rfl
  intro m event
  cases event with
  | monotonic reading =>
    cases reading with
    | value now => exact (m.read_counters now.value).2.1
    | _ => rfl
  | wall_time reading => cases reading <;> rfl
  | returned context result => cases result <;> rfl
  | sleep delay ending => cases ending <;> rfl
  | _ => rfl

theorem SourceTask.after_requests (task : SourceTask) (trace : List Event) :
    (task.watch.after trace).requests = trace.countP Event.dispatches := by
  apply task.watch.after_count Watched.requests Event.dispatches rfl
  intro m event
  cases event with
  | monotonic reading =>
    cases reading with
    | value now => exact (m.read_counters now.value).2.2
    | _ => rfl
  | wall_time reading => cases reading <;> rfl
  | returned context result => cases result <;> rfl
  | sleep delay ending => cases ending <;> rfl
  | _ => rfl

/-- What the events of an execution tell is within the budget. -/
theorem Accounted.within {s : Session} (h : Accounted task s) :
    s.trace.countP Event.starts = s.attempts ∧
      s.trace.countP Event.starts ≤ task.policy.max_attempts ∧ s.trace.countP Event.dispatches =
        s.requests ∧ s.trace.countP Event.dispatches ≤ task.policy.max_requests := by
  rw [← task.after_attempts, ← task.after_requests, h.attempts, h.requests]
  exact ⟨rfl, h.counters.1, rfl, h.counters.2⟩

/-- What an open context is. -/
def Watched.Own (task : SourceTask) (m : Watched) : Prop :=
  ∀ context, m.context = some context → context = ⟨task.source, m.attempts⟩

theorem next_own (m : Watched) (event : Event) (h : m.Own task)
    (hallowed : Watched.Allowed task m event) :
    (Watched.next task m event).Own task := by
  cases event with
  | operation context =>
    intro other hother
    obtain rfl := Option.some.inj hother
    exact hallowed.1
  | returned context result =>
    cases result <;>
    · intro other hother
      cases hother
  | monotonic reading =>
    cases reading with
    | value now =>
      obtain ⟨hcontext, hattempts, _⟩ := m.read_counters now.value
      intro other hother
      exact (h other (hcontext.symm.trans hother)).trans (congrArg _ hattempts.symm)
    | _ => exact h
  | wall_time reading => cases reading <;> exact h
  | sleep delay ending => cases ending <;> exact h
  | _ => exact h

/-- A request of an accepted run is one of the planned requests of its task. -/
theorem dispatched_own {trace : List Event} {context : AttemptContext}
    {resource : ResourceRef} {remaining : ℚ} (h : task.watch.Accepts trace)
    (hevent : .callback context resource remaining ∈ trace) :
    context.source = task.source ∧ resource.source = task.source := by
  obtain ⟨m, hown, hcontext, _, hplanned, _⟩ :=
    h.allowed_mem (P := Watched.Own task) (fun _ h => by cases h) next_own hevent
  refine ⟨congrArg AttemptContext.source (hown context hcontext), ?_⟩
  have hresources := task.valid.2.1
  simp only [planned_resources, Except.bind_eq_ok, demand_eq_ok] at hresources
  obtain ⟨_, ⟨_, hsource, _⟩, _⟩ := hresources
  exact hsource resource hplanned

variable [Stack]

/-- Whatever the operation, the clocks, the sleep and the jitter do: all that an execution does is
    allowed when it is done, its result counts the attempts, the requests and the time that its
    surroundings saw, and it ends without a result only where it is interrupted or where its result
    cannot be built. -/
theorem execution_contract [Datetime] (now : Now) (task : SourceTask) (runtime : ExecutionRuntime) :
    let run := execute_source now task (.fresh runtime)
    let trace := run.2.trace
    task.watch.Accepts trace ∧
    trace.countP Event.starts ≤ task.policy.max_attempts ∧
    trace.countP Event.dispatches ≤ task.policy.max_requests ∧
    (∀ result, run.1 = .ok result →
      trace.countP Event.starts = result.attempts ∧
      trace.countP Event.dispatches = result.requests ∧
      (task.watch.after trace).elapsed = result.elapsed_seconds) ∧
    ∀ raised, run.1 = .error raised → Escapes task raised run.2 := by
  intro run trace
  rcases execute_source_concludes now task runtime with ⟨result, hresult, h⟩ |
    ⟨raised, hraised, hbroken, hescapes⟩
  · obtain ⟨hstarts, hattempts, hdispatches, hrequests⟩ := h.session.within
    refine ⟨h.session.accepted, hattempts, hrequests, ?_, ?_⟩
    · intro other hother
      obtain rfl := Except.ok.inj (hresult.symm.trans hother)
      exact ⟨hstarts.trans h.counters.1.symm, hdispatches.trans h.counters.2.1.symm,
        h.session.elapsed.trans h.counters.2.2.1.symm⟩
    · intro raised hraised
      cases hresult.symm.trans hraised
  · obtain ⟨_, hattempts, _, hrequests⟩ := hbroken.within
    refine ⟨hbroken.accepted, hattempts, hrequests, ?_, ?_⟩
    · intro result hresult
      cases hraised.symm.trans hresult
    · intro other hother
      obtain rfl := Except.error.inj (hraised.symm.trans hother)
      exact hescapes

/-- A snapshot is published only within the time budget, complete for the plan, and as the last
    attempt returned it; a result that publishes nothing has a reason. -/
theorem execution_outcome [Datetime] (now : Now) (task : SourceTask) (runtime : ExecutionRuntime) :
    let run := execute_source now task (.fresh runtime)
    (∀ result, run.1 = .ok result →
      result.source = task.source ∧ result.selection = task.selection ∧
      result.resources = task.resources ∧
      (∃ waited, result.wait_seconds = some waited ∧ 0 ≤ waited) ∧ 0 ≤ result.elapsed_seconds ∧
      ((∃ snapshot, result.snapshot = some snapshot ∧ result.status = .success ∧
        result.complete = true ∧
          result.reason = none ∧ result.elapsed_seconds < task.policy.total_seconds.value ∧
          task.resources ⊆ task.policy.resources ∧
          Observation (.str task.source) task.selection task.resources snapshot ∧
          ∃ wellFormed, .returned ⟨task.source, result.attempts⟩
            (.ok (.observation snapshot wellFormed (some true))) ∈ run.2.trace) ∨
        result.snapshot = none ∧ result.complete = false ∧
        (result.status = .deferred ∨ result.status = .failed) ∧
          result.reason ≠ none)) ∧
    ∀ raised, run.1 = .error raised → Escapes task raised run.2 := by
  intro run
  constructor
  · intro result hresult
    rcases execute_source_concludes now task runtime with ⟨other, hother, h⟩ | ⟨raised, hraised, _⟩
    · obtain rfl := Except.ok.inj (hresult.symm.trans hother)
      obtain ⟨hsource, hselection, hresources, _⟩ := h.plan
      refine ⟨hsource, hselection, hresources, h.waited, h.counters.2.2.1 ▸ h.session.passed, ?_⟩
      cases hsnapshot : result.snapshot with
      | none =>
        obtain ⟨hstatus, hreason, hcomplete⟩ := h.refused hsnapshot
        exact .inr ⟨rfl, hcomplete, hstatus, hreason⟩
      | some snapshot =>
        obtain ⟨hstatus, hreason, hcomplete, htime, hallowed, _, hvalidated,
          wellFormed, hreturned⟩ :=
          h.published snapshot hsnapshot
        have hobserved := ((validate_observation_ok wellFormed).mp hvalidated).1
        exact .inl ⟨snapshot, rfl, hstatus, hcomplete, hreason, htime, hallowed, hobserved,
          wellFormed, hreturned⟩
    · cases hresult.symm.trans hraised
  · intro raised hraised
    rcases execute_source_concludes now task runtime with ⟨result, hresult, _⟩ |
      ⟨other, hother, _, hescapes⟩
    · cases hraised.symm.trans hresult
    · obtain rfl := Except.error.inj (hraised.symm.trans hother)
      exact hescapes

variable [Datetime] {now : Now}

/-- What is known of the execution of a task, when its result and its events are known. -/
def Conforms (now : Now) (task : SourceTask) (result : SourceResult) (trace : List Event) : Prop :=
  ∃ session, Concluded now task result session ∧ session.trace = trace

/-- The tasks are executed in order, up to one that breaks off. -/
theorem execute_all_concludes (now : Now) (tasks : List SourceTask)
    (runtime : ExecutionRuntime) : ∃ outcomes, List.Forall₂ (fun task outcome =>
      Conforms now task outcome.1 outcome.2) (tasks.take outcomes.length) outcomes ∧
      (outcomes.length = tasks.length ∧
          execute_all now tasks runtime = (.ok (outcomes.map Prod.fst), outcomes.map Prod.snd) ∨
        ∃ task raised session, tasks[outcomes.length]? = some task ∧ BrokenOff task raised session ∧
          execute_all now tasks runtime =
            (.error raised, outcomes.map Prod.snd ++ [session.trace])) := by
  induction tasks generalizing runtime with
  | nil => exact ⟨[], .nil, .inl ⟨rfl, rfl⟩⟩
  | cons task tasks ih =>
    have hsource := execute_source_concludes now task runtime
    cases hexecute : execute_source now task (.fresh runtime) with
    | mk ending session =>
      rw [hexecute] at hsource
      rcases hsource with ⟨result, rfl, hconcluded⟩ | ⟨raised, rfl, hbroken⟩
      · obtain ⟨outcomes, houtcomes, hending⟩ := ih session.runtime
        refine ⟨(result, session.trace) :: outcomes, .cons ⟨session, hconcluded, rfl⟩ houtcomes, ?_⟩
        rw [execute_all, hexecute]
        rcases hending with ⟨hlength, hall⟩ | ⟨other, raised, last, hother, hbroken, hall⟩
        · refine .inl ⟨congrArg (· + 1) hlength, ?_⟩
          dsimp only
          rw [hall]
          rfl
        · refine .inr ⟨other, raised, last, hother, hbroken, ?_⟩
          dsimp only
          rw [hall]
          rfl
      · refine ⟨[], .nil, .inr ⟨task, raised, session, rfl, hbroken, ?_⟩⟩
        rw [execute_all, hexecute]
        rfl

/-- Every request of the events is one of the task's own. -/
def Apart (task : SourceTask) (trace : List Event) : Prop :=
  ∀ context resource remaining, .callback context resource remaining ∈ trace →
    context.source = task.source ∧ resource.source = task.source

omit [Stack] in
/-- What an execution that ended with a result has kept to. -/
theorem Conforms.kept {result : SourceResult} {trace : List Event}
    (h : Conforms now task result trace) :
    result.source = task.source ∧ task.watch.Accepts trace ∧
      trace.countP Event.starts = result.attempts ∧
      trace.countP Event.dispatches = result.requests ∧ Apart task trace ∧
      ∀ snapshot, result.snapshot = some snapshot →
        Observation (.str task.source) task.selection task.resources snapshot := by
  obtain ⟨session, hconcluded, rfl⟩ := h
  obtain ⟨hstarts, _, hdispatches, _⟩ := hconcluded.session.within
  refine ⟨hconcluded.plan.1, hconcluded.session.accepted, hstarts.trans hconcluded.counters.1.symm,
    hdispatches.trans hconcluded.counters.2.1.symm, ?_, ?_⟩
  · exact fun context resource remaining hevent => dispatched_own hconcluded.session.accepted hevent
  · intro snapshot hsnapshot
    obtain ⟨_, _, _, _, _, _, hvalidated, wellFormed, _⟩ := hconcluded.published snapshot hsnapshot
    exact ((validate_observation_ok wellFormed).mp hvalidated).1

/-- Sources are executed one after the other, each with its own budget and its own contract. What a
    task publishes and what it sends is of its own source alone, and another source's failure does
    not stop it: only what breaks an execution off ends the whole. A plan that is empty or names a
    source twice is refused before anything happens. -/
theorem sources_isolated (now : Now) (tasks : List SourceTask) (runtime : ExecutionRuntime) :
    (tasks ≠ [] ∧ (tasks.map SourceTask.source).Nodup →
      ∃ outcomes : List (SourceResult × List Event), List.Forall₂ (fun task outcome =>
        outcome.1.source = task.source ∧ task.watch.Accepts outcome.2 ∧
        outcome.2.countP Event.starts = outcome.1.attempts ∧
          outcome.2.countP Event.dispatches = outcome.1.requests ∧
        Apart task outcome.2 ∧ ∀ snapshot, outcome.1.snapshot = some snapshot →
          Observation (.str task.source) task.selection task.resources snapshot)
        (tasks.take outcomes.length) outcomes ∧
      (outcomes.length = tasks.length ∧
          execute_sources now tasks runtime = (.ok (outcomes.map Prod.fst), outcomes.map Prod.snd) ∨
        ∃ task raised session, tasks[outcomes.length]? = some task ∧
          execute_sources now tasks runtime =
            (.error raised, outcomes.map Prod.snd ++ [session.trace]) ∧
          task.watch.Accepts session.trace ∧ Apart task session.trace ∧
          Escapes task raised session)) ∧
    (¬ (tasks ≠ [] ∧ (tasks.map SourceTask.source).Nodup) →
      execute_sources now tasks runtime = (.error .value_error, [])) := by
  constructor
  · rintro ⟨hnonempty, hnodup⟩
    obtain ⟨outcomes, houtcomes, hending⟩ := execute_all_concludes now tasks runtime
    refine ⟨outcomes, houtcomes.imp fun _ _ h => h.kept, ?_⟩
    rw [execute_sources, if_pos ⟨hnonempty, hnodup⟩]
    rcases hending with ⟨hlength, hall⟩ | ⟨task, raised, session, htask, ⟨hsession, hescapes⟩, hall⟩
    · left
      rw [hlength, List.take_length] at houtcomes
      have hsources : (outcomes.map Prod.fst).map SourceResult.source =
          tasks.map SourceTask.source := by
        rw [List.map_map, eq_comm, ← List.forall₂_eq_eq_eq, List.forall₂_map_left_iff,
          List.forall₂_map_right_iff]
        exact houtcomes.imp fun _ _ h => h.kept.1.symm
      have hreport : execution_report (outcomes.map Prod.fst) = .ok (outcomes.map Prod.fst) := by
        rw [execution_report, if_pos]
        refine ⟨fun hnil => hnonempty ?_, hsources ▸ hnodup⟩
        rw [hnil] at hsources
        exact List.map_eq_nil_iff.mp hsources.symm
      rw [hall]
      exact ⟨hlength, Prod.ext hreport rfl⟩
    · right
      rw [hall]
      refine ⟨task, raised, session, htask, rfl, hsession.accepted, ?_, hescapes⟩
      exact fun context resource remaining hevent => dispatched_own hsession.accepted hevent
  · intro hrefused
    rw [execute_sources, if_neg hrefused]

end Contract

end discovery
