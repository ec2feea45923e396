import PepeuchCluster.Discovery.Execution
import PepeuchCluster.Effects.Triple
import PepeuchCluster.Effects.Watch

namespace discovery

/-- What is known of a failed attempt: its error, the reading of the clock that followed it and the
    reading of the wall clock. -/
structure Retry where
  failure : Option ClassifiedError
  failed_at : Option ℚ
  wall : Option Binary64

namespace Retry

def fresh : Retry := ⟨none, none, none⟩

/-- The clock is read; the first time after a failure counts. -/
def read (retry : Retry) (clock : ℚ) : Retry :=
  { retry with failed_at := if retry.failure.isSome then retry.failed_at.or (some clock)
    else retry.failed_at }

theorem read_failed_at {retry : Retry} {clock failed_at : ℚ}
    (h : (retry.read clock).failed_at = some failed_at) :
    retry.failed_at = some failed_at ∨ failed_at = clock := by
  change (if retry.failure.isSome then retry.failed_at.or (some clock) else retry.failed_at) =
    _ at h
  split at h
  · cases hbefore : retry.failed_at with
    | none =>
      rw [hbefore] at h
      exact .inr (Option.some.inj h).symm
    | some other =>
      rw [hbefore] at h
      exact .inl h
  · exact .inl h

/-- The delay that the server asks for with an error. -/
def asked (error : ClassifiedError) (wall : Option Binary64) : Option ℚ :=
  match error.retry_after with
  | none => some 0
  | some (.seconds count _) => some count
  | some info => wall.bind fun now => info.delay now

end Retry

/-- What the events of an execution tell of it: the context that is open, the attempts and requests
    so far, the first and the latest reading of the clock with the time between them, and the
    attempt that failed last. -/
structure Watched where
  context : Option AttemptContext
  attempts : Nat
  requests : Nat
  origin : Option ℚ
  clock : ℚ
  elapsed : ℚ
  retry : Retry

namespace Watched

def initial : Watched := ⟨none, 0, 0, none, 0, 0, .fresh⟩

/-- A reading of the monotonic clock. One that goes back, or too far ahead, is not believed. -/
def read (m : Watched) (now : ℚ) : Watched :=
  match m.origin with
  | none => { m with origin := some now, clock := now }
  | some origin =>
    match Binary64.round (now - origin) with
    | some elapsed =>
      if m.clock ≤ now then { m with clock := now, elapsed, retry := m.retry.read now } else m
    | none => m

theorem read_counters (m : Watched) (now : ℚ) :
    (m.read now).context = m.context ∧ (m.read now).attempts = m.attempts ∧
    (m.read now).requests = m.requests := by
  unfold read
  split
  · exact ⟨rfl, rfl, rfl⟩
  · split
    · split <;> exact ⟨rfl, rfl, rfl⟩
    · exact ⟨rfl, rfl, rfl⟩

/-- The time that is left. -/
def left (m : Watched) (policy : ExecutionPolicy) : ℚ := Budget.remaining policy m.elapsed

section Tasks

variable [Unicode]

/-- A further attempt may start: the last one failed in a way that is tried again, and as much time
    has passed as the server asks for, and as the policy says for this attempt. -/
def Rested (task : SourceTask) (m : Watched) : Prop :=
  task.idempotent = true ∧ ∃ error failed_at server passed, m.retry.failure = some error ∧
    error.retryable = true ∧ m.retry.failed_at = some failed_at ∧
    Retry.asked error m.retry.wall = some server ∧
    Binary64.round (m.clock - failed_at) = some passed ∧ server ≤ passed ∧
    min task.policy.max_delay_seconds.value
      (task.policy.backoff_seconds.value * 2 ^ (m.attempts - 1)) ≤ passed

/-- A sleep is not longer than the limit, or as long as the next number, to which the sum was
    rounded. -/
def Short (policy : ExecutionPolicy) (delay : ℚ) : Prop :=
  delay ≤ policy.max_delay_seconds.value ∨ ∃ next : Binary64, delay = next.value ∧
    ∀ x : Binary64, policy.max_delay_seconds.value < x.value → next.value ≤ x.value

def Allowed (task : SourceTask) (m : Watched) : Event → Prop
  | .operation context => context = ⟨task.source, m.attempts + 1⟩ ∧ m.context = none ∧
      m.attempts < task.policy.max_attempts ∧ 0 < m.left task.policy ∧
      (m.attempts = 0 ∨ m.Rested task)
  | .callback context resource remaining =>
    m.context = some context ∧ m.requests < task.policy.max_requests ∧
      resource ∈ task.resources ∧ resource ∈ task.policy.resources ∧
      remaining = m.left task.policy ∧ 0 < remaining
  | .sleep delay _ => m.context = none ∧ 0 < delay ∧ Short task.policy delay ∧
      delay < m.left task.policy
  | _ => True

def next (task : SourceTask) (m : Watched) : Event → Watched
  | .monotonic (.value now) => m.read now.value
  | .operation context =>
    { m with context := some context, attempts := m.attempts + 1, retry := .fresh }
  | .callback _ _ _ => { m with requests := m.requests + 1 }
  | .returned _ (.error raised) =>
    { m with
      context := none, retry := ⟨some (classify_error task.source task.policy raised), none, none⟩ }
  | .returned _ (.ok _) => { m with context := none }
  | .wall_time (.value now) => { m with retry := { m.retry with wall := some now } }
  | .sleep _ .invalid => { m with retry := .fresh }
  | _ => m

end Tasks

end Watched

/-- An operation is called. -/
def Event.starts : Event → Bool
  | .operation _ => true
  | _ => false

/-- A request is dispatched. -/
def Event.dispatches : Event → Bool
  | .callback _ _ _ => true
  | _ => false

/-- The surroundings interrupt the engine, or the operation passes an interrupt on. -/
def Event.interrupts : Event → Bool
  | .monotonic .interrupted | .wall_time .interrupted | .jitter _ .interrupted | .sleep _
      .interrupted => true
  | .returned _ (.error .interrupted) => true
  | _ => false

/-- The last event is an interrupt. -/
def Interrupted (trace : List Event) : Prop := ∃ before event, trace = before ++ [event] ∧
    event.interrupts = true

/-- The contract of the executions of a task. -/
def SourceTask.watch [Unicode] (task : SourceTask) : Watch Event Watched :=
  ⟨.initial, Watched.Allowed task, Watched.next task⟩

/-- The session after a call of the clock. -/
def Session.ticked (s : Session) : Session :=
  { s with
    runtime := { s.runtime with monotonic := fun n => s.runtime.monotonic (n + 1) }
    trace := s.trace ++ [.monotonic (s.runtime.monotonic 0)] }

/-- A reading that goes back, or so far ahead that the time since the start is too large. -/
def Session.Doubted (s : Session) (now : Binary64) : Prop :=
  s.last ≤ now.value → Binary64.round (now.value - s.start) = none

/-- A reading of the clock is believed if it goes neither back nor too far ahead. -/
theorem sample_cases (policy : ExecutionPolicy) (s : Session) :
    (∃ now elapsed, s.runtime.monotonic 0 = .value now ∧ s.last ≤ now.value ∧
      Binary64.round (now.value - s.start) = some elapsed ∧ Budget.sample policy s =
        (.ok (Budget.remaining policy elapsed), { s.ticked with last := now.value, elapsed })) ∨
    (∀ now, s.runtime.monotonic 0 = .value now → s.Doubted now) ∧ ∃ raised,
      Budget.sample policy s = (.error raised, s.ticked) ∧
      (raised = .execution_error .runtime ∨ raised = .interrupted ∧
        s.runtime.monotonic 0 = .interrupted) := by
  cases hreading : s.runtime.monotonic 0 with
  | invalid =>
    refine .inr ⟨fun now h => (by cases h), .execution_error .runtime, ?_, .inl rfl⟩
    simp [Budget.sample, Budget.clock, Act.get, Act.modify, Act.log, Act.answered, Act.refuse,
      Effect.bind_apply, Effect.raise, hreading, Session.ticked]
  | interrupted =>
    refine .inr ⟨fun now h => (by cases h), .interrupted, ?_, .inr ⟨rfl, rfl⟩⟩
    simp [Budget.sample, Budget.clock, Act.get, Act.modify, Act.log, Act.answered,
      Effect.bind_apply, Effect.raise, hreading, Session.ticked]
  | value now =>
    by_cases hlast : s.last ≤ now.value
    · cases helapsed : Binary64.round (now.value - s.start) with
      | some elapsed =>
        refine .inl ⟨now, elapsed, rfl, hlast, helapsed, ?_⟩
        simp [Budget.sample, Budget.clock, Act.get, Act.modify, Act.log, Act.answered,
          Effect.bind_apply, Effect.require, Effect.demand, hreading, hlast,
            helapsed, Session.ticked]
      | none =>
        refine .inr ⟨fun other h => ?_, .execution_error .runtime, ?_, .inl rfl⟩
        · obtain rfl := Reply.value.inj h
          exact fun _ => helapsed
        · simp [Budget.sample, Budget.clock, Act.get, Act.modify, Act.log, Act.answered,
            Effect.bind_apply, Effect.require, Effect.demand, Effect.raise, hreading, hlast,
              helapsed, Session.ticked]
    · refine .inr ⟨fun other h => ?_, .execution_error .runtime, ?_, .inl rfl⟩
      · obtain rfl := Reply.value.inj h
        exact fun hle => absurd hle hlast
      · simp [Budget.sample, Budget.clock, Act.get, Act.modify, Act.log, Act.answered,
          Effect.bind_apply, Effect.require, Effect.raise, hreading, hlast, Session.ticked]

/-- Time is left only before the limit. -/
theorem remaining_pos {policy : ExecutionPolicy} {elapsed : ℚ}
    (h : 0 < Budget.remaining policy elapsed) :
    elapsed < policy.total_seconds.value := by
  by_contra hover
  apply h.not_ge
  apply max_le (le_refl _)
  cases hround : Binary64.round (policy.total_seconds.value - elapsed) with
  | none => exact le_refl _
  | some left => exact Binary64.round_nonpos (sub_nonpos.mpr (not_lt.mp hover)) hround

/-- The time that is left when the clock was read last. -/
def Session.left (s : Session) (policy : ExecutionPolicy) : ℚ := Budget.remaining policy s.elapsed

/-- What is counted and measured. -/
def Session.budget (s : Session) : Nat × Nat × ℚ × Option ℚ × ℚ × ℚ :=
  (s.attempts, s.requests, s.elapsed, s.waited, s.start, s.last)

/-- Since `s`, the clock was read and nothing else happened that counts. -/
structure Session.Steady (s t : Session) : Prop where
  active : t.active = s.active
  attempts : t.attempts = s.attempts
  requests : t.requests = s.requests
  waited : t.waited = s.waited
  start : t.start = s.start
  last : s.last ≤ t.last
  trace : s.trace <+: t.trace

section Tracing

variable [Unicode] {task : SourceTask} {context : Option AttemptContext}
  {retry : Retry} {s t : Session}

/-- The events of a session, with what they tell of its context and of its last failure. -/
structure Traced (task : SourceTask) (context : Option AttemptContext) (retry : Retry)
    (s : Session) : Prop where
  accepted : task.watch.Accepts s.trace
  watched : task.watch.after s.trace =
    ⟨context, s.attempts, s.requests, some s.start, s.last, s.elapsed, retry⟩
  counters : s.attempts ≤ task.policy.max_attempts ∧ s.requests ≤ task.policy.max_requests
  elapsed : Binary64.round (s.last - s.start) = some s.elapsed ∧ s.start ≤ s.last
  waited : ∀ waited, s.waited = some waited → 0 ≤ waited
  failed : ∀ failed_at, retry.failed_at = some failed_at → s.start ≤ failed_at ∧ failed_at ≤ s.last

namespace Traced

/-- A change that neither the events nor the budget tell of. -/
theorem kept (h : Traced task context retry s) (htrace : t.trace = s.trace)
    (hbudget : t.budget = s.budget) :
    Traced task context retry t := by
  obtain ⟨haccepted, hwatched, hcounters, helapsed, hwaited, hfailed⟩ := h
  simp only [Session.budget, Prod.mk.injEq] at hbudget
  obtain ⟨h1, h2, h3, h4, h5, h6⟩ := hbudget
  rw [← htrace] at haccepted
  rw [← htrace, ← h1, ← h2, ← h3, ← h5, ← h6] at hwatched
  rw [← h1, ← h2] at hcounters
  rw [← h3, ← h5, ← h6] at helapsed
  rw [← h4] at hwaited
  rw [← h5, ← h6] at hfailed
  exact ⟨haccepted, hwatched, hcounters, helapsed, hwaited, hfailed⟩

theorem after_snoc (h : Traced task context retry s) (event : Event) :
    task.watch.after (s.trace ++ [event]) =
    Watched.next task
      ⟨context, s.attempts, s.requests, some s.start, s.last, s.elapsed, retry⟩ event := by
  rw [task.watch.after_snoc, h.watched]
  rfl

theorem accepts_snoc (h : Traced task context retry s) (event : Event)
    (hallowed : Watched.Allowed task
      ⟨context, s.attempts, s.requests, some s.start, s.last, s.elapsed, retry⟩ event) :
    task.watch.Accepts (s.trace ++ [event]) := by
  refine task.watch.accepts_snoc.mpr ⟨h.accepted, ?_⟩
  rw [h.watched]
  exact hallowed

/-- An event that changes no counter and no reading. -/
theorem log (h : Traced task context retry s) (event : Event) {context' : Option AttemptContext}
    {retry' : Retry} (hallowed : Watched.Allowed task
      ⟨context, s.attempts, s.requests, some s.start, s.last, s.elapsed, retry⟩ event)
    (hnext : Watched.next task ⟨context, s.attempts, s.requests, some s.start, s.last,
      s.elapsed, retry⟩ event =
      ⟨context', s.attempts, s.requests, some s.start, s.last, s.elapsed, retry'⟩)
    (hfailed : retry'.failed_at = none ∨ retry'.failed_at = retry.failed_at) :
    Traced task context' retry' { s with trace := s.trace ++ [event] } where
  accepted := h.accepts_snoc event hallowed
  watched := (h.after_snoc event).trans hnext
  counters := h.counters
  elapsed := h.elapsed
  waited := h.waited
  failed := by
    intro failed_at hat
    rcases hfailed with hnone | hsame
    · cases hnone.symm.trans hat
    · exact h.failed failed_at (hsame.symm.trans hat)

/-- A reading that is believed. -/
theorem read (h : Traced task context retry s) {now : Binary64} {elapsed : ℚ}
    (hreading : s.runtime.monotonic 0 = .value now) (hlast : s.last ≤ now.value)
    (helapsed : Binary64.round (now.value - s.start) = some elapsed) :
    Traced task context (retry.read now.value) { s.ticked with last := now.value, elapsed } where
  accepted := h.accepts_snoc _ trivial
  watched := by
    change task.watch.after (s.trace ++ [.monotonic (s.runtime.monotonic 0)]) = _
    rw [h.after_snoc, hreading]
    simp only [Watched.next, Watched.read, helapsed, if_pos hlast]
    rfl
  counters := h.counters
  elapsed := ⟨helapsed, h.elapsed.2.trans hlast⟩
  waited := h.waited
  failed := by
    intro failed_at hat
    rcases Retry.read_failed_at hat with hbefore | rfl
    · exact (h.failed failed_at hbefore).imp_right hlast.trans'
    · exact ⟨h.elapsed.2.trans hlast, le_refl _⟩

/-- A reading that is not. -/
theorem ticked (h : Traced task context retry s)
    (hdoubted : ∀ now, s.runtime.monotonic 0 = .value now → s.Doubted now) :
    Traced task context retry s.ticked where
  accepted := h.accepts_snoc _ trivial
  watched := by
    change task.watch.after (s.trace ++ [.monotonic (s.runtime.monotonic 0)]) = _
    rw [h.after_snoc]
    cases hreading : s.runtime.monotonic 0 with
    | invalid => rfl
    | interrupted => rfl
    | value now =>
      by_cases hlast : s.last ≤ now.value
      · simp only [Watched.next, Watched.read, hdoubted now hreading hlast]
        rfl
      · simp only [Watched.next, Watched.read, if_neg hlast]
        split <;> rfl
  counters := h.counters
  elapsed := h.elapsed
  waited := h.waited
  failed := h.failed

end Traced

/-- An error of the engine, or an interrupt that has just come. -/
def Stops (raised : Raised) (s : Session) : Prop :=
  (∃ reason, raised = .execution_error reason) ∨ raised = .interrupted ∧ Interrupted s.trace

/-- The engine stops where it is. -/
def Stalled (task : SourceTask) (context : Option AttemptContext) (retry : Retry) (s : Session)
    (raised : Raised) (t : Session) : Prop :=
  Stops raised t ∧ s.Steady t ∧ ∃ later, Traced task context later t ∧
    (retry = .fresh → later = .fresh)

theorem sample_spec (h : Traced task context retry s) :
    Effect.Triple (· = s) (Budget.sample task.policy) (fun remaining t =>
      Traced task context (retry.read t.last) t ∧ s.Steady t ∧ remaining = t.left task.policy)
    (Stalled task context retry s) := by
  rintro s rfl
  rcases sample_cases task.policy s with
    ⟨now, elapsed, hreading, hlast, helapsed, hsample⟩ | ⟨hdoubted, raised, hsample, hraised⟩
  · apply Effect.Triple.returns hsample
    exact ⟨h.read hreading hlast helapsed,
      ⟨rfl, rfl, rfl, rfl, rfl, hlast, List.prefix_append _ _⟩, rfl⟩
  · apply Effect.Triple.fails hsample
    refine ⟨?_, ⟨rfl, rfl, rfl, rfl, rfl, le_refl _, List.prefix_append _ _⟩, retry,
      h.ticked hdoubted, id⟩
    refine hraised.imp (fun h => ⟨_, h⟩) fun ⟨hraised, hreading⟩ => ⟨hraised, _, _, rfl, ?_⟩
    rw [hreading]
    rfl

theorem check_time_spec (h : Traced task context retry s) :
    Effect.Triple (· = s) (Budget.check_time task.policy)
      (fun remaining t => Traced task context (retry.read t.last) t ∧ s.Steady t ∧
        remaining = t.left task.policy ∧ 0 < t.left task.policy)
    (Stalled task context retry s) := by
  apply Effect.Triple.bind (sample_spec h)
  intro remaining
  refine Effect.Triple.bind
    (R := fun _ t => (Traced task context (retry.read t.last) t ∧ s.Steady t ∧
      remaining = t.left task.policy) ∧ 0 < remaining) (Effect.Triple.require ?_ ?_) fun _ =>
    Effect.Triple.pure ?_
  · exact fun t ht hpositive => ⟨ht, hpositive⟩
  · rintro t ⟨htraced, hsteady, _⟩ _
    refine ⟨.inl ⟨_, rfl⟩, hsteady, _, htraced, ?_⟩
    rintro rfl
    rfl
  · rintro t ⟨⟨htraced, hsteady, hremaining⟩, hpositive⟩
    exact ⟨htraced, hsteady, hremaining, hremaining ▸ hpositive⟩

end Tracing

namespace Act

variable {α : Type} {P : Session → Prop} {E : Raised → Session → Prop}

theorem modify_spec {Q : Unit → Session → Prop} {change : Session → Session}
    (h : ∀ s, P s → Q () (change s)) :
    Effect.Triple P (modify change) Q E :=
  fun s hs => Effect.Triple.returns rfl (h s hs)

theorem get_bind {Q : α → Session → Prop} {f : Session → Act α}
    (h : ∀ s, P s → Effect.Triple (· = s) (f s) Q E) : Effect.Triple P (get >>= f) Q E := by
  change Effect.Triple P (fun s => f s s) Q E
  exact Effect.Triple.read h

/-- What was raised is a value afterwards. -/
theorem caught_spec {Q : α → Session → Prop} {action : Act α} {F : Raised → Session → Prop}
    (h : Effect.Triple P action Q F) : Effect.Triple P (caught action)
      (fun result s => (∀ a, result = .ok a → Q a s) ∧ ∀ raised, result = .error raised →
        F raised s) E := by
  intro s hs
  obtain ⟨hvalue, hfail⟩ := h s hs
  apply Effect.Triple.returns rfl
  exact ⟨fun a ha => hvalue a _ (Prod.ext ha rfl),
    fun raised he => hfail raised _ (Prod.ext he rfl)⟩

end Act

section Requests

variable [Unicode] {task : SourceTask} {n : Nat} {s : Session}

/-- The operation runs, at the attempt `n`. -/
structure Inside (task : SourceTask) (n : Nat) (s : Session) : Prop where
  traced : Traced task (some ⟨task.source, n⟩) .fresh s
  active : s.active = some ⟨task.source, n⟩
  attempts : s.attempts = n

theorem Inside.steady {t : Session} (h : Inside task n s) (hsteady : s.Steady t)
    (htraced : Traced task (some ⟨task.source, n⟩) .fresh t) : Inside task n t :=
  ⟨htraced, hsteady.active.trans h.active, hsteady.attempts.trans h.attempts⟩

theorem Inside.check_time : Effect.Triple (Inside task n) (Budget.check_time task.policy)
    (fun remaining s => Inside task n s ∧ remaining = s.left task.policy ∧ 0 < s.left task.policy)
    (fun _ s => Inside task n s) := by
  intro s hs
  refine Effect.Triple.weaken (check_time_spec hs.traced) (fun _ h => h) ?_ ?_ s rfl
  · rintro remaining t ⟨htraced, hsteady, hremaining, hleft⟩
    exact ⟨hs.steady hsteady htraced, hremaining, hleft⟩
  · rintro raised t ⟨_, hsteady, later, htraced, hfresh⟩
    rw [hfresh rfl] at htraced
    exact hs.steady hsteady htraced

/-- A request through any context keeps to the contract, if its callback does. -/
theorem request_spec {context : AttemptContext} {resource : ResourceRef} {callback : ℚ → Act Answer}
    (h : ∀ remaining, Effect.Triple (Inside task n) (callback remaining) (fun _ => Inside task n)
      fun _ => Inside task n) :
    Effect.Triple (Inside task n) (context.request task resource callback) (fun _ => Inside task n)
      fun _ => Inside task n := by
  apply Act.get_bind
  intro s hs
  refine Effect.Triple.bind (R := fun _ t => Inside task n t ∧ context = ⟨task.source, n⟩ ∧
    resource ∈ task.resources ∧ resource ∈ task.policy.resources)
    (Effect.Triple.require ?_ ?_) fun _ => ?_
  · rintro t rfl ⟨hactive, hplanned, hallowed⟩
    exact ⟨hs, Option.some.inj (hactive.symm.trans hs.active), hplanned, hallowed⟩
  · rintro t rfl _
    exact hs
  refine Effect.Triple.bind
    (R := fun remaining t => (Inside task n t ∧ remaining = t.left task.policy ∧
      0 < t.left task.policy) ∧ context = ⟨task.source, n⟩ ∧ resource ∈ task.resources ∧
        resource ∈ task.policy.resources) ?_ fun remaining => ?_
  · rintro t ⟨ht, hresource⟩
    exact Effect.Triple.weaken Inside.check_time (fun u (hu : u = t) => hu ▸ ht)
      (fun _ _ h => ⟨h, hresource⟩) (fun _ _ h => h) t rfl
  apply Act.get_bind
  rintro t ⟨⟨ht, hremaining, hleft⟩, rfl, hplanned, hallowed⟩
  refine Effect.Triple.bind (R := fun _ u => u = t ∧ t.requests < task.policy.max_requests)
    (Effect.Triple.require ?_ ?_) fun _ => ?_
  · exact fun u hu hroom => ⟨hu, hroom⟩
  · rintro u rfl _
    exact ht
  refine Effect.Triple.bind (R := fun _ u => u = { t with requests := t.requests + 1 } ∧
    t.requests < task.policy.max_requests) (Act.modify_spec ?_) fun _ => ?_
  · rintro u ⟨rfl, hroom⟩
    exact ⟨rfl, hroom⟩
  refine Effect.Triple.bind (R := fun _ => Inside task n) (Act.modify_spec ?_) fun _ => ?_
  · -- The request is counted before its callback starts.
    rintro u ⟨rfl, hroom⟩
    have hevent := ht.traced.after_snoc (.callback ⟨task.source, n⟩ resource remaining)
    refine ⟨⟨ht.traced.accepts_snoc _
      ⟨rfl, hroom, hplanned, hallowed, hremaining, hremaining ▸ hleft⟩, hevent,
      ⟨ht.traced.counters.1, hroom⟩, ht.traced.elapsed, ht.traced.waited, ht.traced.failed⟩,
      ht.active, ht.attempts⟩
  refine Effect.Triple.bind (h remaining) fun _ =>
    Effect.Triple.bind (R := fun _ => Inside task n) ?_ fun _ =>
    Effect.Triple.pure fun _ hu => hu
  exact Effect.Triple.weaken Inside.check_time (fun _ h => h) (fun _ _ h => h.1) fun _ _ h => h

/-- Whatever an operation does, it keeps to the contract. -/
theorem perform_spec (behaviour : Behaviour) :
    Effect.Triple (Inside task n) (behaviour.perform task) (fun _ => Inside task n) fun _ =>
      Inside task n := by
  induction behaviour with
  | done result => exact Effect.Triple.ofExcept (fun _ _ hs _ => hs) fun _ _ hs _ => hs
  | request context resource callback next hcallback hnext =>
    refine Effect.Triple.bind (R := fun _ => Inside task n) ?_ fun answer => hnext answer
    refine Effect.Triple.weaken (Act.caught_spec (request_spec hcallback))
      (fun _ h => h) ?_ fun _ _ h => h
    rintro (raised | answer) s ⟨hvalue, hfail⟩
    · exact hfail raised rfl
    · exact hvalue answer rfl

end Requests

end discovery
