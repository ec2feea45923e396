import PepeuchCluster.Discovery.Attempts
import PepeuchCluster.Discovery.Cache
import Mathlib.Tactic.Linarith
import Mathlib.Tactic.Ring

namespace discovery

section Delays

variable (policy : ExecutionPolicy)

/-- The loop doubles the delay up to the limit: the double of a float is exact. -/
theorem backoff_loop_spec (n : Nat) {delay : Binary64} (h : 0 ≤ delay.value) : ∃ base : Binary64,
    backoff_loop policy n delay.value = base.value ∧ 0 ≤ base.value ∧
      base.value ≤ policy.max_delay_seconds.value ∧
      min policy.max_delay_seconds.value (delay.value * 2 ^ n) ≤ base.value := by
  have hlimit := policy.valid.2.2.1
  induction n generalizing delay with
  | zero =>
    rw [backoff_loop, pow_zero, mul_one]
    rcases le_total delay.value policy.max_delay_seconds.value with hle | hge
    · exact ⟨delay, min_eq_left hle, h, hle, min_le_right _ _⟩
    · exact ⟨_, min_eq_right hge, hlimit, le_refl _, min_le_left _ _⟩
  | succ n ih =>
    rw [backoff_loop]
    split
    · by_cases hzero : delay.value = 0
      · rw [if_pos hzero]
        refine ⟨delay, hzero.symm, h, hzero ▸ hlimit, ?_⟩
        rw [hzero, zero_mul]
        exact min_le_right _ _
      · rw [if_neg hzero]
        exact ⟨_, rfl, hlimit, le_refl _, min_le_left _ _⟩
    · cases hdouble : Binary64.round (delay.value * 2) with
      | none => exact ⟨_, rfl, hlimit, le_refl _, min_le_left _ _⟩
      | some double =>
        obtain ⟨next, _, rfl⟩ := Option.map_eq_some_iff.mp hdouble
        have hexact := Binary64.round_double h hdouble
        have hnext : 0 ≤ next.value := by
          rw [hexact]
          linarith
        obtain ⟨base, hbase, hnonneg, hle, hmin⟩ := ih hnext
        refine ⟨base, hbase, hnonneg, hle, ?_⟩
        rwa [hexact, mul_assoc, ← pow_succ'] at hmin

theorem backoff_spec (n : Nat) : ∃ base : Binary64, backoff policy n = base.value ∧ 0 ≤ base.value ∧
    base.value ≤ policy.max_delay_seconds.value ∧
    min policy.max_delay_seconds.value (policy.backoff_seconds.value * 2 ^ (n - 1)) ≤ base.value :=
  backoff_loop_spec policy _ policy.valid.2.2.2.1

/-- The local delay is between the backoff and the limit, but for the rounding of the sum. -/
theorem local_delay_spec {policy : ExecutionPolicy} {base : Binary64} {jitter delay : ℚ}
    (hbase : 0 ≤ base.value) (hlimit : base.value ≤ policy.max_delay_seconds.value)
    (hjitter : 0 ≤ jitter) (h : local_delay policy base.value jitter = some delay) :
    base.value ≤ delay ∧ Watched.Short policy delay := by
  simp only [local_delay, Option.bind_eq_bind, Option.bind_eq_some_iff] at h
  obtain ⟨rest, hrest, hsum⟩ := h
  have hroom := Binary64.round_nonneg (sub_nonneg.mpr hlimit) hrest
  refine ⟨Binary64.le_round base (le_add_of_nonneg_right (le_min hjitter hroom)) hsum, ?_⟩
  obtain ⟨next, _, rfl⟩ := Option.map_eq_some_iff.mp hsum
  refine .inr ⟨next, rfl, fun x hx => ?_⟩
  exact Binary64.round_le x (Binary64.add_rest_le hbase hlimit hx hrest (min_le_right _ _)) hsum

end Delays

/-- What is neither tried again nor an interrupt. -/
def Final (source : String) (policy : ExecutionPolicy) (raised : Raised) : Prop :=
  (classify_error source policy raised).retryable = false ∧ raised ≠ .interrupted

theorem raised_final (source : String) (policy : ExecutionPolicy) (failure : Failure) :
    Final source policy failure.raised := by
  cases failure <;> exact ⟨rfl, nofun⟩

section Observations

variable [Unicode] [Datetime] {now : Now} {task : SourceTask}

/-- The snapshot passes the checks of the task's plan. -/
def Validated (now : Now) (task : SourceTask) (snapshot : Json) : Prop :=
  validate_observation now (.str task.source) task.selection task.resources snapshot = .ok snapshot

variable [Stack]

theorem observation_snapshot_ok {answer : Answer} {snapshot : Json}
    (h : observation_snapshot now task answer = .ok snapshot) :
    Validated now task snapshot ∧
      ∃ wellFormed, answer = .observation snapshot wellFormed (some true) := by
  cases answer with
  | other => cases h
  | observation observed wellFormed complete =>
    cases complete with
    | none => cases h
    | some complete =>
      simp only [observation_snapshot, Except.bind_eq_ok, Except.require_eq_ok,
        Except.mapError_eq_ok] at h
      obtain ⟨_, rfl, _, _, hvalidate⟩ := h
      obtain ⟨_, rfl⟩ := (validate_observation_ok wellFormed).mp hvalidate
      exact ⟨hvalidate, wellFormed, rfl⟩

/-- What the checks of an observation raise is not tried again. -/
theorem observation_snapshot_fails (answer : Answer) :
    Except.Fails (Final task.source task.policy) (observation_snapshot now task answer) := by
  cases answer with
  | other => exact .error ⟨rfl, nofun⟩
  | observation observed wellFormed complete =>
    cases complete with
    | none => exact .error ⟨rfl, nofun⟩
    | some complete =>
      refine .bind (.require ⟨rfl, nofun⟩) fun _ _ => .bind (.require ⟨rfl, nofun⟩) fun _ _ => ?_
      exact .mapError fun failure => raised_final _ _ failure

end Observations

section Attempts

variable [Unicode] {task : SourceTask} {n : Nat} {s t : Session} {retry : Retry} {raised : Raised}

/-- No operation runs. -/
def Settled (task : SourceTask) (s : Session) : Prop := ∃ retry, Traced task none retry s

/-- The engine stops after the attempt. -/
def Faulted (task : SourceTask) (raised : Raised) (s : Session) : Prop :=
  Stops raised s ∧ Settled task s

/-- The next attempt may start, as soon as the clock says that there is time. -/
def Due (task : SourceTask) (n : Nat) (s : Session) : Prop :=
  s.attempts = n ∧ n < task.policy.max_attempts ∧ ∃ retry, Traced task none retry s ∧
    (n = 0 ∨ Watched.Rested task ⟨none, n, s.requests, some s.start, s.last, s.elapsed, retry⟩)

/-- The attempt `n` failed; its failure is known if it may be tried again. -/
def Missed (task : SourceTask) (n : Nat) (raised : Raised) (s : Session) : Prop :=
  s.attempts = n ∧ (raised = .interrupted → Interrupted s.trace) ∧
    ∃ retry, Traced task none retry s ∧
    ((classify_error task.source task.policy raised).retryable = true →
      retry = ⟨some (classify_error task.source task.policy raised), none, none⟩)

theorem Stalled.faulted (h : Stalled task none retry s raised t) : Faulted task raised t :=
  ⟨h.1, h.2.2.imp fun _ h => h.1⟩

/-- Time that passes between two attempts is no hindrance. -/
theorem Due.steady (h : Traced task none (retry.read t.last) t) (hsteady : s.Steady t)
    (hattempts : s.attempts = n) (hleft : n < task.policy.max_attempts)
    (hrested : n = 0 ∨
      Watched.Rested task ⟨none, n, s.requests, some s.start, s.last, s.elapsed, retry⟩) :
      Due task n t := by
  refine ⟨hsteady.attempts.trans hattempts, hleft, retry.read t.last, h, hrested.imp_right ?_⟩
  rintro ⟨hidempotent, error, failed_at, server, passed, hfailure, hretryable, hfailed, hasked,
    hpassed, hserver, hbackoff⟩
  have hread : (retry.read t.last).failed_at = some failed_at := by
    change retry.failed_at = some failed_at at hfailed
    simp only [Retry.read, hfailed, Option.some_or, ite_self]
  -- The time since the failure grows with the clock, also when it is rounded.
  have hlater : s.last - failed_at ≤ t.last - failed_at := sub_le_sub_right hsteady.last failed_at
  obtain ⟨hstart, hlast⟩ := h.failed failed_at hread
  obtain ⟨longer, hlonger⟩ := Binary64.round_finite (sub_nonneg.mpr hlast)
    (sub_le_sub_left hstart t.last) h.elapsed.1
  have hgrown := Binary64.round_mono hlater hpassed hlonger
  exact ⟨hidempotent, error, failed_at, server, longer, hfailure, hretryable, hread,
    hasked, hlonger, hserver.trans hgrown, hbackoff.trans hgrown⟩

variable [Datetime] [Stack] {now : Now}

/-- The attempt `n` observed the snapshot. -/
structure Delivered (now : Now) (task : SourceTask) (n : Nat) (snapshot : Json)
    (s : Session) : Prop where
  attempts : s.attempts = n
  validated : Validated now task snapshot
  returned : ∃ wellFormed,
    .returned ⟨task.source, n⟩ (.ok (.observation snapshot wellFormed (some true))) ∈ s.trace

omit [Stack] in
theorem Delivered.steady {snapshot : Json} (h : Delivered now task n snapshot s)
    (hsteady : s.Steady t) :
    Delivered now task n snapshot t :=
  ⟨hsteady.attempts.trans h.attempts, h.validated, h.returned.imp fun _ h => hsteady.trace.subset h⟩

/-- The operation of the attempt `n` has just returned. -/
structure Returned (task : SourceTask) (n : Nat) (result : Except Raised Answer)
    (s : Session) : Prop where
  traced : Traced task none (match result with
    | .error raised => ⟨some (classify_error task.source task.policy raised), none, none⟩
    | .ok _ => .fresh) s
  attempts : s.attempts = n
  last : ∃ before, s.trace = before ++ [.returned ⟨task.source, n⟩ result]

/-- What is left to do when the operation has returned. -/
theorem checked_spec {result : Except Raised Answer} (h : Returned task n result s) :
    Effect.Triple (· = s)
      (do
        let snapshot ← Effect.ofExcept (result.bind (observation_snapshot now task))
        let _ ← Budget.check_time task.policy
        return snapshot)
      (fun snapshot t => Settled task t ∧ Delivered now task n snapshot t) (Missed task n) := by
  obtain ⟨htraced, hattempts, before, htrace⟩ := h
  refine Effect.Triple.bind (R := fun snapshot t => t = s ∧ Traced task none .fresh s ∧
    Delivered now task n snapshot s) (Effect.Triple.ofExcept ?_ ?_) fun snapshot => ?_
  · rintro t snapshot rfl hsnapshot
    cases result with
    | error raised => cases hsnapshot
    | ok answer =>
      obtain ⟨hvalidated, wellFormed, rfl⟩ := observation_snapshot_ok hsnapshot
      refine ⟨rfl, htraced, hattempts, hvalidated, wellFormed, ?_⟩
      rw [htrace]
      exact List.mem_append_right _ (List.mem_singleton_self _)
  · rintro t raised rfl hraised
    cases result with
    | error other =>
      obtain rfl := Except.error.inj hraised
      refine ⟨hattempts, ?_, _, htraced, fun _ => rfl⟩
      rintro rfl
      exact ⟨before, _, htrace, rfl⟩
    | ok answer =>
      obtain ⟨hfinal, hinterrupt⟩ := observation_snapshot_fails answer raised hraised
      refine ⟨hattempts, fun h => absurd h hinterrupt, _, htraced, fun hretryable => ?_⟩
      rw [hfinal] at hretryable
      cases hretryable
  · refine Effect.Triple.bind
      (R := fun _ t => Settled task t ∧ Delivered now task n snapshot t) ?_ fun _ =>
      Effect.Triple.pure fun _ ht => ht
    rintro t ⟨rfl, htraced, hobserved⟩
    refine Effect.Triple.weaken (check_time_spec htraced) (fun _ h => h) ?_ ?_ t rfl
    · rintro remaining u ⟨hread, hsteady, _⟩
      exact ⟨⟨_, hread⟩, hobserved.steady hsteady⟩
    · rintro raised u ⟨hstops, hsteady, later, hlater, _⟩
      refine ⟨hsteady.attempts.trans hattempts, ?_, later, hlater, fun hretryable => ?_⟩
      · rintro rfl
        exact hstops.resolve_left (by rintro ⟨_, ⟨⟩⟩) |>.2
      · rcases hstops with ⟨reason, rfl⟩ | ⟨rfl, _⟩ <;> cases hretryable

/-- An attempt observes a snapshot, or fails. -/
theorem attempt_spec :
    Effect.Triple (fun s => Due task n s ∧ 0 < s.left task.policy) (attempt now task)
    (fun snapshot s => Settled task s ∧ Delivered now task (n + 1) snapshot s)
      (Missed task (n + 1)) := by
  rintro s ⟨⟨rfl, hleft, retry, htraced, hrested⟩, htime⟩
  -- The context is open from here on.
  have hinside : Inside task (s.attempts + 1) { s with
      attempts := s.attempts + 1, active := some ⟨task.source, s.attempts + 1⟩,
      trace := s.trace ++ [.operation ⟨task.source, s.attempts + 1⟩] } := by
    have hevent := htraced.after_snoc (.operation ⟨task.source, s.attempts + 1⟩)
    exact ⟨⟨htraced.accepts_snoc _ ⟨rfl, rfl, hleft, htime, hrested⟩, hevent,
      ⟨hleft, htraced.counters.2⟩, htraced.elapsed, htraced.waited, nofun⟩, rfl, rfl⟩
  suffices h : Effect.Triple (· = s) (attempt now task)
      (fun snapshot s' => Settled task s' ∧ Delivered now task (s.attempts + 1) snapshot s')
      (Missed task (s.attempts + 1)) from h s rfl
  refine Effect.Triple.bind (R := fun _ t => t = { s with attempts := s.attempts + 1 })
    (Act.modify_spec (by rintro t rfl; rfl)) fun _ => Act.get_bind ?_
  rintro t rfl
  refine Effect.Triple.bind (R := fun _ t => t = { s with
    attempts := s.attempts + 1, active := some ⟨task.source, s.attempts + 1⟩ })
    (Act.modify_spec (by rintro t rfl; rfl)) fun _ => ?_
  refine Effect.Triple.bind (R := fun _ => Inside task (s.attempts + 1))
    (Act.modify_spec fun t ht => ht ▸ hinside) fun _ => ?_
  -- The operation runs; its context counts as closed when it returns.
  refine Effect.Triple.bind (R := fun _ => Inside task (s.attempts + 1)) ?_ fun result => ?_
  · refine Effect.Triple.weaken (Act.caught_spec (perform_spec _)) (fun _ h => h) ?_ fun _ _ h => h
    rintro (raised | answer) t ⟨hvalue, hfail⟩
    · exact hfail raised rfl
    · exact hvalue answer rfl
  refine Effect.Triple.bind (R := fun _ => Returned task (s.attempts + 1) result)
    (Act.modify_spec ?_) fun _ => ?_
  · intro t ht
    refine ⟨?_, ht.attempts, t.trace, rfl⟩
    cases result with
    | error raised => exact ht.traced.log _ trivial rfl (.inl rfl)
    | ok answer => exact ht.traced.log _ trivial rfl (.inl rfl)
  refine Effect.Triple.bind (R := fun result t =>
    (∀ snapshot, result = .ok snapshot → Settled task t ∧
      Delivered now task (s.attempts + 1) snapshot t) ∧
    ∀ raised, result = .error raised → Missed task (s.attempts + 1) raised t) ?_ fun snapshot => ?_
  · intro t ht
    exact Act.caught_spec (checked_spec ht) t rfl
  refine Effect.Triple.bind (R := fun _ t =>
    (∀ value, snapshot = .ok value → Settled task t ∧ Delivered now task (s.attempts + 1) value t) ∧
    ∀ raised, snapshot = .error raised → Missed task (s.attempts + 1) raised t)
    (Act.modify_spec ?_) fun _ =>
      Effect.Triple.ofExcept (fun t value h => h.1 value) fun t raised h => h.2 raised
  -- Nothing reads the context of the session any more.
  rintro t ⟨hvalue, hfail⟩
  constructor
  · intro value hsnapshot
    obtain ⟨⟨retry, htraced⟩, hdelivered⟩ := hvalue value hsnapshot
    exact ⟨⟨retry, htraced.kept rfl rfl⟩, hdelivered.attempts, hdelivered.validated,
      hdelivered.returned⟩
  · intro raised hsnapshot
    obtain ⟨hattempts, hinterrupt, retry, htraced, hretry⟩ := hfail raised hsnapshot
    exact ⟨hattempts, hinterrupt, retry, htraced.kept rfl rfl, hretry⟩

end Attempts

/-- A verdict that publishes nothing. -/
def Verdict.Refused (verdict : Verdict) : Prop :=
  verdict.snapshot = none ∧ (verdict.status = .deferred ∨ verdict.status = .failed) ∧
    verdict.reason ≠ none

theorem deferred_refused (reason : Reason) : (deferred reason).Refused :=
  ⟨rfl, .inl rfl, Option.some_ne_none reason⟩

theorem failed_refused (reason : Reason) : (failed reason).Refused :=
  ⟨rfl, .inr rfl, Option.some_ne_none reason⟩

section Waiting

variable [Unicode] {task : SourceTask} {n : Nat} {s t : Session} {error : ClassifiedError}
  {failed_at server : ℚ}

/-- What the last attempt `n` leaves to be waited for: its error can be tried again, it was noticed
    when the clock read `failed_at`, and the server asks for the delay `server`. -/
structure Asked (task : SourceTask) (n : Nat) (error : ClassifiedError) (failed_at server : ℚ)
    (s : Session) : Prop where
  idempotent : task.idempotent = true
  retryable : error.retryable = true
  attempts : s.attempts = n
  left : n < task.policy.max_attempts
  traced : ∃ wall, Retry.asked error wall = some server ∧
    Traced task none ⟨some error, some failed_at, wall⟩ s

namespace Asked

theorem settled (h : Asked task n error failed_at server s) : Settled task s :=
  h.traced.elim fun _ h => ⟨_, h.2⟩

theorem since (h : Asked task n error failed_at server s) :
    s.start ≤ failed_at ∧ failed_at ≤ s.last := by
  obtain ⟨wall, _, htraced⟩ := h.traced
  exact htraced.failed failed_at rfl

theorem kept (h : Asked task n error failed_at server s) (htrace : t.trace = s.trace)
    (hbudget : t.budget = s.budget) :
    Asked task n error failed_at server t := by
  obtain ⟨wall, hasked, htraced⟩ := h.traced
  exact ⟨h.idempotent, h.retryable, (congrArg Prod.fst hbudget).trans h.attempts,
    h.left, wall, hasked, htraced.kept htrace hbudget⟩

/-- The clock is read while the engine waits. -/
theorem sample (h : Asked task n error failed_at server s) :
    Effect.Triple (· = s) (Budget.sample task.policy) (fun remaining t =>
      Asked task n error failed_at server t ∧ s.Steady t ∧ remaining = t.left task.policy)
    (Faulted task) := by
  obtain ⟨wall, hasked, htraced⟩ := h.traced
  refine Effect.Triple.weaken (sample_spec htraced) (fun _ h => h) ?_ fun _ _ h => h.faulted
  rintro remaining t ⟨hread, hsteady, hremaining⟩
  exact ⟨⟨h.idempotent, h.retryable, hsteady.attempts.trans h.attempts, h.left, wall, hasked,
    hread⟩, hsteady, hremaining⟩

theorem check_time (h : Asked task n error failed_at server s) :
    Effect.Triple (· = s) (Budget.check_time task.policy) (fun remaining t =>
      Asked task n error failed_at server t ∧ remaining = t.left task.policy) (Faulted task) := by
  obtain ⟨wall, hasked, htraced⟩ := h.traced
  refine Effect.Triple.weaken (check_time_spec htraced) (fun _ h => h) ?_ fun _ _ h => h.faulted
  rintro remaining t ⟨hread, hsteady, hremaining, _⟩
  exact ⟨⟨h.idempotent, h.retryable, hsteady.attempts.trans h.attempts, h.left, wall, hasked,
    hread⟩, hremaining⟩

/-- After the delay the next attempt may start. The time since the failure is not shorter than the
    wait, also when both are rounded. -/
theorem due {delay before : ℚ} (h : Asked task n error failed_at server s)
    (hbefore : failed_at ≤ before) (hlast : before ≤ s.last)
    (hslept : ¬ ∃ passed ∈ Binary64.round (s.last - before), passed < delay)
    (hserver : server ≤ delay) (hbackoff : backoff task.policy n ≤ delay) : Due task n s := by
  obtain ⟨wall, hasked, htraced⟩ := h.traced
  obtain ⟨hstart, hfailed⟩ := h.since
  obtain ⟨since, hsince⟩ :=
    Binary64.round_finite (sub_nonneg.mpr hfailed) (sub_le_sub_left hstart s.last)
      htraced.elapsed.1
  obtain ⟨passed, hpassed⟩ :=
    Binary64.round_finite (sub_nonneg.mpr hlast) (sub_le_sub_left hbefore s.last) hsince
  have hlonger : delay ≤ since := by
    refine le_trans (not_lt.mp fun hless => hslept ⟨passed, hpassed, hless⟩) ?_
    exact Binary64.round_mono (sub_le_sub_left hbefore s.last) hpassed hsince
  obtain ⟨base, hbase, _, _, hmin⟩ := backoff_spec task.policy n
  refine ⟨h.attempts, h.left, _, htraced,
    .inr ⟨h.idempotent, error, failed_at, server, since, rfl, h.retryable, rfl,
      hasked, hsince, hserver.trans hlonger, ?_⟩⟩
  exact hmin.trans (hbase ▸ hbackoff.trans hlonger)

end Asked

/-- The engine has waited since the clock read `before`. -/
theorem waited_spec {retry : Retry} {delay before : ℚ} (h : Traced task none retry t)
    (hbefore : before ≤ t.last) :
    Traced task none retry
      { t with waited := if delay = 0 then t.waited else waited_since before t } := by
  refine ⟨h.accepted, h.watched, h.counters, h.elapsed, ?_, h.failed⟩
  change ∀ waited, ite _ _ _ = some waited → _
  split
  · exact h.waited
  · intro waited hwaited
    simp only [waited_since, Option.bind_eq_bind, Option.bind_eq_some_iff] at hwaited
    obtain ⟨sum, hsum, passed, hpassed, hround⟩ := hwaited
    exact Binary64.round_nonneg (add_nonneg (h.waited sum hsum)
      (Binary64.round_nonneg (sub_nonneg.mpr hbefore) hpassed)) hround

/-- What a failed attempt leads to: the end, or the next attempt. -/
def Recovered (task : SourceTask) (n : Nat) (verdict : Option Verdict) (s : Session) : Prop :=
  (∀ ending, verdict = some ending → Settled task s ∧ ending.Refused) ∧
    (verdict = none → Due task n s)

theorem Recovered.ending {verdict : Verdict} (hsettled : Settled task s)
    (hrefused : verdict.Refused) :
    Recovered task n (some verdict) s :=
  ⟨fun _ h => Option.some.inj h ▸ ⟨hsettled, hrefused⟩, fun h => by cases h⟩

/-- The engine has waited since `s`, as long as the sleep let it. -/
structure Slept (task : SourceTask) (n : Nat) (error : ClassifiedError)
    (failed_at server : ℚ) (s : Session) (finished : Bool) (t : Session) : Prop where
  settled : Settled task t
  last : s.last ≤ t.last
  asked : finished = true → Asked task n error failed_at server t

theorem sleep_spec {delay : ℚ} (h : Asked task n error failed_at server s) (hdelay : 0 ≤ delay)
    (hlimit : Watched.Short task.policy delay) (htime : delay < s.left task.policy) :
    Effect.Triple (· = s) (sleep delay) (Slept task n error failed_at server s) (Faulted task) := by
  unfold sleep
  split
  · apply Effect.Triple.pure
    rintro t rfl
    exact ⟨h.settled, le_refl _, fun _ => h⟩
  · next hzero =>
    obtain ⟨wall, hserves, htraced⟩ := h.traced
    apply Act.get_bind
    rintro t rfl
    have hallowed (ending : Reply Unit) :
      Watched.Allowed task ⟨none, t.attempts, t.requests, some t.start, t.last,
        t.elapsed, ⟨some error, some failed_at, wall⟩⟩ (.sleep delay ending) :=
      ⟨rfl, lt_of_le_of_ne hdelay (Ne.symm hzero), hlimit, htime⟩
    refine Effect.Triple.bind (R := fun _ u => u = { t with
      runtime := { t.runtime with sleep := fun n => t.runtime.sleep (n + 1) } })
      (Act.modify_spec (by rintro u rfl; rfl)) fun _ => ?_
    cases hsleep : t.runtime.sleep 0 with
    | value value =>
      refine Effect.Triple.bind (R := fun _ => Slept task n error failed_at server t true)
        (Act.modify_spec ?_)
        fun _ => Effect.Triple.pure fun u hu => hu
      rintro u rfl
      have hslept := (htraced.log (.sleep delay (.value value)) (hallowed _) rfl (.inr rfl)).kept
        (t := { t with
          runtime := { t.runtime with sleep := fun n => t.runtime.sleep (n + 1) }
          trace := t.trace ++ [.sleep delay (.value value)] }) rfl rfl
      exact ⟨⟨_, hslept⟩, le_refl _,
        fun _ => ⟨h.idempotent, h.retryable, h.attempts, h.left, wall, hserves, hslept⟩⟩
    | invalid =>
      refine Effect.Triple.bind (R := fun _ => Slept task n error failed_at server t false)
        (Act.modify_spec ?_)
        fun _ => Effect.Triple.pure fun u hu => hu
      rintro u rfl
      have hfailed :
          Traced task none .fresh { t with trace := t.trace ++ [.sleep delay .invalid] } :=
        htraced.log (.sleep delay .invalid) (hallowed _) rfl (.inl rfl)
      exact ⟨⟨_, hfailed.kept rfl rfl⟩, le_refl _, nofun⟩
    | interrupted =>
      refine Effect.Triple.bind (R := fun _ => Faulted task .interrupted) (Act.modify_spec ?_)
        fun _ => Effect.Triple.raise fun u hu => hu
      rintro u rfl
      have hcut := htraced.log (.sleep delay .interrupted) (hallowed _) rfl (.inr rfl)
      exact ⟨.inr ⟨rfl, t.trace, _, rfl, rfl⟩, _, hcut.kept rfl rfl⟩

/-- The clock is read after the sleep. -/
theorem Slept.sample {finished : Bool} (h : Slept task n error failed_at server s finished t) :
    Effect.Triple (· = t) (Budget.sample task.policy)
      (fun _ => Slept task n error failed_at server s finished)
      (Faulted task) := by
  obtain ⟨⟨retry, htraced⟩, hlast, hasked⟩ := h
  cases finished with
  | false =>
    refine Effect.Triple.weaken (sample_spec htraced) (fun _ h => h) ?_ fun _ _ h => h.faulted
    rintro _ u ⟨hread, hsteady, _⟩
    exact ⟨⟨_, hread⟩, hlast.trans hsteady.last, fun h => by cases h⟩
  | true =>
    refine Effect.Triple.weaken (hasked rfl).sample (fun _ h => h) ?_ fun _ _ h => h
    rintro _ u ⟨hu, hsteady, _⟩
    exact ⟨hu.settled, hlast.trans hsteady.last, fun _ => hu⟩

theorem wait_spec {delay : ℚ} (hserver : server ≤ delay) (hbackoff : backoff task.policy n ≤ delay)
    (hlimit : Watched.Short task.policy delay) :
    Effect.Triple (fun s => Asked task n error failed_at server s ∧ delay < s.left task.policy)
      (wait task delay)
      (Recovered task n) (Faulted task) := by
  rintro s ⟨hasked, htime⟩
  suffices h : Effect.Triple (· = s) (wait task delay) (Recovered task n)
    (Faulted task) from h s rfl
  obtain ⟨base, hbase, hnonneg, -⟩ := backoff_spec task.policy n
  apply Act.get_bind
  rintro before rfl
  refine Effect.Triple.bind (sleep_spec hasked (hnonneg.trans (hbase ▸ hbackoff)) hlimit htime)
    fun finished => ?_
  refine Effect.Triple.bind (R := fun _ => Slept task n error failed_at server before finished) ?_
    fun remaining => ?_
  · exact fun t ht => ht.sample t rfl
  -- The time that has passed is counted in any case.
  refine Effect.Triple.bind (R := fun _ t => Settled task t ∧ before.last ≤ t.last ∧
    (finished = true → Asked task n error failed_at server t)) (Act.modify_spec ?_) fun _ => ?_
  · rintro t ⟨⟨retry, ht⟩, hlast, hfinished⟩
    refine ⟨⟨retry, waited_spec ht hlast⟩, hlast, fun hdone => ?_⟩
    obtain ⟨wall, hserves, ht⟩ := (hfinished hdone).traced
    exact ⟨hasked.idempotent, hasked.retryable, (hfinished hdone).attempts,
      hasked.left, wall, hserves, waited_spec ht hlast⟩
  refine Effect.Triple.bind
    (R := fun _ t => before.last ≤ t.last ∧ Asked task n error failed_at server t)
    (Effect.Triple.require ?_ ?_) fun _ => Act.get_bind ?_
  · exact fun t ht hdone => ⟨ht.2.1, ht.2.2 hdone⟩
  · exact fun t ht _ => ⟨.inl ⟨_, rfl⟩, ht.1⟩
  rintro t ⟨hlast, ht⟩
  apply Effect.Triple.pure
  rintro u rfl
  split
  · exact Recovered.ending ht.settled (deferred_refused _)
  · split
    · exact Recovered.ending ht.settled (deferred_refused _)
    · next hslept =>
      exact ⟨fun _ h => (by cases h), fun _ => ht.due hasked.since.2 hlast hslept hserver hbackoff⟩

/-- A reply that was just logged: where it is no value, the engine stops. -/
theorem Act.answered_spec {α : Type} {reply : Reply α} {P : Session → Prop}
    {Q : α → Session → Prop} (event : Event)
    (hlogged : ∀ s, P s → Settled task s ∧ ∃ before, s.trace = before ++ [event])
    (hevent : reply = .interrupted → event.interrupts = true)
    (hvalue : ∀ a s, P s → reply = .value a → Q a s) :
    Effect.Triple P (Act.answered reply) Q (Faulted task) := by
  cases reply with
  | value a => exact Effect.Triple.pure fun s hs => hvalue a s hs rfl
  | invalid => exact Effect.Triple.raise fun s hs => ⟨.inl ⟨_, rfl⟩, (hlogged s hs).1⟩
  | interrupted =>
    refine Effect.Triple.raise fun s hs => ?_
    obtain ⟨hsettled, before, htrace⟩ := hlogged s hs
    exact ⟨.inr ⟨rfl, before, event, htrace, hevent rfl⟩, hsettled⟩

/-- What the wall clock reads is noted. -/
theorem wall_time_spec (hattempts : s.attempts = n)
    (htraced : Traced task none ⟨some error, some failed_at, none⟩ s) :
    Effect.Triple (· = s) wall_time
      (fun now t => t.attempts = n ∧ Traced task none ⟨some error, some failed_at, some now⟩ t)
        (Faulted task) := by
  apply Act.get_bind
  rintro s rfl
  refine Effect.Triple.bind (R := fun _ t => t = { s with
    runtime := { s.runtime with wall_time := fun n => s.runtime.wall_time (n + 1) } })
    (Act.modify_spec (by rintro t rfl; rfl)) fun _ => ?_
  refine Effect.Triple.bind (R := fun _ t => t.attempts = n ∧
    (∃ before, t.trace = before ++ [.wall_time (s.runtime.wall_time 0)]) ∧
    ∃ wall, Traced task none ⟨some error, some failed_at, wall⟩ t ∧
      ∀ now, s.runtime.wall_time 0 = .value now → wall = some now) (Act.modify_spec ?_) fun _ =>
    Act.answered_spec (.wall_time (s.runtime.wall_time 0)) ?_ (fun h => by rw [h]; rfl) ?_
  · rintro t rfl
    refine ⟨hattempts, ⟨s.trace, rfl⟩, ?_⟩
    cases hreading : s.runtime.wall_time 0 with
    | value now =>
      exact ⟨some now,
        (htraced.log (.wall_time (.value now)) trivial rfl (.inr rfl)).kept rfl rfl, by simp⟩
    | invalid => exact ⟨none, (htraced.log (.wall_time .invalid) trivial rfl (.inr rfl)).kept rfl
        rfl, fun _ h => by cases h⟩
    | interrupted =>
      exact ⟨none, (htraced.log (.wall_time .interrupted) trivial rfl (.inr rfl)).kept rfl rfl,
        fun _ h => by cases h⟩
  · rintro t ⟨_, hlast, wall, ht, _⟩
    exact ⟨⟨_, ht⟩, hlast⟩
  · rintro now t ⟨hattempts, _, wall, ht, hwall⟩ hreading
    exact ⟨hattempts, hwall now hreading ▸ ht⟩

/-- The delay of the server, by its own words or by the wall clock. -/
theorem server_delay_spec (hidempotent : task.idempotent = true)
    (hretryable : error.retryable = true) (hattempts : s.attempts = n)
    (hleft : n < task.policy.max_attempts)
    (htraced : Traced task none ⟨some error, some failed_at, none⟩ s) :
    Effect.Triple (· = s) (server_delay error.retry_after)
      (fun server t => Asked task n error failed_at server t ∧ 0 ≤ server) (Faulted task) := by
  have hasked {server : ℚ} (h : Retry.asked error none = some server) :
      Asked task n error failed_at server s :=
    ⟨hidempotent, hretryable, hattempts, hleft, none, h, htraced⟩
  -- Where the answer names a date, the wall clock is read first.
  have hwall {info : RetryAfter}
    (h : ∀ wall, Retry.asked error wall = wall.bind fun now => info.delay now) :
      Effect.Triple (· = s)
        (do
          let now ← wall_time
          Effect.demand (info.delay now) (.execution_error .runtime))
        (fun server t => Asked task n error failed_at server t ∧ 0 ≤ server) (Faulted task) := by
    apply Effect.Triple.bind (wall_time_spec hattempts htraced)
    intro now
    apply Effect.Triple.demand
    · rintro t server ⟨hattempts, ht⟩ hdelay
      have hserver : Retry.asked error (some now) = some server := by
        rw [h, Option.bind_some, hdelay]
      exact ⟨⟨hidempotent, hretryable, hattempts, hleft, some now, hserver, ht⟩,
        RetryAfter.delay_nonneg hdelay⟩
    · rintro t ⟨_, ht⟩ _
      exact ⟨.inl ⟨_, rfl⟩, _, ht⟩
  cases hinfo : error.retry_after with
  | none =>
    apply Effect.Triple.pure
    rintro t rfl
    exact ⟨hasked (by rw [Retry.asked, hinfo]), le_refl _⟩
  | some info =>
    cases info with
    | seconds count valid =>
      apply Effect.Triple.pure
      rintro t rfl
      exact ⟨hasked (by rw [Retry.asked, hinfo]), Nat.cast_nonneg count⟩
    | excessive =>
      apply Effect.Triple.raise
      rintro t rfl
      exact ⟨.inl ⟨_, rfl⟩, _, htraced⟩
    | not_before date => exact hwall fun wall => by rw [Retry.asked, hinfo]
    | legacy_date date => exact hwall fun wall => by rw [Retry.asked, hinfo]

theorem jitter_spec {base : ℚ} (h : Asked task n error failed_at server s) :
    Effect.Triple (· = s) (jitter base)
      (fun added t => Asked task n error failed_at server t ∧ 0 ≤ added) (Faulted task) := by
  obtain ⟨wall, hserves, htraced⟩ := h.traced
  apply Act.get_bind
  rintro s rfl
  refine Effect.Triple.bind (R := fun _ t => t = { s with
    runtime := { s.runtime with jitter := fun n => s.runtime.jitter (n + 1) } })
    (Act.modify_spec (by rintro t rfl; rfl)) fun _ => ?_
  refine Effect.Triple.bind (R := fun _ t => Asked task n error failed_at server t ∧
    ∃ before, t.trace = before ++ [.jitter base (s.runtime.jitter 0)])
    (Act.modify_spec ?_) fun _ => ?_
  · rintro t rfl
    have hlogged := htraced.log (.jitter base (s.runtime.jitter 0)) trivial rfl (.inr rfl)
    exact ⟨⟨h.idempotent, h.retryable, h.attempts, h.left, wall, hserves, hlogged.kept rfl rfl⟩,
      s.trace, rfl⟩
  refine Effect.Triple.bind (R := fun _ => Asked task n error failed_at server)
    (Act.answered_spec (.jitter base (s.runtime.jitter 0)) (fun t ht => ⟨ht.1.settled, ht.2⟩)
      (fun h => by rw [h]; rfl)
      fun _ t ht _ => ht.1) fun added => ?_
  refine Effect.Triple.bind
    (R := fun _ t => Asked task n error failed_at server t ∧ 0 ≤ added.value)
    (Effect.Triple.require ?_ ?_) fun _ => Effect.Triple.pure fun _ ht => ht
  · exact fun t ht hadded => ⟨ht, hadded⟩
  · exact fun t ht _ => ⟨.inl ⟨_, rfl⟩, ht.settled⟩

/-- The engine waits at least as long as the server asks and as the policy says, and not longer than
    is allowed. -/
theorem pause_spec {remaining : ℚ} (hidempotent : task.idempotent = true)
    (hretryable : error.retryable = true) (hattempts : s.attempts = n)
    (hleft : n < task.policy.max_attempts)
    (htraced : Traced task none ⟨some error, some failed_at, none⟩ s) :
    Effect.Triple (· = s) (pause task error remaining) (Recovered task n) (Faulted task) := by
  refine Effect.Triple.bind (server_delay_spec hidempotent hretryable hattempts hleft htraced)
    fun server => ?_
  split
  · exact Effect.Triple.pure fun t ht => Recovered.ending ht.1.settled (deferred_refused _)
  split
  · exact Effect.Triple.pure fun t ht => Recovered.ending ht.1.settled (deferred_refused _)
  next hserver =>
  apply Act.get_bind
  rintro t ⟨ht, hpositive⟩
  rw [ht.attempts]
  refine Effect.Triple.bind (jitter_spec ht) fun added => ?_
  refine Effect.Triple.bind (R := fun remaining u => (Asked task n error failed_at server u ∧
    remaining = u.left task.policy) ∧ 0 ≤ added) ?_ fun remaining => ?_
  · rintro u ⟨hu, hadded⟩
    exact Effect.Triple.weaken hu.check_time (fun _ h => h) (fun _ _ h => ⟨h, hadded⟩)
      (fun _ _ h => h) u rfl
  split
  · exact Effect.Triple.pure fun u hu => Recovered.ending hu.1.1.settled (deferred_refused _)
  obtain ⟨base, hbase, hnonneg, hlimit, -⟩ := backoff_spec task.policy n
  cases hdelay : local_delay task.policy (backoff task.policy n) added with
  | none => exact Effect.Triple.pure fun u hu =>
    Recovered.ending hu.1.1.settled (deferred_refused _)
  | some delay =>
    dsimp only
    split
    · exact Effect.Triple.pure fun u hu => Recovered.ending hu.1.1.settled (deferred_refused _)
    next htime =>
    rintro u ⟨⟨hu, rfl⟩, hadded⟩
    rw [hbase] at hdelay
    obtain ⟨hbackoff, hshort⟩ := local_delay_spec hnonneg hlimit hadded hdelay
    apply wait_spec (le_max_left _ _) (hbase ▸ hbackoff.trans (le_max_right _ _))
    · rcases le_total server delay with hle | hge
      · rwa [max_eq_right hle]
      · rw [max_eq_left hge]
        exact .inl (not_lt.mp hserver)
    · exact ⟨hu, not_le.mp htime⟩

end Waiting

section Turns

variable [Unicode] {task : SourceTask} {n : Nat} {s t : Session} {raised : Raised}

theorem refusal_refused {error : ClassifiedError} {remaining : ℚ} {verdict : Verdict}
    (h : refusal task error remaining s = some verdict) : verdict.Refused := by
  unfold refusal at h
  split at h
  · exact Option.some.inj h ▸ deferred_refused _
  split at h
  · exact Option.some.inj h ▸ failed_refused _
  split at h
  · exact Option.some.inj h ▸ deferred_refused _
  split at h
  · exact Option.some.inj h ▸ deferred_refused _
  split at h
  · exact Option.some.inj h ▸ deferred_refused _
  · cases h

/-- What is tried again. -/
theorem refusal_none {error : ClassifiedError} {remaining : ℚ}
    (h : refusal task error remaining s = none) :
    task.idempotent = true ∧ error.retryable = true ∧ s.attempts < task.policy.max_attempts := by
  unfold refusal at h
  split at h
  · cases h
  split at h
  · cases h
  next hretryable =>
  split at h
  · cases h
  split at h
  · cases h
  split at h
  · cases h
  next hattempts =>
  rw [not_or, Bool.not_eq_false, Bool.not_eq_false] at hretryable
  exact ⟨hretryable.2, hretryable.1, not_le.mp hattempts⟩

theorem recover_spec (n : Nat) (raised : Raised) : Effect.Triple (Missed task n raised)
    (recover task (classify_error task.source task.policy raised)) (Recovered task n)
      (Faulted task) := by
  refine Effect.Triple.bind (R := fun _ => Missed task n raised) (Act.modify_spec ?_) fun _ => ?_
  · rintro s ⟨hattempts, hinterrupt, retry, htraced, hretry⟩
    exact ⟨hattempts, hinterrupt, retry, htraced.kept rfl rfl, hretry⟩
  refine Effect.Triple.bind
    (R := fun _ t => t.attempts = n ∧ ∃ retry : Retry, Traced task none (retry.read t.last) t ∧
      ((classify_error task.source task.policy raised).retryable = true →
        retry = ⟨some (classify_error task.source task.policy raised), none, none⟩)) ?_
    fun remaining => Act.get_bind ?_
  · rintro s ⟨hattempts, _, retry, htraced, hretry⟩
    refine Effect.Triple.weaken (sample_spec htraced)
      (fun _ h => h) ?_ (fun _ _ h => h.faulted) s rfl
    rintro _ t ⟨hread, hsteady, _⟩
    exact ⟨hsteady.attempts.trans hattempts, retry, hread, hretry⟩
  rintro t ⟨hattempts, retry, htraced, hretry⟩
  cases hrefusal : refusal task (classify_error task.source task.policy raised) remaining t with
  | some verdict =>
    apply Effect.Triple.pure
    rintro u rfl
    exact Recovered.ending ⟨_, htraced⟩ (refusal_refused hrefusal)
  | none =>
    obtain ⟨hidempotent, hretryable, hleft⟩ := refusal_none hrefusal
    rw [hretry hretryable] at htraced
    exact pause_spec hidempotent hretryable hattempts (hattempts ▸ hleft) htraced

variable [Datetime] [Stack] {now : Now}

/-- How the loop ends. -/
def Ended (now : Now) (task : SourceTask) (verdict : Verdict) (s : Session) : Prop :=
  Settled task s ∧ (verdict.Refused ∨ ∃ n snapshot, verdict = ⟨.success, none, some snapshot⟩ ∧
    Delivered now task n snapshot s)

/-- A pass of the loop ends it, or the next attempt may start. -/
theorem turn_spec : Effect.Triple (Due task n) (turn now task)
    (fun verdict s => (∀ ending, verdict = some ending → Ended now task ending s) ∧
      (verdict = none → Due task (n + 1) s)) (Faulted task) := by
  refine Effect.Triple.bind (R := fun _ s => Due task n s ∧ 0 < s.left task.policy) ?_
    fun remaining => ?_
  · rintro s ⟨hattempts, hleft, retry, htraced, hrested⟩
    refine Effect.Triple.weaken (check_time_spec htraced)
      (fun _ h => h) ?_ (fun _ _ h => h.faulted) s rfl
    rintro _ t ⟨hread, hsteady, _, htime⟩
    exact ⟨Due.steady hread hsteady hattempts hleft hrested, htime⟩
  refine Effect.Triple.bind (Act.caught_spec attempt_spec) fun result => ?_
  cases result with
  | ok snapshot =>
    apply Effect.Triple.pure
    rintro s ⟨hvalue, _⟩
    obtain ⟨hsettled, hdelivered⟩ := hvalue snapshot rfl
    refine ⟨?_, fun h => by cases h⟩
    rintro ending hending
    obtain rfl := Option.some.inj hending
    exact ⟨hsettled, .inr ⟨n + 1, snapshot, rfl, hdelivered⟩⟩
  | error raised =>
    -- An interrupt is not caught.
    have hmissed (raised : Raised) : Effect.Triple (Missed task (n + 1) raised)
        (recover task (classify_error task.source task.policy raised))
        (fun verdict s => (∀ ending, verdict = some ending → Ended now task ending s) ∧
          (verdict = none → Due task (n + 1) s)) (Faulted task) := by
      refine Effect.Triple.weaken (recover_spec (n + 1) raised) (fun _ h => h) ?_ fun _ _ h => h
      rintro verdict s ⟨hending, hnext⟩
      exact ⟨fun ending h => ⟨(hending ending h).1, .inl (hending ending h).2⟩, hnext⟩
    cases raised with
    | interrupted =>
      apply Effect.Triple.raise
      rintro s ⟨_, hfail⟩
      obtain ⟨_, hinterrupt, retry, htraced, _⟩ := hfail _ rfl
      exact ⟨.inr ⟨rfl, hinterrupt rfl⟩, retry, htraced⟩
    | _ =>
      exact Effect.Triple.weaken (hmissed _) (fun s h => h.2 _ rfl) (fun _ _ h => h) fun _ _ h => h

/-- The loop, by induction on the attempts that are left. -/
theorem attempts_spec {left : Nat} (h : n + left = task.policy.max_attempts) :
    Effect.Triple (Due task n) (attempts now task left) (Ended now task) (Faulted task) := by
  induction left generalizing n with
  | zero =>
    rintro s ⟨_, hleft, _⟩
    omega
  | succ left ih =>
    refine Effect.Triple.bind turn_spec fun verdict => ?_
    cases verdict with
    | some ending => exact Effect.Triple.pure fun s hs => hs.1 ending rfl
    | none =>
      refine Effect.Triple.weaken (ih (n := n + 1) (by omega)) ?_ (fun _ _ h => h) fun _ _ h => h
      exact fun s hs => hs.2 rfl

end Turns

end discovery
