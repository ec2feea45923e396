import PepeuchCluster.Discovery.RetryAfter

namespace discovery

inductive Status where
  | success | unchanged | deferred | failed
deriving DecidableEq

/-- `ExecutionPolicy.__post_init__` is the proof that every value carries. Seconds are floats, also
    where the source allows integers. -/
structure ExecutionPolicy where
  max_requests : Nat
  max_attempts : Nat
  total_seconds : Binary64
  max_delay_seconds : Binary64
  backoff_seconds : Binary64
  resources : List ResourceRef
  retry_http_statuses : List Int
  retry_transport_errors : Bool
  valid : 1 ≤ max_attempts ∧ 0 < total_seconds.value ∧ 0 ≤ max_delay_seconds.value ∧
    0 ≤ backoff_seconds.value ∧ backoff_seconds.value ≤ max_delay_seconds.value ∧ resources ≠ [] ∧
    ∀ code ∈ retry_http_statuses, code ∈ [429, 500, 502, 503, 504]

/-- The context of one attempt at a source. -/
structure AttemptContext where
  source : String
  attempt : Nat
deriving DecidableEq

/-- An exception, by the classes that the classification tells apart. An `HTTPError` has a code,
    which may be no integer, and a `Retry-After` that may be unreadable. What is no `Exception`, as
    `KeyboardInterrupt`, passes through the handlers. -/
inductive Raised where
  | execution_error (reason : Reason)
  | http_error (code : Option Int) (retry_after : Except Unit (Option RetryAfter))
  | timeout_error
  | network_error
  | response_error
  | value_error
  | exception
  | interrupted

/-- What an operation returns: an observation, whose flag may be no truth value, or anything
    else. -/
inductive Answer where
  | observation (snapshot : Json) (wellFormed : snapshot.WellFormed) (complete : Option Bool)
  | other

/-- The behaviour of an operation: it returns or raises, or sends a request through a context that
    it has, with a callback that may send further requests. -/
inductive Behaviour where
  | done (result : Except Raised Answer)
  | request (context : AttemptContext) (resource : ResourceRef) (callback : ℚ → Behaviour)
      (next : Except Raised Answer → Behaviour)

/-- What a call of the surroundings comes to: a value, an `Exception` or no finite number, or an
    interrupt. -/
inductive Reply (α : Type) where
  | value (value : α)
  | invalid
  | interrupted

/-- What the clocks, the waiting and the jitter will answer. -/
structure ExecutionRuntime where
  monotonic : Nat → Reply Binary64
  wall_time : Nat → Reply Binary64
  sleep : Nat → Reply Unit
  jitter : Nat → Reply Binary64

/-- Whether the interpreter's stack suffices for the checks of a snapshot: in an attempt, and some
    calls deeper when the result is built. -/
class Stack where
  observes : Json → Bool
  reports : Json → Bool

structure ClassifiedError where
  reason : Reason
  retryable : Bool
  retry_after : Option RetryAfter

/-- The reason of a status. -/
def http_reason (source : String) (code : Int) : Reason :=
  if code = 401 then .authentication
  else if code = 403 then .forbidden
  else if code = 404 then
    (if source = "nvidia-nim-metadata" then .nim_tag_unavailable else .target_unavailable)
  else if code = 429 then .quota
  else if code = 304 then .cache_required
  else if code = 500 ∨ code = 502 ∨ code = 503 ∨ code = 504 then .provider
  else if 300 ≤ code ∧ code < 400 then .redirect
  else .http_error

def classify_error (source : String) (policy : ExecutionPolicy) : Raised → ClassifiedError
  | .execution_error reason => ⟨reason, false, none⟩
  | .http_error code retry_after =>
    match code, retry_after with
    | some code, .ok retry_after =>
      if 100 ≤ code ∧ code ≤ 599 then
        ⟨http_reason source code, decide (code ∈ policy.retry_http_statuses), retry_after⟩
      else ⟨.invalid_schema, false, none⟩
    | _, _ => ⟨.invalid_schema, false, none⟩
  | .timeout_error => ⟨.timeout, policy.retry_transport_errors, none⟩
  | .network_error => ⟨.connection, policy.retry_transport_errors, none⟩
  | .response_error => ⟨.invalid_json, false, none⟩
  | .value_error => ⟨.invalid_schema, false, none⟩
  | .exception | .interrupted => ⟨.unexpected, false, none⟩

/-- How the classification sees what the checks of an observation raise. -/
def Failure.raised : Failure → Raised
  | .value_error _ | .type_error | .key_error => .value_error
  | .execution_error reason => .execution_error reason
  | _ => .exception

/-- `_planned_resources`. -/
def planned_resources (source : String) (scope : Json) (resources : List ResourceRef) :
    Except Failure (List ResourceRef) := do
  demand (resources ≠ [] ∧ (∀ ref ∈ resources, ref.source = source) ∧ resources.Nodup)
    "Distinct resources of this source required"
  let ids := resources.map fun ref => Json.str ref.source_id
  demand (scope.item "mode" = .str "exact_ids" →
      ids ⊆ elements (scope.item "ids") ∧ elements (scope.item "ids") ⊆ ids)
    "Planned resources differ from the selection"
  demand (scope.item "mode" = .str "exact_tag" → ids ⊆ [scope.item "resource_id"])
    "One selected resource/tag required"
  return resources

section Model

variable [Unicode]

/-- `SourceTask.__post_init__` is the proof that every value carries; the operation is given by its
    behaviour at each attempt. -/
structure SourceTask where
  source : String
  selection : Json
  resources : List ResourceRef
  policy : ExecutionPolicy
  operation : Nat → Behaviour
  idempotent : Bool
  synthetic : Bool
  wellFormed : selection.WellFormed
  valid : safe_selection (.str source) selection = .ok selection ∧
    planned_resources source selection resources = .ok resources ∧
    (source = "moark" → (synthetic = true ↔ selection.item "input" = .str "synthetic_fixture"))

structure SourceResult where
  source : String
  selection : Json
  resources : List ResourceRef
  status : Status
  reason : Option Reason
  last_error : Option Reason
  attempts : Nat
  requests : Nat
  elapsed_seconds : ℚ
  wait_seconds : Option ℚ
  policy : ExecutionPolicy
  idempotent : Bool
  synthetic : Bool
  complete : Bool
  snapshot : Option Json

/-- `SourceResult.__post_init__`. A sum of waits that is too large is no time. -/
def source_result [Datetime] [Stack] (now : Now) (result : SourceResult) :
    Except Failure SourceResult := do
  let selection ← safe_selection (.str result.source) result.selection
  let resources ← planned_resources result.source selection result.resources
  demand
    (result.attempts ≤ result.policy.max_attempts ∧ result.requests ≤ result.policy.max_requests)
    "Invalid execution counters"
  demand (0 ≤ result.elapsed_seconds) "Finite execution budget value required"
  demand (∃ waited ∈ result.wait_seconds, 0 ≤ waited) "Finite execution budget value required"
  if result.status = .success ∨ result.status = .unchanged then
    match result.snapshot with
    | none => .error (.value_error "Positive result requires a complete validated snapshot")
    | some snapshot =>
      demand (result.complete = true ∧ result.reason = none)
        "Positive result requires a complete validated snapshot"
      demand (resources ⊆ result.policy.resources) "Positive result resources must be authorized"
      demand (Stack.reports snapshot = true) "Metadata nesting exceeds supported depth"
      let snapshot ← validate_observation now (.str result.source) selection resources snapshot
      return { result with selection, resources, snapshot := some snapshot }
  else
    demand (result.complete = false ∧ result.snapshot = none ∧ result.reason ≠ none)
      "Failed/deferred result cannot publish a snapshot"
    return { result with selection, resources }

/-- What the surroundings of an execution see of it. -/
inductive Event where
  | monotonic (reading : Reply Binary64)
  | wall_time (reading : Reply Binary64)
  | jitter (base : ℚ) (reading : Reply Binary64)
  | sleep (delay : ℚ) (ending : Reply Unit)
  | operation (context : AttemptContext)
  | callback (context : AttemptContext) (resource : ResourceRef) (remaining : ℚ)
  | returned (context : AttemptContext) (result : Except Raised Answer)

/-- The budget of one execution, the context that is active, and what has been seen so far. -/
structure Session where
  runtime : ExecutionRuntime
  trace : List Event
  active : Option AttemptContext
  attempts : Nat
  requests : Nat
  elapsed : ℚ
  waited : Option ℚ
  start : ℚ
  last : ℚ
  last_error : Option Reason

abbrev Act (α : Type) := Effect Raised Session α

namespace Act

def get : Act Session := fun s => (.ok s, s)

def modify (change : Session → Session) : Act Unit := fun s => (.ok (), change s)

def log (event : Event) : Act Unit := modify fun s => { s with trace := s.trace ++ [event] }

/-- `raise ExecutionError(reason)`. -/
def refuse {α : Type} (reason : Reason) : Act α := Effect.raise (.execution_error reason)

/-- The value of a reply. -/
def answered {α : Type} : Reply α → Act α
  | .value value => return value
  | .invalid => refuse .runtime
  | .interrupted => Effect.raise .interrupted

/-- What was raised instead of a value. -/
def caught {α : Type} (action : Act α) : Act (Except Raised α) :=
  fun s => (.ok (action s).1, (action s).2)

end Act

namespace Budget

/-- `_clock`. -/
def clock : Act ℚ := do
  let s ← Act.get
  let reading := s.runtime.monotonic 0
  Act.modify fun s =>
    { s with runtime := { s.runtime with monotonic := fun n => s.runtime.monotonic (n + 1) } }
  Act.log (.monotonic reading)
  let value ← Act.answered reading
  return value.value

/-- `max(0.0, self.policy.total_seconds - self.elapsed)`; the difference of two times is never too
    large. -/
def remaining (policy : ExecutionPolicy) (elapsed : ℚ) : ℚ :=
  max 0 ((Binary64.round (policy.total_seconds.value - elapsed)).getD 0)

def sample (policy : ExecutionPolicy) : Act ℚ := do
  let now ← clock
  let s ← Act.get
  Effect.require (s.last ≤ now) (.execution_error .runtime)
  let elapsed ← Effect.demand (Binary64.round (now - s.start)) (.execution_error .runtime)
  Act.modify fun s => { s with last := now, elapsed }
  return remaining policy elapsed

def check_time (policy : ExecutionPolicy) : Act ℚ := do
  let remaining ← sample policy
  Effect.require (0 < remaining) (.execution_error .time_budget)
  return remaining

end Budget

/-- `AttemptContext.request`. -/
def AttemptContext.request (task : SourceTask) (context : AttemptContext) (resource : ResourceRef)
    (callback : ℚ → Act Answer) : Act Answer := do
  let s ← Act.get
  Effect.require
    (s.active = some context ∧ resource ∈ task.resources ∧ resource ∈ task.policy.resources)
    (.execution_error .selection)
  let remaining ← Budget.check_time task.policy
  let s ← Act.get
  Effect.require (s.requests < task.policy.max_requests) (.execution_error .request_budget)
  Act.modify fun s => { s with requests := s.requests + 1 }
  Act.log (.callback context resource remaining)
  let result ← callback remaining
  let _ ← Budget.check_time task.policy
  return result

/-- The behaviour, with its requests carried out. -/
def Behaviour.perform (task : SourceTask) : Behaviour → Act Answer
  | .done result => Effect.ofExcept result
  | .request context resource callback next => do
    let answer ←
      Act.caught (context.request task resource fun remaining => (callback remaining).perform task)
    (next answer).perform task

/-- The loop of `_backoff`. A double that is too large is above the limit. -/
def backoff_loop (policy : ExecutionPolicy) : Nat → ℚ → ℚ
  | 0, delay => min delay policy.max_delay_seconds.value
  | n + 1, delay =>
    if delay = 0 ∨ ∃ half ∈ Binary64.round (policy.max_delay_seconds.value / 2), half ≤ delay then
      (if delay = 0 then 0 else policy.max_delay_seconds.value)
    else match Binary64.round (delay * 2) with
      | some double => backoff_loop policy n double
      | none => policy.max_delay_seconds.value

/-- `_backoff`. -/
def backoff (policy : ExecutionPolicy) (attempt : Nat) : ℚ :=
  backoff_loop policy (attempt - 1) policy.backoff_seconds.value

/-- `base + min(jitter, task.policy.max_delay_seconds - base)`; nothing where it is too large. -/
def local_delay (policy : ExecutionPolicy) (base jitter : ℚ) : Option ℚ := do
  let rest ← Binary64.round (policy.max_delay_seconds.value - base)
  Binary64.round (base + min jitter rest)

def wall_time : Act Binary64 := do
  let s ← Act.get
  let reading := s.runtime.wall_time 0
  Act.modify fun s =>
    { s with runtime := { s.runtime with wall_time := fun n => s.runtime.wall_time (n + 1) } }
  Act.log (.wall_time reading)
  Act.answered reading

/-- `_server_delay`. -/
def server_delay : Option RetryAfter → Act ℚ
  | none => return 0
  | some .excessive => Act.refuse .retry_after_extreme
  | some (.seconds count _) => return count
  | some info => do
    let now ← wall_time
    Effect.demand (info.delay now) (.execution_error .runtime)

/-- `number(runtime.jitter(base))`. -/
def jitter (base : ℚ) : Act ℚ := do
  let s ← Act.get
  let reading := s.runtime.jitter 0
  Act.modify fun s =>
    { s with runtime := { s.runtime with jitter := fun n => s.runtime.jitter (n + 1) } }
  Act.log (.jitter base reading)
  let added ← Act.answered reading
  Effect.require (0 ≤ added.value) (.execution_error .runtime)
  return added.value

/-- `runtime.sleep(delay)`, unless there is no delay; whether it returned or raised an
    `Exception`. -/
def sleep (delay : ℚ) : Act Bool :=
  if delay = 0 then return true
  else do
    let s ← Act.get
    let ending := s.runtime.sleep 0
    Act.modify fun s =>
      { s with runtime := { s.runtime with sleep := fun n => s.runtime.sleep (n + 1) } }
    Act.log (.sleep delay ending)
    match ending with
    | .value _ => return true
    | .invalid => return false
    | .interrupted => Effect.raise .interrupted

/-- How an execution ends. -/
structure Verdict where
  status : Status
  reason : Option Reason
  snapshot : Option Json

def deferred (reason : Reason) : Verdict := ⟨.deferred, some reason, none⟩

def failed (reason : Reason) : Verdict := ⟨.failed, some reason, none⟩

section Executions

variable [Datetime] [Stack]

/-- What an attempt must observe. -/
def observation_snapshot (now : Now) (task : SourceTask) : Answer → Except Raised Json
  | .observation snapshot _ (some complete) => do
    Except.require (complete = true) (.execution_error .incomplete)
    Except.require (Stack.observes snapshot = true) .value_error
    (validate_observation now (.str task.source) task.selection task.resources snapshot).mapError
      Failure.raised
  | _ => .error (.execution_error .invalid_schema)

/-- One attempt, in a context that is closed at its end. -/
def attempt (now : Now) (task : SourceTask) : Act Json := do
  Act.modify fun s => { s with attempts := s.attempts + 1 }
  let s ← Act.get
  let context : AttemptContext := ⟨task.source, s.attempts⟩
  Act.modify fun s => { s with active := some context }
  Act.log (.operation context)
  let result ← Act.caught ((task.operation s.attempts).perform task)
  Act.log (.returned context result)
  let snapshot ← Act.caught do
    let snapshot ← Effect.ofExcept (result.bind (observation_snapshot now task))
    let _ ← Budget.check_time task.policy
    return snapshot
  Act.modify fun s => { s with active := none }
  Effect.ofExcept snapshot

/-- The end of a source after a failed attempt, where it is not tried again. -/
def refusal (task : SourceTask) (error : ClassifiedError) (remaining : ℚ) (s : Session) :
    Option Verdict :=
  if error.reason = .request_budget ∨ error.reason = .time_budget then some (deferred error.reason)
  else if error.retryable = false ∨ task.idempotent = false then some (failed error.reason)
  else if remaining ≤ 0 then some (deferred .time_budget)
  else if task.policy.max_requests ≤ s.requests then some (deferred .request_budget)
  else if task.policy.max_attempts ≤ s.attempts then some (deferred .attempt_budget)
  else none

/-- `budget.waited += budget.last - before`. -/
def waited_since (before : ℚ) (s : Session) : Option ℚ := do
  Binary64.round ((← s.waited) + (← Binary64.round (s.last - before)))

/-- The wait itself: nothing where the next attempt may start. -/
def wait (task : SourceTask) (delay : ℚ) : Act (Option Verdict) := do
  let before ← Act.get
  let finished ← sleep delay
  let remaining ← Budget.sample task.policy
  Act.modify fun s =>
    { s with waited := if delay = 0 then s.waited else waited_since before.last s }
  Effect.require (finished = true) (.execution_error .runtime)
  let s ← Act.get
  return if remaining ≤ 0 then some (deferred .time_budget)
    else if ∃ passed ∈ Binary64.round (s.last - before.last),
      passed < delay then some (deferred .wait_interrupted)
    else none

/-- The delay before the next attempt, and its wait. -/
def pause (task : SourceTask) (error : ClassifiedError) (remaining : ℚ) : Act (Option Verdict) := do
  let server ← server_delay error.retry_after
  if remaining ≤ server then return some (deferred .retry_after_budget)
  else if task.policy.max_delay_seconds.value < server then return some (deferred .delay_limit)
  else do
    let s ← Act.get
    let base := backoff task.policy s.attempts
    let added ← jitter base
    let remaining ← Budget.check_time task.policy
    if remaining ≤ server then return some (deferred .retry_after_budget)
    else match local_delay task.policy base added with
      | none => return some (deferred .time_budget)
      | some delay =>
        if remaining ≤ max server delay then return some (deferred .time_budget)
        else wait task (max server delay)

/-- What follows a failed attempt. -/
def recover (task : SourceTask) (error : ClassifiedError) : Act (Option Verdict) := do
  Act.modify fun s => { s with last_error := some error.reason }
  let remaining ← Budget.sample task.policy
  let s ← Act.get
  match refusal task error remaining s with
  | some verdict => return some verdict
  | none => pause task error remaining

/-- One pass of the loop of `execute_source`. -/
def turn (now : Now) (task : SourceTask) : Act (Option Verdict) := do
  let _ ← Budget.check_time task.policy
  match ← Act.caught (attempt now task) with
  | .ok snapshot => return some ⟨.success, none, some snapshot⟩
  | .error .interrupted => Effect.raise .interrupted
  | .error raised => recover task (classify_error task.source task.policy raised)

/-- The loop, for the attempts that are left. -/
def attempts (now : Now) (task : SourceTask) : Nat → Act Verdict
  | 0 => return deferred .attempt_budget
  | left + 1 => do
    match ← turn now task with
    | some verdict => return verdict
    | none => attempts now task left

/-- The result of an execution that ends now. -/
def report (task : SourceTask) (verdict : Verdict) (s : Session) : SourceResult where
  source := task.source
  selection := task.selection
  resources := task.resources
  status := verdict.status
  reason := verdict.reason
  last_error := s.last_error
  attempts := s.attempts
  requests := s.requests
  elapsed_seconds := s.elapsed
  wait_seconds := s.waited
  policy := task.policy
  idempotent := task.idempotent
  synthetic := task.synthetic
  complete := decide (verdict.status = .success ∨ verdict.status = .unchanged)
  snapshot := verdict.snapshot

/-- `finish`: the time that the result took to build counts for a positive one. -/
def finish (now : Now) (task : SourceTask) (verdict : Verdict) : Act SourceResult := do
  let s ← Act.get
  let result ← Effect.ofExcept ((source_result now (report task verdict s)).mapError Failure.raised)
  if verdict.status = .success ∨ verdict.status = .unchanged then do
    let _ ← Budget.check_time task.policy
    let s ← Act.get
    return { result with elapsed_seconds := s.elapsed }
  else return result

/-- What `execute_source` tries once it has its budget. -/
def execute (now : Now) (task : SourceTask) : Act SourceResult := do
  if task.resources ⊆ task.policy.resources then do
    let verdict ← attempts now task task.policy.max_attempts
    finish now task verdict
  else finish now task (failed .selection)

/-- The last measurement after an error, unless the clock fails. -/
def measure (task : SourceTask) (reason : Reason) : Act Unit :=
  if reason = .time_budget then return
  else do
    match ← Act.caught (Budget.sample task.policy) with
    | .error .interrupted => Effect.raise .interrupted
    | _ => return

/-- The source ends with the reason of an `ExecutionError`. -/
def conclude (now : Now) (task : SourceTask) (reason : Reason) : Act SourceResult :=
  finish now task (if reason = .time_budget ∨ reason = .retry_after_extreme then deferred reason
    else failed reason)

def execute_source (now : Now) (task : SourceTask) : Act SourceResult := do
  match ← Act.caught Budget.clock with
  | .error (.execution_error reason) => conclude now task reason
  | .error raised => Effect.raise raised
  | .ok start => do
    Act.modify fun s => { s with start, last := start }
    match ← Act.caught (execute now task) with
    | .ok result => return result
    | .error (.execution_error reason) => do
      measure task reason
      conclude now task reason
    | .error raised => Effect.raise raised

/-- Nothing has been done yet. -/
def Session.fresh (runtime : ExecutionRuntime) : Session :=
  ⟨runtime, [], none, 0, 0, 0, some 0, 0, 0, none⟩

/-- The results of the tasks in order, and what was seen of each execution. -/
def execute_all (now : Now) : List SourceTask → ExecutionRuntime →
    Except Raised (List SourceResult) × List (List Event)
  | [], _ => (.ok [], [])
  | task :: tasks, runtime =>
    let (result, after) := execute_source now task (.fresh runtime)
    match result with
    | .error raised => (.error raised, [after.trace])
    | .ok result =>
      let (results, traces) := execute_all now tasks after.runtime
      (results.map (result :: ·), after.trace :: traces)

/-- `ExecutionReport(results)`. -/
def execution_report (results : List SourceResult) : Except Raised (List SourceResult) :=
  if results ≠ [] ∧ (results.map SourceResult.source).Nodup then .ok results
    else .error .value_error

def execute_sources (now : Now) (tasks : List SourceTask) (runtime : ExecutionRuntime) :
    Except Raised (List SourceResult) × List (List Event) :=
  if tasks ≠ [] ∧ (tasks.map SourceTask.source).Nodup then
    let (results, traces) := execute_all now tasks runtime
    (results.bind execution_report, traces)
  else (.error .value_error, [])

end Executions

end Model

end discovery
