import PepeuchCluster.Discovery.CheckpointHistory
import PepeuchCluster.Discovery.ExecutionRuns
import PepeuchCluster.Discovery.ImportPlan

namespace discovery

/-- What ends a manual run early: an error of its own or of the archive, what an execution raises,
    or what the callback for its events raises. -/
inductive Halt where
  | failure (failure : Failure)
  | raised (raised : Raised)
  | refused_event

section Model

variable [Unicode]

/-- The arguments of a manual run. Its contexts are a dictionary; `max_age_seconds` is nothing where
    it is no finite number. -/
structure ManualPlan where
  tasks : List SourceTask
  archive : String
  contexts : List (String × Value)
  now : Json
  max_age_seconds : Option ℚ
  resume : Value
  trusted_issuers : String → Option (List UInt8)
  issuer : Value
  key : Option (List UInt8)

namespace ManualPlan

def sources (plan : ManualPlan) : List String := plan.tasks.map SourceTask.source

def context (plan : ManualPlan) (source : String) : Json :=
  ((plan.contexts.lookup source).map Value.json).getD .null

def descriptors (plan : ManualPlan) : Json := if plan.resume.json = .null then .dict []
    else plan.resume.json

end ManualPlan

/-- What a manual run tells of a source: its status is `resumed_cached`, or that of the
    execution. -/
structure ManualEvent where
  source : String
  complete : Bool
  snapshot_id : Json
  captured_at : Json
  age_seconds : Option Binary64
  resume : Json
  execution : Option SourceResult

structure ManualReport where
  complete : Bool
  requested_sources : List String
  sources : List ManualEvent
  synthetic : Bool

/-- What a manual run works on, the executions it has started and the events it has told. -/
structure Workshop where
  process : Process
  runtime : ExecutionRuntime
  tokens : Nat → String
  accepts : Nat → Bool
  executions : List (List Event)
  told : List ManualEvent

abbrev Manual (α : Type) := Effect Halt Workshop α

namespace Manual

def checked {α : Type} (result : Except Failure α) : Manual α :=
  Effect.ofExcept (result.mapError .failure)

/-- A call on the archive. -/
def on_archive {α : Type} (call : Call α) : Manual α := fun w =>
  (((call w.process).1).mapError .failure, { w with process := (call w.process).2 })

/-- `secrets.token_hex(16)`. -/
def token : Manual String :=
  fun w => (.ok (w.tokens 0), { w with tokens := fun n => w.tokens (n + 1) })

/-- `on_event(event)`: it is told in any case. -/
def tell (event : ManualEvent) : Manual Unit := fun w =>
  (if w.accepts w.told.length then .ok () else .error .refused_event,
    { w with told := w.told ++ [event] })

/-- `execute_source(task, runtime=runtime)`. -/
def executed [Datetime] [Stack] (clock : Now) (task : SourceTask) : Manual SourceResult := fun w =>
  let (result, session) := execute_source clock task (.fresh w.runtime)
  (result.mapError .raised,
    { w with runtime := session.runtime, executions := w.executions ++ [session.trace] })

end Manual

variable [Datetime]

/-- `epoch - timestamp(captured_at)`; no two dates are too far apart for that. -/
def age_of (epoch : Binary64) (captured_at : Json) : Except Failure Binary64 := do
  let captured ← timestamp captured_at
  match Binary64.ofValue (epoch.value - captured.value) with
  | some age => return age
  | none => .error .overflow_error

/-- An issuer for what is not synthetic. -/
def enrolled (plan : ManualPlan) : Except Failure Unit :=
  if plan.tasks.all SourceTask.synthetic = true then return
  else do
    let issuer ← public_alias plan.issuer.json
    let key := plan.key.getD []
    demand (32 ≤ key.length ∧ plan.trusted_issuers issuer = some key)
      "Controlled operations require an explicitly enrolled issuer before execution"

/-- The checks of the arguments, up to the directory of the archive. -/
def manual_arguments (plan : ManualPlan) : Except Failure (Binary64 × Json) := do
  demand (plan.tasks ≠ [] ∧ plan.sources.Nodup) "One explicit task per source required"
  demand (∀ task ∈ plan.tasks, task.resources ⊆ task.policy.resources)
    "Every task resource must be authorized, including cached resumes"
  enrolled plan
  demand (∃ age ∈ plan.max_age_seconds, 0 ≤ age ∧ age ≤ 604800)
    "Explicit freshness bound between zero and seven days required"
  let epoch ← timestamp plan.now
  demand (plan.contexts.map Prod.fst ⊆ plan.sources ∧ plan.sources ⊆ plan.contexts.map Prod.fst)
    "Explicit context for every source required"
  plan.contexts.forM fun context => do
    let _ ← validation_context context.2.json
  let resume ← copy_metadata plan.descriptors
  demand (isObject resume = true ∧ resume.entries.map Prod.fst ⊆ plan.sources)
    "Resume contains unplanned sources"
  return (epoch, resume)

def RESUME_FIELDS : List String := ["request", "identity"]

/-- `sorted(r.source_id for r in task.resources)`. -/
def sorted_ids (task : SourceTask) : Json :=
  .arr (((task.resources.map ResourceRef.source_id).insertionSort (· ≤ ·)).map Json.str)

/-- The entry is of the scope, the partition and the provenance of the task. -/
def Resumable (plan : ManualPlan) (task : SourceTask) (entry : Json) : Prop :=
  ((entry.item "request").item "source").equal (.str task.source) = true ∧
    ((entry.item "request").item "selection").equal task.selection = true ∧
    ((entry.item "request").item "resources").equal (sorted_ids task) = true ∧
    ((entry.item "request").item "context").equal (plan.context task.source) = true ∧
    ((entry.item "provenance").item "kind").equal (.str "synthetic") = task.synthetic ∧
    ((entry.item "provenance").item "kind").equal (.str "historical_unknown") = false

instance (plan : ManualPlan) (task : SourceTask) (entry : Json) :
    Decidable (Resumable plan task entry) := by
  unfold Resumable
  infer_instance

/-- The checkpoint that a descriptor names, with its age, if it is fresh. -/
def resumed (clock : Now) (plan : ManualPlan) (epoch : Binary64) (resume : Json)
    (task : SourceTask) :
    Manual (Option (Json × Binary64)) :=
  if task.source ∈ resume.entries.map Prod.fst then do
    let descriptor := resume.item task.source
    Manual.checked
      (demand (descriptor.HasKeys RESUME_FIELDS) "Explicit immutable resume descriptor required")
    let entry ← Manual.on_archive
      (load_checkpoint clock plan.trusted_issuers plan.archive (descriptor.item "request")
        (descriptor.item "identity"))
    Manual.checked (demand
      (Resumable plan task entry) "Resume scope, provenance or partition differs from the plan")
    let age ← Manual.checked (age_of epoch ((entry.item "snapshot").item "captured_at"))
    Manual.checked (demand (0 ≤ age.value) "Future observation cannot establish freshness")
    return if age.value < plan.max_age_seconds.getD 0 then some (entry, age) else none
  else return none

/-- The first loop over the tasks. -/
def resumes (clock : Now) (plan : ManualPlan) (epoch : Binary64) (resume : Json) :
    List SourceTask → Manual (List (SourceTask × Option (Json × Binary64)))
  | [] => return []
  | task :: tasks => do
    let cached ← resumed clock plan epoch resume task
    return (task, cached) :: (← resumes clock plan epoch resume tasks)

/-- The provenance of what a task observed. -/
def provenance_of (clock : Now) (plan : ManualPlan) (task : SourceTask) (snapshot : Json) :
    Except Failure Json :=
  if task.synthetic = true then
    make_provenance clock snapshot "synthetic" (plan.context task.source) .null none
  else make_provenance clock snapshot "controlled_observation"
    (plan.context task.source) plan.issuer.json plan.key

/-- The entry of a successful execution. -/
def archived_entry (clock : Now) (plan : ManualPlan) (task : SourceTask) (snapshot : Json) :
    Except Failure Json := do
  let request ← cache_request (.str task.source) task.selection
    (.arr ((task.resources.map ResourceRef.source_id).map Json.str)) (plan.context task.source)
    (revisions_of (elements (snapshot.item "records")))
  let provenance ← provenance_of clock plan task snapshot
  make_cache clock request snapshot provenance (.dict [("etag", .null), ("last_modified", .null)])
    plan.trusted_issuers

def cached_event (resume : Json) (task : SourceTask) (entry : Json)
    (age : Binary64) : ManualEvent where
  source := task.source
  complete := true
  snapshot_id := (entry.item "snapshot").item "snapshot_id"
  captured_at := (entry.item "snapshot").item "captured_at"
  age_seconds := some age
  resume := resume.item task.source
  execution := none

def executed_event (task : SourceTask) (result : SourceResult) : ManualEvent where
  source := task.source
  complete := result.complete
  snapshot_id := .null
  captured_at := .null
  age_seconds := none
  resume := .null
  execution := some result

/-- The checkpoint of a successful execution, and what the event tells of it. -/
def archived (clock : Now) (plan : ManualPlan) (epoch : Binary64) (task : SourceTask)
    (result : SourceResult) (snapshot : Json) : Manual ManualEvent := do
  let age ← Manual.checked (age_of epoch (snapshot.item "captured_at"))
  Manual.checked (demand (0 ≤ age.value) "Future observation refused before checkpoint publication")
  let entry ← Manual.checked (archived_entry clock plan task snapshot)
  let token ← Manual.token
  let identity ←
    Manual.on_archive (save_checkpoint clock plan.trusted_issuers plan.archive token entry)
  return { executed_event task result with
    snapshot_id := snapshot.item "snapshot_id"
    captured_at := snapshot.item "captured_at"
    age_seconds := some age
    resume := .dict [("request", entry.item "request"), ("identity", .str identity)] }

variable [Stack]

/-- A source of the second loop. -/
def run_source (clock : Now) (plan : ManualPlan) (epoch : Binary64) (resume : Json)
    (task : SourceTask) :
    Option (Json × Binary64) → Manual ManualEvent
  | some (entry, age) => return cached_event resume task entry age
  | none => do
    let result ← Manual.executed clock task
    if result.status = .success then
      archived clock plan epoch task result (result.snapshot.getD .null)
    else return executed_event task result

/-- The second loop over the tasks. -/
def run_sources (clock : Now) (plan : ManualPlan) (epoch : Binary64) (resume : Json) :
    List (SourceTask × Option (Json × Binary64)) → Manual (List ManualEvent)
  | [] => return []
  | (task, cached) :: rest => do
    let event ← run_source clock plan epoch resume task cached
    Manual.tell event
    return event :: (← run_sources clock plan epoch resume rest)

def run_manual (clock : Now) (plan : ManualPlan) : Manual ManualReport := do
  let (epoch, resume) ← Manual.checked (manual_arguments plan)
  Manual.on_archive (in_directory plan.archive (pure ()))
  let cached ← resumes clock plan epoch resume plan.tasks
  let events ← run_sources clock plan epoch resume cached
  return {
    complete := events.all ManualEvent.complete
    requested_sources := plan.sources
    sources := events
    synthetic := plan.tasks.all SourceTask.synthetic }

/-- Nothing has been done yet. -/
def Workshop.start (archive : Archive) (fates : List Fate) (runtime : ExecutionRuntime)
    (tokens : Nat → String) (accepts : Nat → Bool) : Workshop :=
  ⟨⟨archive, fates⟩, runtime, tokens, accepts, [], []⟩

end Model

end discovery
