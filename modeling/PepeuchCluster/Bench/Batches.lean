import PepeuchCluster.ControlPlane.Contracts
import PepeuchCluster.Digest.Sha256
import PepeuchCluster.Effects.Effect
import PepeuchCluster.Numbers.Calendar

namespace bench

open control_plane (encode)

inductive Failure where
  | value_error (message : String)
  | delivery_interrupted (message : String)
  | engine_error
  | connection_lost
  | callback_error
deriving DecidableEq

def MAX_BODY_BYTES : Nat := 512 * 1024

/-- Room for the transaction and its receipt statement. -/
def RESERVED_BYTES : Nat := 2048

structure Receipt where
  batch_id : String
  payload_sha256 : String
  seq_no : Int
  body_bytes : Int
deriving DecidableEq

def Receipt.json (receipt : Receipt) : Json :=
  .dict [("batch_id", .str receipt.batch_id), ("seq_no", .number (.int receipt.seq_no)),
    ("payload_sha256", .str receipt.payload_sha256),
      ("body_bytes", .number (.int receipt.body_bytes))]

structure Batch where
  batch_id : String
  seq_no : Nat
  sql : String
  payload_sha256 : String
  body_bytes : Nat
deriving DecidableEq

def Batch.receipt (batch : Batch) : Receipt :=
  ⟨batch.batch_id, batch.payload_sha256, batch.seq_no, batch.body_bytes⟩

def sql_batches_from (max_bytes max_statements : Int) :
    List String → List String → Nat → Except Failure (List String)
  | [], batch, _ => .ok (if batch = [] then [] else ["\n".intercalate batch])
  | statement :: statements, batch, size => do
    let needed := (encode statement).length + 1
    if needed > max_bytes then
      .error (.value_error "Individual synthetic SQL statement exceeds batch budget")
    if batch ≠ [] ∧ ((size + needed : Nat) > max_bytes ∨ max_statements ≤ batch.length) then
      let rest ← sql_batches_from max_bytes max_statements statements [statement] needed
      return "\n".intercalate batch :: rest
    else
      sql_batches_from max_bytes max_statements statements (batch ++ [statement]) (size + needed)

def sql_batches (statements : List String) (max_bytes max_statements : Int) :
    Except Failure (List String) :=
  sql_batches_from max_bytes max_statements statements [] 0

/-- `f"b{index:06d}"`. -/
def batch_id_of (index : Nat) : String := String.ofList ('b' :: Calendar.digits 6 index)

def batch_of (index : Nat) (sql : String) : Batch :=
  ⟨batch_id_of index, index, sql, sha256 (encode sql), (encode sql).length⟩

def plan (statements : List String) (max_statements : Int) : Except Failure (List Batch) := do
  let bodies ← sql_batches statements (MAX_BODY_BYTES - RESERVED_BYTES) max_statements
  let result := bodies.mapIdx batch_of
  if result = [] then
    .error (.value_error "Nonempty explicit SQL batch plan required")
  return result

/-- What `plan` returned for some statements. -/
structure BatchPlan where
  statements : List String
  max_statements : Int
  batches : List Batch
  planned : plan statements max_statements = .ok batches

def manifest_sha256 (batches : List Batch) : String :=
  sha256 (encode (control_plane.canonical (.arr (batches.map fun batch => batch.receipt.json))))

/-- The receipt that names the plan of a database. -/
def manifest (batches : List Batch) : Receipt := ⟨"manifest", manifest_sha256 batches, -1, 0⟩

def BEGIN_COMMIT (engine : String) : String × String :=
  if engine = "postgresql" then ("BEGIN;", "COMMIT;")
    else ("BEGIN TRANSACTION;", "COMMIT TRANSACTION;")

def insert_receipt (engine : String) (receipt : Receipt) : Except Failure String :=
  let raw := control_plane.canonical receipt.json
  if engine = "postgresql" then
    .ok ("INSERT INTO bench_batch_receipt SELECT * FROM jsonb_to_record('" ++ raw ++
      "'::jsonb) AS x(" ++
      "batch_id text,payload_sha256 text,seq_no integer,body_bytes integer);")
  else if engine = "surrealdb" then
    .ok ("CREATE bench_batch_receipt:" ++ receipt.batch_id ++ " CONTENT " ++ raw ++ " RETURN NONE;")
  else .error (.value_error "Closed synthetic engine selection required")

def transaction (engine : String) (batch : Batch) (inject_failure : Bool) :
    Except Failure String := do
  let failure := if engine = "postgresql" then "SELECT 1/0;"
    else "THROW 'synthetic-atomic-batch-failure';"
  let (start, commit) := BEGIN_COMMIT engine
  let receipt ← insert_receipt engine batch.receipt
  let body := start ++ "\n" ++ batch.sql ++ "\n" ++
    (if inject_failure then failure ++ "\n" else "") ++ receipt ++ "\n" ++ commit
  if (encode body).length > MAX_BODY_BYTES then
    .error (.value_error "Wrapped SQL transaction exceeds encoded batch budget")
  return body

theorem batch_id_ne_manifest (index : Nat) : batch_id_of index ≠ "manifest" := by
  intro h
  have hhead := congrArg (fun text : String => text.toList.head?) h
  simp [batch_id_of] at hhead

namespace BatchPlan

variable (p : BatchPlan)

theorem batches_eq : ∃ bodies : List String, p.batches = bodies.mapIdx batch_of ∧
    p.batches ≠ [] := by
  have hplanned := p.planned
  simp only [plan, Except.bind_eq_ok] at hplanned
  obtain ⟨bodies, _, hresult⟩ := hplanned
  refine ⟨bodies, ?_⟩
  by_cases hempty : bodies.mapIdx batch_of = []
  · simp [hempty] at hresult
  · rw [if_neg hempty] at hresult
    have heq := Except.pure_eq_ok.mp hresult
    exact ⟨heq.symm, heq ▸ hempty⟩

theorem ne_nil : p.batches ≠ [] := by
  obtain ⟨_, _, hne⟩ := p.batches_eq
  exact hne

/-- The place of a batch is its number, and its name tells it. -/
theorem numbered {index : Nat} {batch : Batch} (h : p.batches[index]? = some batch) :
    batch.seq_no = index ∧ batch.batch_id = batch_id_of index := by
  obtain ⟨bodies, hbodies, _⟩ := p.batches_eq
  rw [hbodies, List.getElem?_mapIdx, Option.map_eq_some_iff] at h
  obtain ⟨sql, _, rfl⟩ := h
  exact ⟨rfl, rfl⟩

end BatchPlan

end bench
