import Mathlib.Data.List.Sort
import PepeuchCluster.Bench.Batches
import PepeuchCluster.Effects.Program

namespace bench

/-- A statement that the engine executes as a whole or not at all. -/
inductive Command where
  | create (receipt : Receipt)
  | commit (batch : Batch)

/-- What a client asks: a read of `bench_batch_receipt`, a statement with what its text
    does, or the call of `on_receipt`. -/
inductive Request where
  | select (batch_id : String)
  | select_batches
  | execute (statement : String) (command : Command)
  | on_receipt (receipt : Receipt)

def Answer : Request → Type
  | .select _ | .select_batches => List Receipt
  | .execute _ _ | .on_receipt _ => Unit

abbrev Client (α : Type) := Program Failure Request Answer α

open Program (require ofExcept raise)

def query (batch_id : String) : Client (List Receipt) := Program.request (Request.select batch_id)

def query_batches : Client (List Receipt) := Program.request Request.select_batches

def execute (statement : String) (command : Command) : Client Unit :=
  Program.request (Request.execute statement command)

/-- `json.dumps(receipt, sort_keys=True)`; its blanks make no difference here. -/
@[irreducible] def dumps (receipt : Receipt) : String := control_plane.canonical receipt.json

def matching (receipt expected : Receipt) : Prop := dumps receipt = dumps expected

instance (receipt expected : Receipt) : Decidable (matching receipt expected) :=
  instDecidableEqString _ _

structure Report where
  planned : Nat
  already_acknowledged : Nat
  applied : Nat
  manifest_sha256 : String
  verified : Bool
deriving DecidableEq

/-- `type(interrupt_after) is int` and between two of the pending batches. -/
def interruptible (pending : Int) : Option Json → Bool
  | none => true
  | some (.number (.int after)) => 0 < after && after < pending
  | some _ => false

def interrupts (applied : Nat) : Option Json → Bool
  | some (.number (.int after)) => after = applied
  | _ => false

section Deliver

variable (send : Batch → Client Unit) (confirm : Batch → Client (Option Receipt))
  (on_receipt : Receipt → Client Unit)
  (interrupt_after : Option Json)

def deliver_pending : List Batch → Nat → Client Nat
  | [], applied => pure applied
  | batch :: pending, applied => do
    send batch
    match ← confirm batch with
    | none => raise (.value_error "Batch acknowledgement missing or incompatible")
    | some receipt =>
      require (matching receipt batch.receipt)
        (.value_error "Batch acknowledgement missing or incompatible")
      on_receipt receipt
      require (interrupts (applied + 1) interrupt_after = false)
        (.delivery_interrupted "Delivery interrupted between acknowledged SQL batches")
      deliver_pending pending (applied + 1)

def deliver (batches : List Batch) (existing : List Receipt) : Client Report := do
  require (existing.length ≤ batches.length ∧
      ∀ pair ∈ existing.zip batches, matching pair.1 pair.2.receipt)
    (.value_error "Only an exact acknowledged prefix can be resumed")
  require (interruptible ((batches.length : Int) - existing.length) interrupt_after = true)
    (.value_error "Interruption must be between two pending batches")
  let applied ← deliver_pending send confirm on_receipt interrupt_after
    (batches.drop existing.length) 0
  return ⟨batches.length, existing.length, applied, manifest_sha256 batches, true⟩

end Deliver

/-- One ingestion: the arguments of `ingest` besides the client. -/
structure Run where
  engine : String
  plan : BatchPlan
  on_receipt : Bool
  interrupt_after : Option Json

def claim_manifest (engine : String) (batches : List Batch) : Client Unit := do
  let current ← query "manifest"
  if current ≠ [] then
    require (current = [manifest batches])
      (.value_error "Synthetic database belongs to a different batch manifest")
  else
    let statement ← ofExcept (insert_receipt engine (manifest batches))
    execute statement (.create (manifest batches))
    let confirmed ← query "manifest"
    require (confirmed = [manifest batches]) (.value_error "Batch manifest creation not confirmed")

def confirm (batch : Batch) : Client (Option Receipt) := do
  let rows ← query batch.batch_id
  return if rows.length = 1 then rows.head? else none

def send (engine : String) (batch : Batch) : Client Unit := do
  let statement ← ofExcept (transaction engine batch false)
  execute statement (.commit batch)

def acknowledge (on_receipt : Bool) (receipt : Receipt) : Client Unit :=
  if on_receipt then Program.request (Request.on_receipt receipt) else pure ()

def ingest (run : Run) : Client Report := do
  claim_manifest run.engine run.plan.batches
  let existing ← query_batches
  deliver (send run.engine) confirm (acknowledge run.on_receipt) run.interrupt_after
    run.plan.batches existing

/-- The receipts in the order of their rows, the batches in the order of their commits,
    and the statements under way whose clients no longer wait for them. -/
structure Database where
  receipts : List Receipt
  applied : List Batch
  flight : List Command

def Database.has (db : Database) (batch_id : String) : Prop :=
  ∃ receipt ∈ db.receipts, receipt.batch_id = batch_id

instance (db : Database) (batch_id : String) : Decidable (db.has batch_id) := by
  unfold Database.has
  infer_instance

/-- The names of receipts are unique: a statement that repeats one is rolled back. -/
def Database.execute (db : Database) : Command → Option Database
  | .create receipt =>
    if db.has receipt.batch_id then none else some { db with receipts := db.receipts ++ [receipt] }
  | .commit batch =>
    if db.has batch.batch_id then none
    else
      some { db with receipts := db.receipts ++ [batch.receipt], applied := db.applied ++ [batch] }

/-- What may happen to a call: it is answered; it is refused or lost and has no effect; it
    takes effect, but its answer is lost; or it is still under way when its client gives up. -/
inductive Fate where
  | answered | refused | lost | unanswered | detached

def Database.submit (db : Database) (command : Command) : Fate → Except Failure Unit × Database
  | .answered =>
    ((db.execute command).elim (.error .engine_error) fun _ => .ok (), (db.execute command).getD db)
  | .refused => (.error .engine_error, db)
  | .lost => (.error .connection_lost, db)
  | .unanswered => (.error .connection_lost, (db.execute command).getD db)
  | .detached => (.error .connection_lost, { db with flight := db.flight ++ [command] })

def Database.read {α : Type} (db : Database) (rows : α) : Fate → Except Failure α × Database
  | .answered => (.ok rows, db)
  | .refused => (.error .engine_error, db)
  | _ => (.error .connection_lost, db)

def Database.answer (db : Database) (fate : Fate) :
    (op : Request) → Except Failure (Answer op) × Database
  | .select batch_id => db.read (db.receipts.filter fun receipt => receipt.batch_id = batch_id) fate
  | .select_batches =>
    db.read ((db.receipts.filter fun receipt => receipt.batch_id ≠ "manifest").insertionSort
      fun receipt other => receipt.seq_no ≤ other.seq_no) fate
  | .execute _ command => db.submit command fate
  | .on_receipt _ =>
    match fate with
    | .answered => (.ok (), db)
    | _ => (.error .callback_error, db)

/-- A statement under way ends: it takes effect, if it can, or it is rolled back. -/
structure Settlement where
  index : Nat
  committed : Bool

def Database.settle (db : Database) (settlement : Settlement) : Database :=
  match db.flight[settlement.index]? with
  | none => db
  | some command =>
    let after : Database := { db with flight := db.flight.eraseIdx settlement.index }
    if settlement.committed then (after.execute command).getD after else after

def engine : Program.World Failure Request Answer Database Fate Settlement where
  answer op fate db := db.answer fate op
  drift settlement db := db.settle settlement

/-- One database, and the runs of any number of clients. -/
abbrev Bench := Program.Crowd Run Failure Request Answer Report Database

abbrev Event := Program.Event Run Fate Settlement

def empty : Bench := ⟨⟨[], [], []⟩, fun _ => none⟩

def history (events : List Event) : Bench := empty.history engine ingest events

end bench
