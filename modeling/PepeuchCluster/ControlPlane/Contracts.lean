import PepeuchCluster.Digest.Sha256
import PepeuchCluster.Effects.Effect
import PepeuchCluster.Json.RoundTrip
import PepeuchCluster.Json.Size
import PepeuchCluster.Numbers.Calendar

namespace control_plane

/-- What a call raises: a `Problem` with its public code, an error of SQLite, of
    the operating system or of the language, or the end of the process. -/
inductive Failure where
  | problem (code : String) (status : Nat)
  | integrity_error
  | os_error
  | value_error
  | type_error
  | killed
deriving DecidableEq

def Problem (code : String) (status : Nat := 400) : Failure := .problem code status

def encode (s : String) : List UInt8 := s.toList.flatMap String.utf8EncodeChar

/-- The text of a value. Where a value may be too deep or have an integer too long for the encoder,
    `pepeuch_worker.Interpreter.written` tells it before. -/
def canonical (value : Json) : String := String.ofList (Json.render value)

/-- The value of a text. Where the limits of the decoder count, `pepeuch_worker.decode_bytes` has
    them. -/
def decode_json (raw : String) : Except Failure Json :=
  match Json.parse raw.toList with
  | some value => .ok value
  | none => .error (Problem "invalid_json")

theorem decode_canonical {value : Json} (h : value.WellFormed) :
    decode_json (canonical value) = .ok value := by
  simp [decode_json, canonical, Json.parse_render h]

theorem encode_append (s t : String) : encode (s ++ t) = encode s ++ encode t := by
  rw [encode, String.toList_append, List.flatMap_append, encode, encode]

theorem encode_canonical_length (value : Json) :
    (encode (canonical value)).length = Json.utf8_length (Json.render value) := by
  rw [encode, canonical, String.toList_ofList, Json.utf8_length]

def keys : Json → Option (List String)
  | .obj entries => some (entries.map Prod.fst)
  | _ => none

/-- A dictionary with every required key and no key beyond the optional ones. -/
def fields (data : Json) (required : List String) (optional : List String := []) :
    Except Failure Unit :=
  match keys data with
  | some present =>
    Except.require
      ((∀ key ∈ required, key ∈ present) ∧ ∀ key ∈ present, key ∈ required ∨ key ∈ optional)
      (Problem "invalid_fields")
  | none => .error (Problem "invalid_fields")

/-- `data[key]`, for a key that `fields` has required. -/
def item (data : Json) (key : String) : Json := (data.lookup key).getD .null

/-- The characters that `str.strip` removes. -/
def isSpace (c : Char) : Bool :=
  let n := c.toNat
  (9 ≤ n && n ≤ 13) || (28 ≤ n && n ≤ 32) || n = 0x85 || n = 0xa0 || n = 0x1680 ||
    (0x2000 ≤ n && n ≤ 0x200a) || n = 0x2028 || n = 0x2029 || n = 0x202f || n = 0x205f || n = 0x3000

def isText (value : String) (maximum : Nat) : Prop :=
  (∃ c ∈ value.toList, isSpace c = false) ∧ value.toList.length ≤ maximum ∧
    Char.ofNat 0 ∉ value.toList

instance (value : String) (maximum : Nat) : Decidable (isText value maximum) :=
  @instDecidableAnd _ _ (List.decidableBEx _ _) inferInstance

def text (value : Json) (maximum : Nat) : Except Failure String :=
  match value with
  | .str s => if isText s maximum then .ok s else .error (Problem "invalid_text")
  | _ => .error (Problem "invalid_text")

/-- The canonical spelling of a UUID, five groups of lowercase hexadecimal digits. -/
def isOperationId (value : String) : Prop :=
  value.toList.length = 36 ∧ ∀ entry ∈ value.toList.zipIdx,
    if entry.2 ∈ [8, 13, 18, 23] then entry.1 = '-' else Sha256.isHex entry.1 = true

instance (value : String) : Decidable (isOperationId value) := by
  unfold isOperationId; infer_instance

def operation_id (value : Json) : Except Failure String :=
  match value with
  | .str s => if isOperationId s then .ok s else .error (Problem "invalid_operation_id")
  | _ => .error (Problem "invalid_operation_id")

def isIdentifier (value : String) : Bool :=
  match value.toList with
  | kind :: '_' :: rest => 'a' ≤ kind && kind ≤ 'z' && rest.length = 32 && rest.all Sha256.isHex
  | _ => false

def identifier (value : Json) : Except Failure String :=
  match value with
  | .str s => if isIdentifier s then .ok s else .error (Problem "invalid_identifier")
  | _ => .error (Problem "invalid_identifier")

/-- `prefix + "_" + uuid4().hex`. -/
def identity_text (kind : Char) (uuid : BitVec 128) : String :=
  String.ofList (kind :: '_' :: Sha256.hex 32 uuid.toNat)

/-- The text of a clock reading: negative readings are refused, and
    `datetime.fromtimestamp` refuses those past the year 9999. -/
def timestamp (epoch : Number) : Except Failure String :=
  if epoch.value < 0 then .error (Problem "invalid_clock" 500)
  else if (Calendar.split epoch).1 ≤ 253402300799 then
    .ok (Calendar.isoformat (Calendar.split epoch).1 (Calendar.split epoch).2)
  else .error .value_error

inductive State where
  | draft
  | approved
  | queued
  | running
  | completed
  | failed
  | cancel_requested
  | cancelled
  | interrupted
deriving DecidableEq

namespace State

def text : State → String
  | draft => "draft"
  | approved => "approved"
  | queued => "queued"
  | running => "running"
  | completed => "completed"
  | failed => "failed"
  | cancel_requested => "cancel_requested"
  | cancelled => "cancelled"
  | interrupted => "interrupted"

/-- `a.state IN ('running','cancel_requested')`. -/
def active (state : State) : Bool := state = running || state = cancel_requested

@[simp] theorem active_iff {state : State} : state.active = true ↔
    state = running ∨ state = cancel_requested := by
  cases state <;> decide

theorem text_injective : Function.Injective text := by
  intro s t h
  cases s <;> cases t <;> first | rfl | exact absurd h (by decide)

end State

def TRANSITIONS : State → List State
  | .draft => [.approved, .cancelled]
  | .approved => [.queued, .cancelled]
  | .queued => [.running, .cancelled]
  | .running => [.completed, .failed, .cancel_requested, .interrupted]
  | .cancel_requested => [.cancelled, .interrupted]
  | .failed => [.queued]
  | .interrupted => [.queued, .cancelled]
  | .completed => []
  | .cancelled => []

inductive Role where
  | admin
  | worker
  | system
deriving DecidableEq

structure Principal where
  identity : String
  role : Role
  credential_epoch : Option Nat
deriving DecidableEq

def ADMIN : Principal := ⟨"local-admin", .admin, none⟩

def SYSTEM : Principal := ⟨"local-system", .system, none⟩

def require_role (principal : Principal) (role : Role) : Except Failure Unit :=
  Except.require (principal.role = role) (Problem "access_denied" 403)

inductive Capability where
  | demo
  | cpu_digest
deriving DecidableEq

namespace Capability

def text : Capability → String
  | demo => "demo.report.v1"
  | cpu_digest => "cpu.text.sha256.v1"

/-- `SPECS[capability]["role"]`. -/
def role : Capability → String
  | demo => "demo-report"
  | cpu_digest => "cpu-text-digest"

def instruction : Capability → String
  | demo => "produce_deterministic_report"
  | cpu_digest => "hash_authorized_objective_utf8"

def simulated : Capability → Bool
  | demo => true
  | cpu_digest => false

end Capability

def optionText : Option String → Json
  | none => .null
  | some s => .str s

structure ExecutionResult where
  attempt_id : String
  generation : String
  status : State
  outputs : List Json
  error_code : Option String

namespace ExecutionResult

def to_dict (result : ExecutionResult) : Json :=
  .dict [("schema", .str "pepeuch.control-plane/execution-result/v1"),
    ("attempt_id", .str result.attempt_id), ("generation", .str result.generation),
      ("status", .str result.status.text),
    ("outputs", .arr result.outputs), ("error_code", optionText result.error_code)]

def status_of : Json → Except Failure State
  | .str s =>
    match [State.completed, .failed, .interrupted, .cancelled].find? fun state =>
      state.text = s with
    | some state => .ok state
    | none => .error (Problem "invalid_result_state")
  | _ => .error (Problem "invalid_result_state")

def outputs_of : Json → Except Failure (List Json)
  | .arr items => if items.length ≤ 1 then .ok items else .error (Problem "invalid_outputs")
  | _ => .error (Problem "invalid_outputs")

def ERROR_CODES : List String :=
  ["simulated_failure", "simulated_interruption", "cpu_execution_failed", "cpu_interrupted",
    "cpu_deadline_exceeded"]

def error_code_of : Json → Except Failure (Option String)
  | .null => .ok none
  | .str s => if s ∈ ERROR_CODES then .ok (some s) else .error (Problem "invalid_error_code")
  | _ => .error (Problem "invalid_error_code")

def is_text (expected : String) : Json → Bool
  | .str s => s = expected
  | _ => false

def from_dict (data : Json) : Except Failure ExecutionResult := do
  fields data ["schema", "attempt_id", "generation", "status", "outputs", "error_code"]
  Except.require (is_text "pepeuch.control-plane/execution-result/v1" (item data "schema"))
    (Problem "invalid_schema")
  let attempt_id ← identifier (item data "attempt_id")
  let generation ← identifier (item data "generation")
  let status ← status_of (item data "status")
  let outputs ← outputs_of (item data "outputs")
  let error_code ← error_code_of (item data "error_code")
  return { attempt_id, generation, status, outputs, error_code }

end ExecutionResult

end control_plane
