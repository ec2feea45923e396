import PepeuchCluster.Discovery.Metadata

/-- `datetime.fromisoformat`: no instant for a text that it refuses, and for the others
    the microseconds since the epoch, unless the time zone is left out. -/
class Datetime where
  fromisoformat : String → Option (Option Int)

namespace discovery

open control_plane (isSpace)

def FORMAT : String := "pepeuch-ai.discovery-cache/v1"

def RECORD_FIELDS : List String :=
  ["source", "entity_type", "source_id", "source_revision", "display_name", "attributes",
    "relationships", "raw_metadata"]

def RESOURCE_TYPES : List String :=
  ["model_reference", "model_artifact", "agent_resource", "nim_microservice", "inference_endpoint"]

structure SourceRecord where
  source : Json
  source_id : Json
  source_revision : Json
  entity_type : Json
  display_name : Json
  attributes : Json
  relationships : List Json
  raw_metadata : Json

namespace SourceRecord

/-- The dictionary that `record_payload` copies. -/
def payload (record : SourceRecord) : Json :=
  .dict [("source", record.source), ("entity_type", record.entity_type),
    ("source_id", record.source_id), ("source_revision", record.source_revision),
      ("display_name", record.display_name),
    ("attributes", record.attributes), ("relationships", .arr record.relationships),
    ("raw_metadata", record.raw_metadata)]

end SourceRecord

def record_key (source entity_type source_id : Json) : String :=
  "d_" ++ digest (.arr [source, entity_type, source_id])

def record_payload [Unicode] (record : SourceRecord) : Except Failure Json :=
  copy_metadata record.payload

/-- `isinstance(value, str) and value.strip()`. -/
def isNonblank : Json → Bool
  | .str text => text.toList.any fun c => !isSpace c
  | _ => false

def isObject : Json → Bool
  | .obj _ => true
  | _ => false

def isString : Json → Bool
  | .str _ => true
  | _ => false

def isArray : Json → Bool
  | .arr _ => true
  | _ => false

def isRelation : Json → Bool
  | .obj fields => fields.all fun field => isString field.2
  | _ => false

def elements : Json → List Json
  | .arr items => items
  | _ => []

theorem elements_plain [Unicode] {value : Json} (h : Plain value) :
    ∀ item ∈ elements value, Plain item := by
  cases value with
  | arr items => exact fun item hitem => h.element hitem
  | _ => exact List.forall_mem_nil _

/-- Whether `relationships` is a list of objects with string values. -/
def areRelations : Json → Bool
  | .arr items => items.all isRelation
  | _ => false

section Records

variable [Unicode]

/-- `SourceRecord(…)`, whose nested data is copied. -/
def source_record (payload : Json) : Except Failure SourceRecord := do
  let attributes ← copy_metadata (payload.item "attributes")
  let relationships ← copy_metadata (payload.item "relationships")
  let raw_metadata ← copy_metadata (payload.item "raw_metadata")
  return { source := payload.item "source", source_id := payload.item "source_id",
           source_revision := payload.item "source_revision",
           entity_type := payload.item "entity_type",
           display_name := payload.item "display_name", attributes,
           relationships := elements relationships, raw_metadata }

/-- `_record_from_payload`. -/
def record_from_payload (payload : Json) : Except Failure SourceRecord := do
  demand (isObject payload = true) "Cache record payload must be an object"
  ["source", "entity_type", "source_id", "display_name"].forM fun field =>
    demand (isNonblank (payload.item field) = true) ("Cache record missing " ++ field)
  demand (payload.item "entity_type" ∈ RESOURCE_TYPES.map Json.str) "Unknown discovery entity type"
  demand (payload.item "source_revision" = .null ∨ isString (payload.item "source_revision") = true)
    "Invalid source_revision"
  demand
    (isObject (payload.item "attributes") = true ∧ isObject (payload.item "raw_metadata") = true)
    "Attributes and raw metadata must be objects"
  demand (areRelations (payload.item "relationships") = true)
    "Relationships must be objects with string keys and values"
  source_record payload

/-- The entry of a record: its key, the digest of its payload, and the payload. -/
def entry_of (key : String) (payload : Json) : Json :=
  .dict (("record_key", .str key) :: ("payload_sha256", .str (digest payload)) :: payload.entries)

/-- `by_key[key] = entry`. -/
def put (by_key : List (String × Json)) (key : String) (entry : Json) : List (String × Json) :=
  if key ∈ by_key.map Prod.fst then by_key.map fun pair =>
    if pair.1 = key then (key, entry) else pair
  else by_key ++ [(key, entry)]

/-- The loop of `make_snapshot`. -/
def collect : List SourceRecord → List (String × Json) → Except Failure (List (String × Json))
  | [], by_key => .ok by_key
  | record :: rest, by_key => do
    let payload ← record_payload record
    let _ ← record_from_payload payload
    let key := record_key record.source record.entity_type record.source_id
    let entry := entry_of key payload
    demand ((by_key.lookup key).all fun prior => prior.equal entry)
      ("Conflicting records for " ++ record.source.text ++ "/" ++ record.source_id.text)
    collect rest (put by_key key entry)

end Records

/-- `value.replace("Z", "+00:00")`. -/
def replace_zulu (value : String) : String :=
  String.ofList
    (value.toList.flatMap fun c => if c = 'Z' then ['+', '0', '0', ':', '0', '0'] else [c])

/-- `_validate_time`. -/
def validate_time [Datetime] (value : Json) : Except Failure Unit :=
  match value with
  | .str text =>
    match Datetime.fromisoformat (replace_zulu text) with
    | none => .error (.value_error "Invalid captured_at timestamp")
    | some none => .error (.value_error "captured_at must include timezone")
    | some (some _) => .ok ()
  | _ => .error (.value_error "captured_at must be an ISO8601 timestamp")

/-- What the clock reads: a text that `fromisoformat` takes back. -/
structure Now [Datetime] where
  text : String
  valid : validate_time (.str text) = .ok ()

def signature (entries : List Json) : Json :=
  .arr (entries.map fun entry => .arr [entry.item "record_key", entry.item "payload_sha256"])

def snapshot_id (scope : Json) (entries : List Json) : String :=
  "s_" ++ digest (.dict [("scope", scope), ("content", signature entries)])

def snapshot_document (scope captured_at : Json) (entries : List Json) : Json :=
  .dict [("format", .str FORMAT), ("snapshot_id", .str (snapshot_id scope entries)),
    ("captured_at", captured_at), ("scope", scope), ("records", .arr entries)]

section Snapshots

variable [Unicode] [Datetime]

/-- `now` is what the clock reads where no `captured_at` is given. -/
def make_snapshot (now : Now) (records : List SourceRecord) (scope captured_at : Json) :
    Except Failure Json := do
  demand (isObject scope = true ∧ scope ≠ .obj []) "A declared collection scope is required"
  let scope ← copy_metadata scope
  let captured_at := if captured_at = .null then .str now.text else captured_at
  validate_time captured_at
  let by_key ← collect records []
  demand (by_key ≠ []) "Refusing an empty discovery snapshot"
  let entries := (Json.sortFields by_key).map Prod.snd
  return snapshot_document scope captured_at entries

def isHex64 (value : String) : Bool := value.toList.length = 64 && value.toList.all Sha256.isHex

/-- `payload`, the entry without its key and digest. -/
def payload_of (entry : Json) : Json :=
  .obj (entry.entries.filter fun field => field.1 ≠ "record_key" ∧ field.1 ≠ "payload_sha256")

/-- One entry of the loop of `validate_snapshot`. -/
def recover_record (entry : Json) : Except Failure SourceRecord := do
  demand (isString (entry.item "record_key") = true) "Malformed discovery record"
  let key := (entry.item "record_key").text
  demand (key.toList.take 2 = ['d', '_'] ∧ isHex64 (String.ofList (key.toList.drop 2)) = true)
    "Malformed record key"
  demand (isString (entry.item "payload_sha256") = true ∧
    isHex64 (entry.item "payload_sha256").text = true)
    "Malformed payload digest"
  let payload := payload_of entry
  let rebuilt ← record_payload (← record_from_payload payload)
  demand (payload.HasKeys rebuilt.fieldKeys) "Unexpected discovery payload fields"
  demand (digest payload = (entry.item "payload_sha256").text) "Discovery payload digest mismatch"
  let record ← record_from_payload payload
  demand (record_key record.source record.entity_type record.source_id = key)
    "Discovery identity mismatch"
  return record

def validate_snapshot (now : Now) (data : Json) : Except Failure Json := do
  demand (data.item "format" = .str FORMAT) "Unknown discovery snapshot format"
  demand (isArray (data.item "records") = true) "Snapshot records must be a list"
  let recovered ← (elements (data.item "records")).mapM recover_record
  let expected ← make_snapshot now recovered (data.item "scope") (data.item "captured_at")
  demand ((data.item "snapshot_id").equal (expected.item "snapshot_id") = true ∧
      (data.item "records").equal (expected.item "records") = true)
    "Discovery snapshot integrity or ordering mismatch"
  return data

end Snapshots

end discovery
