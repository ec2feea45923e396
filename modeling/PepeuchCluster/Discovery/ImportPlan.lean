import PepeuchCluster.Discovery.Cache

namespace discovery

/-- `{record["record_key"]: record for record in records}`. -/
def by_key (records : List Json) : List (String × Json) :=
  records.foldl (fun pairs record => put pairs (record.item "record_key").text record) []

def sorted_texts (texts : List String) : Json := .arr ((texts.insertionSort (· ≤ ·)).map Json.str)

/-- `timestamp` of the manual run. -/
def timestamp [Datetime] (value : Json) : Except Failure Binary64 := do
  demand (isString value = true ∧ value.text.toList.length ≤ 64)
    "Explicit bounded observation time required"
  match Datetime.fromisoformat value.text with
  | none => .error (.value_error "Invalid isoformat string")
  | some none => .error (.value_error "Timezone required")
  | some (some microseconds) =>
    match Binary64.ofValue (microseconds / 1000000) with
    | some seconds => return seconds
    | none => .error .overflow_error

section Plans

variable [Unicode] [Datetime]

def compare_snapshots (now : Now) (before after : Json) : Except Failure Json := do
  let _ ← validate_snapshot now before
  let _ ← validate_snapshot now after
  demand ((before.item "scope").equal (after.item "scope") = true)
    "Different collection scopes; cannot interpret missing records"
  let old := by_key (elements (before.item "records"))
  let new := by_key (elements (after.item "records"))
  let common := old.filterMap fun pair => (new.lookup pair.1).map fun record =>
    (pair.1, pair.2, record)
  let same := common.filter fun pair =>
    (pair.2.1.item "payload_sha256").equal (pair.2.2.item "payload_sha256")
  let changed := common.filter fun pair =>
    !(pair.2.1.item "payload_sha256").equal (pair.2.2.item "payload_sha256")
  return .dict [("before", before.item "snapshot_id"), ("after", after.item "snapshot_id"),
    ("added", sorted_texts ((new.map Prod.fst).filter fun key => (old.lookup key).isNone)),
    ("changed", sorted_texts (changed.map Prod.fst)),
    ("not_observed", sorted_texts ((old.map Prod.fst).filter fun key => (new.lookup key).isNone)),
    ("unchanged_count", .number (.int same.length)),
    ("note", .str "not_observed is NOT a deletion instruction (sample or source may be partial)")]

def kind_of (entry : Json) : Json := (entry.item "provenance").item "kind"

def captured_of (entry : Json) : Json := (entry.item "snapshot").item "captured_at"

def records_of (entry : Json) : List Json := elements ((entry.item "snapshot").item "records")

/-- What a plan demands of the entry before, and the changes that it reports. -/
def changes_since (now : Now) (before after : Json) : Except Failure Json := do
  ["source", "selection", "context"].forM fun key =>
    demand (((before.item "request").item key).equal ((after.item "request").item key) = true)
      "Partition or selection changes need a separate reviewed baseline"
  demand ((kind_of before).equal (kind_of after) = true)
    "Synthetic and controlled baselines cannot be mixed"
  let current ← timestamp (captured_of after)
  let previous ← timestamp (captured_of before)
  demand (¬ current.value < previous.value) "Older capture cannot replace a newer baseline"
  demand
    (current.value = previous.value → (after.item "snapshot").equal (before.item "snapshot") = true)
    "Conflicting observations at the same capture time"
  compare_snapshots now (before.item "snapshot") (after.item "snapshot")

/-- The row that an entry writes for a record: `{**record, …}`. -/
def row_of (entry record : Json) : Json :=
  .dict ((record.entries.filter fun field => field.1 ≠ "last_seen_snapshot" ∧
    field.1 ≠ "last_seen_at") ++
    [("last_seen_snapshot", (entry.item "snapshot").item "snapshot_id"),
      ("last_seen_at", captured_of entry)])

/-- What an action expects of the row that it replaces, null for none. -/
def expected_of (before : Option Json) (key : String) : Json :=
  match before with
  | none => .null
  | some before =>
    match (by_key (records_of before)).lookup key with
    | none => .null
    | some previous =>
      .dict [("payload_sha256", previous.item "payload_sha256"),
        ("last_seen_snapshot", (before.item "snapshot").item "snapshot_id"),
          ("last_seen_at", captured_of before)]

def action_of (before : Option Json) (after record : Json) : Json :=
  .dict [("operation", .str "upsert_if_expected_or_already_applied"),
    ("expected", expected_of before (record.item "record_key").text),
      ("record", row_of after record)]

/-- The document of a plan. -/
def plan_document (before : Option Json) (after changes : Json) : Json :=
  .dict [("format", .str "pepeuch-ai.incremental-import-plan/v1"), ("executable", .bool false),
    ("data_kind", kind_of after), ("scope", (after.item "snapshot").item "scope"),
    ("context", (after.item "request").item "context"),
    ("snapshot_id", (after.item "snapshot").item "snapshot_id"),
    ("changes", changes), ("actions", .arr ((records_of after).map (action_of before after))),
    ("delete_actions", .arr []), ("requires",
      .arr [.str "current_database_state_check", .str "atomic_compare_and_swap_or_staging",
        .str "engine_specific_failure_replay_tests",
          .str "account_domain_storage_isolation_decision"]),
    ("legacy_generators_guarded", .bool false)]

def plan_import (now : Now) (before : Option Json) (after : Json)
    (trusted_issuers : String → Option (List UInt8)) :
    Except Failure Json := do
  let after ← validate_cache now after trusted_issuers
  let before ← before.mapM fun before => validate_cache now before trusted_issuers
  demand (kind_of after ≠ .str "historical_unknown" ∧
    before.all (fun before => kind_of before ≠ .str "historical_unknown"))
    "Unknown historical origin cannot establish incremental import preconditions"
  let changes ← match before with
    | some before => changes_since now before after
    | none => pure (.dict [("added",
        sorted_texts ((records_of after).map fun record => (record.item "record_key").text)),
        ("changed", .arr []), ("not_observed", .arr [])])
  copy_metadata (plan_document before after changes)

/-- The plans of each entry after the one before it. -/
def plan_chain (now : Now) (trusted_issuers : String → Option (List UInt8)) :
    Option Json → List Json → Except Failure (List Json)
  | _, [] => .ok []
  | before, after :: rest => do
    let plan ← plan_import now before after trusted_issuers
    return plan :: (← plan_chain now trusted_issuers (some after) rest)

end Plans

/-- Whether the row is what an action expects. -/
def admits (expected : Json) (existing : Option Json) : Bool :=
  match existing with
  | none => expected = .null
  | some row => expected ≠ .null && expected.entries.all fun field =>
    (row.item field.1).equal field.2

/-- `upsert_if_expected_or_already_applied`: no store where the action is refused. -/
def upsert (store : List (String × Json)) (action : Json) : Option (List (String × Json)) :=
  let record := action.item "record"
  let key := (record.item "record_key").text
  let existing := store.lookup key
  if existing.any fun row => row.equal record then some store
  else if admits (action.item "expected") existing then some (put store key record)
  else none

def apply_plan (store : List (String × Json)) (plan : Json) : Option (List (String × Json)) :=
  (elements (plan.item "actions")).foldlM upsert store

section Rows

theorem lookup_replace {pairs : List (String × Json)} {key name : String} {value : Json}
    (hne : name ≠ key) :
    (pairs.map fun pair => if pair.1 = key then (key, value) else pair).lookup name =
      pairs.lookup name := by
  induction pairs with
  | nil => rfl
  | cons pair rest ih =>
    obtain ⟨other, held⟩ := pair
    rw [List.map_cons, List.lookup_cons]
    by_cases hother : other = key
    · rw [if_pos hother, List.lookup_cons, ih, hother, beq_false_of_ne hne]
    · rw [if_neg hother, List.lookup_cons, ih]

theorem lookup_replaced {pairs : List (String × Json)} {key : String} {value : Json}
    (h : key ∈ pairs.map Prod.fst) :
    (pairs.map fun pair => if pair.1 = key then (key, value) else pair).lookup key =
      some value := by
  induction pairs with
  | nil => cases h
  | cons pair rest ih =>
    obtain ⟨other, held⟩ := pair
    rw [List.map_cons]
    by_cases hother : other = key
    · rw [if_pos hother, List.lookup_cons_self]
    · rw [if_neg hother, List.lookup_cons, beq_false_of_ne (Ne.symm hother)]
      exact ih ((List.mem_cons.mp h).resolve_left (Ne.symm hother))

theorem lookup_eq_none_of_fresh {pairs : List (String × Json)} {key : String}
    (h : key ∉ pairs.map Prod.fst) :
    pairs.lookup key = none := by
  cases hlookup : pairs.lookup key with
  | none => rfl
  | some value => exact absurd (List.mem_map_of_mem (f := Prod.fst) (mem_of_lookup hlookup)) h

theorem lookup_put (pairs : List (String × Json)) (key name : String) (value : Json) :
    (put pairs key value).lookup name = if name = key then some value else pairs.lookup name := by
  unfold put
  split
  · next hmem =>
    split
    · next hname => rw [hname, lookup_replaced hmem]
    · next hname => exact lookup_replace hname
  · next hmem =>
    rw [List.lookup_append]
    split
    · next hname => rw [hname, lookup_eq_none_of_fresh hmem, List.lookup_cons_self, Option.none_or]
    · next hname => rw [List.lookup_cons, beq_false_of_ne hname, List.lookup_nil, Option.or_none]

/-- What an action writes to. -/
def key_of (action : Json) : String := ((action.item "record").item "record_key").text

def Admitted (store : List (String × Json)) (action : Json) : Prop :=
  (∃ row, store.lookup (key_of action) = some row ∧ row.equal (action.item "record") = true) ∨
    admits (action.item "expected") (store.lookup (key_of action)) = true

variable {store store' : List (String × Json)} {action : Json} {actions : List Json} {key : String}

theorem upsert_isSome : (∃ store', upsert store action = some store') ↔ Admitted store action := by
  have hany :
    ((store.lookup (key_of action)).any fun row => row.equal (action.item "record")) = true ↔
      ∃ row, store.lookup (key_of action) = some row ∧ row.equal (action.item "record") = true := by
    cases store.lookup (key_of action) <;> simp
  unfold upsert Admitted
  rw [← hany]
  dsimp only [key_of]
  split
  · next hheld => exact ⟨fun _ => .inl hheld, fun _ => ⟨_, rfl⟩⟩
  · next hheld =>
    split
    · next hadmits => exact ⟨fun _ => .inr hadmits, fun _ => ⟨_, rfl⟩⟩
    · next hadmits => exact ⟨nofun, fun h => absurd (h.resolve_left hheld) hadmits⟩

/-- An upsert leaves the record of its action, and the other rows alone. -/
theorem upsert_lookup (h : upsert store action = some store') :
    (∃ row, store'.lookup (key_of action) = some row ∧ row.equal (action.item "record") = true) ∧
      ∀ key, key ≠ key_of action → store'.lookup key = store.lookup key := by
  unfold upsert at h
  dsimp only at h
  split at h
  · next hheld =>
    obtain rfl := Option.some.inj h
    obtain ⟨row, hrow, hequal⟩ := (Option.any_eq_true _ _).mp hheld
    exact ⟨⟨row, hrow, hequal⟩, fun _ _ => rfl⟩
  · split at h
    · obtain rfl := Option.some.inj h
      refine ⟨⟨action.item "record", ?_, Json.equal_refl _⟩, fun key hne => ?_⟩
      · rw [lookup_put]
        exact if_pos rfl
      · rw [lookup_put]
        exact if_neg hne
    · cases h

/-- Actions on different keys do not disturb each other. -/
theorem upserts_isSome (hkeys : (actions.map key_of).Nodup) :
    (∃ store', actions.foldlM upsert store = some store') ↔
      ∀ action ∈ actions, Admitted store action := by
  induction actions generalizing store with
  | nil => exact ⟨fun _ => List.forall_mem_nil _, fun _ => ⟨store, rfl⟩⟩
  | cons action rest ih =>
    obtain ⟨hfresh, hrest⟩ := List.nodup_cons.mp hkeys
    rw [List.forall_mem_cons, ← upsert_isSome]
    have hsame : ∀ next, upsert store action = some next →
        ((∀ other ∈ rest, Admitted next other) ↔ ∀ other ∈ rest, Admitted store other) := by
      intro next hnext
      refine forall₂_congr fun other hother => ?_
      have hne : key_of other ≠ key_of action :=
        fun heq => hfresh (heq ▸ List.mem_map_of_mem hother)
      unfold Admitted
      rw [(upsert_lookup hnext).2 _ hne]
    cases hnext : upsert store action with
    | none => simp [List.foldlM_cons, hnext]
    | some next =>
      rw [List.foldlM_cons, hnext]
      change (∃ store', rest.foldlM upsert next = some store') ↔ _
      rw [ih hrest, hsame next hnext]
      exact ⟨fun h => ⟨⟨_, rfl⟩, h⟩, fun h => h.2⟩

theorem upserts_lookup (hkeys : (actions.map key_of).Nodup)
    (h : actions.foldlM upsert store = some store') :
    (∀ action ∈ actions, ∃ row, store'.lookup (key_of action) = some row ∧
      row.equal (action.item "record") = true) ∧ ∀ key ∉ actions.map key_of,
    store'.lookup key = store.lookup key := by
  induction actions generalizing store with
  | nil =>
    obtain rfl := Option.some.inj h
    exact ⟨List.forall_mem_nil _, fun _ _ => rfl⟩
  | cons action rest ih =>
    obtain ⟨hfresh, hrest⟩ := List.nodup_cons.mp hkeys
    rw [List.foldlM_cons] at h
    obtain ⟨next, hnext, h⟩ := Option.bind_eq_some_iff.mp h
    obtain ⟨hwritten, hothers⟩ := upsert_lookup hnext
    obtain ⟨hall, hkept⟩ := ih hrest h
    refine ⟨List.forall_mem_cons.mpr ⟨?_, hall⟩, fun key hkey => ?_⟩
    · rwa [hkept _ hfresh]
    · rw [List.map_cons, List.mem_cons, not_or] at hkey
      rw [hkept key hkey.2, hothers key hkey.1]

end Rows

/-- What an entry wrote for a key that it observed. -/
def observed (entry : Json) (key : String) : Option Json :=
  ((by_key (records_of entry)).lookup key).map (row_of entry)

/-- What the latest entry that observed the key wrote. -/
def latest (entries : List Json) (key : String) : Option Json :=
  entries.foldl (fun found entry => (observed entry key).or found) none

def observed_keys (entry : Json) : List String :=
  (records_of entry).map fun record => (record.item "record_key").text

theorem latest_append {entries : List Json} {entry : Json} {key : String} :
    latest (entries ++ [entry]) key = (observed entry key).or (latest entries key) := by
  rw [latest, List.foldl_append]
  rfl

section Entries

theorem by_key_distinct {records : List Json} {pairs : List (String × Json)}
    (hkeys :
      (pairs.map Prod.fst ++ records.map fun record => (record.item "record_key").text).Nodup) :
    records.foldl (fun pairs record => put pairs (record.item "record_key").text record) pairs =
      pairs ++ records.map fun record => ((record.item "record_key").text, record) := by
  induction records generalizing pairs with
  | nil => simp
  | cons record rest ih =>
    have hfresh : (record.item "record_key").text ∉ pairs.map Prod.fst := fun hmem =>
      List.disjoint_of_nodup_append hkeys hmem List.mem_cons_self
    rw [List.foldl_cons, put, if_neg hfresh, ih (by simpa using hkeys)]
    simp

variable [Unicode]

theorem entry_texts {recovered : List SourceRecord} (h : ∀ record ∈ recovered, Acceptable record) :
    (recovered.map SourceRecord.entry).map (fun record => (record.item "record_key").text) =
      recovered.map SourceRecord.key := by
  rw [List.map_map]
  refine List.map_congr_left fun record hrecord => ?_
  rw [Function.comp_apply, SourceRecord.entry_key (h record hrecord).wellFormed, Json.text]

variable [Datetime] {now : Now} {trusted_issuers : String → Option (List UInt8)} {entry : Json}

/-- The records of an accepted entry have different keys. -/
theorem Cached.records (h : Cached now trusted_issuers entry) : ∃ recovered : List SourceRecord,
    records_of entry = recovered.map SourceRecord.entry ∧
      (∀ record ∈ recovered, Acceptable record) ∧ (recovered.map SourceRecord.key).Nodup := by
  obtain ⟨recovered, haccepted⟩ := h.parts.bound.accepted
  refine ⟨recovered, ?_, haccepted.acceptable, haccepted.distinct.imp fun hlt => hlt.ne⟩
  rw [records_of, haccepted.records, elements]

theorem Cached.by_key (h : Cached now trusted_issuers entry) :
    discovery.by_key (records_of entry) = (records_of entry).map fun record =>
      ((record.item "record_key").text, record) := by
  obtain ⟨recovered, hrecords, haccepted, hnodup⟩ := h.records
  have hkeys := entry_texts haccepted
  rw [discovery.by_key, by_key_distinct, List.nil_append]
  rwa [hrecords, List.map_nil, List.nil_append, hkeys]

theorem Cached.keys_nodup (h : Cached now trusted_issuers entry) : (observed_keys entry).Nodup := by
  obtain ⟨recovered, hrecords, haccepted, hnodup⟩ := h.records
  rwa [observed_keys, hrecords, entry_texts haccepted]

theorem Cached.lookup (h : Cached now trusted_issuers entry) {record : Json} {key : String} :
    (discovery.by_key (records_of entry)).lookup key = some record ↔
      record ∈ records_of entry ∧ (record.item "record_key").text = key := by
  have hfst :
    ((records_of entry).map fun record => ((record.item "record_key").text, record)).map Prod.fst =
      observed_keys entry := by
    rw [List.map_map, observed_keys]
    rfl
  rw [h.by_key]
  constructor
  · intro hlookup
    obtain ⟨other, hother, heq⟩ := List.mem_map.mp (mem_of_lookup hlookup)
    obtain ⟨rfl, rfl⟩ := Prod.mk.inj heq
    exact ⟨hother, rfl⟩
  · rintro ⟨hrecord, rfl⟩
    exact lookup_of_mem (hfst ▸ h.keys_nodup) (List.mem_map.mpr ⟨record, hrecord, rfl⟩)

theorem Cached.lookup_isSome (h : Cached now trusted_issuers entry) {key : String} :
    (∃ record, (discovery.by_key (records_of entry)).lookup key = some record) ↔
      key ∈ observed_keys entry := by
  simp only [h.lookup, observed_keys, List.mem_map]

end Entries

end discovery
