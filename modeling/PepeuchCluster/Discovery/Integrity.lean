import PepeuchCluster.Discovery.Snapshot

namespace discovery

namespace SourceRecord

variable {record : SourceRecord}

theorem payload_keys (record : SourceRecord) : record.payload.HasKeys RECORD_FIELDS :=
  Json.hasKeys_dict _ rfl

theorem payload_item (record : SourceRecord) (key : String) :
    record.payload.item key = (([("source", record.source), ("entity_type", record.entity_type),
      ("source_id", record.source_id), ("source_revision", record.source_revision),
      ("display_name", record.display_name), ("attributes", record.attributes),
      ("relationships", Json.arr record.relationships), ("raw_metadata", record.raw_metadata)].find?
        fun field => field.1 == key).map Prod.snd).getD .null :=
  Json.item_dict (by simp)

@[simp] theorem payload_source : record.payload.item "source" = record.source := by
  simp [payload_item]

@[simp] theorem payload_entity_type : record.payload.item "entity_type" = record.entity_type := by
  simp [payload_item]

@[simp] theorem payload_source_id : record.payload.item "source_id" = record.source_id := by
  simp [payload_item]

@[simp] theorem payload_source_revision :
    record.payload.item "source_revision" = record.source_revision := by
  simp [payload_item]

@[simp] theorem payload_display_name :
    record.payload.item "display_name" = record.display_name := by
  simp [payload_item]

@[simp] theorem payload_attributes : record.payload.item "attributes" = record.attributes := by
  simp [payload_item]

@[simp] theorem payload_relationships :
    record.payload.item "relationships" = .arr record.relationships := by
  simp [payload_item]

@[simp] theorem payload_raw_metadata :
    record.payload.item "raw_metadata" = record.raw_metadata := by
  simp [payload_item]

def key (record : SourceRecord) : String :=
  record_key record.source record.entity_type record.source_id

def entry (record : SourceRecord) : Json := entry_of record.key record.payload

/-- The record that a payload describes. -/
def read (payload : Json) : SourceRecord where
  source := payload.item "source"
  source_id := payload.item "source_id"
  source_revision := payload.item "source_revision"
  entity_type := payload.item "entity_type"
  display_name := payload.item "display_name"
  attributes := payload.item "attributes"
  relationships := elements (payload.item "relationships")
  raw_metadata := payload.item "raw_metadata"

theorem read_payload (record : SourceRecord) : read record.payload = record := by
  simp [read, elements]

/-- A payload with exactly the fields of a record is the payload of the record that it describes. -/
theorem payload_read {payload : Json} (hwell : payload.WellFormed)
    (hkeys : payload.HasKeys RECORD_FIELDS)
    (hrelations : isArray (payload.item "relationships") = true)
    (hread : (read payload).payload.WellFormed) :
    (read payload).payload = payload := by
  refine (payload_keys _).ext hkeys hread hwell ?_
  cases hitems : payload.item "relationships" with
  | arr items => simp [RECORD_FIELDS, read, hitems, elements]
  | _ => simp [hitems, isArray] at hrelations

end SourceRecord

section Entries

variable {key name : String} {payload entry : Json}

theorem entry_keys_nodup (hwell : payload.WellFormed) (hkeys : payload.HasKeys RECORD_FIELDS)
    (key : String) :
    ((("record_key", Json.str key) :: ("payload_sha256", .str (digest payload)) ::
      payload.entries).map
      Prod.fst).Nodup := by
  obtain ⟨fields, rfl⟩ := hkeys.obj
  have hsub : fields.map Prod.fst ⊆ RECORD_FIELDS := hkeys.1
  have hkey : "record_key" ∉ RECORD_FIELDS := by decide
  have hsha : "payload_sha256" ∉ RECORD_FIELDS := by decide
  have hne : "record_key" ≠ "payload_sha256" := by decide
  refine List.nodup_cons.mpr
    ⟨fun hmem => ?_, List.nodup_cons.mpr ⟨fun hmem => hsha (hsub hmem), Json.keys_nodup hwell⟩⟩
  rcases List.mem_cons.mp hmem with heq | hmem
  · exact hne heq
  · exact hkey (hsub hmem)

theorem lookup_entry_of (hwell : payload.WellFormed) (hkeys : payload.HasKeys RECORD_FIELDS) :
    (entry_of key payload).lookup name =
      if name = "record_key" then some (.str key)
      else if name = "payload_sha256" then some (.str (digest payload))
      else payload.lookup name := by
  rw [entry_of, Json.lookup_dict (entry_keys_nodup hwell hkeys key)]
  obtain ⟨fields, rfl⟩ := hkeys.obj
  by_cases hkey : name = "record_key"
  · simp [hkey]
  · by_cases hsha : name = "payload_sha256"
    · simp [hsha]
    · have hkey' : ("record_key" == name) = false := beq_false_of_ne (Ne.symm hkey)
      have hsha' : ("payload_sha256" == name) = false := beq_false_of_ne (Ne.symm hsha)
      simp [hkey, hsha, hkey', hsha', Json.lookup, Json.entries]

theorem entry_of_wellFormed (hwell : payload.WellFormed) (hkeys : payload.HasKeys RECORD_FIELDS) :
    (entry_of key payload).WellFormed := by
  refine Json.dict_wellFormed (entry_keys_nodup hwell hkeys key) ?_
  obtain ⟨fields, rfl⟩ := hkeys.obj
  refine List.forall_mem_cons.mpr ⟨trivial, List.forall_mem_cons.mpr ⟨trivial, ?_⟩⟩
  exact Json.wellFormedFields_iff.mp hwell.2

theorem lookup_payload_of (hkey : name ≠ "record_key") (hsha : name ≠ "payload_sha256") :
    (payload_of entry).lookup name = entry.lookup name := by
  have hfilter : ∀ fields : List (String × Json), (fields.filter fun field =>
      field.1 ≠ "record_key" ∧ field.1 ≠ "payload_sha256").find? (fun field => field.1 == name) =
        fields.find? fun field => field.1 == name := by
    intro fields
    rw [List.find?_filter]
    refine congrArg (fun p => fields.find? p) (funext fun field => ?_)
    by_cases hname : field.1 = name
    · simp [hname, hkey, hsha]
    · simp [hname]
  cases entry with
  | obj fields => simp only [payload_of, Json.entries, Json.lookup, hfilter]
  | _ => rfl

theorem payload_of_wellFormed (h : entry.WellFormed) : (payload_of entry).WellFormed := by
  cases entry with
  | obj fields =>
    refine ⟨h.1.sublist (List.filter_sublist.map Prod.fst),
      Json.wellFormedFields_iff.mpr fun field hfield => ?_⟩
    exact Json.wellFormedFields_iff.mp h.2 field (List.mem_filter.mp hfield).1
  | _ => exact ⟨List.Pairwise.nil, trivial⟩

theorem payload_of_no_keys : (payload_of entry).lookup "record_key" = none ∧
    (payload_of entry).lookup "payload_sha256" = none := by
  have hnot : ∀ field ∈ (payload_of entry).entries, field.1 ≠ "record_key" ∧
      field.1 ≠ "payload_sha256" :=
    fun field hfield => of_decide_eq_true (List.mem_filter.mp hfield).2
  constructor
  · exact Option.map_eq_none_iff.mpr
      (List.find?_eq_none.mpr fun field hfield => by simp [(hnot field hfield).1])
  · exact Option.map_eq_none_iff.mpr
      (List.find?_eq_none.mpr fun field hfield => by simp [(hnot field hfield).2])

/-- The payload of an entry is what the entry was made of. -/
theorem payload_of_entry_of (hwell : payload.WellFormed) (hkeys : payload.HasKeys RECORD_FIELDS) :
    payload_of (entry_of key payload) = payload := by
  have hentry : (entry_of key payload).WellFormed := entry_of_wellFormed hwell hkeys
  obtain ⟨fields, rfl⟩ := hkeys.obj
  have hnot : ∀ name, name ∉ RECORD_FIELDS → (Json.obj fields).lookup name = none :=
      fun name hname => by
    rw [hkeys.lookup, if_neg hname]
  refine congrArg Json.obj (Json.obj_ext (payload_of_wellFormed hentry) hwell fun name => ?_)
  change (payload_of (entry_of key (.obj fields))).lookup name = _
  by_cases hkey : name = "record_key"
  · rw [hkey, payload_of_no_keys.1, hnot _ (by decide)]
  · by_cases hsha : name = "payload_sha256"
    · rw [hsha, payload_of_no_keys.2, hnot _ (by decide)]
    · rw [lookup_payload_of hkey hsha, lookup_entry_of hwell hkeys, if_neg hkey, if_neg hsha]

/-- An entry with a key and the digest of its payload is made of them. -/
theorem entry_of_payload_of (hwell : entry.WellFormed)
    (hkeys : (payload_of entry).HasKeys RECORD_FIELDS) (hkey : entry.item "record_key" = .str key)
    (hsha : entry.item "payload_sha256" = .str (digest (payload_of entry))) :
    entry = entry_of key (payload_of entry) := by
  have hfound : ∀ {name : String} {text : String}, entry.item name = .str text →
      entry.lookup name = some (.str text) := by
    intro name text hitem
    unfold Json.item at hitem
    cases hlookup : entry.lookup name with
    | none => simp [hlookup] at hitem
    | some value => simpa [hlookup] using hitem
  have hpayload := payload_of_wellFormed hwell
  have hlookup : ∀ name, entry.lookup name = (entry_of key (payload_of entry)).lookup name := by
    intro name
    rw [lookup_entry_of hpayload hkeys]
    split
    · next h => rw [h, hfound hkey]
    · split
      · next h => rw [h, hfound hsha]
      · next h h' => rw [lookup_payload_of h h']
  have hmade : (entry_of key (payload_of entry)).WellFormed := entry_of_wellFormed hpayload hkeys
  cases entry with
  | obj fields => exact congrArg Json.obj (Json.obj_ext hwell hmade hlookup)
  | _ => simp [Json.item, Json.lookup] at hkey

end Entries

theorem elements_wellFormed {value : Json} (h : value.WellFormed) :
    (Json.arr (elements value)).WellFormed := by
  cases value with
  | arr items => exact h
  | _ => exact trivial

theorem SourceRecord.read_wellFormed {payload : Json} (h : payload.WellFormed) :
    (read payload).payload.WellFormed := by
  refine Json.dict_wellFormed (by simp) ?_
  simp only [read, List.forall_mem_cons, List.not_mem_nil, false_implies, implies_true, and_true]
  exact ⟨h.item _, h.item _, h.item _, h.item _, h.item _, h.item _,
    elements_wellFormed (h.item _), h.item _⟩

theorem isHex64_digest (value : Json) : isHex64 (digest value) = true := by
  rw [isHex64, digest, Sha256.sha256_length, Bool.and_eq_true]
  exact ⟨rfl, List.all_eq_true.mpr fun c hc => Sha256.sha256_isHex hc⟩

theorem isString_text {value : Json} (h : isString value = true) : value = .str value.text := by
  cases value with
  | str text => rfl
  | _ => cases h

theorem isNonblank_text {value : Json} (h : isNonblank value = true) : value = .str value.text := by
  cases value with
  | str text => rfl
  | _ => cases h

theorem SourceRecord.entry_payload {record : SourceRecord} (h : record.payload.WellFormed) :
    payload_of record.entry = record.payload :=
  payload_of_entry_of h (payload_keys record)

theorem SourceRecord.entry_key {record : SourceRecord} (h : record.payload.WellFormed) :
    record.entry.item "record_key" = .str record.key := by
  simp [Json.item, entry, lookup_entry_of h (payload_keys record)]

theorem SourceRecord.entry_sha {record : SourceRecord} (h : record.payload.WellFormed) :
    record.entry.item "payload_sha256" = .str (digest record.payload) := by
  simp [Json.item, entry, lookup_entry_of h (payload_keys record)]

theorem SourceRecord.entry_item {record : SourceRecord} {name : String}
    (h : record.payload.WellFormed) (hkey : name ≠ "record_key") (hsha : name ≠ "payload_sha256") :
    record.entry.item name = record.payload.item name := by
  simp [Json.item, entry, lookup_entry_of h (payload_keys record), hkey, hsha]

section Acceptance

variable [Unicode]

/-- What `_record_from_payload` checks. -/
structure Recordable (payload : Json) : Prop where
  object : isObject payload = true
  texts : ∀ field ∈ ["source", "entity_type", "source_id", "display_name"],
    isNonblank (payload.item field) = true
  entity_type : payload.item "entity_type" ∈ RESOURCE_TYPES.map Json.str
  revision : payload.item "source_revision" = .null ∨
    isString (payload.item "source_revision") = true
  objects : isObject (payload.item "attributes") = true ∧
    isObject (payload.item "raw_metadata") = true
  relations : areRelations (payload.item "relationships") = true
  attributes : Plain (payload.item "attributes")
  relationships : Plain (payload.item "relationships")
  raw_metadata : Plain (payload.item "raw_metadata")

theorem Recordable.array {payload : Json} (h : Recordable payload) :
    isArray (payload.item "relationships") = true := by
  have hrelations := h.relations
  cases hitem : payload.item "relationships" with
  | arr items => rfl
  | _ => rw [hitem] at hrelations; cases hrelations

theorem record_from_payload_ok {payload : Json} {record : SourceRecord} (h : payload.WellFormed) :
    record_from_payload payload = .ok record ↔
      Recordable payload ∧ record = SourceRecord.read payload := by
  simp only [record_from_payload, source_record, Except.bind_eq_ok, Except.pure_eq_ok,
    Except.forM_eq_ok, demand_eq_ok, copy_metadata_eq_ok (h.item _)]
  constructor
  · rintro ⟨_, hobject, _, htexts, _, htype, _, hrevision, _, hobjects, _, hrelations, _,
      ⟨hattributes, rfl⟩, _, ⟨hrelationships, rfl⟩, _, ⟨hraw, rfl⟩, rfl⟩
    exact ⟨⟨hobject, htexts, htype, hrevision, hobjects, hrelations, hattributes,
      hrelationships, hraw⟩, rfl⟩
  · rintro ⟨⟨hobject, htexts, htype, hrevision, hobjects, hrelations, hattributes,
      hrelationships, hraw⟩, rfl⟩
    exact ⟨(), hobject, (), htexts, (), htype, (), hrevision, (), hobjects, (), hrelations, _,
      ⟨hattributes, rfl⟩, _, ⟨hrelationships, rfl⟩, _, ⟨hraw, rfl⟩, rfl⟩

/-- A record that a snapshot may list. -/
structure Acceptable (record : SourceRecord) : Prop where
  wellFormed : record.payload.WellFormed
  plain : Plain record.payload
  recordable : Recordable record.payload

theorem record_payload_ok {record : SourceRecord} {payload : Json} (h : record.payload.WellFormed) :
    record_payload record = .ok payload ↔ Plain record.payload ∧ payload = record.payload :=
  copy_metadata_eq_ok h

/-- `validate_snapshot` recovers a record from exactly the entry of that record. -/
theorem recover_record_ok {entry : Json} {record : SourceRecord} (h : entry.WellFormed) :
    recover_record entry = .ok record ↔ Acceptable record ∧ entry = record.entry := by
  have hpayload := payload_of_wellFormed h
  simp only [recover_record, Except.bind_eq_ok, Except.pure_eq_ok, demand_eq_ok,
    record_from_payload_ok hpayload]
  constructor
  · rintro ⟨_, hkey, _, _, _, ⟨hsha, _⟩, _, ⟨hrecordable, rfl⟩, rebuilt, hrebuilt, _, hkeys, _,
      hdigest, _, ⟨_, rfl⟩, _, hidentity, rfl⟩
    have hread := SourceRecord.read_wellFormed hpayload
    obtain ⟨hplain, rfl⟩ := (record_payload_ok hread).mp hrebuilt
    have hnames : (payload_of entry).HasKeys RECORD_FIELDS :=
      hkeys.congr (SourceRecord.payload_keys _)
    have hsame := SourceRecord.payload_read hpayload hnames hrecordable.array hread
    refine ⟨⟨hread, hplain, hsame.symm ▸ hrecordable⟩, ?_⟩
    rw [SourceRecord.entry, hsame]
    refine entry_of_payload_of h hnames ?_ ?_
    · rw [SourceRecord.key, hidentity]
      exact isString_text hkey
    · rw [hdigest]
      exact isString_text hsha
  · rintro ⟨⟨hwell, hplain, hrecordable⟩, rfl⟩
    have hkey := SourceRecord.entry_key hwell
    have hsha := SourceRecord.entry_sha hwell
    rw [SourceRecord.entry_payload hwell, hkey, hsha]
    have hhex := isHex64_digest record.payload
    refine ⟨(), rfl, (), ?_, (), ⟨rfl, hhex⟩, _, ⟨hrecordable, rfl⟩, record.payload, ?_,
      (), ?_, (), rfl, _, ⟨hrecordable, rfl⟩, (), ?_, ?_⟩
    · exact ⟨by simp [Json.text, SourceRecord.key, record_key],
        by simpa [Json.text, SourceRecord.key, record_key] using isHex64_digest _⟩
    · rw [SourceRecord.read_payload]
      exact (record_payload_ok hwell).mpr ⟨hplain, rfl⟩
    · exact Json.hasKeys_fieldKeys (SourceRecord.payload_keys record)
    · rw [SourceRecord.read_payload]
      rfl
    · rw [SourceRecord.read_payload]

end Acceptance

end discovery
