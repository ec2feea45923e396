import PepeuchCluster.Discovery.Identity

namespace discovery

section Document

variable {scope captured_at : Json} {entries : List Json}

theorem document_item (scope captured_at : Json) (entries : List Json) (key : String) :
    (snapshot_document scope captured_at entries).item key = (([("format", Json.str FORMAT),
      ("snapshot_id", .str (snapshot_id scope entries)), ("captured_at", captured_at),
        ("scope", scope),
      ("records", .arr entries)].find? fun field => field.1 == key).map Prod.snd).getD .null :=
  Json.item_dict (by simp)

@[simp] theorem document_format :
    (snapshot_document scope captured_at entries).item "format" = .str FORMAT := by
  simp [document_item]

@[simp] theorem document_snapshot_id :
    (snapshot_document scope captured_at entries).item "snapshot_id" =
    .str (snapshot_id scope entries) := by
  simp [document_item]

@[simp] theorem document_captured_at :
    (snapshot_document scope captured_at entries).item "captured_at" = captured_at := by
  simp [document_item]

@[simp] theorem document_scope :
    (snapshot_document scope captured_at entries).item "scope" = scope := by
  simp [document_item]

@[simp] theorem document_records :
    (snapshot_document scope captured_at entries).item "records" = .arr entries := by
  simp [document_item]

end Document

/-- What the identity of a document is the digest of. -/
def signed (data : Json) : Json :=
  .dict [("scope", data.item "scope"), ("content", signature (elements (data.item "records")))]

/-- A map is injective on lists when it is on their members. -/
theorem map_injOn {α β : Type} {f : α → β} {members : Set α} (hinj : Set.InjOn f members)
    {xs ys : List α} (hxs : ∀ x ∈ xs, x ∈ members) (hys : ∀ y ∈ ys, y ∈ members)
    (h : xs.map f = ys.map f) : xs = ys := by
  induction xs generalizing ys with
  | nil => exact (List.map_eq_nil_iff.mp h.symm).symm
  | cons x xs ih =>
    cases ys with
    | nil => cases h
    | cons y ys =>
      obtain ⟨hx, hxs⟩ := List.forall_mem_cons.mp hxs
      obtain ⟨hy, hys⟩ := List.forall_mem_cons.mp hys
      obtain ⟨hhead, htail⟩ := List.cons.inj h
      rw [hinj hx hy hhead, ih hxs hys htail]

section Captured

variable [Datetime]

/-- The time of a snapshot that is made at `now`. -/
def captured (now : Now) (captured_at : Json) : Json := if captured_at = .null then .str now.text
    else captured_at

theorem captured_eq_self {now : Now} {captured_at : Json} : captured now captured_at = captured_at ↔
    captured_at ≠ .null := by
  unfold captured
  split
  · next h => simp [h]
  · next h => simp [h]

end Captured

section Make

variable [Unicode] {records : List SourceRecord} {scope captured_at snapshot : Json}

/-- A pair of the sorted dictionary is the key and the entry of an accepted record. -/
def Pairs (records : List SourceRecord) (pairs : List (String × Json)) : Prop :=
  (∀ record ∈ records, Acceptable record) ∧ pairs = records.map fun record =>
    (record.key, record.entry)

theorem pairs_of_listed {pairs : List (String × Json)}
    (h : ∀ pair ∈ pairs, ∃ record, Acceptable record ∧ pair = (record.key, record.entry)) :
    ∃ records, Pairs records pairs := by
  induction pairs with
  | nil => exact ⟨[], List.forall_mem_nil _, rfl⟩
  | cons pair rest ih =>
    obtain ⟨⟨record, haccept, rfl⟩, hrest⟩ := List.forall_mem_cons.mp h
    obtain ⟨records, hrecords, rfl⟩ := ih hrest
    exact ⟨record :: records, List.forall_mem_cons.mpr ⟨haccept, hrecords⟩, rfl⟩

theorem Pairs.recovers {pairs : List (String × Json)} (h : Pairs records pairs) :
    (pairs.map Prod.snd).mapM recover_record = .ok records := by
  obtain ⟨haccept, rfl⟩ := h
  rw [Except.mapM_eq_ok, List.map_map, List.forall₂_map_left_iff, List.forall₂_same]
  intro record hrecord
  have hrecord := haccept record hrecord
  exact (recover_record_ok
    (entry_of_wellFormed hrecord.wellFormed (SourceRecord.payload_keys record))).mpr ⟨hrecord, rfl⟩

/-- The sorted entries of a snapshot are those of records with different keys. -/
theorem sorted_pairs {by_key : List (String × Json)}
    (hwell : ∀ record ∈ records, record.payload.WellFormed)
    (hcollect : collect records [] = .ok by_key) : ∃ listed, Pairs listed (Json.sortFields by_key) ∧
      (∀ record ∈ listed, record ∈ records) ∧
      collect listed [] = .ok (Json.sortFields by_key) ∧
      Json.sortFields (Json.sortFields by_key) = Json.sortFields by_key := by
  obtain ⟨hgathered, haccept⟩ := collect_ok hwell Gathered.nil hcollect
  rw [List.nil_append] at hgathered
  have hperm := Json.sortFields_perm by_key
  have hlisted : ∀ pair ∈ Json.sortFields by_key, ∃ record, Acceptable record ∧
      pair = (record.key, record.entry) := by
    intro pair hpair
    obtain ⟨record, hrecord, hpair⟩ := hgathered.listed pair (hperm.mem_iff.mp hpair)
    exact ⟨record, haccept record hrecord, hpair⟩
  obtain ⟨listed, haccepted, hpairs⟩ := pairs_of_listed hlisted
  have hkeys : ((Json.sortFields by_key).map Prod.fst).Nodup :=
    (hperm.map Prod.fst).nodup_iff.mpr hgathered.keys
  refine ⟨listed, ⟨haccepted, hpairs⟩, fun record hrecord => ?_, ?_,
    Json.sortFields_congr hkeys hperm⟩
  · have hpair : (record.key, record.entry) ∈ Json.sortFields by_key :=
      hpairs ▸ List.mem_map_of_mem hrecord
    obtain ⟨owner, howner, heq⟩ := hgathered.listed _ (hperm.mem_iff.mp hpair)
    have hentry : record.entry = owner.entry := (Prod.mk.inj heq).2
    have hrecover := (recover_record_ok (entry_of_wellFormed (haccepted record hrecord).wellFormed
      (SourceRecord.payload_keys record))).mpr ⟨haccepted record hrecord, rfl⟩
    have hother := (recover_record_ok (entry_of_wellFormed (haccept owner howner).wellFormed
      (SourceRecord.payload_keys owner))).mpr ⟨haccept owner howner, rfl⟩
    change recover_record record.entry = .ok record at hrecover
    change recover_record owner.entry = .ok owner at hother
    rw [hentry, hother] at hrecover
    rwa [← Except.ok.inj hrecover]
  · rw [hpairs] at hkeys ⊢
    have hdistinct : collect listed [] =
        .ok ([] ++ listed.map fun record => (record.key, record.entry)) :=
      collect_distinct haccepted (by simpa [List.map_map, Function.comp_def] using hkeys)
    rwa [List.nil_append] at hdistinct

theorem forall₂_keys {listed recovered : List SourceRecord}
    (hlisted : ∀ record ∈ listed, Acceptable record)
    (hrecovered : ∀ record ∈ recovered, Acceptable record) (h :
      Json.equalItems (recovered.map SourceRecord.entry) (listed.map SourceRecord.entry) = true) :
    recovered.map SourceRecord.key = listed.map SourceRecord.key := by
  rw [Json.equalItems_iff, List.forall₂_map_left_iff, List.forall₂_map_right_iff] at h
  induction h with
  | nil => rfl
  | cons hequal _ ih =>
    obtain ⟨hfirst, hrest⟩ := List.forall_mem_cons.mp hrecovered
    obtain ⟨hother, hothers⟩ := List.forall_mem_cons.mp hlisted
    have hkey := Json.equal_item hequal "record_key"
    rw [SourceRecord.entry_key hfirst.wellFormed, SourceRecord.entry_key hother.wellFormed,
      Json.equal_str] at hkey
    rw [List.map_cons, List.map_cons, Json.str.inj hkey, ih hothers hrest]

variable [Datetime] {now : Now}

/-- A scope that a snapshot may have. -/
def Scoped (scope : Json) : Prop := isObject scope = true ∧ scope ≠ .obj [] ∧ Plain scope

theorem make_snapshot_ok (hscope : scope.WellFormed) :
    make_snapshot now records scope captured_at = .ok snapshot ↔
      Scoped scope ∧ validate_time (captured now captured_at) = .ok () ∧ ∃ by_key,
        collect records [] = .ok by_key ∧ by_key ≠ [] ∧
          snapshot = snapshot_document scope (captured now captured_at)
            ((Json.sortFields by_key).map Prod.snd) := by
  simp only [make_snapshot, Except.bind_eq_ok, Except.pure_eq_ok, demand_eq_ok,
    copy_metadata_eq_ok hscope]
  constructor
  · rintro ⟨_, ⟨hobject, hempty⟩, _, ⟨hplain, rfl⟩, ⟨⟩, htime, by_key, hcollect, _, hne, rfl⟩
    exact ⟨⟨hobject, hempty, hplain⟩, htime, by_key, hcollect, hne, rfl⟩
  · rintro ⟨⟨hobject, hempty, hplain⟩, htime, by_key, hcollect, hne, rfl⟩
    exact ⟨(), ⟨hobject, hempty⟩, scope, ⟨hplain, rfl⟩, (), htime, by_key, hcollect, (), hne, rfl⟩

/-- Order and repetitions of consistent records do not matter. -/
theorem make_snapshot_consistent {others : List SourceRecord} (hconsistent : Consistent records)
    (hscope : scope.WellFormed) (hwell : ∀ record ∈ records, record.payload.WellFormed)
    (hsame : ∀ record, record ∈ records ↔ record ∈ others)
    (h : make_snapshot now records scope captured_at = .ok snapshot) :
    make_snapshot now others scope captured_at = .ok snapshot := by
  obtain ⟨hscoped, htime, by_key, hcollect, hne, rfl⟩ := (make_snapshot_ok hscope).mp h
  obtain ⟨hgathered, haccept⟩ := collect_ok hwell Gathered.nil hcollect
  have hothers : ∀ record ∈ others, Acceptable record := fun record hrecord =>
    haccept record ((hsame record).mpr hrecord)
  have hsub : Consistent others := fun first hfirst second hsecond =>
    hconsistent first ((hsame first).mpr hfirst) second ((hsame second).mpr hsecond)
  obtain ⟨by_key', hcollect'⟩ := collect_total hothers Gathered.nil hsub
  have hgathered' := (collect_ok (fun record hrecord => (hothers record hrecord).wellFormed)
    Gathered.nil hcollect').1
  have hsorted : Json.sortFields by_key = Json.sortFields by_key' :=
    hgathered.congr hgathered' hsame hconsistent
  refine (make_snapshot_ok hscope).mpr
    ⟨hscoped, htime, by_key', hcollect', fun hempty => hne ?_, by rw [hsorted]⟩
  have hlength := congrArg List.length hsorted
  rw [(Json.sortFields_perm by_key).length_eq, (Json.sortFields_perm by_key').length_eq,
    hempty] at hlength
  exact List.length_eq_zero_iff.mp hlength

/-- Records of different resources are listed in one order, whatever order they come in. -/
theorem make_snapshot_distinct {others : List SourceRecord}
    (hids : (records.map SourceRecord.source_id).Nodup) (hscope : scope.WellFormed)
    (hwell : ∀ record ∈ records, record.payload.WellFormed)
    (hsame : ∀ record, record ∈ records ↔ record ∈ others)
    (h : make_snapshot now records scope captured_at = .ok snapshot) :
    make_snapshot now others scope captured_at = .ok snapshot := by
  obtain ⟨_, _, by_key, hcollect, _, _⟩ := (make_snapshot_ok hscope).mp h
  have hkeys := collect_nil_keys hwell hids hcollect
  refine make_snapshot_consistent (fun first hfirst second hsecond hkey => ?_) hscope hwell hsame h
  rw [List.inj_on_of_nodup_map hkeys hfirst hsecond hkey]

/-- What an accepted document is: the snapshot of the records that it lists, but for a
    time that it leaves out. -/
structure Accepted (data : Json) (recovered : List SourceRecord) : Prop where
  format : data.item "format" = .str FORMAT
  records : data.item "records" = .arr (recovered.map SourceRecord.entry)
  acceptable : ∀ record ∈ recovered, Acceptable record
  recovers : (elements (data.item "records")).mapM recover_record = .ok recovered
  declared : Scoped (data.item "scope")
  distinct : (recovered.map SourceRecord.key).Pairwise (· < ·)
  nonempty : recovered ≠ []
  time : data.item "captured_at" ≠ .null → validate_time (data.item "captured_at") = .ok ()
  snapshot_id : data.item "snapshot_id" =
    .str (discovery.snapshot_id (data.item "scope") (recovered.map SourceRecord.entry))

theorem validate_snapshot_ok {data result : Json} (hdata : data.WellFormed)
    (h : validate_snapshot now data = .ok result) :
    result = data ∧ ∃ recovered, Accepted data recovered := by
  simp only [validate_snapshot, Except.bind_eq_ok, Except.pure_eq_ok, demand_eq_ok,
    make_snapshot_ok (hdata.item "scope")] at h
  obtain ⟨_, hformat, _, harray, recovered, hrecover, expected,
    ⟨hscoped, htime, by_key, hcollect, hne, rfl⟩, _, ⟨hid, hequal⟩, rfl⟩ := h
  refine ⟨rfl, recovered, ?_⟩
  cases hrecords : data.item "records" with
  | arr entries =>
    have hentries : ∀ entry ∈ entries, entry.WellFormed := by
      have hwell := hdata.item "records"
      rw [hrecords] at hwell
      exact Json.wellFormedItems_iff.mp hwell
    rw [hrecords, elements] at hrecover
    have hmade : (∀ record ∈ recovered, Acceptable record) ∧
        entries = recovered.map SourceRecord.entry := by
      have hall := Except.mapM_eq_ok.mp hrecover
      clear hrecover hrecords hequal hcollect
      induction hall with
      | nil => exact ⟨List.forall_mem_nil _, rfl⟩
      | cons hfirst _ ih =>
        obtain ⟨hwell, hrest⟩ := List.forall_mem_cons.mp hentries
        obtain ⟨haccept, rfl⟩ := (recover_record_ok hwell).mp hfirst
        obtain ⟨hall, rfl⟩ := ih hrest
        exact ⟨List.forall_mem_cons.mpr ⟨haccept, hall⟩, rfl⟩
    obtain ⟨haccept, rfl⟩ := hmade
    obtain ⟨listed, ⟨hlisted, hpairs⟩, hsub, _, _⟩ :=
      sorted_pairs (fun record hrecord => (haccept record hrecord).wellFormed) hcollect
    have hsorted : (Json.sortFields by_key).map Prod.snd = listed.map SourceRecord.entry := by
      rw [hpairs, List.map_map]
      rfl
    rw [document_records, hrecords, hsorted, Json.equal] at hequal
    have hkeys := forall₂_keys hlisted haccept hequal
    have hstrict : (recovered.map SourceRecord.key).Pairwise (· < ·) := by
      have hgathered := (collect_ok (fun record hrecord => (haccept record hrecord).wellFormed)
        Gathered.nil hcollect).1
      have hkeysSorted := Json.sortFields_strict hgathered.keys
      rw [hpairs, List.map_map] at hkeysSorted
      rw [hkeys]
      exact hkeysSorted
    -- the keys are all different, so each record stands where its key does
    have hsame : listed = recovered := by
      refine map_injOn ?_ hsub (fun _ h => h) hkeys.symm
      exact fun first hfirst second hsecond =>
        List.inj_on_of_nodup_map (hstrict.imp fun hlt => hlt.ne) hfirst hsecond
    rw [document_snapshot_id, hsorted, hsame, Json.equal_str] at hid
    refine ⟨hformat, hrecords, haccept, ?_, hscoped, hstrict, ?_, fun hgiven => ?_, hid⟩
    · rw [hrecords]
      exact hrecover
    · rintro rfl
      rw [hsame, List.map_nil] at hpairs
      exact hne (List.nil_perm.mp (hpairs ▸ Json.sortFields_perm by_key))
    · rwa [captured_eq_self.mpr hgiven] at htime
  | _ => simp [hrecords, isArray] at harray

theorem Accepted.make {data : Json} {recovered : List SourceRecord} (hdata : data.WellFormed)
    (h : Accepted data recovered) :
    make_snapshot now recovered (data.item "scope") (data.item "captured_at") =
      .ok (snapshot_document (data.item "scope") (captured now (data.item "captured_at"))
        (recovered.map SourceRecord.entry)) := by
  let pairs := recovered.map fun record => (record.key, record.entry)
  have hkeys : pairs.map Prod.fst = recovered.map SourceRecord.key := by
    simp [pairs, Function.comp_def]
  have hentries : pairs.map Prod.snd = recovered.map SourceRecord.entry := by
    simp [pairs, Function.comp_def]
  have hnodup : (recovered.map SourceRecord.key).Nodup := h.distinct.imp fun hlt => hlt.ne
  have hcollect : collect recovered [] = .ok ([] ++ pairs) :=
    collect_distinct h.acceptable (by simpa using hnodup)
  have hsorted : Json.sortFields pairs = pairs := by
    refine List.Pairwise.insertionSort_eq (List.pairwise_map.mp ?_)
    rw [hkeys]
    exact h.distinct.imp fun hlt => hlt.le
  refine (make_snapshot_ok (hdata.item _)).mpr
    ⟨h.declared, ?_, pairs, by simpa using hcollect, ?_, by rw [hsorted, hentries]⟩
  · unfold captured
    split
    · exact now.valid
    · next hgiven => exact h.time hgiven
  · simpa [pairs] using h.nonempty

/-- Acceptance does not depend on the clock. -/
theorem validate_snapshot_iff {data result : Json} (hdata : data.WellFormed) :
    validate_snapshot now data = .ok result ↔
      result = data ∧ ∃ recovered, Accepted data recovered := by
  refine ⟨validate_snapshot_ok hdata, ?_⟩
  rintro ⟨rfl, recovered, h⟩
  simp only [validate_snapshot, Except.bind_eq_ok, Except.pure_eq_ok, demand_eq_ok]
  refine ⟨(), h.format, (), by rw [h.records]; rfl, recovered, h.recovers, _, h.make hdata, (),
    ⟨?_, ?_⟩, trivial⟩
  · rw [document_snapshot_id, h.snapshot_id]
    exact Json.equal_refl _
  · rw [document_records, h.records]
    exact Json.equal_refl _

def SNAPSHOT_FIELDS : List String := ["format", "snapshot_id", "captured_at", "scope", "records"]

end Make

section Single

variable [Unicode] {record : SourceRecord} {scope captured_at : Json}

theorem Acceptable.entry_wellFormed (h : Acceptable record) : record.entry.WellFormed :=
  entry_of_wellFormed h.wellFormed (SourceRecord.payload_keys record)

theorem document_wellFormed (h : Acceptable record) (hscope : scope.WellFormed)
    (htime : captured_at.WellFormed) :
    (snapshot_document scope captured_at [record.entry]).WellFormed := by
  refine Json.dict_wellFormed (by simp) ?_
  simp only [List.forall_mem_cons, List.not_mem_nil, false_implies, implies_true, and_true]
  exact ⟨trivial, trivial, htime, hscope, Json.arr_wellFormed (by simpa using h.entry_wellFormed)⟩

/-- The snapshot of a single record. -/
theorem document_accepted [Datetime] (h : Acceptable record) (hscope : Scoped scope)
    (htime : captured_at ≠ .null → validate_time captured_at = .ok ()) :
    Accepted (snapshot_document scope captured_at [record.entry]) [record] where
  format := document_format
  records := document_records
  acceptable := List.forall_mem_singleton.mpr h
  recovers := by
    rw [document_records, elements, Except.mapM_eq_ok]
    exact .cons ((recover_record_ok h.entry_wellFormed).mpr ⟨h, rfl⟩) .nil
  declared := by
    rw [document_scope]
    exact hscope
  distinct := List.pairwise_singleton _ _
  nonempty := List.cons_ne_nil _ _
  time := by
    rw [document_captured_at]
    exact htime
  snapshot_id := by
    rw [document_snapshot_id, document_scope]
    rfl

end Single

/-! The metadata of one resource, with the characters and the times that it needs. -/

namespace Sample

/-- On ASCII text, `casefold` is `lower`. -/
scoped instance unicode : Unicode :=
  ⟨fun c => [c.toLower], Char.isAlphanum, fun _ _ => rfl, fun _ _ => rfl⟩

def instant : String := "2026-10-28T00:00:00+00:00"

/-- Three days, in microseconds. -/
def days : List (String × Int) :=
  [(instant, 1793145600000000), ("2026-10-29T00:00:00+00:00", 1793232000000000),
    ("2026-10-30T00:00:00+00:00", 1793318400000000)]

scoped instance datetime : Datetime := ⟨fun text => (days.lookup text).map some⟩

def now : Now := ⟨instant, by decide⟩

def record : SourceRecord where
  source := .str "huggingface"
  source_id := .str "owner/model"
  source_revision := .null
  entity_type := .str "model_artifact"
  display_name := .str "model"
  attributes := .obj []
  relationships := []
  raw_metadata := .obj []

def selection : Json := .dict [("mode", .str "exact_ids"), ("ids", .arr [.str "owner/model"])]

def scope : Json := .dict [("huggingface", selection)]

theorem record_wellFormed : record.payload.WellFormed :=
  Json.dict_wellFormed (by simp)
    (by simp [record, Json.WellFormed, Json.WellFormedItems, Json.WellFormedFields])

theorem record_acceptable : Acceptable record := by
  refine ⟨record_wellFormed, ⟨by decide, by decide +kernel⟩, ?_⟩
  refine ⟨by decide, by decide, by decide, by decide, by decide, by decide, ⟨rfl, trivial⟩,
    ⟨rfl, trivial⟩, by decide, trivial⟩

end Sample

end discovery
