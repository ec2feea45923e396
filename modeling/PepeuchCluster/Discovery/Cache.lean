import PepeuchCluster.Discovery.Sources

namespace discovery

def CACHE_FORMAT : String := "pepeuch-ai.validated-discovery-cache/v1"

def REQUEST_FIELDS : List String := ["source", "selection", "resources", "context", "revisions"]

def VALIDATOR_FIELDS : List String := ["etag", "last_modified"]

def CACHE_FIELDS : List String :=
  ["format", "request", "snapshot", "snapshot_sha256", "provenance", "validators", "validation"]

/-- What `for identity in resources` runs over. -/
def iterate : Json → Except Failure (List Json)
  | .arr items => .ok items
  | .obj fields => .ok (fields.map fun field => .str field.1)
  | .str text => .ok (text.toList.map fun c => .str (String.ofList [c]))
  | _ => .error .type_error

def isRevision : Json → Bool
  | .null => true
  | .str text => text ≠ "" && text.toList.length ≤ 256
  | _ => false

/-- A text of 1 to 256 printable ASCII characters. -/
def isPublicText : Json → Bool
  | .str text => text ≠ "" && text.toList.length ≤ 256 && text.toList.all fun c =>
    32 ≤ c.toNat && c.toNat ≤ 126
  | _ => false

/-- `"…"` or `W/"…"`. -/
def isEntityTag (text : String) : Bool :=
  text.toList.getLast? =
    some '"' && (text.toList.head? = some '"' || text.toList.take 3 = ['W', '/', '"'])

/-- `{r["source_id"]: r["source_revision"] for r in records}`. -/
def revisions_of (records : List Json) : Json :=
  .dict (records.foldl (fun revisions record => put revisions (record.item "source_id").text
    (record.item "source_revision")) [])

section Requests

variable [Unicode]

def cache_request (source selection resources context revisions : Json) : Except Failure Json := do
  let selection ← safe_selection source selection
  let refs ← (← iterate resources).mapM (resource_ref source)
  demand (refs ≠ [] ∧ refs.Nodup) "Distinct requested resources required"
  let ids := ((refs.map ResourceRef.source_id).insertionSort (· ≤ ·))
  let resources := ids.map Json.str
  demand (selection.item "mode" = .str "exact_ids" →
      resources ⊆ elements (selection.item "ids") ∧ elements (selection.item "ids") ⊆ resources)
    "Requested resources differ from selection"
  demand (selection.item "mode" = .str "exact_tag" → resources = [selection.item "resource_id"])
    "Requested NIM resource differs from selection"
  let revisions ← copy_metadata revisions
  demand (revisions.HasKeys ids ∧ (revisions.entries.all fun field => isRevision field.2) = true)
    "Explicit current revision expectations required, including unknowns"
  let context ← validation_context context
  return .dict [("source", source), ("selection", selection), ("resources", .arr resources),
    ("context", context), ("revisions", revisions)]

/-- `_request`. -/
def canonical_request (value : Json) : Except Failure Json := do
  let data ← copy_metadata value
  demand (data.HasKeys REQUEST_FIELDS) "Exact cache request required"
  let expected ← cache_request (data.item "source") (data.item "selection") (data.item "resources")
    (data.item "context") (data.item "revisions")
  demand (data.equal expected = true) "Canonical cache request required"
  return expected

def http_validators (value : Json) : Except Failure Json := do
  let data ← copy_metadata value
  demand (data.HasKeys VALIDATOR_FIELDS) "Explicit HTTP validators required, including unknowns"
  VALIDATOR_FIELDS.forM fun field => do
    demand (data.item field = .null ∨ isPublicText (data.item field) = true)
      "Bounded public HTTP validator required"
    demand (field = "etag" → data.item field = .null ∨ isEntityTag (data.item field).text = true)
      "Quoted HTTP entity tag required"
  return data

variable [Datetime]

def make_cache (now : Now) (request snapshot provenance validators : Json)
    (trusted_issuers : String → Option (List UInt8)) : Except Failure Json := do
  let request ← canonical_request request
  let source := request.item "source"
  let refs ← (elements (request.item "resources")).mapM (resource_ref source)
  let data ← validate_observation now source (request.item "selection") refs
    (← snapshot_copy now snapshot)
  demand ((revisions_of (elements (data.item "records"))).equal (request.item "revisions") = true)
    "Incompatible cached revisions"
  let p ← validate_provenance now data provenance trusted_issuers
  demand ((p.item "context").equal (request.item "context") = true) "Provenance context mismatch"
  let validators ← http_validators validators
  return .dict [("format", .str CACHE_FORMAT), ("request", request), ("snapshot", data),
    ("snapshot_sha256", .str (digest data)), ("provenance", p), ("validators", validators),
    ("validation", .str "complete")]

def validate_cache (now : Now) (entry : Json) (trusted_issuers : String → Option (List UInt8)) :
    Except Failure Json := do
  let data ← copy_metadata entry
  demand (data.HasKeys CACHE_FIELDS ∧ (data.item "format").equal (.str CACHE_FORMAT) = true ∧
      (data.item "validation").equal (.str "complete") = true)
    "Complete versioned cache required"
  let rebuilt ← make_cache now (data.item "request") (data.item "snapshot") (data.item "provenance")
    (data.item "validators") trusted_issuers
  demand (rebuilt.equal data = true) "Cache integrity mismatch"
  return rebuilt

end Requests

section Canonical

theorem isRevision_discrete {value : Json} (h : isRevision value = true) : value.Discrete := by
  cases value with
  | null => trivial
  | str text => trivial
  | _ => cases h

theorem Context.discrete [Unicode] {value : Json} (hvalue : value.WellFormed)
    (h : Context value) : value.Discrete := by
  refine h.keys.discrete hvalue fun field hfield => ?_
  obtain ⟨name, hname, _⟩ := h.aliases field hfield
  rw [hname]
  trivial

theorem texts_wellFormed (texts : List String) : (Json.arr (texts.map Json.str)).WellFormed := by
  refine Json.arr_wellFormed fun item hitem => ?_
  obtain ⟨text, _, rfl⟩ := List.mem_map.mp hitem
  trivial

theorem texts_discrete (texts : List String) : (Json.arr (texts.map Json.str)).Discrete := by
  refine Json.discreteItems_iff.mpr fun item hitem => ?_
  obtain ⟨text, _, rfl⟩ := List.mem_map.mp hitem
  trivial

variable {source selection resources context revisions value result : Json}

theorem mapM_resource_ref {items : List Json} {refs : List ResourceRef}
    (h : items.mapM (resource_ref source) = .ok refs) (hne : refs ≠ []) :
    ∃ name, source = .str name := by
  cases refs with
  | nil => exact absurd rfl hne
  | cons ref refs =>
    have hall := Except.mapM_eq_ok.mp h
    cases hall with
    | cons hfirst _ => exact ⟨_, (resource_ref_ok hfirst).1⟩

theorem request_item (source selection resources context revisions : Json) (key : String) :
    (Json.dict
      [("source", source), ("selection", selection), ("resources", resources), ("context", context),
        ("revisions", revisions)]).item key =
    (([("source", source), ("selection", selection), ("resources", resources),
      ("context", context), ("revisions", revisions)].find?
        fun field => field.1 == key).map Prod.snd).getD .null :=
  Json.item_dict (by simp)

variable [Unicode]

/-- A request in the form that `cache_request` gives it. -/
structure Canonical (request : Json) : Prop where
  keys : request.HasKeys REQUEST_FIELDS
  source : ∃ name, request.item "source" = .str name
  selection : (request.item "selection").Discrete
  resources : ∃ ids : List String, request.item "resources" = .arr (ids.map Json.str)
  context : Context (request.item "context")
  revisions : (request.item "revisions").Discrete

/-- Comparing canonical requests compares their texts. -/
theorem Canonical.discrete {request : Json} (hrequest : request.WellFormed)
    (h : Canonical request) :
    request.Discrete := by
  refine h.keys.discrete hrequest fun field hfield => ?_
  simp only [REQUEST_FIELDS, List.mem_cons, List.not_mem_nil, or_false] at hfield
  rcases hfield with rfl | rfl | rfl | rfl | rfl
  · obtain ⟨name, hname⟩ := h.source
    rw [hname]
    trivial
  · exact h.selection
  · obtain ⟨ids, hids⟩ := h.resources
    rw [hids]
    exact texts_discrete ids
  · exact h.context.discrete (hrequest.item _)
  · exact h.revisions

/-- What `cache_request` makes of the parts of a request. -/
theorem cache_request_ok (hselection : selection.WellFormed) (hcontext : context.WellFormed)
    (hrevisions : revisions.WellFormed)
    (h : cache_request source selection resources context revisions = .ok result) :
    ∃ ids : List String, result = .dict [("source", source), ("selection", selection),
      ("resources", .arr (ids.map Json.str)), ("context", context), ("revisions", revisions)] ∧
      (∃ name, source = .str name) ∧ selection.Discrete ∧ Context context ∧ revisions.Discrete := by
  simp only [cache_request, Except.bind_eq_ok, Except.pure_eq_ok, demand_eq_ok,
    copy_metadata_eq_ok hrevisions, validation_context_ok hcontext] at h
  obtain ⟨_, hsafe, items, _, refs, hrefs, _, ⟨hne, _⟩, _, _, _, _, _, ⟨_, rfl⟩, _, ⟨hkeys, hall⟩,
    _, ⟨hctx, rfl⟩, rfl⟩ := h
  obtain ⟨rfl, hdiscrete, _⟩ := safe_selection_ok hselection hsafe
  refine ⟨_, rfl, mapM_resource_ref hrefs hne, hdiscrete, hctx, ?_⟩
  obtain ⟨fields, rfl⟩ := hkeys.obj
  exact Json.discreteFields_iff.mpr fun field hfield =>
    isRevision_discrete (List.all_eq_true.mp hall field hfield)

theorem canonical_request_ok (hvalue : value.WellFormed)
    (h : canonical_request value = .ok result) :
    result = value ∧ Canonical value := by
  simp only [canonical_request, Except.bind_eq_ok, Except.pure_eq_ok, demand_eq_ok,
    copy_metadata_eq_ok hvalue] at h
  obtain ⟨_, ⟨_, rfl⟩, _, hkeys, expected, hexpected, _, hequal, rfl⟩ := h
  obtain ⟨ids, rfl, hsource, hselection, hcontext, hrevisions⟩ :=
    cache_request_ok (hvalue.item _) (hvalue.item _) (hvalue.item _) hexpected
  have hresources := Json.equal_item hequal "resources"
  rw [request_item] at hresources
  have hids := Json.equal_texts hresources
  refine ⟨?_, hkeys, hsource, hselection, ⟨ids, hids⟩, hcontext, hrevisions⟩
  refine (Json.hasKeys_dict REQUEST_FIELDS rfl).ext hkeys ?_ hvalue ?_
  · refine Json.dict_wellFormed (by simp) ?_
    simp only [List.forall_mem_cons, List.not_mem_nil, false_implies, implies_true, and_true]
    exact ⟨hvalue.item _, hvalue.item _, texts_wellFormed ids, hvalue.item _, hvalue.item _⟩
  · intro field hfield
    simp only [REQUEST_FIELDS, List.mem_cons, List.not_mem_nil, or_false] at hfield
    rcases hfield with rfl | rfl | rfl | rfl | rfl
    · simp [request_item]
    · simp [request_item]
    · simp [request_item, hids]
    · simp [request_item]
    · simp [request_item]

/-- Equal canonical requests are the same. -/
theorem Canonical.eq_of_equal {request other : Json} (hrequest : request.WellFormed)
    (hother : other.WellFormed) (h : Canonical request) (h' : Canonical other)
    (hequal : request.equal other = true) : request = other :=
  Json.eq_of_equal request other (h.discrete hrequest) (h'.discrete hother) hequal

theorem http_validators_ok (hvalue : value.WellFormed) (h : http_validators value = .ok result) :
    result = value ∧ value.HasKeys VALIDATOR_FIELDS ∧ value.Discrete := by
  simp only [http_validators, Except.bind_eq_ok, Except.pure_eq_ok, demand_eq_ok, Except.forM_eq_ok,
    copy_metadata_eq_ok hvalue] at h
  obtain ⟨data, ⟨_, rfl⟩, _, hkeys, _, hfields, rfl⟩ := h
  refine ⟨rfl, hkeys, hkeys.discrete hvalue fun field hfield => ?_⟩
  obtain ⟨_, htext, _⟩ := hfields field hfield
  rcases htext with hnull | htext
  · rw [hnull]
    trivial
  · cases hitem : data.item field with
    | str text => trivial
    | _ => simp [hitem, isPublicText] at htext

end Canonical

section Entries

variable {source selection snapshot entry request provenance validators result : Json}
  {resources : List ResourceRef}

/-- The document of a cache entry. -/
def cache_document (request snapshot provenance validators : Json) : Json :=
  .dict [("format", .str CACHE_FORMAT), ("request", request), ("snapshot", snapshot),
    ("snapshot_sha256", .str (digest snapshot)), ("provenance", provenance),
      ("validators", validators),
    ("validation", .str "complete")]

theorem cache_document_item (request snapshot provenance validators : Json) (key : String) :
    (cache_document request snapshot provenance validators).item key =
      (([("format", Json.str CACHE_FORMAT), ("request", request), ("snapshot", snapshot),
        ("snapshot_sha256", .str (digest snapshot)), ("provenance", provenance),
          ("validators", validators),
        ("validation", .str "complete")].find? fun field => field.1 == key).map Prod.snd).getD
      .null :=
  Json.item_dict (by simp)

theorem cache_document_wellFormed (hrequest : request.WellFormed) (hsnapshot : snapshot.WellFormed)
    (hprovenance : provenance.WellFormed) (hvalidators : validators.WellFormed) :
    (cache_document request snapshot provenance validators).WellFormed := by
  refine Json.dict_wellFormed (by simp) ?_
  simp only [List.forall_mem_cons, List.not_mem_nil, false_implies, implies_true, and_true]
  exact ⟨trivial, hrequest, hsnapshot, trivial, hprovenance, hvalidators, trivial⟩

variable [Unicode] [Datetime] {now : Now} {trusted_issuers : String → Option (List UInt8)}

/-- What `validate_observation` checks of the records of a snapshot. -/
structure Observation (source selection : Json) (resources : List ResourceRef)
    (snapshot : Json) : Prop where
  plain : Plain snapshot
  accepted : ∃ recovered, Accepted snapshot recovered
  scope : canonical_json (snapshot.item "scope") = canonical_json (.dict [(source.text, selection)])
  described : ∃ spec, source_spec source .key_error = .ok spec ∧
    (∀ record ∈ elements (snapshot.item "records"), record.item "source" = source ∧
      record.item "entity_type" ∈ spec.entity_types.map Json.str) ∧
    ∀ record ∈ elements (snapshot.item "records"),
      (record.item "source_revision" = .null → spec.revision_nullable = true) ∧
        (record.item "source_revision" ≠ .null → spec.revision_kind ≠ "none")
  planned : observed_ids (elements (snapshot.item "records")) ⊆ resources.map ResourceRef.source_id
  complete : resources.map ResourceRef.source_id ⊆ observed_ids (elements (snapshot.item "records"))
  tagged : selection.item "mode" = .str "exact_tag" → ∀ record ∈ elements (snapshot.item "records"),
    record.item "source_revision" = selection.item "tag"

theorem validate_observation_ok (hsnapshot : snapshot.WellFormed) :
    validate_observation now source selection resources snapshot = .ok result ↔
      Observation source selection resources snapshot ∧ result = snapshot := by
  simp only [validate_observation, Except.bind_eq_ok, Except.pure_eq_ok, Except.require_eq_ok,
    copy_metadata_eq_ok hsnapshot]
  constructor
  · rintro ⟨_, ⟨hplain, rfl⟩, _, hvalid, _, hscope, spec, hspec, _, hrecords, _, hrevisions, _,
      hplanned, _, hcomplete, _, htagged, rfl⟩
    exact ⟨⟨hplain, (validate_snapshot_ok hsnapshot hvalid).2, hscope,
      ⟨spec, hspec, hrecords, hrevisions⟩, hplanned, hcomplete, htagged⟩, rfl⟩
  · rintro ⟨⟨hplain, haccepted, hscope, ⟨spec, hspec, hrecords, hrevisions⟩, hplanned,
      hcomplete, htagged⟩, rfl⟩
    exact ⟨_, ⟨hplain, rfl⟩, _, (validate_snapshot_iff hsnapshot).mpr ⟨rfl, haccepted⟩, (), hscope,
      spec, hspec, (), hrecords, (), hrevisions, (), hplanned, (), hcomplete, (), htagged, rfl⟩

/-- The parts of an entry that `make_cache` accepts. -/
structure Cacheable (request snapshot provenance validators : Json) : Prop where
  canonical : Canonical request
  bound : Exact snapshot
  observed : ∃ resources,
    Observation (request.item "source") (request.item "selection") resources snapshot
  context : provenance.item "context" = request.item "context"
  validator_keys : validators.HasKeys VALIDATOR_FIELDS
  validator_texts : validators.Discrete

/-- An accepted manifest is returned as it is, with a context of aliases. -/
theorem validate_provenance_ok (hprovenance : provenance.WellFormed)
    (h : validate_provenance now snapshot provenance trusted_issuers = .ok result) :
    result = provenance ∧ Context (provenance.item "context") := by
  simp only [validate_provenance, Except.bind_eq_ok, Except.pure_eq_ok, demand_eq_ok,
    Except.require_eq_ok, copy_metadata_eq_ok hprovenance] at h
  obtain ⟨_, _, _, ⟨_, rfl⟩, _, _, _, _, _, _, _, _, context, hcontext, _, _, _, _, rfl⟩ := h
  exact ⟨rfl, ((validation_context_ok (hprovenance.item _)).mp hcontext).1⟩

/-- `make_cache` puts its arguments together as they are. -/
theorem make_cache_ok (hrequest : request.WellFormed) (hsnapshot : snapshot.WellFormed)
    (hprovenance : provenance.WellFormed) (hvalidators : validators.WellFormed)
    (h : make_cache now request snapshot provenance validators trusted_issuers = .ok result) :
    result = cache_document request snapshot provenance validators ∧
      Cacheable request snapshot provenance validators := by
  simp only [make_cache, Except.bind_eq_ok, Except.pure_eq_ok, demand_eq_ok,
    snapshot_copy_ok hsnapshot] at h
  obtain ⟨_, hcanonical, refs, _, data, ⟨hexact, rfl⟩, _, hobserved, _, _, p, hp, _, hcontext, _,
    hvalid, rfl⟩ := h
  obtain ⟨rfl, hcanonical⟩ := canonical_request_ok hrequest hcanonical
  obtain ⟨hobserved, rfl⟩ := (validate_observation_ok hsnapshot).mp hobserved
  obtain ⟨rfl, haliases⟩ := validate_provenance_ok hprovenance hp
  obtain ⟨rfl, hkeys, hdiscrete⟩ := http_validators_ok hvalidators hvalid
  refine ⟨rfl, hcanonical, hexact, ⟨refs, hobserved⟩, ?_, hkeys, hdiscrete⟩
  exact Json.eq_of_equal _ _ (haliases.discrete (hprovenance.item _))
    (hcanonical.context.discrete (hrequest.item _)) hcontext

/-- An entry that `validate_cache` accepts. -/
structure Cached (now : Now) (trusted_issuers : String → Option (List UInt8))
    (entry : Json) : Prop where
  plain : Plain entry
  keys : entry.HasKeys CACHE_FIELDS
  made : make_cache now (entry.item "request") (entry.item "snapshot") (entry.item "provenance")
    (entry.item "validators") trusted_issuers = .ok entry
  parts : Cacheable (entry.item "request") (entry.item "snapshot") (entry.item "provenance")
    (entry.item "validators")

theorem validate_cache_ok (hentry : entry.WellFormed) :
    validate_cache now entry trusted_issuers = .ok result ↔
      result = entry ∧ Cached now trusted_issuers entry := by
  simp only [validate_cache, Except.bind_eq_ok, Except.pure_eq_ok, demand_eq_ok,
    copy_metadata_eq_ok hentry]
  constructor
  · rintro ⟨data, ⟨hplain, rfl⟩, _, ⟨hkeys, hformat, hvalidation⟩, rebuilt, hmade, _, hequal, rfl⟩
    obtain ⟨hdocument, hparts⟩ :=
      make_cache_ok (hentry.item _) (hentry.item _) (hentry.item _) (hentry.item _) hmade
    have hsha := Json.equal_item hequal "snapshot_sha256"
    rw [hdocument, cache_document_item] at hsha
    have hsame : rebuilt = data := by
      rw [hdocument]
      refine (Json.hasKeys_dict CACHE_FIELDS rfl).ext hkeys
        (cache_document_wellFormed (hentry.item _) (hentry.item _)
          (hentry.item _) (hentry.item _)) hentry fun field hfield => ?_
      change (cache_document _ _ _ _).item field = _
      simp only [CACHE_FIELDS, List.mem_cons, List.not_mem_nil, or_false] at hfield
      rcases hfield with rfl | rfl | rfl | rfl | rfl | rfl | rfl
      · simp [cache_document_item, Json.equal_str.mp hformat]
      · simp [cache_document_item]
      · simp [cache_document_item]
      · rw [Json.str_equal.mp hsha, cache_document_item]
        simp
      · simp [cache_document_item]
      · simp [cache_document_item]
      · simp [cache_document_item, Json.equal_str.mp hvalidation]
    exact ⟨hsame, hplain, hkeys, hsame ▸ hmade, hparts⟩
  · rintro ⟨rfl, h⟩
    have hdocument :=
      (make_cache_ok (hentry.item _) (hentry.item _) (hentry.item _) (hentry.item _) h.made).1
    refine ⟨result, ⟨h.plain, rfl⟩, (), ⟨h.keys, ?_, ?_⟩, result, h.made, (),
      Json.equal_refl _, rfl⟩
    · rw [hdocument, cache_document_item]
      exact Json.equal_refl _
    · rw [hdocument, cache_document_item]
      exact Json.equal_refl _

variable {later : Now} {data context issuer : Json} {kind : String} {key : Option (List UInt8)}

/-- No check depends on the clock. -/
theorem make_provenance_later (now later : Now) (hsnapshot : snapshot.WellFormed) :
    make_provenance now snapshot kind context issuer key = .ok result ↔
      make_provenance later snapshot kind context issuer key = .ok result := by
  simp only [make_provenance, Except.bind_eq_ok, snapshot_copy_ok hsnapshot]

theorem authenticate_later (hdata : data.WellFormed) {p : Json} {u : Unit} :
    authenticate now data p context trusted_issuers = .ok u ↔
      authenticate later data p context trusted_issuers = .ok u := by
  unfold authenticate
  split
  · simp only [Except.bind_eq_ok, make_provenance_later now later hdata]
  · rfl

theorem validate_provenance_later (hsnapshot : snapshot.WellFormed) :
    validate_provenance now snapshot provenance trusted_issuers = .ok result ↔
      validate_provenance later snapshot provenance trusted_issuers = .ok result := by
  simp only [validate_provenance, Except.bind_eq_ok, snapshot_copy_ok hsnapshot]
  constructor
  · rintro ⟨data, ⟨hexact, rfl⟩, p, hp, _, hkeys, _, hformat, _, hkind, _, hkinds, context,
      hcontext, _, hbound, _, hauth, h⟩
    exact ⟨data, ⟨hexact, rfl⟩, p, hp, _, hkeys, _, hformat, _, hkind, _, hkinds, context,
      hcontext, _, hbound, _, (authenticate_later hsnapshot).mp hauth, h⟩
  · rintro ⟨data, ⟨hexact, rfl⟩, p, hp, _, hkeys, _, hformat, _, hkind, _, hkinds, context,
      hcontext, _, hbound, _, hauth, h⟩
    exact ⟨data, ⟨hexact, rfl⟩, p, hp, _, hkeys, _, hformat, _, hkind, _, hkinds, context,
      hcontext, _, hbound, _, (authenticate_later hsnapshot).mpr hauth, h⟩

theorem make_cache_later (hsnapshot : snapshot.WellFormed)
    (h : make_cache now request snapshot provenance validators trusted_issuers = .ok result) :
    make_cache later request snapshot provenance validators trusted_issuers = .ok result := by
  simp only [make_cache, Except.bind_eq_ok, snapshot_copy_ok hsnapshot] at h ⊢
  obtain ⟨r, hr, refs, hrefs, data, ⟨hexact, rfl⟩, observed, hobserved, _, hrevisions, p, hp, h⟩ :=
    h
  obtain ⟨hobservation, rfl⟩ := (validate_observation_ok hsnapshot).mp hobserved
  exact ⟨r, hr, refs, hrefs, observed, ⟨hexact, rfl⟩, observed,
    (validate_observation_ok hsnapshot).mpr ⟨hobservation, rfl⟩,
    _, hrevisions, p, (validate_provenance_later hsnapshot).mp hp, h⟩

theorem Cached.rechecked (hentry : entry.WellFormed) (h : Cached now trusted_issuers entry) :
    Cached later trusted_issuers entry :=
  ⟨h.plain, h.keys, make_cache_later (hentry.item _) h.made, h.parts⟩

/-- The request of an accepted entry is canonical. -/
theorem Cached.request_accepted (hentry : entry.WellFormed) (h : Cached now trusted_issuers entry) :
    canonical_request (entry.item "request") = .ok (entry.item "request") := by
  have hmade := h.made
  simp only [make_cache, Except.bind_eq_ok] at hmade
  obtain ⟨request, hrequest, _⟩ := hmade
  obtain ⟨rfl, _⟩ := canonical_request_ok (hentry.item _) hrequest
  exact hrequest

end Entries

end discovery
