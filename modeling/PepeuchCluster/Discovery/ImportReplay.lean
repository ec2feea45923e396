import PepeuchCluster.Discovery.ImportChain

namespace discovery

section Chains

variable [Unicode] [Datetime] {now : Now} {trusted_issuers : String → Option (List UInt8)}

theorem replays {entries plans : List Json} (hwell : ∀ entry ∈ entries, entry.WellFormed)
    (h : plan_chain now trusted_issuers none entries = .ok plans) :
    Replays now trusted_issuers entries plans := by
  induction entries using List.reverseRecOn generalizing plans with
  | nil =>
    obtain rfl := Except.ok.inj h
    refine ⟨List.forall_mem_nil _, List.Pairwise.nil, fun store hstore => ?_, fun _ => ⟨[], rfl⟩⟩
    obtain rfl := Option.some.inj hstore
    refine ⟨fun key => .none, ?_⟩
    rintro ⟨earlier, _, _, _, hsplit, _⟩
    simp at hsplit
  | append_singleton entries last ih =>
    obtain ⟨earlier, plan, hearlier, hplan, rfl⟩ := plan_chain_append.mp h
    have hentries : ∀ entry ∈ entries, entry.WellFormed := fun entry hentry =>
      hwell entry (List.mem_append_left _ hentry)
    have hafter : last.WellFormed := hwell last (by simp)
    rw [Option.or_none] at hplan
    obtain ⟨hlast, hprecedes, changes, rfl⟩ :=
      plan_of_last (fun entry hentry => hentries entry (List.mem_of_getLast? hentry)) hafter hplan
    have hprior := ih hentries hearlier
    have hordered := ordered_append hprior.ordered hprecedes
    refine ⟨?_, hordered, fun store hstore => ?_, fun hnot => ?_⟩
    · exact List.forall_mem_append.mpr ⟨hprior.cached, List.forall_mem_singleton.mpr hlast⟩
    · rw [List.foldlM_append] at hstore
      obtain ⟨middle, hmiddle, hstore⟩ := Option.bind_eq_some_iff.mp hstore
      rw [List.foldlM_cons] at hstore
      obtain ⟨final, hfinal, hstore⟩ := Option.bind_eq_some_iff.mp hstore
      obtain rfl := Option.some.inj hstore
      obtain ⟨hholds, hnot⟩ := hprior.holds middle hmiddle
      exact ⟨hholds.plan hafter hlast hfinal,
        not_returns_of_applied hprior.cached hentries hafter hlast hholds hordered hnot hfinal⟩
    · obtain ⟨middle, hmiddle⟩ := hprior.accepts fun hreturns => hnot (hreturns.append last)
      obtain ⟨hholds, _⟩ := hprior.holds middle hmiddle
      obtain ⟨final, hfinal⟩ : ∃ final,
        apply_plan middle (plan_document entries.getLast? last changes) = some final :=
        applied_of_not_returns hprior.cached hentries hafter hlast hholds hnot
      refine ⟨final, ?_⟩
      rw [List.foldlM_append, hmiddle]
      simp [hfinal]

/-- The law of a chain of plans: none is refused, and every observed key holds what was
    written for it last. -/
def Replayed (entries plans : List Json) : Prop :=
  ∃ store, plans.foldlM apply_plan [] = some store ∧
    ∀ key row, latest entries key = some row → ∃ stored, store.lookup key = some stored ∧
    stored.equal row = true

theorem replayed_iff {entries plans : List Json} (hwell : ∀ entry ∈ entries, entry.WellFormed)
    (h : plan_chain now trusted_issuers none entries = .ok plans) : Replayed entries plans ↔
    ¬ Returns entries := by
  have hreplays := replays hwell h
  constructor
  · rintro ⟨store, hstore, _⟩
    exact (hreplays.holds store hstore).2
  · intro hnot
    obtain ⟨store, hstore⟩ := hreplays.accepts hnot
    refine ⟨store, hstore, fun key row hrow => ?_⟩
    have hrel := (hreplays.holds store hstore).1 key
    rw [hrow] at hrel
    cases hlookup : store.lookup key with
    | none =>
      rw [hlookup] at hrel
      cases hrel
    | some stored =>
      rw [hlookup] at hrel
      cases hrel with
      | some hequal => exact ⟨stored, rfl, hequal⟩

/-- Plans that are made one after another are applied one after another, with the rows
    of the latest observations, exactly when no key comes back after an entry that did
    not observe it. -/
theorem plan_chain_replayed (now : Now) (trusted_issuers : String → Option (List UInt8)) :
    ∀ (entries : List Value) (plans : List Json),
      plan_chain now trusted_issuers none (entries.map Value.json) = .ok plans →
        (Replayed (entries.map Value.json) plans ↔ ¬ Returns (entries.map Value.json)) := by
  intro entries plans h
  refine replayed_iff (fun entry hentry => ?_) h
  obtain ⟨value, _, rfl⟩ := List.mem_map.mp hentry
  exact value.wellFormed

end Chains

namespace Sample

/-- A reference in the catalog of a source that samples its entries. -/
def reference (name : String) : SourceRecord where
  source := .str "models.dev"
  source_id := .str name
  source_revision := .str "r1"
  entity_type := .str "model_reference"
  display_name := .str name
  attributes := .obj []
  relationships := []
  raw_metadata := .obj []

def sampled : Json := .dict [("mode", .str "first_n_sorted"), ("limit", .number (.int 1))]

def catalog : Json := .dict [("models.dev", sampled)]

def observation (name time : String) : Json :=
  snapshot_document catalog (.str time) [(reference name).entry]

def request (name : String) : Json :=
  .dict [("source", .str "models.dev"), ("selection", sampled), ("resources", .arr [.str name]),
    ("context", context), ("revisions", .dict [(name, .str "r1")])]

def manifest (name time : String) : Json :=
  .dict (manifest_of (observation name time) context "synthetic" .null ++ [("attestation", .null)])

def validators : Json := .dict [("etag", .null), ("last_modified", .null)]

def observed_entry (name time : String) : Json :=
  cache_document (request name) (observation name time) (manifest name time) validators

/-- One reference, then another, then the first again. -/
def sightings : List (String × String) :=
  [("a", instant), ("b", "2026-10-29T00:00:00+00:00"), ("a", "2026-10-30T00:00:00+00:00")]

def returning : List Json := sightings.map fun sighting => observed_entry sighting.1 sighting.2

theorem sampled_wellFormed : sampled.WellFormed :=
  Json.dict_wellFormed (by simp) (by simp [Json.WellFormed])

theorem catalog_wellFormed : catalog.WellFormed :=
  Json.dict_wellFormed (by simp) (by simpa using sampled_wellFormed)

theorem catalog_spec (refusal : Failure) : source_spec (.str "models.dev") refusal =
    .ok ⟨"models.dev", ["model_reference"], ["first_n_sorted"], "catalog_commit", false, []⟩ :=
  rfl

theorem validators_wellFormed : validators.WellFormed :=
  Json.dict_wellFormed (by simp) (by simp [Json.WellFormed])

theorem revisions_wellFormed (name : String) : (Json.dict [(name, .str "r1")]).WellFormed :=
  Json.dict_wellFormed (by simp) (by simp [Json.WellFormed])

theorem request_wellFormed (name : String) : (request name).WellFormed := by
  refine Json.dict_wellFormed (by simp) ?_
  simp only [List.forall_mem_cons, List.not_mem_nil, false_implies, implies_true, and_true]
  exact ⟨trivial, sampled_wellFormed, ⟨trivial, trivial⟩, context_wellFormed,
    revisions_wellFormed name⟩

theorem request_parts (name : String) : (request name).item "source" = .str "models.dev" ∧
    (request name).item "selection" = sampled ∧ (request name).item "resources" = .arr [.str name] ∧
    (request name).item "context" = context ∧
    (request name).item "revisions" = .dict [(name, .str "r1")] := by
  simp [request, request_item]

theorem reference_wellFormed (name : String) : (reference name).payload.WellFormed :=
  Json.dict_wellFormed (by simp)
    (by simp [reference, Json.WellFormed, Json.WellFormedItems, Json.WellFormedFields])

theorem reference_items (name : String) : (reference name).entry.item "source" = .str "models.dev" ∧
    (reference name).entry.item "entity_type" = .str "model_reference" ∧
    (reference name).entry.item "source_id" = .str name ∧
    (reference name).entry.item "source_revision" = .str "r1" := by
  have hentry : ∀ {field : String}, field ≠ "record_key" → field ≠ "payload_sha256" →
      (reference name).entry.item field = (reference name).payload.item field :=
    SourceRecord.entry_item (reference_wellFormed name)
  rw [hentry (by simp) (by simp), hentry (by simp) (by simp), hentry (by simp) (by simp),
    hentry (by simp) (by simp)]
  simp [reference]

theorem observation_records (name time : String) :
    elements ((observation name time).item "records") = [(reference name).entry] := by
  rw [observation, document_records, elements]

theorem revised (name : String) :
    revisions_of [(reference name).entry] = .dict [(name, .str "r1")] := by
  obtain ⟨_, _, hid, hrevision⟩ := reference_items name
  simp [revisions_of, put, hid, hrevision, Json.text]

theorem entry_parts (name time : String) :
    (observed_entry name time).item "request" = request name ∧
      (observed_entry name time).item "snapshot" = observation name time ∧
    (observed_entry name time).item "provenance" = manifest name time ∧
    (observed_entry name time).item "validators" = validators := by
  simp [observed_entry, cache_document_item]

theorem entry_kind (name time : String) :
    kind_of (observed_entry name time) = .str "synthetic" := by
  rw [kind_of, (entry_parts name time).2.2.1, manifest, manifest_item]
  simp [manifest_of]

def FIELDS : List String :=
  PLAN_KEYS ++ CACHE_FIELDS ++ REQUEST_FIELDS ++ VALIDATOR_FIELDS ++ CONTEXT_FIELDS ++
    PROVENANCE_FIELDS ++ SNAPSHOT_FIELDS ++ RECORD_FIELDS ++
      ["record_key", "payload_sha256", "models.dev", "mode", "limit", "a", "b", "added",
        "changed", "not_observed", "before", "after", "unchanged_count", "note"]

theorem fields_spared : ∀ key ∈ FIELDS, folded key ∉ SECRET_KEYS := by decide +kernel

theorem plain_fields {fields : List (String × Json)} {names : List String}
    (hnames : fields.map Prod.fst = names) (hkeys : names ⊆ FIELDS)
    (hvalues : ∀ field ∈ fields, Plain field.2) : Plain (.dict fields) :=
  plain_dict fun field hfield =>
    ⟨fields_spared _ (hkeys (hnames ▸ List.mem_map_of_mem hfield)), hvalues field hfield⟩

theorem plain_null : Plain .null := ⟨rfl, trivial⟩

theorem plain_number {z : Int} (h : z.natAbs < 10 ^ 4300) : Plain (.number (.int z)) := ⟨rfl, h⟩

theorem plain_count {count : Nat} (h : count ≤ 1) : Plain (.number (.int count)) := by
  have hone : ∀ n : Nat, n ≠ 0 → 1 < 10 ^ n := fun n hn => Nat.one_lt_pow hn (by decide)
  refine plain_number ?_
  rw [Int.natAbs_natCast]
  exact h.trans_lt (hone _ (Nat.succ_ne_zero _))

theorem sampled_plain : Plain sampled :=
  plain_fields rfl (show ["mode", "limit"] ⊆ FIELDS by decide)
    (by simpa [plain_str] using plain_count le_rfl)

theorem catalog_plain : Plain catalog :=
  plain_fields rfl (show ["models.dev"] ⊆ FIELDS by decide) (by simp [sampled_plain])

theorem validators_plain : Plain validators :=
  plain_fields rfl (show VALIDATOR_FIELDS ⊆ FIELDS by decide) (by simp [plain_null])

theorem sampled_safe : safe_selection (.str "models.dev") sampled = .ok sampled := by
  simp only [safe_selection, (copy_metadata_eq_ok sampled_wellFormed).mpr ⟨sampled_plain, rfl⟩,
    Except.ok_bind, catalog_spec]
  rfl

theorem validators_ok : http_validators validators = .ok validators := by
  simp only [http_validators,
    (copy_metadata_eq_ok validators_wellFormed).mpr ⟨validators_plain, rfl⟩, Except.ok_bind]
  rfl

theorem reference_plain (name : String) : Plain (reference name).payload := by
  have hempty : Plain (.obj []) ∧ Plain (.arr []) := ⟨⟨rfl, trivial⟩, ⟨rfl, trivial⟩⟩
  have hkeys : RECORD_FIELDS ⊆ FIELDS := by decide
  exact plain_fields rfl hkeys (by simp [reference, plain_str, hempty])

/-- A manifest of synthetic observations needs no issuer. -/
theorem synthetic_accepted {snapshot provenance : Json}
    {trusted_issuers : String → Option (List UInt8)} (hsnapshot : snapshot.WellFormed)
    (hexact : Exact snapshot) (hprovenance : provenance.WellFormed) (hplain : Plain provenance)
    (hkeys : provenance.HasKeys PROVENANCE_FIELDS)
    (hformat : provenance.item "format" = .str PROVENANCE_FORMAT)
    (hkind : provenance.item "kind" = .str "synthetic")
    (hid : provenance.item "snapshot_id" = snapshot.item "snapshot_id")
    (hsha : provenance.item "snapshot_sha256" = .str (digest snapshot))
    (hscope : provenance.item "scope" = snapshot.item "scope")
    (hcontext : provenance.item "context" = context) (hissuer : provenance.item "issuer" = .null)
    (hattestation : provenance.item "attestation" = .null) :
    validate_provenance Sample.now snapshot provenance trusted_issuers = .ok provenance := by
  simp only [validate_provenance, authenticate, (snapshot_copy_ok hsnapshot).mpr ⟨hexact, rfl⟩,
    (copy_metadata_eq_ok hprovenance).mpr ⟨hplain, rfl⟩, Except.ok_bind, hformat, hkind, hid, hsha,
      hscope, hcontext,
    (validation_context_ok context_wellFormed).mpr ⟨context_context, rfl⟩, hissuer, hattestation,
      Json.equal_refl,
    Except.bind_eq_ok, demand_eq_ok, Except.require_eq_ok]
  refine ⟨(), hkeys, (), trivial, (), rfl, (), by decide, (),
    ⟨trivial, trivial, trivial⟩, (), ?_, rfl⟩
  rw [if_neg (by decide), demand_eq_ok]
  exact ⟨trivial, trivial⟩

theorem cache_made {now : Now} {request snapshot provenance validators : Json}
    {refs : List ResourceRef} {trusted_issuers : String → Option (List UInt8)}
    (hrequest : canonical_request request = .ok request) (hrefs :
      (elements (request.item "resources")).mapM (resource_ref (request.item "source")) = .ok refs)
    (hsnapshot : snapshot_copy now snapshot = .ok snapshot)
    (hobservation : validate_observation now (request.item "source")
      (request.item "selection") refs snapshot = .ok snapshot)
    (hrevisions :
    (revisions_of (elements (snapshot.item "records"))).equal (request.item "revisions") = true)
    (hprovenance : validate_provenance now snapshot provenance trusted_issuers = .ok provenance)
    (hcontext : (provenance.item "context").equal (request.item "context") = true)
    (hvalidators : http_validators validators = .ok validators) :
    make_cache now request snapshot provenance validators trusted_issuers =
      .ok (cache_document request snapshot provenance validators) := by
  simp only [make_cache, hrequest, hrefs, hsnapshot, hobservation, hprovenance,
    hvalidators, Except.ok_bind, Except.bind_eq_ok, demand_eq_ok]
  exact ⟨(), hrevisions, (), hcontext, rfl⟩

section Sightings

variable {name time : String} (h : (name, time) ∈ sightings)
include h

theorem name_field : name ∈ FIELDS := by
  simp only [sightings, List.mem_cons, Prod.mk.injEq, List.not_mem_nil, or_false] at h
  rcases h with ⟨rfl, rfl⟩ | ⟨rfl, rfl⟩ | ⟨rfl, rfl⟩ <;> decide

theorem revisions_plain : Plain (.dict [(name, .str "r1")]) :=
  plain_fields rfl (by simpa using name_field h) (by simp [plain_str])

theorem request_plain : Plain (request name) := by
  have hkeys : REQUEST_FIELDS ⊆ FIELDS := by decide
  exact plain_fields rfl hkeys
    (by simp [plain_str, sampled_plain, context_context.plain, revisions_plain h, plain_arr])

theorem reference_identifier : isIdentifier name = true := by
  simp only [sightings, List.mem_cons, Prod.mk.injEq, List.not_mem_nil, or_false] at h
  rcases h with ⟨rfl, rfl⟩ | ⟨rfl, rfl⟩ | ⟨rfl, rfl⟩ <;> decide

theorem reference_ref :
    [Json.str name].mapM (resource_ref (.str "models.dev")) = .ok [⟨"models.dev", name⟩] := by
  rw [Except.mapM_eq_ok]
  refine .cons ?_ .nil
  simp only [resource_ref, catalog_spec, Except.ok_bind,
    identifier_ok.mpr ⟨rfl, reference_identifier h⟩]
  rfl

theorem reference_acceptable : Acceptable (reference name) := by
  have hplain := reference_plain name
  simp only [sightings, List.mem_cons, Prod.mk.injEq, List.not_mem_nil, or_false] at h
  rcases h with ⟨rfl, rfl⟩ | ⟨rfl, rfl⟩ | ⟨rfl, rfl⟩ <;>
  exact ⟨reference_wellFormed _,
    hplain, by decide, by decide, by decide, by decide, by decide, by decide,
    ⟨rfl, trivial⟩, ⟨rfl, trivial⟩, by decide, trivial⟩

theorem request_canonical : canonical_request (request name) = .ok (request name) := by
  have hcontext : validation_context context = .ok context :=
    (validation_context_ok context_wellFormed).mpr ⟨context_context, rfl⟩
  obtain ⟨hsource, hselection, hresources, hcontexts, hrevisions⟩ := request_parts name
  simp only [canonical_request,
    (copy_metadata_eq_ok (request_wellFormed name)).mpr ⟨request_plain h, rfl⟩, Except.ok_bind,
    cache_request, hsource, hselection, hresources, hcontexts, hrevisions, sampled_safe,
    hcontext, iterate, reference_ref h,
    (copy_metadata_eq_ok (revisions_wellFormed name)).mpr ⟨revisions_plain h, rfl⟩]
  simp only [sightings, List.mem_cons, Prod.mk.injEq, List.not_mem_nil, or_false] at h
  rcases h with ⟨rfl, rfl⟩ | ⟨rfl, rfl⟩ | ⟨rfl, rfl⟩ <;> rfl

theorem observation_wellFormed : (observation name time).WellFormed :=
  document_wellFormed (reference_acceptable h) catalog_wellFormed trivial

theorem observation_accepted : Accepted (observation name time) [reference name] := by
  refine document_accepted (reference_acceptable h) ⟨by decide, by decide, catalog_plain⟩
    fun _ => ?_
  simp only [sightings, List.mem_cons, Prod.mk.injEq, List.not_mem_nil, or_false] at h
  rcases h with ⟨rfl, rfl⟩ | ⟨rfl, rfl⟩ | ⟨rfl, rfl⟩ <;> decide

theorem observation_exact : Exact (observation name time) := by
  have hkeys : SNAPSHOT_FIELDS ⊆ FIELDS := by decide
  have hentry : Plain (reference name).entry := by
    refine plain_dict ?_
    simp only [List.forall_mem_cons]
    exact ⟨⟨fields_spared _ (by decide), plain_str _⟩, ⟨fields_spared _ (by decide), plain_str _⟩,
      fun field hfield => (reference_plain name).field hfield⟩
  refine ⟨plain_fields rfl hkeys ?_, ⟨_, observation_accepted h⟩, Json.hasKeys_dict _ rfl⟩
  simp only [List.forall_mem_cons, List.not_mem_nil, false_implies, implies_true, and_true]
  exact ⟨plain_str _, plain_str _, plain_str _, catalog_plain,
    plain_arr (List.forall_mem_singleton.mpr hentry)⟩

theorem observation_planned :
    Observation (.str "models.dev") sampled [⟨"models.dev", name⟩] (observation name time) := by
  obtain ⟨hsource, htype, hid, hrevision⟩ := reference_items name
  refine ⟨(observation_exact h).plain,
    ⟨_, observation_accepted h⟩, by rw [observation, document_scope]; rfl,
    ⟨_, catalog_spec _, ?_, ?_⟩, ?_, ?_, fun hmode => absurd hmode (by decide)⟩ <;>
    rw [observation_records]
  · rw [List.forall_mem_singleton, hsource, htype]
    exact ⟨rfl, by simp⟩
  · rw [List.forall_mem_singleton, hrevision]
    exact ⟨nofun, fun _ => by simp⟩
  · simp [observed_ids, hid, Json.text]
  · simp [observed_ids, hid, Json.text]

theorem manifest_plain : Plain (manifest name time) := by
  have hkeys : PROVENANCE_FIELDS ⊆ FIELDS := by decide
  have hplain := (observation_exact h).plain
  refine plain_fields rfl hkeys ?_
  simp only [manifest_of, List.cons_append, List.nil_append, List.forall_mem_cons,
    List.not_mem_nil, false_implies, implies_true, and_true]
  exact ⟨plain_str _, plain_str _, hplain.item _, plain_str _, hplain.item _, context_context.plain,
    plain_null, plain_null⟩

theorem manifest_accepted :
    validate_provenance Sample.now (observation name time) (manifest name time) (fun _ => none) =
    .ok (manifest name time) := by
  have hwell : (manifest name time).WellFormed :=
    manifest_wellFormed (observation_wellFormed h) context_wellFormed trivial trivial
  have hitems : (manifest name time).item "format" = .str PROVENANCE_FORMAT ∧
      (manifest name time).item "kind" = .str "synthetic" ∧
      (manifest name time).item "snapshot_id" = (observation name time).item "snapshot_id" ∧
      (manifest name time).item "snapshot_sha256" = .str (digest (observation name time)) ∧
      (manifest name time).item "scope" = (observation name time).item "scope" ∧
      (manifest name time).item "context" = context ∧ (manifest name time).item "issuer" = .null ∧
      (manifest name time).item "attestation" = .null := by
    simp only [manifest, manifest_item]
    simp [manifest_of]
  obtain ⟨hformat, hkind, hid, hsha, hscope, hcontext, hissuer, hattestation⟩ := hitems
  exact synthetic_accepted (observation_wellFormed h) (observation_exact h) hwell (manifest_plain h)
    (Json.hasKeys_dict _ rfl)
    hformat hkind hid hsha hscope hcontext hissuer hattestation

theorem entry_made :
    make_cache Sample.now (request name) (observation name time) (manifest name time) validators
    (fun _ => none) = .ok (observed_entry name time) := by
  obtain ⟨hsource, hselection, hresources, hcontexts, hrevisions⟩ := request_parts name
  have hcontext : (manifest name time).item "context" = context := by
    simp only [manifest, manifest_item]
    simp [manifest_of]
  have hrecords : (observation name time).item "records" = .arr [(reference name).entry] := by
    rw [observation, document_records]
  have hrefs : (elements ((request name).item "resources")).mapM
    (resource_ref ((request name).item "source")) =
      .ok [⟨"models.dev", name⟩] := by
    rw [hresources, hsource]
    exact reference_ref h
  refine cache_made (request_canonical h) hrefs
    ((snapshot_copy_ok (observation_wellFormed h)).mpr ⟨observation_exact h, rfl⟩)
    ?_ ?_ (manifest_accepted h) ?_ validators_ok
  · rw [hsource, hselection]
    exact (validate_observation_ok (observation_wellFormed h)).mpr ⟨observation_planned h, rfl⟩
  · rw [hrecords, hrevisions, elements, revised]
    exact Json.equal_refl _
  · rw [hcontext, hcontexts]
    exact Json.equal_refl _

theorem entry_wellFormed : (observed_entry name time).WellFormed :=
  cache_document_wellFormed (request_wellFormed name) (observation_wellFormed h)
    (manifest_wellFormed (observation_wellFormed h) context_wellFormed trivial trivial)
      validators_wellFormed

theorem entry_plain : Plain (observed_entry name time) := by
  have hkeys : CACHE_FIELDS ⊆ FIELDS := by decide
  refine plain_fields rfl hkeys ?_
  simp only [List.forall_mem_cons, List.not_mem_nil, false_implies, implies_true, and_true]
  exact ⟨plain_str _, request_plain h, (observation_exact h).plain, plain_str _, manifest_plain h,
    validators_plain, plain_str _⟩

theorem entry_cached : Cached Sample.now (fun _ => none) (observed_entry name time) := by
  have hwell := entry_wellFormed h
  obtain ⟨hrequest, hsnapshot, hprovenance, hvalidators⟩ := entry_parts name time
  have hmade : make_cache Sample.now ((observed_entry name time).item "request")
    ((observed_entry name time).item "snapshot")
      ((observed_entry name time).item "provenance") ((observed_entry name time).item "validators")
        (fun _ => none) =
        .ok (observed_entry name time) := by
    rw [hrequest, hsnapshot, hprovenance, hvalidators]
    exact entry_made h
  exact ⟨entry_plain h, Json.hasKeys_dict _ rfl, hmade,
    (make_cache_ok (hwell.item _) (hwell.item _) (hwell.item _) (hwell.item _) hmade).2⟩

end Sightings

theorem plan_keys_spared : ∀ key ∈ PLAN_KEYS, folded key ∉ SECRET_KEYS :=
  fun key hkey => fields_spared key (by simp [FIELDS, hkey])

theorem copy_plan {before : Option Json} {name time : String} {changes : Json}
    (h : (name, time) ∈ sightings) (hbefore : ∀ entry ∈ before, ∃ other earlier,
      (other, earlier) ∈ sightings ∧ entry = observed_entry other earlier)
    (hwell : changes.WellFormed) (hplain : Plain changes) :
    copy_metadata (plan_document before (observed_entry name time) changes) =
      .ok (plan_document before (observed_entry name time) changes) := by
  have hentries : ∀ entry ∈ before, entry.WellFormed ∧ Plain entry ∧
      Cached Sample.now (fun _ => none) entry := by
    intro entry hentry
    obtain ⟨other, earlier, hsighting, rfl⟩ := hbefore entry hentry
    exact ⟨entry_wellFormed hsighting, entry_plain hsighting, entry_cached hsighting⟩
  refine (copy_metadata_eq_ok ?_).mpr ⟨?_, rfl⟩
  · exact plan_wellFormed (entry_wellFormed h) (fun entry hentry => (hentries entry hentry).1)
      (fun entry hentry => (hentries entry hentry).2.2) hwell
  · exact plan_plain plan_keys_spared (entry_plain h)
      (fun entry hentry => (hentries entry hentry).2.1)
      (fun entry hentry => (hentries entry hentry).2.2) hplain

theorem sorted_texts_plain (texts : List String) : Plain (sorted_texts texts) :=
  plain_arr (List.forall_mem_map.mpr fun text _ => plain_str text)

/-- The changes of a first plan. -/
def first_changes (texts : List String) : Json :=
  .dict [("added", sorted_texts texts), ("changed", .arr []), ("not_observed", .arr [])]

theorem first_changes_wellFormed (texts : List String) : (first_changes texts).WellFormed := by
  refine Json.dict_wellFormed (by simp) ?_
  simp only [List.forall_mem_cons, List.not_mem_nil, false_implies, implies_true, and_true]
  exact ⟨texts_wellFormed _, trivial, trivial⟩

theorem first_changes_plain (texts : List String) : Plain (first_changes texts) := by
  refine plain_fields rfl (show ["added", "changed", "not_observed"] ⊆ FIELDS by decide) ?_
  simp only [List.forall_mem_cons, List.not_mem_nil, false_implies, implies_true, and_true]
  exact ⟨sorted_texts_plain _, plain_arr (List.forall_mem_nil _), plain_arr (List.forall_mem_nil _)⟩

theorem plan_import_first {now : Now} {after plan : Json}
    {trusted_issuers : String → Option (List UInt8)}
    (hcache : validate_cache now after trusted_issuers = .ok after)
    (hkind : kind_of after ≠ .str "historical_unknown")
    (hcopy : copy_metadata (plan_document none after
      (first_changes ((records_of after).map fun record => (record.item "record_key").text))) =
    .ok plan) :
    plan_import now none after trusted_issuers = .ok plan := by
  simp only [plan_import, Option.mapM_none, hcache, Except.ok_bind, Except.pure_eq_ok,
    Except.bind_eq_ok, demand_eq_ok]
  exact ⟨none, rfl, (), ⟨hkind, rfl⟩, Except.bind_eq_ok.mpr ⟨_, rfl, hcopy⟩⟩

theorem plan_import_next {now : Now} {before after changes plan : Json}
    {trusted_issuers : String → Option (List UInt8)}
    (hbefore : validate_cache now before trusted_issuers = .ok before)
    (hafter : validate_cache now after trusted_issuers = .ok after)
    (hkind : kind_of before ≠ .str "historical_unknown")
    (hkind' : kind_of after ≠ .str "historical_unknown")
    (hchanges : changes_since now before after = .ok changes)
    (hcopy : copy_metadata (plan_document (some before) after changes) = .ok plan) :
    plan_import now (some before) after trusted_issuers = .ok plan := by
  simp only [plan_import, Option.mapM_some, hbefore, hafter, Except.ok_bind, Except.map_eq_ok,
    Except.bind_eq_ok, demand_eq_ok]
  exact ⟨some before, ⟨_, rfl, rfl⟩, (), ⟨hkind', decide_eq_true hkind⟩,
    Except.bind_eq_ok.mpr ⟨changes, hchanges, hcopy⟩⟩

theorem first_plan {name time : String} (h : (name, time) ∈ sightings) :
    ∃ plan, plan_import Sample.now none (observed_entry name time) (fun _ => none) = .ok plan := by
  have hkind : kind_of (observed_entry name time) ≠ .str "historical_unknown" := by
    rw [entry_kind]
    decide
  exact ⟨_,
    plan_import_first ((validate_cache_ok (entry_wellFormed h)).mpr ⟨rfl, entry_cached h⟩) hkind
    (copy_plan h (by simp) (first_changes_wellFormed _) (first_changes_plain _))⟩

/-- The times of consecutive sightings. -/
theorem sighted {time later : String} (h : (time, later) ∈ [(instant, "2026-10-29T00:00:00+00:00"),
    ("2026-10-29T00:00:00+00:00", "2026-10-30T00:00:00+00:00")]) : ∃ previous current,
      timestamp (.str time) = .ok previous ∧ timestamp (.str later) = .ok current ∧
        previous.value < current.value := by
  simp only [List.mem_cons, Prod.mk.injEq, List.not_mem_nil, or_false] at h
  rcases h with ⟨rfl, rfl⟩ | ⟨rfl, rfl⟩
  · exact ⟨⟨false, 7520997762662400, -22, by decide⟩,
      ⟨false, 7521360150528000, -22, by decide⟩, by decide +kernel,
      by decide +kernel, by decide +kernel⟩
  · exact ⟨⟨false, 7521360150528000, -22, by decide⟩,
      ⟨false, 7521722538393600, -22, by decide⟩, by decide +kernel,
      by decide +kernel, by decide +kernel⟩

theorem changes_ok {name time other later : String} (h : (name, time) ∈ sightings)
    (h' : (other, later) ∈ sightings) :
    ∃ changes,
      compare_snapshots Sample.now (observation name time) (observation other later) = .ok changes ∧
      Plain changes := by
  have hkeys : ["before", "after", "added", "changed", "not_observed", "unchanged_count", "note"] ⊆
      FIELDS := by decide
  have hscope : ∀ name time, (observation name time).item "scope" = catalog :=
    fun name time => document_scope
  have hrecords := observation_records
  simp only [compare_snapshots,
    (validate_snapshot_iff (observation_wellFormed h)).mpr ⟨rfl, _, observation_accepted h⟩,
    (validate_snapshot_iff (observation_wellFormed h')).mpr ⟨rfl, _, observation_accepted h'⟩,
    hscope, Except.ok_bind, Except.bind_eq_ok, demand_eq_ok, Except.pure_eq_ok]
  refine ⟨_, ⟨(), Json.equal_refl _, rfl⟩, plain_fields rfl hkeys ?_⟩
  simp only [List.forall_mem_cons, List.not_mem_nil, false_implies, implies_true, and_true]
  refine ⟨(observation_exact h).plain.item _, (observation_exact h').plain.item _,
    sorted_texts_plain _, sorted_texts_plain _, sorted_texts_plain _, plain_count ?_, plain_str _⟩
  rw [hrecords, hrecords]
  exact (List.length_filter_le _ _).trans (List.length_filterMap_le _ _)

theorem next_plan {name time other later : String} (h : (name, time) ∈ sightings)
    (h' : (other, later) ∈ sightings)
    (htimes : (time, later) ∈ [(instant, "2026-10-29T00:00:00+00:00"),
      ("2026-10-29T00:00:00+00:00", "2026-10-30T00:00:00+00:00")]) :
    ∃ plan, plan_import Sample.now (some (observed_entry name time)) (observed_entry other later)
      (fun _ => none) =
      .ok plan := by
  obtain ⟨changes, hchanges, hplain⟩ := changes_ok h h'
  obtain ⟨previous, current, hprevious, hcurrent, hlt⟩ := sighted htimes
  have hcaptured : ∀ name time, captured_of (observed_entry name time) = .str time := by
    intro name time
    rw [captured_of, (entry_parts name time).2.1, observation, document_captured_at]
  have hkind : ∀ name time, kind_of (observed_entry name time) ≠ .str "historical_unknown" := by
    intro name time
    rw [entry_kind]
    decide
  have hkinds : (kind_of (observed_entry name time)).equal (kind_of (observed_entry other later)) =
      true := by
    rw [entry_kind, entry_kind]
    exact Json.equal_refl _
  have hpartition :
    ["source", "selection", "context"].forM (fun key => demand ((((observed_entry name time).item
      "request").item key).equal (((observed_entry other later).item "request").item key) = true)
        "Partition or selection changes need a separate reviewed baseline") = .ok () := by
    rw [Except.forM_eq_ok, (entry_parts name time).1, (entry_parts other later).1]
    simp [request_parts, Json.equal_refl, demand_eq_ok]
  have hsince : changes_since Sample.now (observed_entry name time) (observed_entry other later) =
      .ok changes := by
    rw [changes_since, hcaptured, hcaptured]
    simp only [Except.bind_eq_ok, demand_eq_ok]
    refine ⟨(), hpartition, (), hkinds, current, hcurrent, previous, hprevious, (),
      not_lt.mpr hlt.le, (), fun heq => absurd heq hlt.ne', ?_⟩
    rw [(entry_parts name time).2.1, (entry_parts other later).2.1]
    exact hchanges
  have hwell :=
    compare_snapshots_wellFormed (observation_wellFormed h) (observation_wellFormed h') hchanges
  have hcopy :=
    copy_plan h' (fun entry hentry => ⟨name, time, h, (Option.some.inj hentry).symm⟩) hwell hplain
  exact ⟨_, plan_import_next ((validate_cache_ok (entry_wellFormed h)).mpr ⟨rfl, entry_cached h⟩)
    ((validate_cache_ok (entry_wellFormed h')).mpr ⟨rfl, entry_cached h'⟩) (hkind name time)
      (hkind other later) hsince hcopy⟩

theorem returning_planned :
    ∃ plans, plan_chain Sample.now (fun _ => none) none returning = .ok plans := by
  have hfirst : ("a", instant) ∈ sightings := by decide
  have hsecond : ("b", "2026-10-29T00:00:00+00:00") ∈ sightings := by decide
  have hthird : ("a", "2026-10-30T00:00:00+00:00") ∈ sightings := by decide
  obtain ⟨first, hplan⟩ := first_plan hfirst
  obtain ⟨second, hplan'⟩ := next_plan hfirst hsecond (by simp)
  obtain ⟨third, hplan''⟩ := next_plan hsecond hthird (by simp)
  refine ⟨[first, second, third], ?_⟩
  simp only [returning, sightings, List.map_cons, List.map_nil, plan_chain, hplan, hplan',
    hplan'', Except.ok_bind]
  rfl

theorem observed_reference (name time : String) :
    observed_keys (observed_entry name time) = [(reference name).key] := by
  rw [observed_keys, records_of, (entry_parts name time).2.1, observation_records,
    List.map_singleton, SourceRecord.entry_key (reference_wellFormed name), Json.text]

theorem returning_returns : Returns returning := by
  have hne : (reference "a").key ≠ (reference "b").key := by decide +kernel
  refine ⟨[observed_entry "a" instant], observed_entry "b" _, observed_entry "a" _, [], rfl,
    (reference "a").key, ?_⟩
  rw [observed_reference, observed_reference]
  refine ⟨List.mem_singleton_self _, by simpa using hne, _, List.mem_singleton_self _, ?_⟩
  rw [observed_reference]
  exact List.mem_singleton_self _

end Sample

open Sample in
/-- The plans of a source that samples another reference and returns to the first are
    made, and the last is refused. -/
theorem returning_not_replayed :
    ∃ plans, plan_chain Sample.now (fun _ => none) none returning = .ok plans ∧
      ¬ Replayed returning plans := by
  obtain ⟨plans, hplans⟩ := returning_planned
  refine ⟨plans, hplans, fun hreplayed => (replayed_iff ?_ hplans).mp hreplayed returning_returns⟩
  simp only [returning, sightings, List.map_cons, List.map_nil, List.forall_mem_cons,
    List.not_mem_nil, false_implies, implies_true, and_true]
  exact ⟨entry_wellFormed (by decide), entry_wellFormed (by decide), entry_wellFormed (by decide)⟩

open Sample in
theorem returning_chain_replayed :
    ∃ (entries : List Value) (plans : List Json), entries.map Value.json = returning ∧
    plan_chain Sample.now (fun _ => none) none (entries.map Value.json) = .ok plans ∧
      (Replayed (entries.map Value.json) plans ↔ ¬ Returns (entries.map Value.json)) := by
  obtain ⟨plans, hplans⟩ := returning_planned
  have hwell : ∀ name time, (name, time) ∈ sightings →
      (observed_entry name time).WellFormed := fun _ _ h =>
    entry_wellFormed h
  let entries : List Value :=
    [⟨_, hwell "a" instant (by decide)⟩, ⟨_, hwell "b" "2026-10-29T00:00:00+00:00" (by decide)⟩,
      ⟨_, hwell "a" "2026-10-30T00:00:00+00:00" (by decide)⟩]
  have hentries : entries.map Value.json = returning := rfl
  exact ⟨entries, plans, hentries, hplans,
    plan_chain_replayed Sample.now (fun _ => none) entries plans hplans⟩

end discovery
