import PepeuchCluster.Discovery.Provenance

namespace discovery

/-- What the contracts read of the description of a source. -/
structure SourceSpec where
  source : String
  entity_types : List String
  selection_modes : List String
  revision_kind : String
  revision_nullable : Bool
  configured_hosts : List String
deriving DecidableEq

def SOURCE_SPECS : List SourceSpec :=
  [⟨"models.dev", ["model_reference"], ["first_n_sorted"], "catalog_commit", false, []⟩,
    ⟨"huggingface", ["model_artifact"], ["exact_ids"], "repository_sha", true, ["huggingface.co"]⟩,
    ⟨"awesome-ai-agents", ["agent_resource"], ["first_n_unique"], "catalog_commit", false,
      ["api.github.com", "raw.githubusercontent.com"]⟩,
    ⟨"nvidia-nim-metadata", ["nim_microservice"], ["exact_tag"], "mutable_container_tag", false,
      ["api.ngc.nvidia.com"]⟩,
    ⟨"modelscope", ["model_artifact"], ["exact_ids"], "repository_sha", true,
      ["modelscope.cn", "modelscope.ai"]⟩,
    ⟨"csghub", ["model_artifact"], ["exact_ids"], "repository_sha", true, ["hub.opencsg.com"]⟩,
    ⟨"moark", ["inference_endpoint"], ["exact_ids"], "none", true, ["moark.ai"]⟩]

/-- `SOURCE_SPECS[source]`, or the refusal where it is not registered. -/
def source_spec (source : Json) (refusal : Failure) : Except Failure SourceSpec := do
  Except.require (isHashable source = true) .type_error
  match SOURCE_SPECS.find? fun spec => .str spec.source = source with
  | some spec => return spec
  | none => .error refusal

def isIdentifierChar (c : Char) : Bool := c.isAlphanum || c = '.' || c = '_' || c = '/' || c = '-'

/-- `[A-Za-z0-9][-A-Za-z0-9._/]*`, of parts that do not leave the directory. -/
def isIdentifier (text : String) : Bool :=
  text.toList.length ≤
    256 && text.toList.head?.any Char.isAlphanum && text.toList.all isIdentifierChar &&
    (text.toList.splitOn '/').all fun part => part ≠ [] && part ≠ ['.'] && part ≠ ['.', '.']

/-- `_identifier`. -/
def identifier (value : Json) : Except Failure String := do
  demand (isString value = true ∧ isIdentifier value.text = true)
    "Non-sensitive resource identifier required"
  return value.text

structure ResourceRef where
  source : String
  source_id : String
deriving DecidableEq

/-- `ResourceRef(source, source_id)`. -/
def resource_ref (source source_id : Json) : Except Failure ResourceRef := do
  let spec ← source_spec source (.value_error "Registered source required")
  return ⟨spec.source, ← identifier source_id⟩

def isTagChar (c : Char) : Bool := c.isAlphanum || c = '_' || c = '.' || c = '-'

/-- `[A-Za-z0-9_][A-Za-z0-9_.-]{0,127}`. -/
def isTag (text : String) : Bool :=
  text.toList.head?.any (fun c => c.isAlphanum || c = '_') && text.toList.all isTagChar &&
    text.toList.length ≤ 128

/-- `type(value) is int and value >= 0`. -/
def isCount : Json → Bool
  | .number (.int z) => 0 ≤ z
  | _ => false

/-- The fields of a selection of the mode. -/
def mode_fields (scope : Json) (mode : String) : Except Failure (List String) :=
  if mode = "exact_ids" then do
    let ids := elements (scope.item "ids")
    demand (isArray (scope.item "ids") = true ∧ ids ≠ [] ∧ ids.all isString = true ∧ ids.Nodup)
      "Distinct selected IDs required"
    ids.forM fun identity => do
      let _ ← identifier identity
    return ["mode", "ids"]
  else if mode = "first_n_sorted" ∨ mode = "first_n_unique" then do
    demand (isCount (scope.item "limit") = true) "Nonnegative selection limit required"
    return ["mode", "limit"]
  else do
    let _ ← identifier (scope.item "resource_id")
    demand (isString (scope.item "tag") = true ∧ isTag (scope.item "tag").text = true)
      "Container tag selection required"
    return ["mode", "resource_id", "tag"]

def endpoint_fields (spec : SourceSpec) (scope : Json) : Except Failure (List String) :=
  if spec.source = "modelscope" ∨ spec.source = "csghub" then do
    Except.require (isHashable (scope.item "endpoint") = true) .type_error
    demand
      (scope.item "endpoint" ∈ spec.configured_hosts.map fun host => Json.str ("https://" ++ host))
      "Configured metadata endpoint required"
    return ["endpoint"]
  else return []

def csghub_fields (spec : SourceSpec) (scope : Json) : Except Failure (List String) :=
  if spec.source = "csghub" then do
    demand (scope.item "source" = .str "csg" ∧ scope.item "revision_request" = .str "main")
      "Explicit CSGHub scope required"
    return ["source", "revision_request"]
  else return []

def moark_fields (spec : SourceSpec) (scope : Json) : Except Failure (List String) :=
  if spec.source = "moark" then do
    demand (scope.item "endpoint" = .str "https://moark.ai/v1" ∧
        scope.item "catalog_url" =
          .str "https://moark.ai/v1/models?type=text2text&include_details=false" ∧
        scope.item "authentication" = .str "anonymous" ∧
        (scope.item "input" = .str "synthetic_fixture" ∨ scope.item "input" = .str "public_api"))
      "Explicit MoArk scope required"
    return ["endpoint", "catalog_url", "authentication", "input"]
  else return []

section Selection

variable [Unicode]

def safe_selection (source value : Json) : Except Failure Json := do
  let spec ← source_spec source (.value_error "Registered source selection required")
  demand (isObject value = true) "Registered source selection required"
  let scope ← copy_metadata value
  demand (isString (scope.item "mode") = true ∧ (scope.item "mode").text ∈ spec.selection_modes)
    "Unsupported execution selection"
  let mode ← mode_fields scope (scope.item "mode").text
  let endpoint ← endpoint_fields spec scope
  let csghub ← csghub_fields spec scope
  let moark ← moark_fields spec scope
  demand (scope.HasKeys (mode ++ endpoint ++ csghub ++ moark))
    "Unexpected or sensitive selection fields"
  return scope

variable [Datetime]

/-- The resources that the records are of. -/
def observed_ids (records : List Json) : List String :=
  records.map fun record => (record.item "source_id").text

def validate_observation (now : Now) (source selection : Json) (resources : List ResourceRef)
    (snapshot : Json) :
    Except Failure Json := do
  let data ← copy_metadata snapshot
  let _ ← validate_snapshot now data
  Except.require
    (canonical_json (data.item "scope") = canonical_json (.dict [(source.text, selection)]))
    (.execution_error .identity)
  let spec ← source_spec source .key_error
  let records := elements (data.item "records")
  Except.require (∀ record ∈ records, record.item "source" = source ∧
    record.item "entity_type" ∈ spec.entity_types.map Json.str)
    (.execution_error .identity)
  Except.require
    (∀ record ∈ records, (record.item "source_revision" = .null → spec.revision_nullable = true) ∧
      (record.item "source_revision" ≠ .null → spec.revision_kind ≠ "none"))
    (.execution_error .invalid_schema)
  let expected := resources.map ResourceRef.source_id
  Except.require (observed_ids records ⊆ expected) (.execution_error .identity)
  Except.require (expected ⊆ observed_ids records) (.execution_error .incomplete)
  Except.require (selection.item "mode" = .str "exact_tag" →
      ∀ record ∈ records, record.item "source_revision" = selection.item "tag")
    (.execution_error .identity)
  return data

end Selection

section Checks

theorem source_spec_ok {source : Json} {refusal : Failure} {spec : SourceSpec} :
    source_spec source refusal = .ok spec ↔
      isHashable source = true ∧
      SOURCE_SPECS.find? (fun spec => .str spec.source = source) = some spec := by
  simp only [source_spec, Except.bind_eq_ok, Except.require_eq_ok]
  cases hfind : SOURCE_SPECS.find? fun spec => Json.str spec.source = source with
  | none =>
    constructor
    · rintro ⟨_, _, h⟩
      cases h
    · rintro ⟨_, h⟩
      cases h
  | some found =>
    constructor
    · rintro ⟨_, hhash, h⟩
      exact ⟨hhash, congrArg some (Except.ok.inj h)⟩
    · rintro ⟨hhash, h⟩
      exact ⟨(), hhash, congrArg Except.ok (Option.some.inj h)⟩

theorem source_spec_str {source : Json} {refusal : Failure} {spec : SourceSpec}
    (h : source_spec source refusal = .ok spec) : source = .str spec.source := by
  have hfound := List.find?_some (source_spec_ok.mp h).2
  exact (of_decide_eq_true hfound).symm

theorem identifier_ok {value : Json} {text : String} :
    identifier value = .ok text ↔ value = .str text ∧ isIdentifier text = true := by
  simp only [identifier, Except.bind_eq_ok, Except.pure_eq_ok, demand_eq_ok]
  constructor
  · rintro ⟨_, ⟨hstring, hidentifier⟩, rfl⟩
    exact ⟨isString_text hstring, hidentifier⟩
  · rintro ⟨rfl, hidentifier⟩
    exact ⟨(), ⟨rfl, hidentifier⟩, rfl⟩

theorem resource_ref_ok {source source_id : Json} {ref : ResourceRef}
    (h : resource_ref source source_id = .ok ref) :
    source = .str ref.source ∧ source_id = .str ref.source_id := by
  simp only [resource_ref, Except.bind_eq_ok, Except.pure_eq_ok, identifier_ok] at h
  obtain ⟨spec, hspec, id, ⟨hid, _⟩, rfl⟩ := h
  exact ⟨source_spec_str hspec, hid⟩

variable {scope : Json} {mode : String} {names : List String} {spec : SourceSpec}

/-- Each field of a selection holds a text, a list of texts or an integer. -/
theorem mode_fields_discrete (hmode : isString (scope.item "mode") = true)
    (h : mode_fields scope mode = .ok names) :
    ∀ name ∈ names, (scope.item name).Discrete := by
  have hdiscrete : (scope.item "mode").Discrete := by
    rw [isString_text hmode]
    trivial
  unfold mode_fields at h
  split at h
  · simp only [Except.bind_eq_ok, Except.pure_eq_ok, demand_eq_ok] at h
    obtain ⟨_, ⟨harray, _, hstrings, _⟩, _, _, rfl⟩ := h
    refine List.forall_mem_cons.mpr ⟨hdiscrete, List.forall_mem_singleton.mpr ?_⟩
    cases hids : scope.item "ids" with
    | arr ids =>
      rw [hids] at hstrings
      refine Json.discreteItems_iff.mpr fun identity hidentity => ?_
      rw [isString_text (List.all_eq_true.mp hstrings identity hidentity)]
      trivial
    | _ => simp [hids, isArray] at harray
  · split at h
    · simp only [Except.bind_eq_ok, Except.pure_eq_ok, demand_eq_ok] at h
      obtain ⟨_, hcount, rfl⟩ := h
      refine List.forall_mem_cons.mpr ⟨hdiscrete, List.forall_mem_singleton.mpr ?_⟩
      cases hlimit : scope.item "limit" with
      | number n =>
        cases n with
        | int z => trivial
        | float x => simp [hlimit, isCount] at hcount
      | _ => simp [hlimit, isCount] at hcount
    · simp only [Except.bind_eq_ok, Except.pure_eq_ok, demand_eq_ok, identifier_ok] at h
      obtain ⟨_, ⟨hresource, _⟩, _, ⟨htag, _⟩, rfl⟩ := h
      refine List.forall_mem_cons.mpr
        ⟨hdiscrete, List.forall_mem_cons.mpr ⟨?_, List.forall_mem_singleton.mpr ?_⟩⟩
      · rw [hresource]
        trivial
      · rw [isString_text htag]
        trivial

theorem endpoint_fields_discrete (h : endpoint_fields spec scope = .ok names) :
    ∀ name ∈ names, (scope.item name).Discrete := by
  unfold endpoint_fields at h
  split at h
  · simp only [Except.bind_eq_ok, Except.pure_eq_ok, demand_eq_ok] at h
    obtain ⟨_, _, _, hendpoint, rfl⟩ := h
    obtain ⟨host, _, hhost⟩ := List.mem_map.mp hendpoint
    rw [List.forall_mem_singleton, ← hhost]
    trivial
  · obtain rfl := Except.pure_eq_ok.mp h
    exact List.forall_mem_nil _

theorem csghub_fields_discrete (h : csghub_fields spec scope = .ok names) :
    ∀ name ∈ names, (scope.item name).Discrete := by
  unfold csghub_fields at h
  split at h
  · simp only [Except.bind_eq_ok, Except.pure_eq_ok, demand_eq_ok] at h
    obtain ⟨_, ⟨hsource, hrevision⟩, rfl⟩ := h
    refine List.forall_mem_cons.mpr ⟨?_, List.forall_mem_singleton.mpr ?_⟩
    · rw [hsource]
      trivial
    · rw [hrevision]
      trivial
  · obtain rfl := Except.pure_eq_ok.mp h
    exact List.forall_mem_nil _

theorem moark_fields_discrete (h : moark_fields spec scope = .ok names) :
    ∀ name ∈ names, (scope.item name).Discrete := by
  unfold moark_fields at h
  split at h
  · simp only [Except.bind_eq_ok, Except.pure_eq_ok, demand_eq_ok] at h
    obtain ⟨_, ⟨hendpoint, hcatalog, hauthentication, hinput⟩, rfl⟩ := h
    simp only [List.forall_mem_cons, hendpoint, hcatalog, hauthentication, Json.Discrete, true_and]
    refine ⟨?_, List.forall_mem_nil _⟩
    rcases hinput with hinput | hinput <;> rw [hinput] <;> trivial
  · obtain rfl := Except.pure_eq_ok.mp h
    exact List.forall_mem_nil _

/-- A selection is copied as it is, and compares equal to no other. -/
theorem safe_selection_ok [Unicode] {source value result : Json} (hvalue : value.WellFormed)
    (h : safe_selection source value = .ok result) :
    result = value ∧ value.Discrete ∧ Plain value := by
  simp only [safe_selection, Except.bind_eq_ok, Except.pure_eq_ok, demand_eq_ok,
    copy_metadata_eq_ok hvalue] at h
  obtain ⟨spec, _, _, _, _, ⟨hplain, rfl⟩, _, ⟨hmode, _⟩, mode, hfields, endpoint, hendpoint,
    csghub, hcsghub, moark, hmoark, _, hkeys, rfl⟩ := h
  refine ⟨rfl, hkeys.discrete hvalue fun name hname => ?_, hplain⟩
  rcases List.mem_append.mp hname with hname | hname
  · rcases List.mem_append.mp hname with hname | hname
    · rcases List.mem_append.mp hname with hname | hname
      · exact mode_fields_discrete hmode hfields name hname
      · exact endpoint_fields_discrete hendpoint name hname
    · exact csghub_fields_discrete hcsghub name hname
  · exact moark_fields_discrete hmoark name hname

end Checks

end discovery
