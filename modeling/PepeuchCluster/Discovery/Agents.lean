import PepeuchCluster.Discovery.Validation

namespace discovery

def isBoolean : Json → Bool
  | .bool _ => true
  | _ => false

/-- `object_value`. -/
def object_value (value : Json) (field : String) : Except Failure Json := do
  demand (isObject value = true) (field ++ " must be an object")
  return value

/-- `nonempty_string`. -/
def nonempty_string (value : Json) (field : String) : Except Failure Json := do
  demand (isNonblank value = true) (field ++ " must be a nonempty string")
  return value

/-- `_optional_string`. -/
def optional_string (value : Json) (field : String) : Except Failure Json :=
  if value = .null then return .null else nonempty_string value field

/-- `_optional_strings`. -/
def optional_strings (value : Json) (field : String) : Except Failure Json :=
  if value = .null then return .null
  else do
    demand (isArray value = true) (field ++ " must be a list of strings")
    return .arr (← (elements value).mapM fun item => nonempty_string item field)

/-- `[0-9a-f]{40}`. -/
def isCommit (text : String) : Bool := text.toList.length = 40 && text.toList.all Sha256.isHex

/-- One turn of the loop over `raw_sources`. -/
def add_url (urls : List Json) (item : Json) : Except Failure (List Json) := do
  let source ← object_value item "sources[]"
  let url := source.item "source_url"
  if url = .null then return urls
  else return urls ++ [← nonempty_string url "sources[].source_url"]

/-- The `source_urls` and the `source_count` of `raw_sources`. -/
def source_urls (raw_sources : Json) : Except Failure (Json × Json) :=
  if raw_sources = .null then return (.null, .null)
  else do
    demand (isArray raw_sources = true) "sources must be a list"
    let urls ← (elements raw_sources).foldlM add_url []
    return (.arr urls, .number (.int (elements raw_sources).length))

section Records

variable [Unicode]

/-- `__post_init__`: a record owns its nested data. -/
def SourceRecord.post_init (record : SourceRecord) : Except Failure SourceRecord := do
  let attributes ← copy_metadata record.attributes
  let relationships ← copy_metadata (.arr record.relationships)
  let raw_metadata ← copy_metadata record.raw_metadata
  return { record with attributes, relationships := elements relationships, raw_metadata }

def normalize_awesome_agent (data source_commit : Json) : Except Failure SourceRecord := do
  let data ← object_value data "awesome agent"
  let revision ← nonempty_string source_commit "source_commit"
  demand (isCommit revision.text = true) "source_commit must be a pinned lowercase Git SHA-1"
  let agent_id ← nonempty_string (data.item "id") "id"
  let project ← nonempty_string (data.item "project") "project"
  let categories ← optional_strings (data.item "categories") "categories"
  let (urls, count) ← source_urls (data.item "sources")
  let is_public := data.item "has_public_repository"
  demand (is_public = .null ∨ isBoolean is_public = true)
    "has_public_repository must be a boolean or null"
  let description ← optional_string (data.item "project_description") "project_description"
  SourceRecord.post_init {
    source := .str "awesome-ai-agents"
    source_id := agent_id
    source_revision := revision
    entity_type := .str "agent_resource"
    display_name := project
    attributes := .dict [("description", description), ("categories", categories),
      ("has_public_repository", is_public), ("source_urls", urls), ("source_count", count)]
    relationships := []
    raw_metadata := data }

/-- One turn of the loop over the agents, with the records by their `source_id`. -/
def add_agent (source_commit : Json) (unique : List (String × SourceRecord)) (agent : Json) :
    Except Failure (List (String × SourceRecord)) := do
  let record ← normalize_awesome_agent agent source_commit
  match unique.lookup record.source_id.text with
  | some prior => do
    demand (prior.raw_metadata.equal record.raw_metadata = true)
      ("awesome catalog has conflicting agent ID: " ++ record.source_id.text)
    return unique
  | none => return unique ++ [(record.source_id.text, record)]

def normalize_awesome_catalog (data source_commit : Json) : Except Failure (List SourceRecord) := do
  let catalog ← object_value data "awesome catalog"
  let agents := catalog.item "agents"
  demand (isArray agents = true) "awesome catalog requires an agents list"
  let unique ← (elements agents).foldlM (add_agent source_commit) []
  return unique.map Prod.snd

end Records

/-- The agents of a catalog. -/
def agents_of (data : Json) : List Json := elements (data.item "agents")

/-- The links that sources give. -/
def links (sources : List Json) : List Json :=
  (sources.map (Json.item "source_url")).filter (· ≠ .null)

/-- The links and the number of the sources, where there is a list of them. -/
def sourced (raw_sources : Json) : Json × Json :=
  if raw_sources = .null then (.null, .null)
  else (.arr (links (elements raw_sources)), .number (.int (elements raw_sources).length))

/-- The `attributes` of an agent. -/
def agent_attributes (data : Json) : Json :=
  .dict [("description", data.item "project_description"), ("categories", data.item "categories"),
    ("has_public_repository", data.item "has_public_repository"),
      ("source_urls", (sourced (data.item "sources")).1),
    ("source_count", (sourced (data.item "sources")).2)]

/-- The record of an agent of the pinned catalog. -/
def agent_record (source_commit data : Json) : SourceRecord where
  source := .str "awesome-ai-agents"
  source_id := data.item "id"
  source_revision := source_commit
  entity_type := .str "agent_resource"
  display_name := data.item "project"
  attributes := agent_attributes data
  relationships := []
  raw_metadata := data

section Checks

variable {value result : Json} {field : String}

theorem object_value_ok : object_value value field = .ok result ↔
    isObject value = true ∧ value = result := by
  simp only [object_value, Except.bind_eq_ok, Except.pure_eq_ok, demand_eq_ok]
  constructor
  · rintro ⟨_, h⟩
    exact h
  · exact fun h => ⟨(), h⟩

theorem nonempty_string_ok : nonempty_string value field = .ok result ↔ isNonblank value = true ∧
    result = value := by
  simp only [nonempty_string, Except.bind_eq_ok, Except.pure_eq_ok, demand_eq_ok, @eq_comm _ value]
  constructor
  · rintro ⟨_, h⟩
    exact h
  · exact fun h => ⟨(), h⟩

theorem optional_string_ok : optional_string value field = .ok result ↔
    (value = .null ∨ isNonblank value = true) ∧ result = value := by
  unfold optional_string
  split
  · next hnull => simp [Except.pure_eq_ok, hnull, @eq_comm _ _ result]
  · next hgiven => simp [nonempty_string_ok, hgiven]

/-- A list whose items are all nonempty strings. -/
def Strings (value : Json) : Prop :=
  isArray value = true ∧ ∀ item ∈ elements value, isNonblank item = true

theorem optional_strings_ok : optional_strings value field = .ok result ↔
    (value = .null ∨ Strings value) ∧ result = value := by
  unfold optional_strings
  split
  · next hnull => simp [Except.pure_eq_ok, hnull, @eq_comm _ _ result]
  · next hgiven =>
    simp only [Except.bind_eq_ok, Except.pure_eq_ok, demand_eq_ok, Except.mapM_eq_ok,
      nonempty_string_ok, hgiven, false_or]
    cases value with
    | arr items =>
      constructor
      · rintro ⟨_, harray, others, hitems, rfl⟩
        have hsame : items = others := by
          refine List.forall₂_eq_eq_eq ▸ hitems.imp fun item other h => h.2.symm
        subst hsame
        exact ⟨⟨harray, List.forall₂_same.mp (hitems.imp fun _ _ h => h.1)⟩, rfl⟩
      · rintro ⟨⟨harray, hitems⟩, rfl⟩
        exact ⟨(), harray, items,
          List.forall₂_same.mpr fun item hitem => ⟨hitems item hitem, rfl⟩, rfl⟩
    | _ => simp [isArray, Strings]

/-- A source is an object whose link, if any, is a nonempty string. -/
def Link (source : Json) : Prop :=
  isObject source = true ∧
    (source.item "source_url" = .null ∨ isNonblank (source.item "source_url") = true)

theorem add_url_ok {urls urls' : List Json} {source : Json} : add_url urls source = .ok urls' ↔
    Link source ∧ urls' = urls ++ [source.item "source_url"].filter (· ≠ .null) := by
  simp only [add_url, Except.bind_eq_ok, object_value_ok]
  constructor
  · rintro ⟨_, ⟨hobject, rfl⟩, h⟩
    split at h
    · next hnull =>
      obtain rfl := Except.pure_eq_ok.mp h
      exact ⟨⟨hobject, .inl hnull⟩, by simp [hnull]⟩
    · next hgiven =>
      simp only [Except.bind_eq_ok, Except.pure_eq_ok, nonempty_string_ok] at h
      obtain ⟨_, ⟨htext, rfl⟩, rfl⟩ := h
      exact ⟨⟨hobject, .inr htext⟩, by simp [hgiven]⟩
  · rintro ⟨⟨hobject, hlink⟩, rfl⟩
    refine ⟨source, ⟨hobject, rfl⟩, ?_⟩
    split
    · next hnull => simp [hnull, Except.pure_eq_ok]
    · next hgiven =>
      simp only [Except.bind_eq_ok, Except.pure_eq_ok, nonempty_string_ok]
      exact ⟨_, ⟨hlink.resolve_left hgiven, rfl⟩, by simp [hgiven]⟩

theorem add_urls_ok {sources : List Json} :
    ∀ {urls urls' : List Json}, sources.foldlM add_url urls = .ok urls' ↔
    (∀ source ∈ sources, Link source) ∧
      urls' = urls ++ links sources := by
  induction sources with
  | nil => simp [links, Except.pure_eq_ok, @eq_comm (List Json)]
  | cons source sources ih =>
    intro urls urls'
    have hlinks : links (source :: sources) =
        [source.item "source_url"].filter (· ≠ .null) ++ links sources := by
      rw [links, links, ← List.filter_append]
      rfl
    simp only [List.foldlM_cons, Except.bind_eq_ok, add_url_ok, ih, List.forall_mem_cons]
    constructor
    · rintro ⟨_, ⟨hlink, rfl⟩, hrest, rfl⟩
      exact ⟨⟨hlink, hrest⟩, by rw [hlinks, List.append_assoc]⟩
    · rintro ⟨⟨hlink, hrest⟩, rfl⟩
      exact ⟨_, ⟨hlink, rfl⟩, hrest, by rw [hlinks, List.append_assoc]⟩

theorem source_urls_ok {sources : Json} {urls : Json × Json} : source_urls sources = .ok urls ↔
    (sources = .null ∨ isArray sources = true ∧ ∀ source ∈ elements sources, Link source) ∧
    urls = sourced sources := by
  unfold source_urls sourced
  split
  · next hnull => simp [Except.pure_eq_ok, hnull, @eq_comm _ _ urls]
  · next hgiven =>
    simp only [Except.bind_eq_ok, Except.pure_eq_ok, demand_eq_ok, add_urls_ok, hgiven, false_or,
      List.nil_append]
    constructor
    · rintro ⟨_, harray, _, ⟨hlinks, rfl⟩, rfl⟩
      exact ⟨⟨harray, hlinks⟩, rfl⟩
    · rintro ⟨⟨harray, hlinks⟩, rfl⟩
      exact ⟨(), harray, _, ⟨hlinks, rfl⟩, rfl⟩

theorem sourced_wellFormed {sources : Json} (h : sources.WellFormed) :
    (sourced sources).1.WellFormed ∧ (sourced sources).2.WellFormed := by
  unfold sourced
  split
  · exact ⟨trivial, trivial⟩
  · refine ⟨Json.arr_wellFormed fun link hlink => ?_, trivial⟩
    obtain ⟨source, hsource, rfl⟩ := List.mem_map.mp (List.mem_filter.mp hlink).1
    exact (Json.wellFormedItems_iff.mp (elements_wellFormed h) source hsource).item _

theorem agent_attributes_wellFormed {agent : Json} (h : agent.WellFormed) :
    (agent_attributes agent).WellFormed := by
  refine Json.dict_wellFormed (by simp) ?_
  simp only [List.forall_mem_cons, List.not_mem_nil, false_implies, implies_true, and_true]
  exact ⟨h.item _, h.item _, h.item _, (sourced_wellFormed (h.item _)).1,
    (sourced_wellFormed (h.item _)).2⟩

theorem agents_of_wellFormed {data : Json} (h : data.WellFormed) :
    ∀ agent ∈ agents_of data, agent.WellFormed :=
  Json.wellFormedItems_iff.mp (elements_wellFormed (h.item _))

end Checks

section Agents

variable [Unicode] {source_commit agent : Json} {record : SourceRecord}

/-- What `normalize_awesome_agent` checks of an agent. -/
structure Readable (source_commit agent : Json) : Prop where
  object : isObject agent = true
  pinned : isNonblank source_commit = true ∧ isCommit source_commit.text = true
  id : isNonblank (agent.item "id") = true
  project : isNonblank (agent.item "project") = true
  categories : agent.item "categories" = .null ∨ Strings (agent.item "categories")
  sources : agent.item "sources" = .null ∨
    isArray (agent.item "sources") = true ∧ ∀ source ∈ elements (agent.item "sources"), Link source
  is_public : agent.item "has_public_repository" = .null ∨
    isBoolean (agent.item "has_public_repository") = true
  description : agent.item "project_description" = .null ∨
    isNonblank (agent.item "project_description") = true
  attributes : Plain (agent_attributes agent)
  plain : Plain agent

theorem post_init_ok {result : SourceRecord} (hattributes : record.attributes.WellFormed)
    (hrelationships : (Json.arr record.relationships).WellFormed)
    (hraw : record.raw_metadata.WellFormed) :
    record.post_init = .ok result ↔ (Plain record.attributes ∧ Plain (.arr record.relationships) ∧
      Plain record.raw_metadata) ∧ result = record := by
  simp only [SourceRecord.post_init, Except.bind_eq_ok, Except.pure_eq_ok,
    copy_metadata_eq_ok hattributes, copy_metadata_eq_ok hrelationships, copy_metadata_eq_ok hraw]
  constructor
  · rintro ⟨_, ⟨hattributes, rfl⟩, _, ⟨hrelationships, rfl⟩, _, ⟨hraw, rfl⟩, rfl⟩
    exact ⟨⟨hattributes, hrelationships, hraw⟩, rfl⟩
  · rintro ⟨⟨hattributes, hrelationships, hraw⟩, rfl⟩
    exact ⟨_, ⟨hattributes, rfl⟩, _, ⟨hrelationships, rfl⟩, _, ⟨hraw, rfl⟩, rfl⟩

/-- An agent that is read has its own data in the record, links and number of sources included. -/
theorem normalize_awesome_agent_ok (h : agent.WellFormed) :
    normalize_awesome_agent agent source_commit = .ok record ↔
      Readable source_commit agent ∧ record = agent_record source_commit agent := by
  have hattributes := agent_attributes_wellFormed h
  have hrelationships : (Json.arr []).WellFormed := Json.arr_wellFormed (List.forall_mem_nil _)
  have hinit :=
    @post_init_ok _ (agent_record source_commit agent) record hattributes hrelationships h
  simp only [normalize_awesome_agent, Except.bind_eq_ok, object_value_ok,
    nonempty_string_ok, demand_eq_ok, optional_strings_ok, source_urls_ok, optional_string_ok]
  constructor
  · rintro ⟨_, ⟨hobject, rfl⟩, _, ⟨htext, rfl⟩, _, hcommit, _, ⟨hid, rfl⟩, _, ⟨hproject, rfl⟩, _,
      ⟨hcategories, rfl⟩, _, ⟨hsources, rfl⟩, _, hpublic, _, ⟨hdescription, rfl⟩, hrecord⟩
    obtain ⟨⟨hplain, _, hraw⟩, rfl⟩ := hinit.mp hrecord
    exact ⟨⟨hobject, ⟨htext, hcommit⟩, hid, hproject, hcategories, hsources, hpublic, hdescription,
      hplain, hraw⟩, rfl⟩
  · rintro ⟨⟨hobject, ⟨htext, hcommit⟩, hid, hproject, hcategories, hsources, hpublic, hdescription,
      hplain, hraw⟩, hrecord⟩
    have hlists : Plain (.arr []) := plain_arr (List.forall_mem_nil _)
    exact ⟨agent, ⟨hobject, rfl⟩, _, ⟨htext, rfl⟩, (), hcommit, _, ⟨hid, rfl⟩, _, ⟨hproject, rfl⟩,
      _, ⟨hcategories, rfl⟩, _, ⟨hsources, rfl⟩, (), hpublic, _, ⟨hdescription, rfl⟩,
        hinit.mpr ⟨⟨hplain, hlists, hraw⟩, hrecord⟩⟩

end Agents

section Catalog

variable {source_commit agent : Json} {agents seen : List Json}
  {unique result : List (String × SourceRecord)}

/-- The dictionary of records after some agents: each identity has the record of an agent, and
    every agent compares equal to the one that is kept for it. -/
structure Firsts (source_commit : Json) (seen : List Json)
    (unique : List (String × SourceRecord)) : Prop where
  keys : (unique.map Prod.fst).Nodup
  listed : ∀ pair ∈ unique, ∃ agent ∈ seen,
    pair = ((agent.item "id").text, agent_record source_commit agent)
  covers : ∀ agent ∈ seen, ∃ first ∈ seen, (first.item "id").text = (agent.item "id").text ∧
    ((first.item "id").text, agent_record source_commit first) ∈ unique ∧ first.equal agent = true

theorem Firsts.nil : Firsts source_commit [] [] :=
  ⟨List.nodup_nil, List.forall_mem_nil _, List.forall_mem_nil _⟩

variable [Unicode]

theorem add_agent_ok (h : agent.WellFormed) : add_agent source_commit unique agent = .ok result ↔
    Readable source_commit agent ∧
      ((∃ prior, unique.lookup (agent.item "id").text = some prior ∧
        prior.raw_metadata.equal agent = true ∧
          result = unique) ∨
        unique.lookup (agent.item "id").text = none ∧
          result = unique ++ [((agent.item "id").text, agent_record source_commit agent)]) := by
  simp only [add_agent, Except.bind_eq_ok, normalize_awesome_agent_ok h]
  constructor
  · rintro ⟨_, ⟨hreadable, rfl⟩, hadded⟩
    refine ⟨hreadable, ?_⟩
    split at hadded
    · next prior hlookup =>
      simp only [Except.bind_eq_ok, Except.pure_eq_ok, demand_eq_ok] at hadded
      obtain ⟨_, hequal, rfl⟩ := hadded
      exact .inl ⟨prior, hlookup, hequal, rfl⟩
    · next hlookup => exact .inr ⟨hlookup, (Except.pure_eq_ok.mp hadded).symm⟩
  · rintro ⟨hreadable, ⟨prior, hlookup, hequal, rfl⟩ | ⟨hlookup, rfl⟩⟩
    · refine ⟨_, ⟨hreadable, rfl⟩, ?_⟩
      rw [agent_record, hlookup]
      simp only [Except.bind_eq_ok, Except.pure_eq_ok, demand_eq_ok]
      exact ⟨(), hequal, trivial⟩
    · refine ⟨_, ⟨hreadable, rfl⟩, ?_⟩
      rw [agent_record, hlookup]
      rfl

/-- One agent more: the first of its identity is added, another one has to equal the first. -/
theorem Firsts.add (h : Firsts source_commit seen unique) (hagent : agent.WellFormed)
    (hadded : add_agent source_commit unique agent = .ok result) :
    Firsts source_commit (seen ++ [agent]) result := by
  obtain ⟨_, ⟨prior, hlookup, hequal, rfl⟩ | ⟨hlookup, rfl⟩⟩ := (add_agent_ok hagent).mp hadded
  · refine ⟨h.keys, fun pair hpair => ?_, List.forall_mem_append.mpr ⟨fun other hother => ?_,
      List.forall_mem_singleton.mpr ?_⟩⟩
    · obtain ⟨owner, howner, hpair⟩ := h.listed pair hpair
      exact ⟨owner, List.mem_append_left _ howner, hpair⟩
    · obtain ⟨first, hfirst, hrest⟩ := h.covers other hother
      exact ⟨first, List.mem_append_left _ hfirst, hrest⟩
    · have hmem := mem_of_lookup hlookup
      obtain ⟨owner, howner, hpair⟩ := h.listed _ hmem
      obtain ⟨hid, rfl⟩ := Prod.mk.inj hpair
      exact ⟨owner, List.mem_append_left _ howner, hid.symm, hid ▸ hmem, hequal⟩
  · have habsent : (agent.item "id").text ∉ unique.map Prod.fst := fun hmem => by
      obtain ⟨pair, hpair, hid⟩ := List.mem_map.mp hmem
      have hfound := List.lookup_eq_none_iff.mp hlookup pair hpair
      simp [hid] at hfound
    refine ⟨?_, List.forall_mem_append.mpr
      ⟨fun pair hpair => ?_, List.forall_mem_singleton.mpr ⟨agent, by simp, rfl⟩⟩,
      List.forall_mem_append.mpr ⟨fun other hother => ?_, List.forall_mem_singleton.mpr ?_⟩⟩
    · rw [List.map_append, List.map_singleton]
      exact List.nodup_append'.mpr
        ⟨h.keys, List.nodup_singleton _, List.disjoint_singleton.mpr habsent⟩
    · obtain ⟨owner, howner, hpair⟩ := h.listed pair hpair
      exact ⟨owner, List.mem_append_left _ howner, hpair⟩
    · obtain ⟨first, hfirst, hid, hmem, hequal⟩ := h.covers other hother
      exact ⟨first, List.mem_append_left _ hfirst, hid, List.mem_append_left _ hmem, hequal⟩
    · exact ⟨agent, by simp, rfl, by simp, Json.equal_refl _⟩

theorem add_agents_ok (hagents : ∀ agent ∈ agents, agent.WellFormed)
    (h : Firsts source_commit seen unique)
    (hadded : agents.foldlM (add_agent source_commit) unique = .ok result) :
    Firsts source_commit (seen ++ agents) result ∧ ∀ agent ∈ agents,
      Readable source_commit agent := by
  induction agents generalizing seen unique with
  | nil =>
    obtain rfl := Except.ok.inj hadded
    exact ⟨by rwa [List.append_nil], List.forall_mem_nil _⟩
  | cons agent rest ih =>
    obtain ⟨hagent, hrest⟩ := List.forall_mem_cons.mp hagents
    rw [List.foldlM_cons, Except.bind_eq_ok] at hadded
    obtain ⟨next, hnext, hadded⟩ := hadded
    obtain ⟨hfirsts, hreadable⟩ := ih hrest (h.add hagent hnext) hadded
    rw [List.append_assoc] at hfirsts
    exact ⟨hfirsts, List.forall_mem_cons.mpr ⟨((add_agent_ok hagent).mp hnext).1, hreadable⟩⟩

/-- The loop goes through where agents of one identity all compare equal. -/
theorem add_agents_total
    (hagents : ∀ agent ∈ agents, agent.WellFormed ∧ Readable source_commit agent)
    (h : Firsts source_commit seen unique)
    (hequal : ∀ first ∈ seen ++ agents, ∀ second ∈ seen ++ agents,
      (first.item "id").text = (second.item "id").text → first.equal second = true) :
    ∃ result, agents.foldlM (add_agent source_commit) unique = .ok result := by
  induction agents generalizing seen unique with
  | nil => exact ⟨unique, rfl⟩
  | cons agent rest ih =>
    obtain ⟨⟨hagent, hreadable⟩, hrest⟩ := List.forall_mem_cons.mp hagents
    have hshape : seen ++ agent :: rest = (seen ++ [agent]) ++ rest := by simp
    have hnext : ∃ next, add_agent source_commit unique agent = .ok next := by
      cases hlookup : unique.lookup (agent.item "id").text with
      | none => exact ⟨_, (add_agent_ok hagent).mpr ⟨hreadable, .inr ⟨hlookup, rfl⟩⟩⟩
      | some prior =>
        obtain ⟨owner, howner, hpair⟩ := h.listed _ (mem_of_lookup hlookup)
        obtain ⟨hid, rfl⟩ := Prod.mk.inj hpair
        refine ⟨unique, (add_agent_ok hagent).mpr ⟨hreadable, .inl ⟨_, hlookup, ?_, rfl⟩⟩⟩
        exact hequal owner (by simp [howner]) agent (by simp) hid.symm
    obtain ⟨next, hnext⟩ := hnext
    obtain ⟨result, hresult⟩ := ih hrest (h.add hagent hnext) (hshape ▸ hequal)
    exact ⟨result, by rw [List.foldlM_cons, hnext, Except.ok_bind, hresult]⟩

/-- What the normalization of a catalog checks. -/
structure Catalogued (source_commit data : Json) : Prop where
  object : isObject data = true
  array : isArray (data.item "agents") = true
  readable : ∀ agent ∈ agents_of data, Readable source_commit agent
  equal : ∀ first ∈ agents_of data, ∀ second ∈ agents_of data, first.item "id" = second.item "id" →
    first.equal second = true

theorem normalize_awesome_catalog_ok {data : Json} {records : List SourceRecord}
    (h : data.WellFormed) (hok : normalize_awesome_catalog data source_commit = .ok records) :
    Catalogued source_commit data ∧
      ∃ unique, Firsts source_commit (agents_of data) unique ∧ records = unique.map Prod.snd := by
  simp only [normalize_awesome_catalog, Except.bind_eq_ok, Except.pure_eq_ok, object_value_ok,
    demand_eq_ok] at hok
  obtain ⟨_, ⟨hobject, rfl⟩, _, harray, unique, hadded, rfl⟩ := hok
  have hadded : (agents_of data).foldlM (add_agent source_commit) [] = .ok unique := hadded
  obtain ⟨hfirsts, hreadable⟩ := add_agents_ok (agents_of_wellFormed h) Firsts.nil hadded
  rw [List.nil_append] at hfirsts
  refine ⟨⟨hobject, harray, hreadable, fun first hfirst second hsecond hid => ?_⟩,
    unique, hfirsts, rfl⟩
  -- both compare equal to the agent that is kept for their identity
  obtain ⟨kept, _, hkept, hmem, hequal⟩ := hfirsts.covers first hfirst
  obtain ⟨kept', _, hkept', hmem', hequal'⟩ := hfirsts.covers second hsecond
  have hsame : (kept.item "id").text = (kept'.item "id").text := by rw [hkept, hkept', hid]
  have hrecord :=
    (lookup_of_mem hfirsts.keys hmem).symm.trans (hsame ▸ lookup_of_mem hfirsts.keys hmem')
  obtain rfl : kept = kept' := congrArg SourceRecord.raw_metadata (Option.some.inj hrecord)
  exact Json.equal_trans (Json.equal_symm hequal) hequal'

theorem Catalogued.accepted {data : Json} (hdata : data.WellFormed)
    (h : Catalogued source_commit data) :
    ∃ records, normalize_awesome_catalog data source_commit = .ok records := by
  have hagents : ∀ agent ∈ agents_of data, agent.WellFormed ∧ Readable source_commit agent :=
    fun agent hagent => ⟨agents_of_wellFormed hdata agent hagent, h.readable agent hagent⟩
  obtain ⟨unique, hunique⟩ :=
      add_agents_total hagents Firsts.nil fun first hfirst second hsecond hid => by
    rw [List.nil_append] at hfirst hsecond
    refine h.equal first hfirst second hsecond ?_
    rw [isNonblank_text (h.readable first hfirst).id,
      isNonblank_text (h.readable second hsecond).id, hid]
  refine ⟨unique.map Prod.snd, ?_⟩
  simp only [normalize_awesome_catalog, Except.bind_eq_ok, Except.pure_eq_ok,
    object_value_ok, demand_eq_ok]
  exact ⟨data, ⟨h.object, rfl⟩, (), h.array, unique, hunique, rfl⟩

/-- The identities of the records are distinct, and all those of the agents. -/
theorem Firsts.ids {data : Json} (h : Firsts source_commit (agents_of data) unique)
    (hdata : Catalogued source_commit data) :
    ((unique.map Prod.snd).map SourceRecord.source_id).Nodup ∧
      ∀ agent ∈ agents_of data,
        agent.item "id" ∈ (unique.map Prod.snd).map SourceRecord.source_id := by
  have hids : (unique.map Prod.snd).map SourceRecord.source_id =
      (unique.map Prod.fst).map Json.str := by
    rw [List.map_map, List.map_map]
    refine List.map_congr_left fun pair hpair => ?_
    obtain ⟨agent, hagent, rfl⟩ := h.listed pair hpair
    exact isNonblank_text (hdata.readable agent hagent).id
  rw [hids]
  refine ⟨h.keys.map fun _ _ => Json.str.inj, fun agent hagent => ?_⟩
  obtain ⟨first, _, hid, hmem, _⟩ := h.covers agent hagent
  rw [isNonblank_text (hdata.readable agent hagent).id, ← hid]
  exact List.mem_map_of_mem (List.mem_map_of_mem hmem)

/-- Agents of one identity have one canonical text. -/
def Uniform (agents : List Json) : Prop :=
  ∀ first ∈ agents, ∀ second ∈ agents, first.item "id" = second.item "id" →
    canonical_json first = canonical_json second

/-- The records are those of the agents, where none hides another one. -/
theorem Firsts.records {data : Json} (h : Firsts source_commit (agents_of data) unique)
    (hdata : data.WellFormed) (hreadable : ∀ agent ∈ agents_of data, Readable source_commit agent)
    (huniform : Uniform (agents_of data)) (record : SourceRecord) :
    record ∈ unique.map Prod.snd ↔
      ∃ agent ∈ agents_of data, record = agent_record source_commit agent := by
  constructor
  · intro hrecord
    obtain ⟨pair, hpair, rfl⟩ := List.mem_map.mp hrecord
    obtain ⟨agent, hagent, rfl⟩ := h.listed pair hpair
    exact ⟨agent, hagent, rfl⟩
  · rintro ⟨agent, hagent, rfl⟩
    obtain ⟨first, hfirst, hid, hmem, _⟩ := h.covers agent hagent
    have hid : first.item "id" = agent.item "id" := by
      rw [isNonblank_text (hreadable first hfirst).id,
        isNonblank_text (hreadable agent hagent).id, hid]
    have hwell := agents_of_wellFormed hdata
    obtain rfl := canonical_json_injective (hwell first hfirst) (hwell agent hagent)
      (huniform first hfirst agent hagent hid)
    exact List.mem_map_of_mem hmem

theorem agent_record_wellFormed (hreadable : Readable source_commit agent) (h : agent.WellFormed) :
    (agent_record source_commit agent).payload.WellFormed := by
  refine Json.dict_wellFormed (by simp) ?_
  simp only [List.forall_mem_cons, List.not_mem_nil, false_implies, implies_true, and_true]
  refine ⟨trivial, trivial, h.item _, ?_, h.item _, agent_attributes_wellFormed h,
    Json.arr_wellFormed (List.forall_mem_nil _), h⟩
  have hcommit : source_commit = .str source_commit.text := isNonblank_text hreadable.pinned.1
  rw [agent_record, hcommit]
  trivial

/-- What the records of a catalog are, whatever the order and the repetitions of its agents. -/
structure Deduplicates [Datetime] (source_commit : Json) (data : Value) : Prop where
  covers : ∀ records, normalize_awesome_catalog data.json source_commit = .ok records →
    (records.map SourceRecord.source_id).Nodup ∧
      ∀ agent ∈ agents_of data.json, agent.item "id" ∈ records.map SourceRecord.source_id
  refuses : ∀ first ∈ agents_of data.json, ∀ second ∈ agents_of data.json,
    first.item "id" = second.item "id" → canonical_json first ≠ canonical_json second →
      ∀ records, normalize_awesome_catalog data.json source_commit ≠ .ok records
  independent : ∀ records, normalize_awesome_catalog data.json source_commit = .ok records →
    ∀ other : Value, isObject other.json = true → isArray (other.json.item "agents") = true →
      (∀ agent, agent ∈ agents_of other.json ↔ agent ∈ agents_of data.json) →
      ∃ others, normalize_awesome_catalog other.json source_commit = .ok others ∧
        (∀ record, record ∈ others ↔ record ∈ records) ∧
        ∀ (now : Now) (scope : Value) (captured_at snapshot : Json),
          make_snapshot now others scope.json captured_at = .ok snapshot ↔
            make_snapshot now records scope.json captured_at = .ok snapshot

/-- A catalog that is accepted although two agents of one identity, which compare equal, differ. -/
def Hidden (source_commit data : Json) : Prop :=
  Catalogued source_commit data ∧ ¬ Uniform (agents_of data)

theorem Hidden.not_deduplicates [Datetime] {data : Value} (h : Hidden source_commit data.json) :
    ¬ Deduplicates source_commit data := by
  intro hdeduplicates
  obtain ⟨records, hrecords⟩ := h.1.accepted data.wellFormed
  refine h.2 fun first hfirst second hsecond hid => ?_
  by_contra hne
  exact hdeduplicates.refuses first hfirst second hsecond hid hne records hrecords

/-- Agents that are listed in another order, or more than once, give the same records. -/
theorem Catalogued.independent {data other : Json} (h : Catalogued source_commit data)
    (hobject : isObject other = true) (harray : isArray (other.item "agents") = true)
    (hsame : ∀ agent, agent ∈ agents_of other ↔ agent ∈ agents_of data) :
    Catalogued source_commit other where
  object := hobject
  array := harray
  readable agent hagent := h.readable agent ((hsame agent).mp hagent)
  equal first hfirst second hsecond :=
    h.equal first ((hsame first).mp hfirst) second ((hsame second).mp hsecond)

/-- The records of a catalog do not depend on the order and on the repetitions of its agents
    exactly when equal agents of one identity are the same: `==` does not tell `1` from `1.0`
    and from `true`, which the canonical text does. -/
theorem catalog_deduplicated [Datetime] (source_commit : Json) (data : Value) :
    Deduplicates source_commit data ↔ ¬ Hidden source_commit data.json := by
  refine ⟨fun h hhidden => hhidden.not_deduplicates h, fun hvisible => ?_⟩
  have hdata := data.wellFormed
  have huniform : ∀ records, normalize_awesome_catalog data.json source_commit = .ok records →
      Uniform (agents_of data.json) := fun records hok => by
    by_contra hnot
    exact hvisible ⟨(normalize_awesome_catalog_ok hdata hok).1, hnot⟩
  refine ⟨fun records hok => ?_, fun first hfirst second hsecond hid hne records hok => ?_,
    fun records hok other hobject harray hsame => ?_⟩
  · obtain ⟨hcatalogued, unique, hfirsts, rfl⟩ := normalize_awesome_catalog_ok hdata hok
    exact hfirsts.ids hcatalogued
  · exact hne (huniform records hok first hfirst second hsecond hid)
  · have huniform := huniform records hok
    obtain ⟨hcatalogued, unique, hfirsts, rfl⟩ := normalize_awesome_catalog_ok hdata hok
    have hothers := hcatalogued.independent hobject harray hsame
    obtain ⟨others, hothers_ok⟩ := hothers.accepted other.wellFormed
    obtain ⟨_, unique', hfirsts', rfl⟩ := normalize_awesome_catalog_ok other.wellFormed hothers_ok
    have huniform' : Uniform (agents_of other.json) := fun first hfirst second hsecond =>
      huniform first ((hsame first).mp hfirst) second ((hsame second).mp hsecond)
    have hrecords : ∀ record, record ∈ unique'.map Prod.snd ↔ record ∈ unique.map Prod.snd :=
        fun record => by
      rw [hfirsts'.records other.wellFormed hothers.readable huniform' record,
        hfirsts.records hdata hcatalogued.readable huniform record]
      simp only [hsame]
    have hwell : ∀ {data : Json}, data.WellFormed → Catalogued source_commit data → ∀ {unique},
        Firsts source_commit (agents_of data) unique →
          ∀ record ∈ unique.map Prod.snd, record.payload.WellFormed := by
      intro data hdata hcatalogued unique hfirsts record hrecord
      obtain ⟨pair, hpair, rfl⟩ := List.mem_map.mp hrecord
      obtain ⟨agent, hagent, rfl⟩ := hfirsts.listed pair hpair
      exact agent_record_wellFormed (hcatalogued.readable agent hagent)
        (agents_of_wellFormed hdata agent hagent)
    refine ⟨_, hothers_ok, hrecords, fun now scope captured_at snapshot => ⟨?_, ?_⟩⟩
    · exact make_snapshot_distinct (hfirsts'.ids hothers).1 scope.wellFormed
        (hwell other.wellFormed hothers hfirsts') hrecords
    · exact make_snapshot_distinct (hfirsts.ids hcatalogued).1 scope.wellFormed
        (hwell hdata hcatalogued hfirsts)
        fun record => (hrecords record).symm

end Catalog

/-! Two agents of one identity, of which one counts its stars and the other only has some. -/

namespace Sample

def commit : Json := .str "0000000000000000000000000000000000000000"

def agent (stars : Json) : Json :=
  .dict [("id", .str "agent"), ("project", .str "project"), ("stars", stars)]

def stars : List Json := [.number (.int 1), .bool true]

def starred : Json := .dict [("agents", .arr (stars.map agent))]

theorem agent_item (stars : Json) (key : String) : (agent stars).item key =
    (([("id", Json.str "agent"), ("project", .str "project"), ("stars", stars)].find?
      fun field => field.1 == key).map Prod.snd).getD .null :=
  Json.item_dict (by simp)

theorem agent_wellFormed {value : Json} (h : value ∈ stars) : (agent value).WellFormed := by
  refine Json.dict_wellFormed (by simp) ?_
  have hvalue : value.WellFormed := by
    rcases List.mem_pair.mp h with rfl | rfl <;> trivial
  simp only [List.forall_mem_cons, List.not_mem_nil, false_implies, implies_true, and_true]
  exact ⟨trivial, trivial, hvalue⟩

theorem agent_readable {value : Json} (h : Plain value) : Readable commit (agent value) where
  object := rfl
  pinned := ⟨by decide, by decide⟩
  id := by simp [agent_item, isNonblank, control_plane.isSpace]
  project := by simp [agent_item, isNonblank, control_plane.isSpace]
  categories := by simp [agent_item]
  sources := by simp [agent_item]
  is_public := by simp [agent_item]
  description := by simp [agent_item]
  attributes := by
    refine plain_dict ?_
    have hnull : Plain .null := ⟨rfl, trivial⟩
    simp only [agent_item, sourced]
    simp [hnull]
    decide
  plain := by
    refine plain_dict ?_
    simp only [List.forall_mem_cons, List.not_mem_nil, false_implies, implies_true, and_true]
    exact ⟨⟨by decide, plain_str _⟩, ⟨by decide, plain_str _⟩, by decide, h⟩

theorem starred_wellFormed : starred.WellFormed := by
  refine Json.dict_wellFormed (by simp) (List.forall_mem_singleton.mpr ?_)
  exact Json.arr_wellFormed (List.forall_mem_map.mpr fun value hvalue => agent_wellFormed hvalue)

theorem starred_hidden : Hidden commit starred := by
  have harray : starred.item "agents" = .arr (stars.map agent) := by
    rw [starred, Json.item_dict (by simp)]
    rfl
  have hagents : agents_of starred = [agent (.number (.int 1)), agent (.bool true)] := by
    rw [agents_of, harray]
    rfl
  have hequal : (agent (.number (.int 1))).equal (agent (.bool true)) = true := by
    simp [agent, Json.dict, Json.sortFields, Json.equal, Json.equalFields,
      Json.numeric, Number.value]
  have hplain : ∀ value ∈ stars, Plain value :=
    List.forall_mem_cons.mpr
      ⟨⟨rfl, by decide +kernel⟩, List.forall_mem_singleton.mpr ⟨rfl, trivial⟩⟩
  refine ⟨⟨rfl, by rw [harray]; rfl, ?_, ?_⟩, fun huniform => ?_⟩
  · rw [agents_of, harray]
    exact List.forall_mem_map.mpr fun value hvalue => agent_readable (hplain value hvalue)
  · rw [hagents]
    simp only [List.forall_mem_cons, List.not_mem_nil, false_implies, implies_true, and_true]
    exact ⟨⟨fun _ => Json.equal_refl _, fun _ => hequal⟩, fun _ => Json.equal_symm hequal,
      fun _ => Json.equal_refl _⟩
  · rw [hagents] at huniform
    have htext := huniform _ List.mem_cons_self _ (List.mem_cons_of_mem _ List.mem_cons_self)
      (by simp [agent_item])
    have hsame := canonical_json_injective (agent_wellFormed List.mem_cons_self)
      (agent_wellFormed (List.mem_cons_of_mem _ List.mem_cons_self)) htext
    have hstars := congrArg (Json.item "stars") hsame
    simp [agent_item] at hstars

end Sample

open Sample in
/-- The catalog with both agents is accepted, and not deduplicated. -/
theorem stars_hidden : ∃ (_ : Datetime) (data : Value), data.json = starred ∧
    ¬ Deduplicates commit data := by
  let _ : Datetime := ⟨fun _ => none⟩
  have hrefuted : ¬ Deduplicates commit ⟨starred, starred_wellFormed⟩ := fun hdeduplicates =>
    (catalog_deduplicated commit ⟨starred, starred_wellFormed⟩).mp hdeduplicates starred_hidden
  exact ⟨_, _, rfl, hrefuted⟩

end discovery
