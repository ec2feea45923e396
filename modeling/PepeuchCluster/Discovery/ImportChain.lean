import PepeuchCluster.Discovery.ImportPlan

namespace discovery

section Documents

variable {before : Option Json} {entry after record changes : Json} {name : String}

theorem row_keys_nodup (hrecord : record.WellFormed) :
    (((record.entries.filter fun field => field.1 ≠ "last_seen_snapshot" ∧
      field.1 ≠ "last_seen_at") ++
      [("last_seen_snapshot", (entry.item "snapshot").item "snapshot_id"),
        ("last_seen_at", captured_of entry)]).map Prod.fst).Nodup := by
  have hentries : (record.entries.map Prod.fst).Nodup := by
    cases record with
    | obj fields => exact Json.keys_nodup hrecord
    | _ => exact List.nodup_nil
  rw [List.map_append]
  refine List.Nodup.append (hentries.sublist (List.filter_sublist.map Prod.fst)) (by simp) ?_
  intro key hkey hlast
  obtain ⟨field, hfield, rfl⟩ := List.mem_map.mp hkey
  have hne := of_decide_eq_true (List.mem_filter.mp hfield).2
  simp [hne.1, hne.2] at hlast

theorem row_item (hrecord : record.WellFormed) (hid : name ≠ "last_seen_snapshot")
    (htime : name ≠ "last_seen_at") :
    (row_of entry record).item name = record.item name := by
  have hfilter : (record.entries.filter fun field => field.1 ≠ "last_seen_snapshot" ∧
    field.1 ≠ "last_seen_at").find?
      (fun field => field.1 == name) = record.entries.find? fun field => field.1 == name := by
    rw [List.find?_filter]
    refine congrArg (fun p => record.entries.find? p) (funext fun field => ?_)
    by_cases hname : field.1 = name
    · simp [hname, hid, htime]
    · simp [hname]
  have hlast : [("last_seen_snapshot", (entry.item "snapshot").item "snapshot_id"),
      ("last_seen_at", captured_of entry)].find? (fun field => field.1 == name) = none := by
    simp [Ne.symm hid, Ne.symm htime]
  rw [row_of, Json.item_dict (row_keys_nodup hrecord), List.find?_append, hfilter,
    hlast, Option.or_none]
  cases record with
  | obj fields => rfl
  | _ => rfl

theorem row_last_seen (hrecord : record.WellFormed) :
    (row_of entry record).item "last_seen_snapshot" = (entry.item "snapshot").item "snapshot_id" ∧
      (row_of entry record).item "last_seen_at" = captured_of entry := by
  have hnone : ∀ name, (name = "last_seen_snapshot" ∨ name = "last_seen_at") →
      (record.entries.filter fun field => field.1 ≠ "last_seen_snapshot" ∧
        field.1 ≠ "last_seen_at").find?
        (fun field => field.1 == name) = none := by
    intro name hname
    refine List.find?_eq_none.mpr fun field hfield heq => ?_
    have hne := of_decide_eq_true (List.mem_filter.mp hfield).2
    rcases hname with rfl | rfl
    · exact hne.1 (eq_of_beq heq)
    · exact hne.2 (eq_of_beq heq)
  constructor
  · rw [row_of, Json.item_dict (row_keys_nodup hrecord), List.find?_append, hnone _ (.inl rfl)]
    simp
  · rw [row_of, Json.item_dict (row_keys_nodup hrecord), List.find?_append, hnone _ (.inr rfl)]
    simp

theorem row_wellFormed (hentry : entry.WellFormed) (hrecord : record.WellFormed) :
    (row_of entry record).WellFormed := by
  refine Json.dict_wellFormed (row_keys_nodup hrecord) fun field hfield => ?_
  rcases List.mem_append.mp hfield with hfield | hfield
  · have hmem := (List.mem_filter.mp hfield).1
    cases record with
    | obj fields => exact Json.wellFormedFields_iff.mp hrecord.2 field hmem
    | _ => cases hmem
  · rcases List.mem_pair.mp hfield with rfl | rfl
    · exact (hentry.item _).item _
    · exact (hentry.item _).item _

theorem action_item (before : Option Json) (after record : Json) (key : String) :
    (action_of before after record).item key =
      (([("operation", Json.str "upsert_if_expected_or_already_applied"),
        ("expected", expected_of before (record.item "record_key").text),
          ("record", row_of after record)].find?
          fun field => field.1 == key).map Prod.snd).getD .null :=
  Json.item_dict (by simp)

theorem action_record : (action_of before after record).item "record" = row_of after record := by
  simp [action_item]

theorem action_expected : (action_of before after record).item "expected" =
    expected_of before (record.item "record_key").text := by simp [action_item]

theorem key_of_action (hrecord : record.WellFormed) :
    key_of (action_of before after record) = (record.item "record_key").text := by
  rw [key_of, action_record, row_item hrecord (by simp) (by simp)]

theorem plan_actions : (plan_document before after changes).item "actions" =
    .arr ((records_of after).map (action_of before after)) := by
  rw [plan_document, Json.item_dict (by simp)]
  simp

theorem entries_dict {fields : List (String × Json)} {field : String × Json} :
    field ∈ (Json.dict fields).entries ↔ field ∈ fields :=
  (Json.sortFields_perm fields).mem_iff

end Documents

section Records

variable {before : Option Json} {entry after : Json}

theorem records_wellFormed (hentry : entry.WellFormed) :
    ∀ record ∈ records_of entry, record.WellFormed :=
  Json.wellFormedItems_iff.mp (elements_wellFormed ((hentry.item _).item _))

theorem actions_keys (hafter : after.WellFormed) :
    ((records_of after).map (action_of before after)).map key_of = observed_keys after := by
  rw [List.map_map, observed_keys]
  exact List.map_congr_left fun record hrecord =>
    key_of_action (records_wellFormed hafter record hrecord)

section Times

variable [Datetime]

/-- The time of an entry, where it tells one. -/
def Timed (entry : Json) (seconds : ℚ) : Prop := ∃ x, timestamp (captured_of entry) = .ok x ∧
    x.value = seconds

/-- An entry that may follow another: not older, and of the same keys when not newer. -/
def Precedes (before after : Json) : Prop :=
  ∃ previous current, Timed before previous ∧ Timed after current ∧
  previous ≤ current ∧ (previous = current → observed_keys before = observed_keys after)

theorem Timed.unique {entry : Json} {seconds other : ℚ} (h : Timed entry seconds)
    (h' : Timed entry other) :
    seconds = other := by
  obtain ⟨x, hx, rfl⟩ := h
  obtain ⟨y, hy, rfl⟩ := h'
  rw [hx] at hy
  rw [Except.ok.inj hy]

theorem Precedes.trans {first second third : Json} (h : Precedes first second)
    (h' : Precedes second third) :
    Precedes first third := by
  obtain ⟨start, middle, hstart, hmiddle, hle, hsame⟩ := h
  obtain ⟨middle', stop, hmiddle', hstop, hle', hsame'⟩ := h'
  obtain rfl := hmiddle.unique hmiddle'
  refine ⟨start, stop, hstart, hstop, hle.trans hle', fun heq => ?_⟩
  have hstart : start = middle := le_antisymm hle (heq ▸ hle')
  rw [hsame hstart, hsame' (hstart.symm.trans heq)]

theorem Precedes.captured {first second : Json} (h : Precedes first second) :
    ∃ start stop, captured_of first = .str start ∧ captured_of second = .str stop := by
  obtain ⟨_, _, ⟨x, hx, _⟩, ⟨y, hy, _⟩, _⟩ := h
  have htext : ∀ {value : Json} {seconds : Binary64}, timestamp value = .ok seconds →
      ∃ text, value = .str text := by
    intro value seconds h
    simp only [timestamp, Except.bind_eq_ok, demand_eq_ok] at h
    obtain ⟨_, ⟨hstring, _⟩, _⟩ := h
    exact ⟨_, isString_text hstring⟩
  obtain ⟨start, hstart⟩ := htext hx
  obtain ⟨stop, hstop⟩ := htext hy
  exact ⟨start, stop, hstart, hstop⟩

/-- Entries between two of one time all have the same keys. -/
theorem Precedes.keys {first second third : Json} (h : Precedes first second)
    (h' : Precedes second third) (htime : captured_of first = captured_of third) :
    observed_keys first = observed_keys second := by
  obtain ⟨start, middle, hstart, hmiddle, hle, hsame⟩ := h
  obtain ⟨middle', stop, hmiddle', hstop, hle', _⟩ := h'
  obtain rfl := hmiddle.unique hmiddle'
  have hstop : Timed first stop := by rwa [Timed, htime]
  obtain rfl := hstart.unique hstop
  exact hsame (le_antisymm hle hle')

theorem ordered_append {entries : List Json} (hordered : entries.Pairwise Precedes)
    (hlast : ∀ entry ∈ entries.getLast?, Precedes entry after) :
    (entries ++ [after]).Pairwise Precedes := by
  refine List.pairwise_append.mpr
    ⟨hordered, List.pairwise_singleton _ _, fun entry hentry other hother => ?_⟩
  obtain rfl := List.mem_singleton.mp hother
  rcases List.eq_nil_or_concat' entries with rfl | ⟨init, before, rfl⟩
  · cases hentry
  · have hbefore : Precedes before other := hlast before (by simp)
    rcases List.mem_append.mp hentry with hentry | hentry
    · exact ((List.pairwise_append.mp hordered).2.2 entry hentry before (by simp)).trans hbefore
    · rwa [List.mem_singleton.mp hentry]

end Times

variable [Unicode] [Datetime] {now : Now} {trusted_issuers : String → Option (List UInt8)}
  {before after plan : Json}

theorem expected_wellFormed {before : Option Json} (hbefore : ∀ entry ∈ before, entry.WellFormed)
    (hcached : ∀ entry ∈ before, Cached now trusted_issuers entry) (key : String) :
    (expected_of before key).WellFormed := by
  unfold expected_of
  cases before with
  | none => trivial
  | some before =>
    have hwell := hbefore before rfl
    dsimp only
    cases hlookup : (by_key (records_of before)).lookup key with
    | none => trivial
    | some previous =>
      dsimp only
      obtain ⟨hmem, _⟩ := (hcached before rfl).lookup.mp hlookup
      refine Json.dict_wellFormed (by simp) ?_
      simp only [List.forall_mem_cons, List.not_mem_nil, false_implies, implies_true, and_true]
      exact ⟨(records_wellFormed hwell previous hmem).item _, (hwell.item _).item _,
        (hwell.item _).item _⟩

theorem plan_wellFormed {before : Option Json} {changes : Json} (hafter : after.WellFormed)
    (hbefore : ∀ entry ∈ before, entry.WellFormed)
    (hcached : ∀ entry ∈ before, Cached now trusted_issuers entry)
    (hchanges : changes.WellFormed) : (plan_document before after changes).WellFormed := by
  refine Json.dict_wellFormed (by simp) ?_
  simp only [List.forall_mem_cons, List.not_mem_nil, false_implies, implies_true, and_true]
  refine ⟨trivial, trivial, (hafter.item _).item _, (hafter.item _).item _, (hafter.item _).item _,
    (hafter.item _).item _, hchanges, Json.arr_wellFormed fun action haction =>
      ?_, trivial, ⟨trivial, trivial, trivial, trivial, trivial⟩, trivial⟩
  obtain ⟨record, hrecord, rfl⟩ := List.mem_map.mp haction
  refine Json.dict_wellFormed (by simp) ?_
  simp only [List.forall_mem_cons, List.not_mem_nil, false_implies, implies_true, and_true]
  exact ⟨trivial, expected_wellFormed hbefore hcached _,
    row_wellFormed hafter (records_wellFormed hafter record hrecord)⟩

/-- The keys of a plan, of its actions and of the rows that they write. -/
def PLAN_KEYS : List String :=
  ["format", "executable", "data_kind", "scope", "context", "snapshot_id", "changes", "actions",
    "delete_actions", "requires", "legacy_generators_guarded", "operation", "expected", "record",
      "payload_sha256", "last_seen_snapshot",
    "last_seen_at"]

/-- A plan holds nothing that its copy refuses. -/
theorem plan_plain {before : Option Json} {changes : Json}
    (hkeys : ∀ key ∈ PLAN_KEYS, folded key ∉ SECRET_KEYS) (hafter : Plain after)
    (hbefore : ∀ entry ∈ before, Plain entry)
    (hcached : ∀ entry ∈ before, Cached now trusted_issuers entry) (hchanges : Plain changes) :
    Plain (plan_document before after changes) := by
  have hexpected : ∀ key, Plain (expected_of before key) := by
    intro key
    unfold expected_of
    cases before with
    | none => exact ⟨rfl, trivial⟩
    | some before =>
      have hplain := hbefore before rfl
      dsimp only
      cases hlookup : (by_key (records_of before)).lookup key with
      | none => exact ⟨rfl, trivial⟩
      | some previous =>
        obtain ⟨hmem, _⟩ := (hcached before rfl).lookup.mp hlookup
        refine plain_dict ?_
        simp only [List.forall_mem_cons, List.not_mem_nil, false_implies, implies_true, and_true]
        exact ⟨⟨hkeys _ (by simp [PLAN_KEYS]),
          (elements_plain ((hplain.item _).item _) previous hmem).item _⟩,
          ⟨hkeys _ (by simp [PLAN_KEYS]), (hplain.item _).item _⟩, hkeys _ (by simp [PLAN_KEYS]),
          (hplain.item _).item _⟩
  have hrow : ∀ record ∈ records_of after, Plain (row_of after record) := by
    intro record hrecord
    have hplain := elements_plain ((hafter.item _).item _) record hrecord
    refine plain_dict fun field hfield => ?_
    rcases List.mem_append.mp hfield with hfield | hfield
    · exact hplain.field (List.mem_filter.mp hfield).1
    · rcases List.mem_pair.mp hfield with rfl | rfl
      · exact ⟨hkeys _ (by simp [PLAN_KEYS]), (hafter.item _).item _⟩
      · exact ⟨hkeys _ (by simp [PLAN_KEYS]), (hafter.item _).item _⟩
  have hactions : Plain (.arr ((records_of after).map (action_of before after))) := by
    refine plain_arr (List.forall_mem_map.mpr fun record hrecord => plain_dict ?_)
    simp only [List.forall_mem_cons, List.not_mem_nil, false_implies, implies_true, and_true]
    exact ⟨⟨hkeys _ (by simp [PLAN_KEYS]), plain_str _⟩,
      ⟨hkeys _ (by simp [PLAN_KEYS]), hexpected _⟩, hkeys _ (by simp [PLAN_KEYS]),
        hrow record hrecord⟩
  have hname : ∀ {key : String} {value : Json}, key ∈ PLAN_KEYS → Plain value →
      folded key ∉ SECRET_KEYS ∧ Plain value :=
    fun hkey hvalue => ⟨hkeys _ hkey, hvalue⟩
  refine plain_dict ?_
  simp only [List.forall_mem_cons, List.not_mem_nil, false_implies, implies_true, and_true]
  exact ⟨hname (by simp [PLAN_KEYS]) (plain_str _), hname (by simp [PLAN_KEYS]) ⟨rfl, trivial⟩,
    hname (by simp [PLAN_KEYS]) ((hafter.item _).item _),
      hname (by simp [PLAN_KEYS]) ((hafter.item _).item _),
    hname (by simp [PLAN_KEYS]) ((hafter.item _).item _),
      hname (by simp [PLAN_KEYS]) ((hafter.item _).item _),
    hname (by simp [PLAN_KEYS]) hchanges, hname (by simp [PLAN_KEYS]) hactions,
    hname (by simp [PLAN_KEYS]) (plain_arr (List.forall_mem_nil _)),
    hname (by simp [PLAN_KEYS]) (plain_arr (by simp [plain_str])),
    hname (by simp [PLAN_KEYS]) ⟨rfl, trivial⟩⟩

theorem compare_snapshots_wellFormed {changes : Json} (hbefore : before.WellFormed)
    (hafter : after.WellFormed)
    (h : compare_snapshots now before after = .ok changes) : changes.WellFormed := by
  simp only [compare_snapshots, Except.bind_eq_ok, Except.pure_eq_ok, demand_eq_ok] at h
  obtain ⟨_, _, _, _, _, _, rfl⟩ := h
  refine Json.dict_wellFormed (by simp) ?_
  simp only [List.forall_mem_cons, List.not_mem_nil, false_implies, implies_true, and_true]
  exact ⟨hbefore.item _, hafter.item _, texts_wellFormed _, texts_wellFormed _, texts_wellFormed _,
    trivial, trivial⟩

/-- Equal snapshots list the same keys. -/
theorem keys_of_equal (hbefore : Cached now trusted_issuers before)
    (hafter : Cached now trusted_issuers after)
    (h : (after.item "snapshot").equal (before.item "snapshot") = true) :
    observed_keys before = observed_keys after := by
  obtain ⟨recovered, hrecovered⟩ := hbefore.parts.bound.accepted
  obtain ⟨others, hothers⟩ := hafter.parts.bound.accepted
  have hequal := Json.equal_item h "records"
  rw [hrecovered.records, hothers.records, Json.equal] at hequal
  have hkeys := forall₂_keys hrecovered.acceptable hothers.acceptable hequal
  rw [observed_keys, observed_keys, records_of, records_of, hrecovered.records, hothers.records,
    elements, elements, entry_texts hrecovered.acceptable, entry_texts hothers.acceptable, hkeys]

theorem changes_since_ok {changes : Json} (hbefore : Cached now trusted_issuers before)
    (hafter : Cached now trusted_issuers after) (h : changes_since now before after = .ok changes) :
    Precedes before after ∧
      compare_snapshots now (before.item "snapshot") (after.item "snapshot") = .ok changes := by
  simp only [changes_since, Except.bind_eq_ok, demand_eq_ok] at h
  obtain ⟨_, _, _, _, current, hcurrent, previous, hprevious, _, hordered, _, hsame, hcompare⟩ := h
  refine ⟨⟨previous.value, current.value, ⟨_, hprevious, rfl⟩, ⟨_, hcurrent, rfl⟩,
    not_lt.mp hordered, fun heq => ?_⟩, hcompare⟩
  exact keys_of_equal hbefore hafter (hsame heq.symm)

/-- What a plan is made of. -/
theorem first_plan_ok (hafter : after.WellFormed)
    (h : plan_import now none after trusted_issuers = .ok plan) :
    Cached now trusted_issuers after ∧ ∃ changes, plan = plan_document none after changes := by
  simp only [plan_import, Option.mapM_none, Except.bind_eq_ok, Except.pure_eq_ok, demand_eq_ok,
    validate_cache_ok hafter] at h
  obtain ⟨_, ⟨rfl, hcached⟩, _, rfl, _, _, hcopy⟩ := h
  obtain ⟨changes, hchanges, hcopy⟩ := Except.bind_eq_ok.mp hcopy
  refine ⟨hcached, changes, ((copy_metadata_eq_ok ?_).mp hcopy).2⟩
  have hnone : ∀ entry ∈ (none : Option Json), Cached now trusted_issuers entry := by simp
  refine plan_wellFormed hafter (by simp) hnone ?_
  obtain rfl := Except.pure_eq_ok.mp hchanges
  refine Json.dict_wellFormed (by simp) ?_
  simp only [List.forall_mem_cons, List.not_mem_nil, false_implies, implies_true, and_true]
  exact ⟨texts_wellFormed _, trivial, trivial⟩

theorem next_plan_ok (hbefore : before.WellFormed) (hafter : after.WellFormed)
    (h : plan_import now (some before) after trusted_issuers = .ok plan) :
    Cached now trusted_issuers before ∧ Cached now trusted_issuers after ∧ Precedes before after ∧
      ∃ changes, plan = plan_document (some before) after changes := by
  simp only [plan_import, Option.mapM_some, Except.bind_eq_ok, Except.map_eq_ok, demand_eq_ok,
    validate_cache_ok hafter, validate_cache_ok hbefore] at h
  obtain ⟨_, ⟨rfl, hcached⟩, _, ⟨_, ⟨rfl, hprior⟩, rfl⟩, _, _, h⟩ := h
  obtain ⟨changes, hchanges, hcopy⟩ := Except.bind_eq_ok.mp h
  obtain ⟨hprecedes, hcompare⟩ := changes_since_ok hprior hcached hchanges
  have hwell := compare_snapshots_wellFormed (hbefore.item _) (hafter.item _) hcompare
  refine ⟨hprior, hcached, hprecedes, changes, ((copy_metadata_eq_ok ?_).mp hcopy).2⟩
  exact plan_wellFormed hafter (by simpa using hbefore) (by simpa using hprior) hwell

end Records

/-- The store has what was written last for every key, and nothing else. -/
def Holds (entries : List Json) (store : List (String × Json)) : Prop :=
  ∀ key, Option.Rel (fun stored row => stored.equal row = true) (store.lookup key)
    (latest entries key)

/-- A key that an entry observes, that the entry before it does not, and that an earlier one did. -/
def Returns (entries : List Json) : Prop :=
  ∃ earlier before after later, entries = earlier ++ before :: after :: later ∧
    ∃ key ∈ observed_keys after, key ∉ observed_keys before ∧ ∃ entry ∈ earlier,
      key ∈ observed_keys entry

theorem returns_append {entries : List Json} {last : Json} (h : Returns (entries ++ [last])) :
    Returns entries ∨ ∃ earlier before, entries = earlier ++ [before] ∧
      ∃ key ∈ observed_keys last, key ∉ observed_keys before ∧ ∃ entry ∈ earlier,
        key ∈ observed_keys entry := by
  obtain ⟨earlier, before, after, later, hsplit, hkey⟩ := h
  rcases List.eq_nil_or_concat later with rfl | ⟨later, final, rfl⟩
  · refine .inr ⟨earlier, before, ?_⟩
    have hsplit' : entries ++ [last] = (earlier ++ [before]) ++ [after] := by simpa using hsplit
    obtain ⟨rfl, hlast⟩ := List.append_inj' hsplit' rfl
    obtain rfl := List.singleton_inj.mp hlast
    exact ⟨rfl, hkey⟩
  · refine .inl ⟨earlier, before, after, later, ?_, hkey⟩
    have hsplit' : entries ++ [last] = (earlier ++ before :: after :: later) ++ [final] := by
      simpa using hsplit
    exact (List.append_inj' hsplit' rfl).1

theorem Returns.append {entries : List Json} (h : Returns entries) (last : Json) :
    Returns (entries ++ [last]) := by
  obtain ⟨earlier, before, after, later, rfl, hkey⟩ := h
  exact ⟨earlier, before, after, later ++ [last], by simp, hkey⟩

section Steps

variable [Unicode] [Datetime] {now : Now} {trusted_issuers : String → Option (List UInt8)}
  {entries : List Json} {store store' : List (String × Json)} {before : Option Json}
    {after record changes row : Json} {key : String}

theorem observed_some {entry : Json} (h : Cached now trusted_issuers entry) :
    observed entry key = some row ↔
      ∃ record ∈ records_of entry, (record.item "record_key").text = key ∧
      row = row_of entry record := by
  simp only [observed, Option.map_eq_some_iff, h.lookup]
  constructor
  · rintro ⟨record, ⟨hrecord, hkey⟩, rfl⟩
    exact ⟨record, hrecord, hkey, rfl⟩
  · rintro ⟨record, hrecord, hkey, rfl⟩
    exact ⟨record, ⟨hrecord, hkey⟩, rfl⟩

theorem observed_none {entry : Json} (h : Cached now trusted_issuers entry) :
    observed entry key = none ↔ key ∉ observed_keys entry := by
  rw [← h.lookup_isSome, observed, Option.map_eq_none_iff, not_exists,
    Option.eq_none_iff_forall_ne_some]

/-- What is written last for a key was written by an entry that observed it. -/
theorem latest_some (hcached : ∀ entry ∈ entries, Cached now trusted_issuers entry)
    (h : latest entries key = some row) :
    ∃ entry ∈ entries, ∃ record ∈ records_of entry, (record.item "record_key").text = key ∧
      row = row_of entry record := by
  induction entries using List.reverseRecOn with
  | nil => cases h
  | append_singleton entries entry ih =>
    rw [latest_append] at h
    have hentry := hcached entry (by simp)
    cases hobserved : observed entry key with
    | some written =>
      rw [hobserved] at h
      obtain rfl := Option.some.inj h
      exact ⟨entry, by simp, (observed_some hentry).mp hobserved⟩
    | none =>
      rw [hobserved] at h
      obtain ⟨owner, howner, hrow⟩ :=
        ih (fun other hother => hcached other (List.mem_append_left _ hother)) h
      exact ⟨owner, List.mem_append_left _ howner, hrow⟩

theorem latest_isSome (hcached : ∀ entry ∈ entries, Cached now trusted_issuers entry) {entry : Json}
    (hentry : entry ∈ entries) (hkey : key ∈ observed_keys entry) :
    ∃ row, latest entries key = some row := by
  induction entries using List.reverseRecOn with
  | nil => cases hentry
  | append_singleton entries last ih =>
    rw [latest_append]
    cases hobserved : observed last key with
    | some row => exact ⟨row, rfl⟩
    | none =>
      have hlast := (observed_none (hcached last (by simp))).mp hobserved
      rcases List.mem_append.mp hentry with hentry | hentry
      · exact ih (fun other hother => hcached other (List.mem_append_left _ hother)) hentry
      · exact absurd (List.mem_singleton.mp hentry ▸ hkey) hlast

/-- An action expects no row exactly where the entry before did not observe the key. -/
theorem expected_null (hcached : ∀ entry ∈ before, Cached now trusted_issuers entry) :
    expected_of before key = .null ↔ ∀ entry ∈ before, key ∉ observed_keys entry := by
  cases before with
  | none => simp [expected_of]
  | some before =>
    have hlookup : (∃ record, (by_key (records_of before)).lookup key = some record) ↔
        key ∈ observed_keys before :=
      (hcached before rfl).lookup_isSome
    unfold expected_of
    dsimp only
    cases hfound : (by_key (records_of before)).lookup key with
    | none => simpa [hfound] using hlookup
    | some previous => simpa [hfound, Json.dict] using hlookup

/-- What the entry before wrote is what an action on its key expects. -/
theorem admits_seen {stored previous : Json} (hbefore : after.WellFormed)
    (hcached : Cached now trusted_issuers after) (hprevious : previous ∈ records_of after)
    (hkey : (previous.item "record_key").text = key)
    (hstored : stored.equal (row_of after previous) = true) :
    admits (expected_of (some after) key) (some stored) = true := by
  have hrecord := records_wellFormed hbefore previous hprevious
  have hlast :
    (row_of after previous).item "last_seen_snapshot" = (after.item "snapshot").item "snapshot_id" ∧
      (row_of after previous).item "last_seen_at" = captured_of after := row_last_seen hrecord
  have hexpected : expected_of (some after) key =
    .dict [("payload_sha256", previous.item "payload_sha256"),
      ("last_seen_snapshot", (after.item "snapshot").item "snapshot_id"),
        ("last_seen_at", captured_of after)] := by
    simp only [expected_of, hcached.lookup.mpr ⟨hprevious, hkey⟩]
  rw [hexpected, admits, Bool.and_eq_true, List.all_eq_true]
  refine ⟨by simp [Json.dict], fun field hfield => ?_⟩
  have hfield := entries_dict.mp hfield
  simp only [List.mem_cons, List.not_mem_nil, or_false] at hfield
  rcases hfield with rfl | rfl | rfl
  · have hequal := Json.equal_item hstored "payload_sha256"
    rwa [row_item hrecord (by simp) (by simp)] at hequal
  · have hequal := Json.equal_item hstored "last_seen_snapshot"
    rwa [hlast.1] at hequal
  · have hequal := Json.equal_item hstored "last_seen_at"
    rwa [hlast.2] at hequal

variable (hholds : Holds entries store) (hbefore : before = entries.getLast?)
  (hcached : ∀ entry ∈ entries, Cached now trusted_issuers entry)
include hholds hbefore hcached

/-- An action on a key of the entry before is never refused. -/
theorem admitted_seen (hwell : ∀ entry ∈ entries, entry.WellFormed) (hrecord : record.WellFormed)
    (hseen : ∃ entry ∈ before, (record.item "record_key").text ∈ observed_keys entry) :
    Admitted store (action_of before after record) := by
  obtain ⟨entry, hentry, hkey⟩ := hseen
  obtain rfl : before = some entry := hentry
  obtain ⟨entries, rfl⟩ := List.getLast?_eq_some_iff.mp hbefore.symm
  have hlast := hcached entry (by simp)
  obtain ⟨previous, hlookup⟩ := hlast.lookup_isSome.mpr hkey
  obtain ⟨hprevious, hname⟩ := hlast.lookup.mp hlookup
  have hrow : latest (entries ++ [entry]) (record.item "record_key").text =
      some (row_of entry previous) := by
    rw [latest_append, (observed_some hlast).mpr ⟨previous, hprevious, hname, rfl⟩]
    rfl
  have hrel := hholds (record.item "record_key").text
  rw [hrow] at hrel
  cases hstored : store.lookup (record.item "record_key").text with
  | none =>
    rw [hstored] at hrel
    cases hrel
  | some stored =>
    rw [hstored] at hrel
    cases hrel with
    | some hequal =>
      refine .inr ?_
      rw [key_of_action hrecord, action_expected, hstored]
      exact admits_seen (hwell entry (by simp)) hlast hprevious hname hequal

/-- An action on a key that was never observed is never refused. -/
theorem admitted_new (hrecord : record.WellFormed)
    (hnew : latest entries (record.item "record_key").text = none) :
    Admitted store (action_of before after record) := by
  have hrel := hholds (record.item "record_key").text
  rw [hnew] at hrel
  have hlookup : store.lookup (record.item "record_key").text = none := by
    cases hstored : store.lookup (record.item "record_key").text with
    | none => rfl
    | some stored =>
      rw [hstored] at hrel
      cases hrel
  have hbefore' : ∀ entry ∈ before, entry ∈ entries := fun entry hentry =>
    List.mem_of_getLast? (hbefore ▸ hentry)
  have hnull : expected_of before (record.item "record_key").text = .null := by
    refine (expected_null fun entry hentry => hcached entry (hbefore' entry hentry)).mpr
      fun entry hentry hkey => ?_
    obtain ⟨row, hrow⟩ := latest_isSome hcached (hbefore' entry hentry) hkey
    rw [hnew] at hrow
    cases hrow
  refine .inr ?_
  rw [key_of_action hrecord, action_expected, hnull, hlookup, admits]
  rfl

/-- An action on a key that was observed, but not by the entry before, is refused unless
    the row is there already. -/
theorem admitted_returned (hrecord : record.WellFormed)
    (habsent : ∀ entry ∈ before, (record.item "record_key").text ∉ observed_keys entry)
    (hrow : latest entries (record.item "record_key").text = some row)
    (h : Admitted store (action_of before after record)) :
    ∃ stored : Json, stored.equal row = true ∧ stored.equal (row_of after record) = true := by
  have hrel := hholds (record.item "record_key").text
  rw [hrow] at hrel
  cases hstored : store.lookup (record.item "record_key").text with
  | none =>
    rw [hstored] at hrel
    cases hrel
  | some stored =>
    rw [hstored] at hrel
    cases hrel with
    | some hequal =>
      refine ⟨stored, hequal, ?_⟩
      have hnull : expected_of before (record.item "record_key").text = .null :=
        (expected_null fun entry hentry =>
          hcached entry (List.mem_of_getLast? (hbefore ▸ hentry))).mpr habsent
      rcases h with ⟨other, hother, hsame⟩ | hadmits
      · rw [key_of_action hrecord, hstored, Option.some.injEq] at hother
        rw [action_record] at hsame
        rwa [hother]
      · rw [key_of_action hrecord, action_expected, hnull, hstored] at hadmits
        simp [admits] at hadmits

end Steps

section Runs

variable [Unicode] [Datetime] {now : Now} {trusted_issuers : String → Option (List UInt8)}
  {entries : List Json}
  {store store' : List (String × Json)} {before : Option Json} {after changes : Json}

theorem apply_plan_isSome (hafter : after.WellFormed) (hcached : Cached now trusted_issuers after) :
    (∃ store', apply_plan store (plan_document before after changes) = some store') ↔
      ∀ record ∈ records_of after, Admitted store (action_of before after record) := by
  rw [apply_plan, plan_actions, elements,
    upserts_isSome (by rw [actions_keys hafter]; exact hcached.keys_nodup), List.forall_mem_map]

/-- A plan that is applied leaves the store with what was written last. -/
theorem Holds.plan (hholds : Holds entries store) (hafter : after.WellFormed)
    (hcached : Cached now trusted_issuers after)
    (h : apply_plan store (plan_document before after changes) = some store') :
    Holds (entries ++ [after]) store' := by
  rw [apply_plan, plan_actions, elements] at h
  obtain ⟨hwritten, hkept⟩ :=
    upserts_lookup (by rw [actions_keys hafter]; exact hcached.keys_nodup) h
  intro key
  rw [latest_append]
  cases hobserved : observed after key with
  | some row =>
    obtain ⟨record, hrecord, hkey, rfl⟩ := (observed_some hcached).mp hobserved
    obtain ⟨stored, hstored, hequal⟩ := hwritten _ (List.mem_map_of_mem hrecord)
    rw [key_of_action (records_wellFormed hafter record hrecord), hkey] at hstored
    rw [action_record] at hequal
    rw [hstored]
    exact .some hequal
  | none =>
    have hkey := (observed_none hcached).mp hobserved
    rw [hkept key (by rwa [actions_keys hafter])]
    exact hholds key

theorem plan_chain_append {init plans : List Json} {last : Json} {start : Option Json} :
    plan_chain now trusted_issuers start (init ++ [last]) = .ok plans ↔ ∃ earlier plan,
      plan_chain now trusted_issuers start init = .ok earlier ∧
        plan_import now (init.getLast?.or start) last trusted_issuers = .ok plan ∧
        plans = earlier ++ [plan] := by
  induction init generalizing start plans with
  | nil =>
    simp only [List.nil_append, plan_chain, Except.bind_eq_ok, Except.pure_eq_ok,
      List.getLast?_nil, Option.none_or, Except.ok.injEq]
    constructor
    · rintro ⟨plan, hplan, _, rfl, rfl⟩
      exact ⟨[], plan, rfl, hplan, rfl⟩
    · rintro ⟨_, plan, rfl, hplan, rfl⟩
      exact ⟨plan, hplan, [], rfl, rfl⟩
  | cons entry rest ih =>
    have hlast : (entry :: rest).getLast?.or start = rest.getLast?.or (some entry) := by
      rw [List.getLast?_cons]
      cases rest.getLast? <;> rfl
    simp only [List.cons_append, plan_chain, Except.bind_eq_ok, Except.pure_eq_ok, ih, hlast]
    constructor
    · rintro ⟨first, hfirst, _, ⟨earlier, plan, hearlier, hplan, rfl⟩, rfl⟩
      exact ⟨first :: earlier, plan, ⟨first, hfirst, earlier, hearlier, rfl⟩, hplan, rfl⟩
    · rintro ⟨_, plan, ⟨first, hfirst, earlier, hearlier, rfl⟩, hplan, rfl⟩
      exact ⟨first, hfirst, earlier ++ [plan], ⟨earlier, plan, hearlier, hplan, rfl⟩, rfl⟩

/-- What a chain of plans does to an empty store. -/
structure Replays (now : Now) (trusted_issuers : String → Option (List UInt8))
    (entries plans : List Json) : Prop where
  cached : ∀ entry ∈ entries, Cached now trusted_issuers entry
  ordered : entries.Pairwise Precedes
  holds : ∀ store, plans.foldlM apply_plan [] = some store → Holds entries store ∧ ¬ Returns entries
  accepts : ¬ Returns entries → ∃ store, plans.foldlM apply_plan [] = some store

/-- The plan of an entry, whether one came before it or not. -/
theorem plan_of_last (hwell : ∀ entry ∈ before, entry.WellFormed)
    (hafter : after.WellFormed)
    {plan : Json} (h : plan_import now before after trusted_issuers = .ok plan) :
    Cached now trusted_issuers after ∧
      (∀ entry ∈ before, Precedes entry after) ∧
      ∃ changes, plan = plan_document before after changes := by
  cases before with
  | none =>
    obtain ⟨hcached, hplan⟩ := first_plan_ok hafter h
    exact ⟨hcached, by simp, hplan⟩
  | some before =>
    obtain ⟨_, hcached, hprecedes, hplan⟩ := next_plan_ok (hwell before rfl) hafter h
    exact ⟨hcached, by simpa using hprecedes, hplan⟩

variable (hcached : ∀ entry ∈ entries, Cached now trusted_issuers entry)
  (hwell : ∀ entry ∈ entries, entry.WellFormed)
  (hafter : after.WellFormed) (hlast : Cached now trusted_issuers after)
    (hholds : Holds entries store)
include hcached hwell hafter hlast hholds

/-- A plan for a key that returns is refused. -/
theorem not_returns_of_applied (hordered : (entries ++ [after]).Pairwise Precedes)
    (hnot : ¬ Returns entries)
    (h : apply_plan store (plan_document entries.getLast? after changes) = some store') :
    ¬ Returns (entries ++ [after]) := by
  intro hreturns
  rcases returns_append hreturns with hreturns |
    ⟨earlier, before, rfl, key, hkey, habsent, entry, hentry, hseen⟩
  · exact hnot hreturns
  obtain ⟨record, hrecord, rfl⟩ := List.mem_map.mp hkey
  have hadmitted := (apply_plan_isSome hafter hlast).mp ⟨store', h⟩ record hrecord
  obtain ⟨row, hrow⟩ := latest_isSome hcached (List.mem_append_left _ hentry) hseen
  obtain ⟨owner, howner, previous, hprevious, hname, rfl⟩ := latest_some hcached hrow
  have hwellRecord := records_wellFormed hafter record hrecord
  obtain ⟨stored, hequal, hsame⟩ :=
    admitted_returned hholds rfl hcached hwellRecord (by simpa using habsent) hrow hadmitted
  have howned : (record.item "record_key").text ∈ observed_keys owner :=
    List.mem_map.mpr ⟨previous, hprevious, hname⟩
  rcases List.mem_append.mp howner with hearlier | hbefore
  · have hordered' := List.pairwise_append.mp hordered
    have hfirst : Precedes owner before :=
      (List.pairwise_append.mp hordered'.1).2.2 owner hearlier before (by simp)
    have hsecond : Precedes before after := hordered'.2.2 before (by simp) after (by simp)
    -- both rows tell the time of the stored row, so no time passed in between
    have htime : captured_of owner = captured_of after := by
      obtain ⟨start, _, hstart, _⟩ := hfirst.captured
      obtain ⟨_, stop, _, hstop⟩ := hsecond.captured
      have hold := Json.equal_item hequal "last_seen_at"
      have hnew := Json.equal_item hsame "last_seen_at"
      rw [(row_last_seen (records_wellFormed (hwell owner howner) previous hprevious)).2, hstart,
        Json.equal_str] at hold
      rw [(row_last_seen hwellRecord).2, hstop, hold, Json.equal_str] at hnew
      rw [hstart, hstop, hnew]
    exact habsent (hfirst.keys hsecond htime ▸ howned)
  · exact habsent (List.mem_singleton.mp hbefore ▸ howned)

/-- A plan is applied where no key returns. -/
theorem applied_of_not_returns (hnot : ¬ Returns (entries ++ [after])) :
    ∃ store', apply_plan store (plan_document entries.getLast? after changes) = some store' := by
  refine (apply_plan_isSome hafter hlast).mpr fun record hrecord => ?_
  have hwellRecord := records_wellFormed hafter record hrecord
  cases hrow : latest entries (record.item "record_key").text with
  | none => exact admitted_new hholds rfl hcached hwellRecord hrow
  | some row =>
    refine admitted_seen hholds rfl hcached hwell hwellRecord ?_
    obtain ⟨owner, howner, previous, hprevious, hname, _⟩ := latest_some hcached hrow
    have howned : (record.item "record_key").text ∈ observed_keys owner :=
      List.mem_map.mpr ⟨previous, hprevious, hname⟩
    rcases List.eq_nil_or_concat' entries with rfl | ⟨init, before, rfl⟩
    · cases howner
    refine ⟨before, by simp, ?_⟩
    by_contra habsent
    rcases List.mem_append.mp howner with hearlier | hbefore
    · exact hnot ⟨init, before, after, [], by simp, _, List.mem_map_of_mem hrecord, habsent, owner,
        hearlier, howned⟩
    · exact habsent (List.mem_singleton.mp hbefore ▸ howned)

end Runs

end discovery
