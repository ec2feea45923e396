import PepeuchCluster.Discovery.Integrity

namespace discovery

theorem lookup_of_mem {α : Type} {by_key : List (String × α)}
    (hkeys : (by_key.map Prod.fst).Nodup) {key : String} {value : α}
    (hmem : (key, value) ∈ by_key) : by_key.lookup key = some value := by
  induction by_key with
  | nil => cases hmem
  | cons pair rest ih =>
    obtain ⟨hfresh, hrest⟩ := List.nodup_cons.mp hkeys
    rcases List.mem_cons.mp hmem with rfl | hmem
    · simp
    · have hne : key ≠ pair.1 := fun heq => hfresh (heq ▸ List.mem_map_of_mem (f := Prod.fst) hmem)
      rw [List.lookup_cons, beq_false_of_ne hne]
      exact ih hrest hmem

theorem mem_of_lookup {α : Type} {by_key : List (String × α)} {key : String} {value : α}
    (h : by_key.lookup key = some value) : (key, value) ∈ by_key := by
  induction by_key with
  | nil => cases h
  | cons pair rest ih =>
    rw [List.lookup_cons] at h
    split at h
    · next heq =>
      rw [← Option.some.inj h, eq_of_beq heq]
      exact List.mem_cons_self
    · exact List.mem_cons_of_mem _ (ih h)

section Collect

variable {seen records : List SourceRecord} {by_key result : List (String × Json)}
  {record : SourceRecord}

/-- What the dictionary of entries holds after some records. -/
structure Gathered (seen : List SourceRecord) (by_key : List (String × Json)) : Prop where
  keys : (by_key.map Prod.fst).Nodup
  listed : ∀ pair ∈ by_key, ∃ record ∈ seen, pair = (record.key, record.entry)
  covers : ∀ record ∈ seen, record.key ∈ by_key.map Prod.fst

theorem Gathered.nil : Gathered [] [] :=
  ⟨List.nodup_nil, List.forall_mem_nil _, List.forall_mem_nil _⟩

theorem Gathered.put (h : Gathered seen by_key) (record : SourceRecord) :
    Gathered (seen ++ [record]) (put by_key record.key record.entry) := by
  unfold discovery.put
  split
  · next hpresent =>
    have hsame :
      (by_key.map fun pair => if pair.1 = record.key then (record.key, record.entry) else pair).map
        Prod.fst = by_key.map Prod.fst := by
      rw [List.map_map]
      refine List.map_congr_left fun pair _ => ?_
      by_cases hkey : pair.1 = record.key <;> simp [hkey]
    refine ⟨hsame ▸ h.keys, fun pair hpair => ?_, fun other hother => ?_⟩
    · obtain ⟨old, hold, rfl⟩ := List.mem_map.mp hpair
      split
      · exact ⟨record, by simp, rfl⟩
      · obtain ⟨owner, howner, hpair⟩ := h.listed old hold
        exact ⟨owner, List.mem_append_left _ howner, hpair⟩
    · rw [hsame]
      rcases List.mem_append.mp hother with hother | hother
      · exact h.covers other hother
      · rwa [List.mem_singleton.mp hother]
  · next habsent =>
    refine ⟨?_, ?_, ?_⟩
    · rw [List.map_append, List.map_singleton]
      refine List.nodup_append.mpr
        ⟨h.keys, List.nodup_singleton _, fun key hkey other hother heq => habsent ?_⟩
      have hother : other = record.key := List.mem_singleton.mp hother
      rwa [← hother, ← heq]
    · refine List.forall_mem_append.mpr
        ⟨fun pair hpair => ?_, List.forall_mem_singleton.mpr ⟨record, by simp, rfl⟩⟩
      obtain ⟨owner, howner, hpair⟩ := h.listed pair hpair
      exact ⟨owner, List.mem_append_left _ howner, hpair⟩
    · refine List.forall_mem_append.mpr
        ⟨fun other hother => ?_, List.forall_mem_singleton.mpr (by simp)⟩
      rw [List.map_append]
      exact List.mem_append_left _ (h.covers other hother)

/-- Records of one key have one entry. -/
def Consistent (records : List SourceRecord) : Prop :=
  ∀ first ∈ records, ∀ second ∈ records, first.key = second.key → first.entry = second.entry

def text_digest (text : String) : String := sha256 (control_plane.encode text)

theorem digest_eq (value : Json) : digest value = text_digest (canonical_json value) := by
  rw [digest, text_digest]

/-- What consistent records leave behind does not depend on their order and repetitions. -/
theorem Gathered.congr {others : List SourceRecord} {by_key' : List (String × Json)}
    (h : Gathered records by_key) (h' : Gathered others by_key')
    (hsame : ∀ record, record ∈ records ↔ record ∈ others) (hconsistent : Consistent records) :
    Json.sortFields by_key = Json.sortFields by_key' := by
  have hmem : ∀ {records others : List SourceRecord} {by_key by_key' : List (String × Json)},
    Gathered records by_key →
      Gathered others by_key' → (∀ record ∈ records, record ∈ others) → Consistent others →
        ∀ pair ∈ by_key, pair ∈ by_key' := by
    intro records others by_key by_key' h h' hsub hconsistent pair hpair
    obtain ⟨record, hrecord, rfl⟩ := h.listed pair hpair
    obtain ⟨found, hfound, hname⟩ := List.mem_map.mp (h'.covers record (hsub record hrecord))
    obtain ⟨owner, howner, rfl⟩ := h'.listed found hfound
    have hname : owner.key = record.key := hname
    rwa [← hname, hconsistent record (hsub record hrecord) owner howner hname.symm]
  have hothers : Consistent others := fun first hfirst second hsecond =>
    hconsistent first ((hsame first).mpr hfirst) second ((hsame second).mpr hsecond)
  have hnodup : ∀ {fields : List (String × Json)}, (fields.map Prod.fst).Nodup → fields.Nodup :=
    List.Nodup.of_map Prod.fst
  refine Json.sortFields_congr h.keys
    ((List.perm_ext_iff_of_nodup (hnodup h.keys) (hnodup h'.keys)).mpr fun pair => ?_)
  exact ⟨hmem h h' (fun record => (hsame record).mp) hothers pair,
    hmem h' h (fun record => (hsame record).mpr) hconsistent pair⟩

variable [Unicode]

theorem collect_cons_ok (hwell : record.payload.WellFormed) :
    collect (record :: records) by_key = .ok result ↔ Acceptable record ∧
      (by_key.lookup record.key).all (fun prior => prior.equal record.entry) = true ∧
      collect records (put by_key record.key record.entry) = .ok result := by
  simp only [collect, Except.bind_eq_ok, record_payload_ok hwell, demand_eq_ok]
  constructor
  · rintro ⟨_, ⟨hplain, rfl⟩, _, hrecord, _, hprior, hrest⟩
    exact ⟨⟨hwell, hplain, ((record_from_payload_ok hwell).mp hrecord).1⟩, hprior, hrest⟩
  · rintro ⟨⟨_, hplain, hrecordable⟩, hprior, hrest⟩
    exact ⟨_, ⟨hplain, rfl⟩, _, (record_from_payload_ok hwell).mpr ⟨hrecordable, rfl⟩,
      (), hprior, hrest⟩

theorem collect_ok (hwell : ∀ record ∈ records, record.payload.WellFormed)
    (h : Gathered seen by_key) (hcollect : collect records by_key = .ok result) :
    Gathered (seen ++ records) result ∧ ∀ record ∈ records, Acceptable record := by
  induction records generalizing seen by_key with
  | nil =>
    obtain rfl := Except.ok.inj hcollect
    exact ⟨by rwa [List.append_nil], List.forall_mem_nil _⟩
  | cons record rest ih =>
    obtain ⟨hrecord, hrest⟩ := List.forall_mem_cons.mp hwell
    obtain ⟨haccept, _, hcollect⟩ := (collect_cons_ok hrecord).mp hcollect
    obtain ⟨hgathered, hall⟩ := ih hrest (h.put record) hcollect
    rw [List.append_assoc] at hgathered
    exact ⟨hgathered, List.forall_mem_cons.mpr ⟨haccept, hall⟩⟩

/-- Records with different keys are all listed, in their order. -/
theorem collect_distinct (haccept : ∀ record ∈ records, Acceptable record)
    (hkeys : (by_key.map Prod.fst ++ records.map SourceRecord.key).Nodup) :
    collect records by_key =
      .ok (by_key ++ records.map fun record => (record.key, record.entry)) := by
  induction records generalizing by_key with
  | nil => rw [List.map_nil, List.append_nil, collect]
  | cons record rest ih =>
    obtain ⟨hrecord, hrest⟩ := List.forall_mem_cons.mp haccept
    have habsent : record.key ∉ by_key.map Prod.fst := fun hmem =>
      (List.nodup_append.mp hkeys).2.2 _ hmem _ (by simp) rfl
    have hlookup : by_key.lookup record.key = none := by
      refine List.lookup_eq_none_iff.mpr fun pair hpair => ?_
      have hne : record.key ≠ pair.1 :=
        fun heq => habsent (by rw [heq]; exact List.mem_map_of_mem hpair)
      simpa using hne
    refine (collect_cons_ok hrecord.wellFormed).mpr ⟨hrecord, by simp [hlookup], ?_⟩
    rw [put, if_neg habsent, ih hrest (by simpa using hkeys)]
    simp

/-- Records of different resources have different keys: a key that two of them share is refused,
    as their entries differ. -/
theorem collect_keys (hwell : ∀ record ∈ seen ++ records, record.payload.WellFormed)
    (h : Gathered seen by_key) (hids : ((seen ++ records).map SourceRecord.source_id).Nodup)
    (hkeys : (seen.map SourceRecord.key).Nodup) (hcollect : collect records by_key = .ok result) :
    ((seen ++ records).map SourceRecord.key).Nodup := by
  induction records generalizing seen by_key with
  | nil => rwa [List.append_nil]
  | cons record rest ih =>
    have hrecord : record.payload.WellFormed := hwell record (by simp)
    obtain ⟨haccept, hprior, hcollect⟩ := (collect_cons_ok hrecord).mp hcollect
    have hshape : seen ++ record :: rest = (seen ++ [record]) ++ rest := by simp
    rw [hshape] at hwell hids ⊢
    refine ih hwell (h.put record) hids ?_ hcollect
    rw [List.map_append, List.map_singleton]
    refine List.nodup_append'.mpr
      ⟨hkeys, List.nodup_singleton _, List.disjoint_singleton.mpr fun hmem => ?_⟩
    obtain ⟨first, hfirst, hkey⟩ := List.mem_map.mp hmem
    obtain ⟨pair, hpair, hname⟩ := List.mem_map.mp (h.covers first hfirst)
    obtain ⟨owner, howner, rfl⟩ := h.listed pair hpair
    have hlookup : by_key.lookup record.key = some owner.entry := by
      rw [← hname.trans hkey]
      exact lookup_of_mem h.keys hpair
    rw [hlookup, Option.all_some] at hprior
    -- the two entries compare equal, so that they are of one resource
    have hid := Json.equal_item hprior "source_id"
    rw [SourceRecord.entry_item (hwell owner (by simp [howner])) (by simp) (by simp),
      SourceRecord.entry_item hrecord (by simp) (by simp), SourceRecord.payload_source_id,
      SourceRecord.payload_source_id] at hid
    have htext := haccept.recordable.texts "source_id" (by simp)
    rw [SourceRecord.payload_source_id] at htext
    have hsame : owner.source_id = record.source_id := by
      rw [isNonblank_text htext] at hid ⊢
      exact Json.equal_str.mp hid
    rw [List.map_append, List.map_append, List.map_singleton] at hids
    have hfresh := (List.nodup_append'.mp (List.nodup_append'.mp hids).1).2.2
    exact List.disjoint_singleton.mp hfresh (List.mem_map.mpr ⟨owner, howner, hsame⟩)

theorem collect_nil_keys (hwell : ∀ record ∈ records, record.payload.WellFormed)
    (hids : (records.map SourceRecord.source_id).Nodup)
    (hcollect : collect records [] = .ok result) :
    (records.map SourceRecord.key).Nodup := by
  have hkeys : (([] ++ records).map SourceRecord.key).Nodup :=
    collect_keys hwell Gathered.nil hids List.nodup_nil hcollect
  rwa [List.nil_append] at hkeys

theorem collect_total (haccept : ∀ record ∈ records, Acceptable record) (h : Gathered seen by_key)
    (hconsistent : Consistent (seen ++ records)) :
    ∃ result, collect records by_key = .ok result := by
  induction records generalizing seen by_key with
  | nil => exact ⟨by_key, rfl⟩
  | cons record rest ih =>
    obtain ⟨hrecord, hrest⟩ := List.forall_mem_cons.mp haccept
    have hshape : seen ++ record :: rest = (seen ++ [record]) ++ rest := by simp
    obtain ⟨result, hresult⟩ := ih hrest (h.put record) (hshape ▸ hconsistent)
    refine ⟨result, (collect_cons_ok hrecord.wellFormed).mpr ⟨hrecord, ?_, hresult⟩⟩
    cases hlookup : by_key.lookup record.key with
    | none => rfl
    | some prior =>
      obtain ⟨owner, howner, hpair⟩ := h.listed _ (mem_of_lookup hlookup)
      obtain ⟨hkey, hprior⟩ := Prod.mk.inj hpair
      have hsame := hconsistent owner (by simp [howner]) record (by simp) hkey.symm
      rw [Option.all_some, hprior, hsame]
      exact Json.equal_refl _

end Collect

end discovery
