import PepeuchCluster.Discovery.ManualRun

namespace discovery

section Entries

variable {request snapshot provenance context issuer result : Json}

/-- A key that is put into a dictionary is there once. -/
theorem put_keys {pairs : List (String × Json)} (h : (pairs.map Prod.fst).Nodup) (key : String)
    (entry : Json) :
    ((put pairs key entry).map Prod.fst).Nodup := by
  unfold put
  split
  · have hsame : (pairs.map fun pair => if pair.1 = key then (key, entry) else pair).map Prod.fst =
        pairs.map Prod.fst := by
      rw [List.map_map]
      refine List.map_congr_left fun pair _ => ?_
      by_cases hpair : pair.1 = key
      · rw [Function.comp, if_pos hpair, hpair]
      · rw [Function.comp, if_neg hpair]
    rwa [hsame]
  · next hnew =>
    rw [List.map_append, List.map_singleton]
    exact h.append (List.nodup_singleton _) (List.disjoint_singleton.mpr hnew)

theorem put_values {pairs : List (String × Json)} {P : Json → Prop}
    (h : ∀ pair ∈ pairs, P pair.2) {key : String} {entry : Json} (hentry : P entry) :
    ∀ pair ∈ put pairs key entry, P pair.2 := by
  intro pair hpair
  unfold put at hpair
  split at hpair
  · obtain ⟨old, hold, rfl⟩ := List.mem_map.mp hpair
    split
    · exact hentry
    · exact h old hold
  · rcases List.mem_append.mp hpair with hold | hnew
    · exact h pair hold
    · rw [List.mem_singleton.mp hnew]
      exact hentry

theorem revisions_of_wellFormed {records : List Json} (h : ∀ record ∈ records, record.WellFormed) :
    (revisions_of records).WellFormed := by
  have hfold : ∀ (records : List Json) (pairs : List (String × Json)),
    (∀ record ∈ records, record.WellFormed) →
      (pairs.map Prod.fst).Nodup → (∀ pair ∈ pairs, pair.2.WellFormed) →
      (Json.dict
        (records.foldl (fun revisions record => put revisions (record.item "source_id").text
          (record.item "source_revision")) pairs)).WellFormed := by
    intro records
    induction records with
    | nil => exact fun pairs _ hkeys hvalues => Json.dict_wellFormed hkeys hvalues
    | cons record records ih =>
      intro pairs hrecords hkeys hvalues
      obtain ⟨hrecord, hrest⟩ := List.forall_mem_cons.mp hrecords
      exact ih _ hrest (put_keys hkeys _ _) (put_values hvalues (hrecord.item _))
  exact hfold records [] h List.nodup_nil (List.forall_mem_nil _)

variable [Unicode]

/-- ASCII keys that fold to no secret are kept in documents. -/
theorem spared_ascii {keys : List String}
    (hascii : ∀ key ∈ keys, key.toList.all (fun c => c.toNat < 128) = true ∧
      key.toList.all (fun c => c.toLower.toNat < 128) = true ∧
      String.ofList ((key.toList.map Char.toLower).filter Char.isAlphanum) ∉ SECRET_KEYS) :
    ∀ key ∈ keys, folded key ∉ SECRET_KEYS := by
  intro key hkey
  obtain ⟨hkeys, hlower, hfree⟩ := hascii key hkey
  rwa [folded_ascii (by simpa using hkeys) (by simpa using hlower)]

/-- A descriptor of a checkpoint. -/
theorem descriptor_ok (identity : String) (hrequest : request.WellFormed) (hplain : Plain request) :
    let descriptor := Json.dict [("request", request), ("identity", .str identity)]
    descriptor.WellFormed ∧ Plain descriptor ∧ descriptor.HasKeys RESUME_FIELDS ∧
      descriptor.item "request" = request ∧ descriptor.item "identity" = .str identity := by
  have hspared : ∀ key ∈ RESUME_FIELDS, folded key ∉ SECRET_KEYS := spared_ascii (by decide)
  refine ⟨Json.dict_wellFormed (by simp) ?_, plain_dict ?_,
    Json.hasKeys_dict RESUME_FIELDS rfl, ?_, ?_⟩
  · simp only [List.forall_mem_cons, List.not_mem_nil, false_implies, implies_true, and_true]
    exact ⟨hrequest, trivial⟩
  · simp only [List.forall_mem_cons, List.not_mem_nil, false_implies, implies_true, and_true]
    exact ⟨⟨hspared _ (by decide), hplain⟩, hspared _ (by decide), plain_str _⟩
  · rw [Json.item_dict (by simp)]
    rfl
  · rw [Json.item_dict (by simp)]
    rfl

/-- The request for the planned resources of a task. -/
theorem cache_request_planned {source selection revisions : Json} {ids : List String}
    (hselection : selection.WellFormed) (hcontext : context.WellFormed)
    (hrevisions : revisions.WellFormed)
    (h : cache_request source selection (.arr (ids.map Json.str)) context revisions = .ok result) :
    result = .dict [("source", source), ("selection", selection),
      ("resources", .arr ((ids.insertionSort (· ≤ ·)).map Json.str)), ("context", context),
        ("revisions", revisions)] := by
  simp only [cache_request, iterate, Except.bind_eq_ok, Except.pure_eq_ok, demand_eq_ok,
    copy_metadata_eq_ok hrevisions, validation_context_ok hcontext] at h
  obtain ⟨_, hsafe, items, hitems, refs, hrefs, _, _, _, _, _, _, _, ⟨_, rfl⟩, _, _, _,
    ⟨_, rfl⟩, rfl⟩ := h
  obtain ⟨rfl, _⟩ := safe_selection_ok hselection hsafe
  obtain rfl := Except.ok.inj hitems
  have hids : refs.map ResourceRef.source_id = ids := by
    have hall := Except.mapM_eq_ok.mp hrefs
    rw [List.forall₂_map_left_iff] at hall
    rw [← List.forall₂_eq_eq_eq, List.forall₂_map_left_iff]
    refine hall.flip.imp fun ref id href => ?_
    exact (Json.str.inj (resource_ref_ok href).2).symm
  rw [hids]

theorem ManualPlan.descriptors_wellFormed (plan : ManualPlan) : plan.descriptors.WellFormed := by
  unfold descriptors
  split
  · exact Json.dict_wellFormed List.nodup_nil (List.forall_mem_nil _)
  · exact plan.resume.wellFormed

variable [Datetime] {now : Now}

theorem make_provenance_kind {kind : String} {key : Option (List UInt8)}
    (hsnapshot : snapshot.WellFormed) (hcontext : context.WellFormed) (hissuer : issuer.WellFormed)
    (h : make_provenance now snapshot kind context issuer key = .ok provenance) :
    provenance.item "kind" = .str kind ∧ provenance.WellFormed := by
  simp only [make_provenance, Except.bind_eq_ok, Except.pure_eq_ok, demand_eq_ok,
    snapshot_copy_ok hsnapshot, validation_context_ok hcontext] at h
  obtain ⟨data, ⟨_, rfl⟩, _, _, _, ⟨_, rfl⟩, _, _, attested, hattested, rfl⟩ := h
  have hattestation : attested.WellFormed := by
    unfold attestation at hattested
    split at hattested
    · exact Except.ok.inj hattested ▸ trivial
    · simp only [Except.bind_eq_ok, Except.pure_eq_ok] at hattested
      obtain ⟨_, _, rfl⟩ := hattested
      trivial
  refine ⟨?_, manifest_wellFormed hsnapshot hcontext hissuer hattestation⟩
  rw [manifest_item]
  simp [manifest_of]

/-- The entry of an observation, for the plan that it was made for. -/
theorem archived_entry_ok {plan : ManualPlan} {task : SourceTask} (hsnapshot : snapshot.WellFormed)
    (h : archived_entry now plan task snapshot = .ok result) :
    result.WellFormed ∧ result.item "snapshot" = snapshot ∧ Resumable plan task result := by
  have hcontext : (plan.context task.source).WellFormed := by
    unfold ManualPlan.context
    cases plan.contexts.lookup task.source with
    | none => trivial
    | some context => exact context.wellFormed
  have hrevisions : (revisions_of (elements (snapshot.item "records"))).WellFormed :=
    revisions_of_wellFormed (Json.wellFormedItems_iff.mp (elements_wellFormed (hsnapshot.item _)))
  simp only [archived_entry, Except.bind_eq_ok] at h
  obtain ⟨request, hrequest, provenance, hprovenance, hmade⟩ := h
  obtain rfl := cache_request_planned task.wellFormed hcontext hrevisions hrequest
  have hnull : Json.null.WellFormed := trivial
  have hkind : (provenance.item "kind").equal (.str "synthetic") = task.synthetic ∧
      (provenance.item "kind").equal (.str "historical_unknown") = false ∧
      provenance.WellFormed := by
    unfold provenance_of at hprovenance
    split at hprovenance
    · next hsynthetic =>
      obtain ⟨hkind, hwell⟩ := make_provenance_kind hsnapshot hcontext hnull hprovenance
      rw [hkind, hsynthetic]
      exact ⟨Json.equal_refl _, by simp [Json.equal], hwell⟩
    · next hcontrolled =>
      obtain ⟨hkind, hwell⟩ :=
        make_provenance_kind hsnapshot hcontext plan.issuer.wellFormed hprovenance
      rw [hkind, eq_false_of_ne_true hcontrolled]
      exact ⟨by simp [Json.equal], by simp [Json.equal], hwell⟩
  obtain ⟨hsynthetic, hknown, hprovenance⟩ := hkind
  have hfields : (Json.dict [("source", .str task.source), ("selection", task.selection),
      ("resources", sorted_ids task), ("context", plan.context task.source),
      ("revisions", revisions_of (elements (snapshot.item "records")))]).WellFormed := by
    refine Json.dict_wellFormed (by simp) ?_
    simp only [List.forall_mem_cons, List.not_mem_nil, false_implies, implies_true, and_true]
    exact ⟨trivial, task.wellFormed, texts_wellFormed _, hcontext, hrevisions⟩
  have hvalidators : (Json.dict [("etag", .null), ("last_modified", .null)]).WellFormed := by
    refine Json.dict_wellFormed (by simp) ?_
    simp only [List.forall_mem_cons, List.not_mem_nil, false_implies, implies_true, and_true]
    exact ⟨trivial, trivial⟩
  obtain ⟨rfl, _⟩ := make_cache_ok hfields hsnapshot hprovenance hvalidators hmade
  refine ⟨cache_document_wellFormed hfields hsnapshot hprovenance hvalidators, ?_, ?_⟩
  · simp [cache_document_item]
  · simp only [Resumable, cache_document_item, List.find?, beq_self_eq_true, Option.map_some,
      Option.getD_some, String.reduceBEq, request_item]
    exact ⟨Json.equal_refl _, Json.equal_refl _, Json.equal_refl _, Json.equal_refl _,
      hsynthetic, hknown⟩

end Entries

section Archives

variable [Unicode] [Datetime] {plan : ManualPlan} {task : SourceTask} {archive after : Archive}
  {event : ManualEvent}
  {entry : Value} {saved : Json → Prop} {now : Now} {trusted_issuers : String → Option (List UInt8)}

theorem Sound.settled (h : Sound saved archive) (result : Except Failure Json) :
    Sound saved (settle result archive) :=
  ⟨rfl, h.lock, h.complete⟩

/-- What a load returns is the entry whose identity and request were given. -/
theorem Sound.loaded_entry {request identity value : Json} (h : Sound saved archive)
    (hrequest : request.WellFormed)
    (hloaded : Loaded now trusted_issuers archive request identity value) :
    ∃ entry : Value, entry.json = value ∧
      identity = .str (identity_of value) ∧ request = value.item "request" ∧
      archive.files (file_of (identity_of value)) = some ⟨checkpoint_bytes value, true⟩ ∧
      (checkpoint_bytes value).length ≤ MAX_BYTES ∧ Cached now trusted_issuers value := by
  obtain ⟨text, rfl, hidentity⟩ := hloaded.named
  obtain ⟨file, data, hfile, hdocument, hvalid, _⟩ := hloaded.read
  obtain ⟨entry, _, ⟨_, _, hcached⟩, hsize, rfl, rfl⟩ := h.complete text hidentity file hfile
  obtain rfl := hloaded.whole hcached.plain hfile
  rw [read_document_checkpoint entry.wellFormed hcached.plain] at hdocument
  obtain rfl := Except.ok.inj hdocument
  have hentry : (checkpoint_document entry.json).item "entry" = entry.json := by
    simp [checkpoint_item]
  rw [hentry] at hvalid
  obtain ⟨canonical, hcanonical, _, hequal⟩ := hloaded.partition
  obtain ⟨rfl, hrequested⟩ := canonical_request_ok hrequest hcanonical
  refine ⟨entry, rfl, rfl, ?_, hfile, hsize, ((validate_cache_ok entry.wellFormed).mp hvalid).2⟩
  exact (Canonical.eq_of_equal (entry.wellFormed.item _) hrequest hcached.parts.canonical
    hrequested hequal).symm

/-- The event of a source, with the entry that its checkpoint holds in the archive. -/
structure Entrusted (plan : ManualPlan) (task : SourceTask) (archive : Archive)
    (event : ManualEvent) (entry : Value) :
    Prop where
  source : event.source = task.source
  absolute : isAbsolute plan.archive = true
  owned : archive.owned = true
  file : archive.files (file_of (identity_of entry.json)) = some ⟨checkpoint_bytes entry.json, true⟩
  size : (checkpoint_bytes entry.json).length ≤ MAX_BYTES
  cached : ∃ now, Cached now plan.trusted_issuers entry.json
  resumable : Resumable plan task entry.json
  keys : event.resume.HasKeys RESUME_FIELDS
  request : event.resume.item "request" = entry.json.item "request"
  identity : event.resume.item "identity" = .str (identity_of entry.json)
  plain : Plain event.resume
  wellFormed : event.resume.WellFormed
  snapshot_id : event.snapshot_id = (entry.json.item "snapshot").item "snapshot_id"
  captured_at : event.captured_at = (entry.json.item "snapshot").item "captured_at"
  published : ∀ result, event.execution = some result →
    result.snapshot = some (entry.json.item "snapshot")

namespace Entrusted

theorem later (h : Entrusted plan task archive event entry) (hextends : Extends archive after) :
    Entrusted plan task after event entry :=
  { h with
    owned := hextends.owned.trans h.owned
    file := hextends.checkpoint _ (isIdentity_identity entry.json) _ h.file }

/-- Its descriptor loads the entry. -/
theorem loads (h : Entrusted plan task archive event entry) (now : Now) :
    load_checkpoint now plan.trusted_issuers plan.archive (event.resume.item "request")
      (event.resume.item "identity")
      ⟨archive, []⟩ = (.ok entry.json, ⟨archive, []⟩) := by
  obtain ⟨before, hcached⟩ := h.cached
  have hruns : Runs True (fun start => start = archive)
    (load_checkpoint now plan.trusted_issuers plan.archive
      (entry.json.item "request") (.str (identity_of entry.json))) _ _ :=
    load_runs entry.wellFormed (hcached.rechecked entry.wellFormed) h.file rfl fun _ =>
      ⟨h.absolute, h.owned, rfl, h.size⟩
  obtain ⟨hvalue, hfail⟩ := hruns ⟨archive, []⟩ ⟨rfl, fun _ => rfl⟩
  rw [h.request, h.identity]
  cases hcase : load_checkpoint now plan.trusted_issuers plan.archive (entry.json.item "request")
      (.str (identity_of entry.json)) ⟨archive, []⟩ with
  | mk result process =>
    cases result with
    | ok value =>
      obtain ⟨⟨rfl, hstart⟩, hfates⟩ := hvalue value process hcase
      obtain ⟨files, fates⟩ := process
      obtain rfl : files = archive := hstart
      obtain rfl : fates = [] := hfates trivial
      rfl
    | error failure => exact absurd trivial (hfail failure process hcase).2

end Entrusted

end Archives

section Calls

variable {P : Workshop → Prop} {α : Type}

theorem Manual.checked_spec (result : Except Failure α) : Effect.Triple P (Manual.checked result)
    (fun a w => P w ∧ result = .ok a) (fun _ w => P w) := by
  refine Effect.Triple.ofExcept (fun w a hw ha => ⟨hw, ?_⟩) fun w _ hw _ => hw
  cases result with
  | ok b => exact congrArg _ (Except.ok.inj ha)
  | error failure => cases ha

/-- The event is told, whether it is accepted or refused. -/
theorem Manual.tell_spec {Q : Workshop → Prop} {E : Halt → Workshop → Prop} {event : ManualEvent}
    (hok : ∀ w, P w → Q { w with told := w.told ++ [event] })
    (hrefused : ∀ w, P w → E .refused_event { w with told := w.told ++ [event] }) :
    Effect.Triple P (Manual.tell event) (fun _ w => Q w) E := by
  intro w h
  cases haccepts : w.accepts w.told.length with
  | true => exact Effect.Triple.returns (a := ()) (by simp [Manual.tell, haccepts]) (hok w h)
  | false =>
    exact Effect.Triple.fails (e := .refused_event) (by simp [Manual.tell, haccepts]) (hrefused w h)

/-- A call on the archive leaves the rest of the workshop alone. -/
theorem Manual.on_archive_spec {call : Call α} {Q : α → Archive → Prop}
    {E : Failure → Archive → Prop} {w : Workshop}
    (h : Runs False (fun archive => archive = w.process.archive) call Q E) :
    Effect.Triple (· = w) (Manual.on_archive call)
      (fun a v => ∃ process, call w.process = (.ok a, process) ∧ v = { w with process } ∧
        Q a process.archive)
      (fun halt v => ∃ failure process, call w.process = (.error failure, process) ∧
        halt = .failure failure ∧ v = { w with process } ∧ E failure process.archive) := by
  rintro w rfl
  obtain ⟨hvalue, hfail⟩ := h w.process ⟨rfl, False.elim⟩
  cases hcase : call w.process with
  | mk result process =>
    cases result with
    | ok a =>
      refine Effect.Triple.returns (t := { w with process })
        (a := a) ?_ ⟨process, rfl, rfl, (hvalue a process hcase).1⟩
      simp only [Manual.on_archive, hcase, Except.mapError]
    | error failure =>
      refine Effect.Triple.fails (t := { w with process }) (e := .failure failure) ?_
        ⟨failure, process, rfl, rfl, rfl, hfail failure process hcase⟩
      simp only [Manual.on_archive, hcase, Except.mapError]

/-- The archive is there. -/
theorem in_directory_spec (root : String) (archive : Archive) :
    Runs False (fun a => a = archive) (in_directory root (pure ()))
      (fun _ a => a = archive ∧ isAbsolute root = true ∧ archive.owned = true) fun _ a =>
        a = archive := by
  refine Runs.in_directory False.elim False.elim (fun _ h => h) (fun _ _ h => h.1)
    (fun _ _ h => ⟨h, id⟩)
    (fun _ _ h _ _ => h) fun hroot => Runs.pure ?_
  rintro a ⟨rfl, howned⟩
  exact ⟨rfl, hroot, howned⟩

end Calls

section Runs

variable [Unicode] [Datetime] {plan : ManualPlan} {task : SourceTask}
  {start : Archive} {w : Workshop}
  {told : List ManualEvent} {left : List String}

/-- What ends a call on the archive ends it for the lock as well. -/
def halted : Halt → Except Failure Json
  | .failure failure => .error failure
  | _ => .ok .null

def ended : Except Halt ManualReport → Except Failure Json
  | .ok _ => .ok .null
  | .error halt => halted halt

/-- Every complete event has its checkpoint. -/
def Backed (plan : ManualPlan) (w : Workshop) : Prop :=
  ∀ event ∈ w.told, event.complete = true →
    ∃ task ∈ plan.tasks, ∃ entry, Entrusted plan task w.process.archive event entry

/-- The second loop, with the events that it has told and the sources that are left. -/
structure Going (plan : ManualPlan) (start : Archive) (told : List ManualEvent) (left : List String)
    (w : Workshop) :
    Prop where
  absolute : isAbsolute plan.archive = true
  owned : w.process.archive.owned = true
  sound : ∃ saved, Sound saved w.process.archive
  since : Extends start w.process.archive
  backed : Backed plan w
  order : told.map ManualEvent.source ++ left = plan.sources
  told : w.told = told

structure Stopped (plan : ManualPlan) (start : Archive) (halt : Halt) (w : Workshop) : Prop where
  sound : ∃ saved, Sound saved (settle (halted halt) w.process.archive)
  since : Extends start w.process.archive
  backed : Backed plan w
  order : w.told.map ManualEvent.source <+: plan.sources

theorem Going.stopped (h : Going plan start told left w) (halt : Halt) :
    Stopped plan start halt w := by
  refine ⟨h.sound.imp fun _ h => h.settled _, h.since, h.backed, left, ?_⟩
  rw [h.told]
  exact h.order

/-- The descriptor of the task names a checkpoint of its own. -/
def Vouched (plan : ManualPlan) (archive : Archive) (resume : Json) (task : SourceTask) : Prop :=
  task.source ∈ resume.entries.map Prod.fst →
    ∃ entry : Value, (resume.item task.source).HasKeys RESUME_FIELDS ∧
    (resume.item task.source).item "request" = entry.json.item "request" ∧
    (resume.item task.source).item "identity" = .str (identity_of entry.json) ∧
    archive.files (file_of (identity_of entry.json)) = some ⟨checkpoint_bytes entry.json, true⟩ ∧
    Resumable plan task entry.json

/-- What the first loop has found for a task. -/
structure Prepared (clock : Now) (plan : ManualPlan) (epoch : Binary64)
    (archive : Archive) (resume : Json) (task : SourceTask)
    (cached : Option (Json × Binary64)) : Prop where
  vouched : Vouched plan archive resume task
  loaded : task.source ∈ resume.entries.map Prod.fst → ∃ json age,
    Loaded clock plan.trusted_issuers archive ((resume.item task.source).item "request")
      ((resume.item task.source).item "identity") json ∧
    age_of epoch ((json.item "snapshot").item "captured_at") = .ok age ∧
    cached = if age.value < plan.max_age_seconds.getD 0 then some (json, age) else none
  entrusted : ∀ json age, cached = some (json, age) →
    ∃ entry : Value, entry.json = json ∧
    Entrusted plan task archive (cached_event resume task json age) entry

/-- Nothing has been executed, told or written. -/
def Idle (start : Archive) (w : Workshop) : Prop :=
  w.process.archive = start ∧ w.executions = [] ∧ w.told = []

theorem resumed_spec (clock : Now) (epoch : Binary64) {resume : Json} (hwell : resume.WellFormed)
    (hplain : Plain resume) (hsound : ∃ saved, Sound saved start)
    (habsolute : isAbsolute plan.archive = true) (howned : start.owned = true) :
    Effect.Triple (Idle start) (resumed clock plan epoch resume task)
      (fun cached w => Idle start w ∧ Prepared clock plan epoch start resume task cached)
        (fun _ w => Idle start w) := by
  unfold resumed
  split
  · dsimp only
    refine Effect.Triple.bind
      (Effect.Triple.weaken (Manual.checked_spec _) (fun _ h => h) (fun _ _ h => h)
        fun _ _ h => h) fun _ => ?_
    have hdescriptor := hwell.item task.source
    refine Effect.Triple.bind
      (R := fun value w => Idle start w ∧ (resume.item task.source).HasKeys RESUME_FIELDS ∧
        Loaded clock plan.trusted_issuers start ((resume.item task.source).item "request")
          ((resume.item task.source).item "identity") value) ?_ fun value => ?_
    · rintro w ⟨⟨harchive, hidle⟩, hkeys⟩
      refine Effect.Triple.weaken (Manual.on_archive_spec load_ok) (fun _ h => h) ?_ ?_ w rfl
      · rintro value v ⟨process, _, rfl, hsame, hloaded⟩
        exact ⟨⟨hsame.trans harchive, hidle⟩, demand_eq_ok.mp hkeys, harchive ▸ hloaded⟩
      · rintro halt v ⟨failure, process, _, _, rfl, hsame⟩
        exact ⟨hsame.trans harchive, hidle⟩
    refine Effect.Triple.bind
      (Effect.Triple.weaken (Manual.checked_spec _) (fun _ h => h) (fun _ _ h => h)
        fun _ _ h => h.1) fun _ => ?_
    refine Effect.Triple.bind
      (Effect.Triple.weaken (Manual.checked_spec _) (fun _ h => h) (fun _ _ h => h)
        fun _ _ h => h.1.1) fun age => ?_
    refine Effect.Triple.bind
      (Effect.Triple.weaken (Manual.checked_spec _) (fun _ h => h) (fun _ _ h => h)
        fun _ _ h => h.1.1.1) fun _ => Effect.Triple.pure ?_
    rintro w ⟨⟨⟨⟨hidle, hkeys, hloaded⟩, hresumable⟩, hage⟩, _⟩
    obtain ⟨saved, hsaved⟩ := hsound
    obtain ⟨entry, rfl, hidentity, hrequest, hfile, hsize, hcached⟩ :=
      hsaved.loaded_entry (hdescriptor.item _) hloaded
    have hsuits := demand_eq_ok.mp hresumable
    refine ⟨hidle, fun _ => ⟨entry, hkeys, hrequest, hidentity, hfile, hsuits⟩,
      fun _ => ⟨entry.json, age, hloaded, hage, rfl⟩, ?_⟩
    intro json age' hfresh
    split at hfresh
    · obtain ⟨rfl, rfl⟩ := Prod.mk.inj (Option.some.inj hfresh)
      exact ⟨entry, rfl, rfl, habsolute, howned, hfile, hsize, ⟨clock, hcached⟩, hsuits, hkeys,
        hrequest, hidentity, hplain.item _, hdescriptor, rfl, rfl, fun _ h => by cases h⟩
    · cases hfresh
  · next hplanned =>
    exact Effect.Triple.pure fun w hw =>
      ⟨hw, fun h => absurd h hplanned, fun h => absurd h hplanned, fun _ _ h => by cases h⟩

theorem resumes_spec (clock : Now) (epoch : Binary64) {resume : Json} (hwell : resume.WellFormed)
    (hplain : Plain resume) (hsound : ∃ saved, Sound saved start)
    (habsolute : isAbsolute plan.archive = true) (howned : start.owned = true)
    (tasks : List SourceTask) : Effect.Triple (Idle start) (resumes clock plan epoch resume tasks)
      (fun cached w => Idle start w ∧ cached.map Prod.fst = tasks ∧
        ∀ pair ∈ cached, Prepared clock plan epoch start resume pair.1 pair.2)
      (fun _ w => Idle start w) := by
  induction tasks with
  | nil => exact Effect.Triple.pure fun w hw => ⟨hw, rfl, List.forall_mem_nil _⟩
  | cons task tasks ih =>
    refine Effect.Triple.bind (resumed_spec clock epoch hwell hplain hsound habsolute howned)
      fun cached => ?_
    refine Effect.Triple.bind (R := fun rest w => (Idle start w ∧ rest.map Prod.fst = tasks ∧
      ∀ pair ∈ rest, Prepared clock plan epoch start resume pair.1 pair.2) ∧
        Prepared clock plan epoch start resume task cached) ?_ fun rest => Effect.Triple.pure ?_
    · rintro w ⟨hidle, hfirst⟩
      exact Effect.Triple.weaken ih (fun _ h => h) (fun _ _ h => ⟨h, hfirst⟩)
        (fun _ _ h => h) w hidle
    · rintro w ⟨⟨hidle, htasks, hrest⟩, hfirst⟩
      exact ⟨hidle, congrArg _ htasks, List.forall_mem_cons.mpr ⟨hfirst, hrest⟩⟩

/-- A save that the run makes, however it ends. -/
theorem save_spec (clock : Now) (token : String) (entry : Value)
    (h : Going plan start told left w) :
    Effect.Triple (· = w)
      (Manual.on_archive (save_checkpoint clock plan.trusted_issuers plan.archive token entry.json))
      (fun identity v => Going plan start told left v ∧ identity = identity_of entry.json ∧
        v.process.archive.files (file_of (identity_of entry.json)) =
          some ⟨checkpoint_bytes entry.json, true⟩ ∧
        (checkpoint_bytes entry.json).length ≤ MAX_BYTES ∧
        Cached clock plan.trusted_issuers entry.json)
      (Stopped plan start) := by
  obtain ⟨saved, hsound⟩ := h.sound
  have hruns : Runs False (fun archive => archive = w.process.archive)
      (save_checkpoint clock plan.trusted_issuers plan.archive token entry.json) _ _ :=
    save_runs entry.wellFormed False.elim
  obtain ⟨hsound', hextends⟩ := hsound.perform
    ⟨clock, plan.trusted_issuers, w.process.fates, .save plan.archive token entry⟩
  refine Effect.Triple.weaken (Manual.on_archive_spec hruns) (fun _ h => h) ?_ ?_
  · rintro identity v ⟨process, hsave, rfl, rfl, hsaved⟩
    have hperform : perform w.process.archive
        ⟨clock, plan.trusted_issuers, w.process.fates, .save plan.archive token entry⟩ =
          (.ok (.str (identity_of entry.json)), process.archive) := by
      simp [perform, Invocation.call, Effect.bind_apply, hsave, settle_ok hsaved.released]
    rw [hperform] at hsound' hextends
    refine ⟨⟨h.absolute, hextends.owned.trans h.owned, ⟨_, hsound'⟩, h.since.trans hextends, ?_,
      h.order, h.told⟩, rfl, hsaved.stays hsound', hsaved.size, hsaved.cached⟩
    intro event hevent hcomplete
    obtain ⟨task, htask, other, hother⟩ := h.backed event hevent hcomplete
    exact ⟨task, htask, other, hother.later hextends⟩
  · rintro halt v ⟨failure, process, hsave, rfl, rfl, _⟩
    have hperform : perform w.process.archive
        ⟨clock, plan.trusted_issuers, w.process.fates, .save plan.archive token entry⟩ =
          (.error failure, settle (.error failure) process.archive) := by
      simp [perform, Invocation.call, Effect.bind_apply, hsave]
    rw [hperform] at hsound' hextends
    have hkept : Extends w.process.archive process.archive :=
      ⟨hextends.owned, hextends.lock, hextends.checkpoint⟩
    refine ⟨⟨_, hsound'⟩, h.since.trans hkept, ?_, (h.stopped (.failure failure)).order⟩
    intro event hevent hcomplete
    obtain ⟨task, htask, other, hother⟩ := h.backed event hevent hcomplete
    exact ⟨task, htask, other, hother.later hkept⟩

/-- The checkpoint of a snapshot is there before its event is told. -/
theorem archived_spec (clock : Now) (epoch : Binary64) {result : SourceResult} {snapshot : Json}
    (hsnapshot : result.snapshot = some snapshot) (hwell : snapshot.WellFormed) :
    Effect.Triple (Going plan start told left) (archived clock plan epoch task result snapshot)
      (fun event w => Going plan start told left w ∧ event.source = task.source ∧
        ∃ entry, Entrusted plan task w.process.archive event entry)
      (Stopped plan start) := by
  refine Effect.Triple.bind
    (Effect.Triple.weaken (Manual.checked_spec _) (fun _ h => h) (fun _ _ h => h.1)
      fun halt _ h => h.stopped halt) fun age => ?_
  refine Effect.Triple.bind
    (Effect.Triple.weaken (Manual.checked_spec _) (fun _ h => h) (fun _ _ h => h.1)
      fun halt _ h => h.stopped halt) fun _ => ?_
  refine Effect.Triple.bind
    (Effect.Triple.weaken (Manual.checked_spec _) (fun _ h => h) (fun _ _ h => h)
      fun halt _ h => h.stopped halt) fun json => ?_
  refine Effect.Triple.bind (R := fun _ w => Going plan start told left w ∧
    archived_entry clock plan task snapshot = .ok json) ?_ fun token => ?_
  · rintro w ⟨h, hentry⟩
    exact Effect.Triple.returns rfl
      ⟨⟨h.absolute, h.owned, h.sound, h.since, h.backed, h.order, h.told⟩, hentry⟩
  rintro w ⟨h, hentry⟩
  obtain ⟨hjson, hitem, hresumable⟩ := archived_entry_ok hwell hentry
  let entry : Value := ⟨json, hjson⟩
  refine Effect.Triple.bind (save_spec clock token entry h)
    (fun identity => Effect.Triple.pure ?_) w rfl
  rintro v ⟨hgoing, rfl, hfile, hsize, hcached⟩
  obtain ⟨hdescriptor, hplain, hkeys, hrequest, hidentity⟩ :=
    descriptor_ok (identity_of json) (hjson.item "request") (hcached.plain.item "request")
  refine ⟨hgoing, rfl, entry, rfl, hgoing.absolute, hgoing.owned, hfile, hsize, ⟨clock, hcached⟩,
    hresumable, hkeys, hrequest, hidentity, hplain, hdescriptor, ?_, ?_, ?_⟩
  · exact congrArg (Json.item "snapshot_id") hitem.symm
  · exact congrArg (Json.item "captured_at") hitem.symm
  · intro other hother
    obtain rfl := Option.some.inj hother
    exact hsnapshot.trans (congrArg some hitem.symm)

/-- What is told is backed in any case. -/
theorem Going.told_event {event : ManualEvent} (h : Going plan start told (task.source :: left) w)
    (htask : task ∈ plan.tasks) (hsource : event.source = task.source)
    (hevent : event.complete = true → ∃ entry, Entrusted plan task w.process.archive event entry) :
    Going plan start (told ++ [event]) left { w with told := w.told ++ [event] } := by
  refine ⟨h.absolute, h.owned, h.sound, h.since, ?_, ?_, congrArg (· ++ [event]) h.told⟩
  · intro other hother hcomplete
    rcases List.mem_append.mp hother with hold | hnew
    · exact h.backed other hold hcomplete
    · obtain rfl := List.mem_singleton.mp hnew
      obtain ⟨entry, hentry⟩ := hevent hcomplete
      exact ⟨task, htask, entry, hentry⟩
  · rw [List.map_append, List.map_singleton, hsource, List.append_assoc]
    exact h.order

/-- The arguments of a plan that is accepted. -/
structure Plannable (plan : ManualPlan) (epoch : Binary64) : Prop where
  tasks : plan.tasks ≠ [] ∧ plan.sources.Nodup
  authorized : ∀ task ∈ plan.tasks, task.resources ⊆ task.policy.resources
  enrolled : enrolled plan = .ok ()
  fresh : ∃ age ∈ plan.max_age_seconds, 0 ≤ age ∧ age ≤ 604800
  now : timestamp plan.now = .ok epoch
  contexts : plan.contexts.map Prod.fst ⊆ plan.sources ∧ plan.sources ⊆ plan.contexts.map Prod.fst
  aliases : ∀ context ∈ plan.contexts, ∃ value, validation_context context.2.json = .ok value
  plain : Plain plan.descriptors
  resume : isObject plan.descriptors = true ∧ plan.descriptors.entries.map Prod.fst ⊆ plan.sources

theorem manual_arguments_ok {epoch : Binary64} {resume : Json} :
    manual_arguments plan = .ok (epoch, resume) ↔
      Plannable plan epoch ∧ resume = plan.descriptors := by
  simp only [manual_arguments, Except.bind_eq_ok, Except.pure_eq_ok, demand_eq_ok,
    Except.forM_eq_ok, copy_metadata_eq_ok plan.descriptors_wellFormed]
  constructor
  · rintro ⟨_, htasks, _, hauthorized, _, henrolled, _, hfresh, epoch', hnow, _,
      hcontexts, _, haliases, _, ⟨hplain, rfl⟩, _, hresume, heq⟩
    obtain ⟨rfl, rfl⟩ := Prod.mk.inj heq
    exact ⟨⟨htasks, hauthorized, henrolled, hfresh, hnow, hcontexts,
      fun context hcontext => (haliases context hcontext).imp fun _ h => h.1, hplain, hresume⟩, rfl⟩
  · rintro ⟨h, rfl⟩
    exact ⟨(), h.tasks, (), h.authorized, (), h.enrolled, (), h.fresh, epoch, h.now,
      (), h.contexts, (), fun context hcontext => (h.aliases context hcontext).imp fun _ h =>
        ⟨h, trivial⟩, _, ⟨h.plain, rfl⟩, (),
      h.resume, rfl⟩

/-- How a run has ended that may have told something. -/
structure Told (plan : ManualPlan) (start : Archive) (ending : Except Halt ManualReport)
    (w : Workshop) : Prop where
  sound : ∃ saved, Sound saved (settle (ended ending) w.process.archive)
  since : Extends start w.process.archive
  backed : Backed plan w
  order : w.told.map ManualEvent.source <+: plan.sources
  vouched : Idle start w ∨ (∃ epoch, Plannable plan epoch) ∧ ∀ task ∈ plan.tasks,
    Vouched plan start plan.descriptors task
  reported : ∀ report, ending = .ok report → report.sources = w.told ∧
    report.requested_sources = plan.sources ∧ w.told.map ManualEvent.source = plan.sources ∧
    report.complete = w.told.all ManualEvent.complete

/-- What ends a run before its second loop has changed nothing. -/
theorem Idle.stopped (h : Idle start w) (hsound : ∃ saved, Sound saved start) (halt : Halt) :
    Stopped plan start halt w := by
  obtain ⟨rfl, _, htold⟩ := h
  refine ⟨hsound.imp fun _ h => h.settled _, .refl _, ?_, ?_⟩
  · intro event hevent
    rw [htold] at hevent
    cases hevent
  · rw [htold]
    exact List.nil_prefix

theorem Stopped.reported {halt : Halt} (h : Stopped plan start halt w)
    (hvouched : Idle start w ∨ (∃ epoch, Plannable plan epoch) ∧
      ∀ task ∈ plan.tasks, Vouched plan start plan.descriptors task) :
    Told plan start (.error halt) w :=
  ⟨h.sound, h.since, h.backed, h.order, hvouched, fun _ hreport => by cases hreport⟩

variable [Stack]

/-- An execution ends with a result or breaks off. -/
theorem Manual.executed_spec {clock : Now} {P : Workshop → Prop}
    {Q : SourceResult → Workshop → Prop} {E : Halt → Workshop → Prop}
    (hresult : ∀ w result session, P w → Concluded clock task result session →
      Q result { w with runtime := session.runtime, executions := w.executions ++ [session.trace] })
    (hbroken : ∀ w raised session, P w → BrokenOff task raised session →
      E (.raised raised)
      { w with runtime := session.runtime, executions := w.executions ++ [session.trace] }) :
    Effect.Triple P (Manual.executed clock task) Q E := by
  intro w hw
  have hsource := execute_source_concludes clock task w.runtime
  cases hexecute : execute_source clock task (.fresh w.runtime) with
  | mk ending session =>
    rw [hexecute] at hsource
    rcases hsource with ⟨result, rfl, hconcluded⟩ | ⟨raised, rfl, hsession⟩
    · refine Effect.Triple.returns ?_ (hresult w result session hw hconcluded)
      simp only [Manual.executed, hexecute, Except.mapError]
    · refine Effect.Triple.fails ?_ (hbroken w raised session hw hsession)
      simp only [Manual.executed, hexecute, Except.mapError]

/-- A source is told complete only with its checkpoint in the archive. -/
theorem run_source_spec (clock : Now) (epoch : Binary64) {resume : Json}
    {cached : Option (Json × Binary64)}
    (hprepared : Prepared clock plan epoch start resume task cached) :
    Effect.Triple (Going plan start told left) (run_source clock plan epoch resume task cached)
      (fun event w => Going plan start told left w ∧ event.source = task.source ∧
        (event.complete = true → ∃ entry, Entrusted plan task w.process.archive event entry))
      (Stopped plan start) := by
  cases cached with
  | some found =>
    obtain ⟨json, age⟩ := found
    obtain ⟨entry, _, hentry⟩ := hprepared.entrusted json age rfl
    exact Effect.Triple.pure fun w h => ⟨h, rfl, fun _ => ⟨entry, hentry.later h.since⟩⟩
  | none =>
    refine Effect.Triple.bind (R := fun result w => Going plan start told left w ∧
      ∃ session, Concluded clock task result session) ?_ fun result => ?_
    · refine Manual.executed_spec (fun w result session h hconcluded => ?_)
        fun w raised session h _ => ?_
      · exact ⟨⟨h.absolute, h.owned, h.sound, h.since, h.backed, h.order, h.told⟩,
          session, hconcluded⟩
      · have hstopped := h.stopped (.raised raised)
        exact ⟨hstopped.sound, hstopped.since, hstopped.backed, hstopped.order⟩
    split
    · next hsuccess =>
      rintro w ⟨h, session, hconcluded⟩
      cases hsnapshot : result.snapshot with
      | none =>
        obtain ⟨hstatus, _⟩ := hconcluded.refused hsnapshot
        rw [hsuccess] at hstatus
        rcases hstatus with hstatus | hstatus <;> cases hstatus
      | some snapshot =>
        obtain ⟨_, _, _, _, _, hdelivered⟩ := hconcluded.published snapshot hsnapshot
        obtain ⟨hwell, _⟩ := hdelivered.returned
        exact Effect.Triple.weaken (archived_spec clock epoch hsnapshot hwell) (fun _ h => h)
          (fun _ _ h => ⟨h.1, h.2.1, fun _ => h.2.2⟩) (fun _ _ h => h) w h
    · next hsuccess =>
      refine Effect.Triple.pure ?_
      rintro w ⟨h, session, hconcluded⟩
      refine ⟨h, rfl, fun hcomplete => ?_⟩
      cases hsnapshot : result.snapshot with
      | none =>
        obtain ⟨_, _, hincomplete⟩ := hconcluded.refused hsnapshot
        cases hincomplete.symm.trans hcomplete
      | some snapshot => exact absurd (hconcluded.published snapshot hsnapshot).1 hsuccess

/-- The second loop, by induction on the sources that are left. -/
theorem run_sources_spec (clock : Now) (epoch : Binary64) {resume : Json}
    (pairs : List (SourceTask × Option (Json × Binary64)))
    (htasks : pairs.map Prod.fst ⊆ plan.tasks)
    (hprepared : ∀ pair ∈ pairs, Prepared clock plan epoch start resume pair.1 pair.2) :
    Effect.Triple (Going plan start told ((pairs.map Prod.fst).map SourceTask.source))
      (run_sources clock plan epoch resume pairs)
        (fun events w => Going plan start (told ++ events) [] w)
      (Stopped plan start) := by
  induction pairs generalizing told with
  | nil =>
    refine Effect.Triple.pure fun w h => ?_
    rwa [List.append_nil]
  | cons pair pairs ih =>
    obtain ⟨task, cached⟩ := pair
    obtain ⟨hfirst, hrest⟩ := List.forall_mem_cons.mp hprepared
    obtain ⟨htask, hothers⟩ := List.cons_subset.mp htasks
    refine Effect.Triple.bind (run_source_spec clock epoch hfirst) fun event => ?_
    refine Effect.Triple.bind (R := fun _ => Going plan start (told ++ [event])
      ((pairs.map Prod.fst).map SourceTask.source)) (Manual.tell_spec ?_ ?_) fun _ => ?_
    · rintro w ⟨h, hsource, hbacked⟩
      exact h.told_event htask hsource hbacked
    · rintro w ⟨h, hsource, hbacked⟩
      exact (h.told_event htask hsource hbacked).stopped _
    · refine Effect.Triple.bind (ih hothers hrest) fun events => Effect.Triple.pure fun w h => ?_
      rwa [List.append_assoc] at h

/-- A run is its second loop, or has done nothing. -/
theorem run_manual_rule {clock : Now} {Q : ManualReport → Workshop → Prop}
    {E : Halt → Workshop → Prop} (hsound : ∃ saved, Sound saved start)
    (hrefused : ∀ halt w, Idle start w → E halt w) (hloop : ∀ epoch cached, Plannable plan epoch →
      isAbsolute plan.archive = true → start.owned = true → cached.map Prod.fst = plan.tasks →
      (∀ pair ∈ cached, Prepared clock plan epoch start plan.descriptors pair.1 pair.2) →
      Effect.Triple (Idle start) (run_sources clock plan epoch plan.descriptors cached)
      (fun events w => Q
        ⟨events.all ManualEvent.complete, plan.sources, events,
          plan.tasks.all SourceTask.synthetic⟩ w) E) :
    Effect.Triple (Idle start) (run_manual clock plan) Q E := by
  refine Effect.Triple.bind
    (Effect.Triple.weaken (Manual.checked_spec _) (fun _ h => h) (fun _ _ h => h) hrefused)
    fun arguments => ?_
  obtain ⟨epoch, resume⟩ := arguments
  rintro w ⟨hidle, harguments⟩
  obtain ⟨hplan, rfl⟩ := manual_arguments_ok.mp harguments
  refine Effect.Triple.bind
    (R := fun _ v => Idle start v ∧ isAbsolute plan.archive = true ∧ start.owned = true) ?_
    (fun _ => ?_) w hidle
  · rintro v ⟨rfl, hnothing⟩
    refine Effect.Triple.weaken
      (Manual.on_archive_spec (in_directory_spec plan.archive v.process.archive))
      (fun _ h => h) ?_ ?_ v rfl
    · rintro _ u ⟨process, _, rfl, hsame, hroot, howned⟩
      exact ⟨⟨hsame, hnothing⟩, hroot, hsame ▸ howned⟩
    · rintro halt u ⟨failure, process, _, _, rfl, hsame⟩
      exact hrefused halt _ ⟨hsame, hnothing⟩
  rintro v ⟨hstart, habsolute, howned⟩
  refine Effect.Triple.bind (Effect.Triple.weaken
    (resumes_spec clock epoch plan.descriptors_wellFormed hplan.plain hsound habsolute
      howned plan.tasks)
    (fun _ h => h) (fun _ _ h => h) hrefused) (fun cached => ?_) v hstart
  rintro u ⟨hidle, htasks, hprepared⟩
  exact Effect.Triple.bind (hloop epoch cached hplan habsolute howned htasks hprepared)
    (fun events => Effect.Triple.pure fun _ h => h) u hidle

theorem run_manual_spec (clock : Now) (plan : ManualPlan) (hsound : ∃ saved, Sound saved start) :
    Effect.Triple (Idle start) (run_manual clock plan)
      (fun report w => Told plan start (.ok report) w)
      (fun halt w => Told plan start (.error halt) w) := by
  refine run_manual_rule hsound (fun halt w h => (h.stopped hsound halt).reported (.inl h)) ?_
  rintro epoch cached hplan habsolute howned htasks hprepared u ⟨harchive, _, htold⟩
  have hvouched : ∀ task ∈ plan.tasks, Vouched plan start plan.descriptors task := by
    intro task htask
    obtain ⟨pair, hpair, rfl⟩ := List.mem_map.mp (htasks ▸ htask)
    exact (hprepared pair hpair).vouched
  have hplanned : cached.map Prod.fst ⊆ plan.tasks := by
    rw [htasks]
    exact List.Subset.refl _
  have hgoing : Going plan start [] ((cached.map Prod.fst).map SourceTask.source) u := by
    refine ⟨habsolute, harchive ▸ howned, harchive ▸ hsound, harchive ▸ .refl _, ?_, ?_, htold⟩
    · intro event hevent
      rw [htold] at hevent
      cases hevent
    · rw [htasks]
      rfl
  refine Effect.Triple.weaken (run_sources_spec clock epoch cached hplanned hprepared)
    (fun _ h => h) ?_
    (fun _ _ h => h.reported (.inr ⟨⟨epoch, hplan⟩, hvouched⟩)) u hgoing
  intro events t h
  have hsources : t.told.map ManualEvent.source = plan.sources := by
    rw [h.told, ← h.order, List.append_nil]
  refine ⟨h.sound.imp fun _ h => h.settled _, h.since, h.backed, hsources ▸ List.prefix_rfl,
    .inr ⟨⟨epoch, hplan⟩, hvouched⟩, ?_⟩
  rintro report ⟨⟩
  rw [h.told]
  exact ⟨rfl, rfl, h.told ▸ hsources, rfl⟩

/-- A run, on an archive with any history. -/
theorem run_manual_told (owned : Bool) (calls : List Invocation) (clock : Now) (plan : ManualPlan)
    (fates : List Fate) (runtime : ExecutionRuntime) (tokens : Nat → String)
    (accepts : Nat → Bool) :
    let run :=
      run_manual clock plan (.start (history (empty owned) calls) fates runtime tokens accepts)
    Told plan (history (empty owned) calls) run.1 run.2 := by
  obtain ⟨hvalue, hfail⟩ := run_manual_spec clock plan ⟨_, (sound_history owned calls).1⟩
    (.start (history (empty owned) calls) fates runtime tokens accepts) ⟨rfl, rfl, rfl⟩
  cases hrun :
    run_manual clock plan (.start (history (empty owned) calls) fates runtime tokens accepts) with
  | mk ending w =>
    cases ending with
    | ok report => exact hvalue report w hrun
    | error halt => exact hfail halt w hrun

/-- However a run ends: it takes nothing from the archive, and what it has told as complete can be
    resumed ever after, with the very snapshot that was observed. A descriptor that names no
    checkpoint of its task stops the run before it does anything. -/
theorem manual_checkpoints_kept (owned : Bool) (calls : List Invocation) (clock : Now)
    (plan : ManualPlan) (fates : List Fate) (runtime : ExecutionRuntime) (tokens : Nat → String)
    (accepts : Nat → Bool) :
    let start := history (empty owned) calls
    let run := run_manual clock plan (.start start fates runtime tokens accepts)
    let left := settle (ended run.1) run.2.process.archive
    Extends start left ∧ run.2.told.map ManualEvent.source <+: plan.sources ∧
    (∀ event ∈ run.2.told, event.complete = true → ∃ entry : Value,
      event.snapshot_id = (entry.json.item "snapshot").item "snapshot_id" ∧
      event.captured_at = (entry.json.item "snapshot").item "captured_at" ∧
      (∀ result, event.execution = some result →
        result.snapshot = some (entry.json.item "snapshot")) ∧
      ∀ (more : List Invocation) (now : Now), load_checkpoint now plan.trusted_issuers plan.archive
        (event.resume.item "request") (event.resume.item "identity") ⟨history left more, []⟩ =
          (.ok entry.json, ⟨history left more, []⟩)) ∧
    (run.2.executions = [] ∧ run.2.told = [] ∧ run.2.process.archive = start ∨
      ∀ task ∈ plan.tasks, Vouched plan start plan.descriptors task) ∧
    ∀ report, run.1 = .ok report → report.sources = run.2.told ∧
    report.requested_sources = plan.sources ∧
      run.2.told.map ManualEvent.source = plan.sources ∧
      report.complete = run.2.told.all ManualEvent.complete := by
  intro start run left
  have htold : Told plan start run.1 run.2 :=
    run_manual_told owned calls clock plan fates runtime tokens accepts
  refine ⟨htold.since.settled _, htold.order, ?_, ?_, htold.reported⟩
  · intro event hevent hcomplete
    obtain ⟨task, _, entry, hentry⟩ := htold.backed event hevent hcomplete
    refine ⟨entry, hentry.snapshot_id, hentry.captured_at, hentry.published, fun more now => ?_⟩
    obtain ⟨saved, hsound⟩ := htold.sound
    have hextends : Extends run.2.process.archive (history left more) :=
      ((Extends.refl _).settled (ended run.1)).trans (hsound.history more).2
    exact (hentry.later hextends).loads now
  · exact htold.vouched.imp (fun h => ⟨h.2.1, h.2.2, h.1⟩) And.right

end Runs

end discovery
