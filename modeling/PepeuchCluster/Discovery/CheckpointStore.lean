import PepeuchCluster.Discovery.Checkpoints

namespace discovery

theorem pending_ne_lock (token : String) : ".pending-" ++ token ≠ LOCK := by
  intro heq
  have hlist := congrArg (fun text : String => text.toList.take 2) heq
  simp [LOCK] at hlist

section Saving

variable {start archive : Archive} {temporary name : String} {raw : List UInt8}

/-- What a save leaves alone, however it ends: only its own file is new, and whole. -/
structure Kept (start : Archive) (temporary name : String) (raw : List UInt8)
    (archive : Archive) : Prop where
  owned : archive.owned = start.owned
  locked : archive.locked = start.locked
  others : ∀ other, other ≠ temporary → other ≠ LOCK → other ≠ name →
    archive.files other = start.files other
  lock : archive.files LOCK = start.files LOCK ∨ start.files LOCK = none ∧
    archive.files LOCK = some ⟨[], true⟩
  target : archive.files name = start.files name ∨ start.files name = none ∧
    archive.files name = some ⟨raw, true⟩
  residue : start.files name ≠ none → archive.files temporary = start.files temporary

theorem Kept.refl (start : Archive) (temporary name : String) (raw : List UInt8) :
    Kept start temporary name raw start :=
  ⟨rfl, rfl, fun _ _ _ _ => rfl, .inl rfl, .inl rfl, fun _ => rfl⟩

theorem Kept.release (h : Kept start temporary name raw archive) :
    Kept start temporary name raw archive.release :=
  ⟨h.owned, h.locked, h.others, h.lock, h.target, h.residue⟩

theorem Kept.acquire (h : Kept start temporary name raw archive) :
    Kept start temporary name raw archive.acquire :=
  ⟨h.owned, h.locked, h.others, h.lock, h.target, h.residue⟩

theorem kept_create (htemporary : temporary ≠ LOCK) (hname : name ≠ LOCK) :
    Kept start temporary name raw (start.create LOCK) := by
  have hsame : ∀ other, other ≠ LOCK → (start.create LOCK).files other = start.files other :=
    fun other hother => if_neg hother
  refine ⟨rfl, rfl, fun other _ hother _ => hsame other hother, ?_, .inl (hsame name hname),
    fun _ => hsame temporary htemporary⟩
  cases hlock : start.files LOCK with
  | none => exact .inr ⟨rfl, by simp [Archive.create, hlock]⟩
  | some file => exact .inl (by simp [Archive.create, hlock])

theorem Runs.Attempted.kept (htemporary : temporary ≠ LOCK) (hname : name ≠ LOCK)
    (hnone : start.files name = none)
    (h : Runs.Attempted (start.create LOCK).acquire temporary name raw archive) :
    Kept start temporary name raw archive := by
  have hcreated : Kept start temporary name raw (start.create LOCK) := kept_create htemporary hname
  refine ⟨h.owned, h.locked, fun other hpending hlock hother => ?_, ?_, ?_,
    fun hheld => absurd hnone hheld⟩
  · exact (h.others other hpending hother).trans (hcreated.others other hpending hlock hother)
  · have hsame := h.others LOCK (Ne.symm htemporary) (Ne.symm hname)
    exact hcreated.lock.imp (fun heq => hsame.trans heq) fun hnew => ⟨hnew.1, hsame.trans hnew.2⟩
  · exact h.target.imp (fun heq => heq.trans hnone.symm) fun hnew => ⟨hnone, hnew⟩

theorem taken_files (h : name ≠ LOCK) :
    (start.create LOCK).acquire.files name = start.files name := if_neg h

variable {calm : Prop}

/-- Under the lock, the file is new or it is the same. -/
theorem deposit_runs (hlock : name ≠ LOCK) (hpending : name ≠ temporary)
    (htemporary : temporary ≠ LOCK) (hsize : raw.length ≤ MAX_BYTES)
    (htarget : calm → ∀ file, start.files name = some file → file = ⟨raw, true⟩)
    (hfresh : calm → start.files name = none → start.files temporary = none) :
    Runs calm (fun archive => archive = (start.create LOCK).acquire) (deposit temporary name raw)
      (fun _ archive => (∃ file, archive.files name = some file ∧ file.content = raw) ∧
        archive.files LOCK ≠ none ∧ Kept start temporary name raw archive)
      (Broken calm (Kept start temporary name raw)) := by
  have htaken : ∀ archive, archive = (start.create LOCK).acquire →
      Kept start temporary name raw archive := by
    rintro _ rfl
    exact (kept_create htemporary hlock).acquire
  have hheld : ((start.create LOCK).acquire).files name = start.files name := taken_files hlock
  have hexists : (start.create LOCK).acquire.files LOCK ≠ none := by
    cases hfile : start.files LOCK <;> simp [Archive.create, Archive.acquire, hfile]
  refine Runs.bind (R := fun existing archive => archive = (start.create LOCK).acquire ∧
    existing = (start.files name).map File.content) ?_ fun existing =>
    Runs.observed fun hexisting => ?_
  · have hfound : Runs calm (fun archive => archive = (start.create LOCK).acquire)
      (found (read_file name))
        (fun existing archive => archive = (start.create LOCK).acquire ∧
          existing = (start.files name).map File.content)
        (Broken calm fun archive => archive = (start.create LOCK).acquire) := by
      refine Runs.found ?_ ?_
      · rintro _ rfl
        exact hheld
      · intro h file hfile
        rw [htarget h file (Option.mem_def.mp hfile)]
        exact ⟨rfl, hsize⟩
    exact Runs.weaken hfound (fun _ h => h) (fun _ _ h => h) fun _ archive h =>
      ⟨htaken archive h.1, h.2⟩
  · cases hfile : start.files name with
    | none =>
      rw [hfile] at hexisting
      obtain rfl := hexisting
      refine Runs.weaken (Runs.publish (hheld.trans hfile) hpending
        fun h => (taken_files htemporary).trans (hfresh h hfile))
        (fun _ h => h) (fun _ archive h => ⟨?_, ?_, ?_⟩) fun _ archive h => ⟨?_, h.2⟩
      · obtain rfl := h
        exact ⟨_, (Function.update_of_ne hpending _ _).trans (Function.update_self _ _ _), rfl⟩
      · rwa [(h.attempted hpending).others LOCK htemporary.symm hlock.symm]
      · exact (h.attempted hpending).kept htemporary hlock hfile
      · exact h.1.kept htemporary hlock hfile
    | some file =>
      rw [hfile] at hexisting
      obtain rfl := hexisting
      refine Runs.weaken (Runs.demand htaken fun h _ _ => ?_) (fun _ h => h)
        (fun _ archive h => ⟨?_, ?_, htaken _ h.1⟩)
        fun _ _ h => h
      · rw [htarget h file hfile]
      · obtain ⟨rfl, hcontent⟩ := h
        exact ⟨file, hheld.trans hfile, hcontent⟩
      · rwa [h.1]

theorem read_file_ok {name : String} :
    Runs False (fun archive => archive = start) (read_file name)
      (fun raw archive => archive = start ∧ ∃ file, start.files name = some file ∧
        raw = file.content)
      fun _ archive => archive = start := by
  cases hfile : start.files name with
  | none =>
    refine Effect.Triple.weaken (Runs.read_missing (P := fun archive => archive = start) ?_)
      (fun _ h => h)
      (fun _ _ h => h.elim) fun _ _ h => h.1.1
    rintro _ rfl
    exact hfile
  | some file =>
    refine Runs.weaken (Runs.read_file (P := fun archive => archive = start) ?_ False.elim)
      (fun _ h => h)
      (fun _ _ h => ⟨h.1, file, rfl, h.2⟩) fun _ _ h => h.1
    rintro _ rfl
    exact hfile

end Saving

section Calls

variable [Unicode] [Datetime] {now : Now} {trusted_issuers : String → Option (List UInt8)}
  {entry : Json} {root token : String}
  {start : Archive} {calm : Prop}

/-- Nothing refuses a save of the entry. -/
structure Ready (now : Now) (trusted_issuers : String → Option (List UInt8))
    (root token : String) (entry : Json) (start : Archive) : Prop where
  cached : Cached now trusted_issuers entry
  size : (checkpoint_bytes entry).length ≤ MAX_BYTES
  absolute : isAbsolute root = true
  owned : start.owned = true
  unlocked : start.locked = false
  lock : ∀ file, start.files LOCK = some file → file.regular = true
  target : ∀ file, start.files (file_of (identity_of entry)) = some file →
    file = ⟨checkpoint_bytes entry, true⟩
  fresh : start.files (file_of (identity_of entry)) = none →
    start.files (".pending-" ++ token) = none

/-- The archive that a save leaves, however it ends. -/
abbrev Kept_of (token : String) (entry : Json) (start archive : Archive) : Prop :=
  Kept start (".pending-" ++ token) (file_of (identity_of entry)) (checkpoint_bytes entry) archive

/-- What a save that returns has done. -/
structure Saved (now : Now) (trusted_issuers : String → Option (List UInt8))
    (root token : String) (entry : Json) (start archive : Archive) : Prop where
  cached : Cached now trusted_issuers entry
  size : (checkpoint_bytes entry).length ≤ MAX_BYTES
  absolute : isAbsolute root = true
  owned : start.owned = true
  file : ∃ file, archive.files (file_of (identity_of entry)) = some file ∧
    file.content = checkpoint_bytes entry
  lock : archive.files LOCK ≠ none
  released : archive.holds = false
  kept : Kept_of token entry start archive

theorem written_runs (hsize : (checkpoint_bytes entry).length ≤ MAX_BYTES)
    (hcalm : calm → Ready now trusted_issuers root token entry start) :
    Runs calm (fun archive => archive = start)
      (in_writer
        (deposit (".pending-" ++ token) (file_of (identity_of entry)) (checkpoint_bytes entry)))
      (fun _ archive => (∃ file, archive.files (file_of (identity_of entry)) = some file ∧
        file.content = checkpoint_bytes entry) ∧ archive.files LOCK ≠ none ∧ archive.holds = false ∧
        Kept_of token entry start archive)
      (Broken calm (Kept_of token entry start)) := by
  obtain ⟨hlock, hpending⟩ := file_ne (isIdentity_identity entry)
  have htemporary := pending_ne_lock token
  have hdeposit : Runs calm (fun archive => archive = (start.create LOCK).acquire) _ _ _ :=
    deposit_runs hlock (hpending token) htemporary hsize (fun h => (hcalm h).target) fun h =>
      (hcalm h).fresh
  refine Runs.weaken
    (Runs.in_writer (fun h => (hcalm h).lock) (fun h => (hcalm h).unlocked) (Kept.refl _ _ _ _)
      (kept_create htemporary hlock) (fun _ h => h.acquire) (fun _ h => h.release)
        (fun _ _ h => h.2.2) hdeposit)
    (fun _ h => h) ?_ fun _ _ h => h
  rintro _ _ ⟨before, ⟨hfile, hexists, hkept⟩, rfl⟩
  exact ⟨hfile, hexists, rfl, hkept.release⟩

/-- A save that fails leaves its archive as it was kept; one that returns has its file. -/
theorem save_runs (hwell : entry.WellFormed)
    (hcalm : calm → Ready now trusted_issuers root token entry start) :
    Runs calm (fun archive => archive = start)
      (save_checkpoint now trusted_issuers root token entry)
      (fun identity archive => identity = identity_of entry ∧
        Saved now trusted_issuers root token entry start archive)
      fun _ archive => Kept_of token entry start archive ∧ ¬ calm ∧
        (archive ≠ start → Cached now trusted_issuers entry ∧
          (checkpoint_bytes entry).length ≤ MAX_BYTES) := by
  have hself : ∀ archive, archive = start → Kept_of token entry start archive := by
    rintro _ rfl
    exact Kept.refl _ _ _ _
  refine Runs.bind (R := fun accepted archive => archive = start ∧ accepted = entry ∧
    Cached now trusted_issuers entry)
    (Runs.ofExcept ?_ ?_) fun accepted => Runs.observed fun hok => ?_
  · rintro _ result rfl hresult
    obtain ⟨rfl, hcached⟩ := (validate_cache_ok hwell).mp hresult
    exact ⟨rfl, rfl, hcached⟩
  · rintro _ failure rfl hfailure
    refine ⟨hself _ rfl, fun h => ?_, fun hne => absurd rfl hne⟩
    rw [(validate_cache_ok hwell).mpr ⟨rfl, (hcalm h).cached⟩] at hfailure
    cases hfailure
  obtain ⟨rfl, hcached⟩ := hok
  refine Runs.bind
    (R := fun _ archive => archive = start ∧ (checkpoint_bytes accepted).length ≤ MAX_BYTES)
    (Runs.require (fun _ h hsize => ⟨h, hsize⟩) fun _ h hsize =>
      ⟨hself _ h, fun hc => hsize (hcalm hc).size, fun hne => absurd h hne⟩)
    fun _ => Runs.observed fun hsize => ?_
  refine Runs.bind
    (R := fun _ archive => Saved now trusted_issuers root token accepted start archive) ?_
    fun _ => Runs.pure fun archive h => ⟨rfl, h⟩
  refine Runs.weaken (R := fun archive => archive = start)
    (F := Broken calm (Kept_of token accepted start)) ?_
    (fun _ h => h) (fun _ _ h => h) fun _ _ h => ⟨h.1, h.2.1, fun _ => ⟨hcached, hsize⟩⟩
  refine Runs.in_directory (fun h => (hcalm h).absolute) ?_ hself (fun _ _ h => h.kept)
    (fun _ _ h => ⟨h.1, h.2.1⟩)
    (fun _ _ h hnot hne => ⟨h, hnot, hne⟩) fun hroot => ?_
  · rintro h _ rfl
    exact (hcalm h).owned
  refine Runs.weaken (R := fun archive => archive = start ∧ start.owned = true)
    (Runs.observed fun howned => Runs.weaken (written_runs hsize hcalm) (fun _ h => h)
      (fun _ _ h => ?_) fun _ _ h => h) ?_
    (fun _ _ h => h) fun _ _ h => h
  · exact ⟨hcached, hsize, hroot, howned, h.1, h.2.1, h.2.2.1, h.2.2.2⟩
  · rintro _ ⟨rfl, howned⟩
    exact ⟨rfl, howned⟩

/-- A load that finds the file of an entry returns the entry. -/
theorem load_runs {file : File} (hwell : entry.WellFormed)
    (hcached : Cached now trusted_issuers entry)
    (hfile : start.files (file_of (identity_of entry)) = some file)
    (hcontent : file.content = checkpoint_bytes entry) (hcalm : calm → isAbsolute root = true ∧
      start.owned = true ∧ file.regular = true ∧ file.content.length ≤ MAX_BYTES) :
    Runs calm (fun archive => archive = start)
      (load_checkpoint now trusted_issuers root (entry.item "request") (.str (identity_of entry)))
      (fun result archive => result = entry ∧ archive = start) fun _ archive =>
        archive = start ∧ ¬ calm := by
  have hitems : (checkpoint_document entry).item "format" = .str CHECKPOINT_FORMAT ∧
      (checkpoint_document entry).item "request_sha256" = .str (digest (entry.item "request")) ∧
      (checkpoint_document entry).item "entry_sha256" = .str (digest entry) ∧
      (checkpoint_document entry).item "entry" = entry := by
    simp [checkpoint_item]
  obtain ⟨hformat, hrequest, hentry, hitem⟩ := hitems
  have hself : ∀ archive, archive = start → archive = start := fun _ h => h
  simp only [load_checkpoint, hcached.request_accepted hwell]
  refine Runs.bind (R := fun request archive => archive = start ∧ request = entry.item "request")
    (Runs.ofExcept ?_ nofun) fun request => Runs.observed fun hrequested => ?_
  · rintro _ _ rfl heq
    exact ⟨rfl, (Except.ok.inj heq).symm⟩
  obtain rfl := hrequested
  refine Runs.bind (Runs.met ⟨rfl, isIdentity_identity entry, request_part_identity entry⟩)
    fun _ => ?_
  refine Runs.bind (R := fun data archive => archive = start ∧ data = checkpoint_document entry) ?_
    fun data => Runs.observed fun hdata => ?_
  · refine Runs.in_directory (fun h => (hcalm h).1) ?_ hself (fun _ _ h => h.1) (fun _ _ h => h)
      (fun _ _ h hnot _ => ⟨h, hnot⟩) fun _ => ?_
    · rintro h _ rfl
      exact (hcalm h).2.1
    · refine Runs.bind (R := fun raw archive => archive = start ∧ raw = file.content) ?_
        fun raw => Runs.observed fun hraw => Runs.ofExcept ?_ ?_
      · refine Runs.weaken
          (Runs.read_file (P := fun archive => archive = start) ?_ fun h => (hcalm h).2.2)
          (fun _ h => h.1) (fun _ _ h => h) fun _ _ h => ⟨h.1, h.2.1⟩
        rintro _ rfl
        exact hfile
      · intro _ data hstart hread
        rw [hraw, hcontent, read_document_checkpoint hwell hcached.plain] at hread
        exact ⟨hstart, (Except.ok.inj hread).symm⟩
      · intro _ _ _ hread
        rw [hraw, hcontent, read_document_checkpoint hwell hcached.plain] at hread
        cases hread
  obtain rfl := hdata
  refine Runs.bind (Runs.met (Json.hasKeys_dict CHECKPOINT_FIELDS rfl)) fun _ => ?_
  rw [hformat, hrequest, hentry, hitem]
  refine Runs.bind (Runs.met ⟨Json.equal_refl _, Json.equal_refl _, Json.equal_refl _, rfl⟩)
    fun _ => ?_
  rw [(validate_cache_ok hwell).mpr ⟨rfl, hcached⟩]
  refine Runs.bind (R := fun result archive => archive = start ∧ result = entry)
    (Runs.ofExcept ?_ nofun)
    fun result => Runs.observed fun hresult => ?_
  · rintro _ _ rfl heq
    exact ⟨rfl, (Except.ok.inj heq).symm⟩
  obtain rfl := hresult
  exact Runs.bind (Runs.met (Json.equal_refl _)) fun _ => Runs.pure fun _ h => ⟨rfl, h⟩

/-- What a load that returns has read. -/
structure Loaded (now : Now) (trusted_issuers : String → Option (List UInt8)) (start : Archive)
    (request identity result : Json) :
    Prop where
  named : ∃ text, identity = .str text ∧ isIdentity text = true
  partition : ∃ canonical, canonical_request request = .ok canonical ∧
    request_part identity.text = digest canonical ∧ (result.item "request").equal canonical = true
  read : ∃ file data, start.files (file_of identity.text) = some file ∧
    read_document file.content = .ok data ∧
    validate_cache now (data.item "entry") trusted_issuers = .ok result ∧
    identity.text = (data.item "request_sha256").text ++ "." ++ digest (data.item "entry")

/-- A load changes nothing, and returns what it has read. -/
theorem load_ok {request identity : Json} :
    Runs False (fun archive => archive = start)
      (load_checkpoint now trusted_issuers root request identity)
      (fun result archive => archive = start ∧
        Loaded now trusted_issuers start request identity result)
      fun _ archive => archive = start := by
  refine Runs.bind
    (R := fun canonical archive => archive = start ∧ canonical_request request = .ok canonical)
    (Runs.ofExcept (fun _ _ h heq => ⟨h, heq⟩) fun _ _ h _ => h) fun canonical =>
      Runs.observed fun hcanonical => ?_
  refine Runs.bind (R := fun _ archive => archive = start ∧ isString identity = true ∧
    isIdentity identity.text = true ∧ request_part identity.text = digest canonical)
    (Runs.require (fun _ h hnamed => ⟨h, hnamed⟩) fun _ h _ => h)
    fun _ => Runs.observed fun hnamed => ?_
  refine Runs.bind (R := fun data archive => archive = start ∧
    ∃ file, start.files (file_of identity.text) = some file ∧ read_document file.content = .ok data)
    ?_ fun data => Runs.observed fun hread => ?_
  · refine Runs.in_directory False.elim False.elim (fun _ h => h) (fun _ _ h => h.1)
      (fun _ _ h => ⟨h, id⟩) (fun _ _ h _ _ => h) fun _ => ?_
    refine Runs.bind (R := fun raw archive => archive = start ∧
      ∃ file, start.files (file_of identity.text) = some file ∧ raw = file.content)
      (Runs.weaken read_file_ok (fun _ h => h.1) (fun _ _ h => h) fun _ _ h => h)
      fun raw => Runs.observed fun hraw => ?_
    obtain ⟨file, hfile, rfl⟩ := hraw
    exact Runs.ofExcept (fun _ _ h hdocument => ⟨h, file, hfile, hdocument⟩) fun _ _ h _ => h
  refine Runs.bind (R := fun _ archive => archive = start)
    (Runs.require (fun _ h _ => h) fun _ h _ => h) fun _ => ?_
  refine Runs.bind (R := fun _ archive => archive = start ∧ _)
    (Runs.require (fun _ h hbound => ⟨h, hbound⟩) fun _ h _ => h)
    fun _ => Runs.observed fun hbound => ?_
  refine Runs.bind (R := fun entry archive => archive = start ∧
    validate_cache now (data.item "entry") trusted_issuers = .ok entry)
    (Runs.ofExcept (fun _ _ h heq => ⟨h, heq⟩) fun _ _ h _ => h) fun entry =>
      Runs.observed fun hvalid => ?_
  refine Runs.bind
    (R := fun _ archive => archive = start ∧ (entry.item "request").equal canonical = true)
    (Runs.require (fun _ h hequal => ⟨h, hequal⟩) fun _ h _ => h) fun _ =>
      Runs.observed fun hequal =>
      Runs.pure fun _ h => ⟨h, ?_⟩
  obtain ⟨hstring, hidentity, hpart⟩ := hnamed
  obtain ⟨_, _, hentry, htext⟩ := hbound
  obtain ⟨file, hfile, hdocument⟩ := hread
  refine ⟨⟨_, isString_text hstring, hidentity⟩, ⟨canonical, hcanonical, hpart, hequal⟩,
    ⟨file, data, hfile, hdocument, hvalid, ?_⟩⟩
  rw [htext, Json.equal_str.mp hentry, Json.text]

end Calls

end discovery
