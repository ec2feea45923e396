import PepeuchCluster.ControlPlane.History

namespace control_plane

section Newest

variable {versions : List VersionRow} {version : VersionRow}

theorem newest_append (versions : List VersionRow) (version : VersionRow) :
    newest (versions ++ [version]) = newer (newest versions) version := by
  rw [newest, newest, List.foldl_append]
  rfl

/-- Of consecutively numbered versions the last one is the newest. -/
theorem newest_of_numbered {count : Nat} (h : versions.map (·.number) = List.range' 1 count) :
    newest versions = versions.getLast? := by
  induction versions using List.reverseRecOn generalizing count with
  | nil => rfl
  | append_singleton earlier last ih =>
    rw [newest_append, List.getLast?_append, List.getLast?_singleton, Option.some_or]
    cases count with
    | zero => simp at h
    | succ count =>
      rw [List.range'_concat, List.map_append] at h
      obtain ⟨hearlier, hlast⟩ := List.append_inj' h rfl
      have hlast : last.number = 1 + 1 * count := List.head_eq_of_cons_eq hlast
      rw [ih hearlier]
      cases hprevious : earlier.getLast? with
      | none => rfl
      | some previous =>
        have hmem : previous.number ∈ List.range' 1 count :=
          hearlier ▸ List.mem_map_of_mem (List.mem_of_getLast? hprevious)
        have hless : previous.number < last.number := by
          have := List.mem_range'_1.mp hmem
          omega
        rw [newer, if_pos hless]

/-- The version after consecutively numbered ones has the next number. -/
theorem next_number_of_numbered {count : Nat} (h : versions.map (·.number) = List.range' 1 count) :
    WorkspaceManager.next_number (newest versions) = count + 1 := by
  rw [newest_of_numbered h]
  induction versions using List.reverseRecOn with
  | nil =>
    have hcount : count = 0 := by simpa using (congrArg List.length h).symm
    rw [hcount]
    rfl
  | append_singleton earlier last =>
    rw [List.getLast?_append, List.getLast?_singleton, Option.some_or]
    cases count with
    | zero => simp at h
    | succ count =>
      rw [List.range'_concat, List.map_append] at h
      have hlast : last.number = 1 + 1 * count := List.head_eq_of_cons_eq (List.append_inj' h rfl).2
      rw [WorkspaceManager.next_number, hlast]
      omega

end Newest

/-- The two stores together: what the index says of the versions, and the objects that hold them. -/
structure Stored (settings : Settings) (held : String → Option Bytes) (db : Db) : Prop where
  numbered : ∀ file ∈ db.files, ∃ count, 1 ≤ count ∧ count ≤ 100 ∧
    (db.versions_of file.id).map (·.number) = List.range' 1 count
  counted : ∀ workspace_id, (db.workspace_files workspace_id).length ≤ 100
  within_quota : ∀ workspace_id, db.used_bytes workspace_id ≤ settings.quota_bytes
  contents : ∀ version ∈ db.versions, ∃ raw, held version.sha256 = some raw ∧
    sha256 raw = version.sha256 ∧ raw.length = version.size ∧ raw.length ≤ settings.max_file_bytes
  identifiers : (∀ file ∈ db.files, isIdentifier file.id = true) ∧
    ∀ version ∈ db.versions, isIdentifier version.id = true

section Publishing

variable {settings : Settings} {held : String → Option Bytes} {db db' : Db}
  {workspace_id name : String}
  {expected mission_id attempt_id : Option String} {publication : Publication}

/-- The file of a publication is the one that is found, or the new one, which has no versions. -/
theorem Published.target
    (h : Published settings held db workspace_id name expected mission_id attempt_id publication)
    (hlinked : Linked db) :
    (∃ file ∈ db.files, publication.new_file = none ∧ publication.version.file_id = file.id ∧
        file.workspace_id = workspace_id ∧
        WorkspaceManager.current_version (db.find_file workspace_id name) db =
          newest (db.versions_of file.id)) ∨
      ∃ file, publication.new_file = some file ∧ publication.version.file_id = file.id ∧
        file.workspace_id = workspace_id ∧ isIdentifier file.id = true ∧
        (∀ other ∈ db.files, other.id ≠ file.id) ∧ (db.workspace_files workspace_id).length < 100 ∧
        db.versions_of file.id = [] ∧
        WorkspaceManager.current_version (db.find_file workspace_id name) db = none := by
  have hfile := h.file
  cases hnew : publication.new_file with
  | none =>
    rw [hnew] at hfile
    obtain ⟨file, hfind, hid⟩ := hfile
    obtain ⟨hmem, hkey⟩ := Rows.find_some hfind
    refine .inl ⟨file, hmem, rfl, hid, (of_decide_eq_true hkey).1, ?_⟩
    rw [hfind]
    rfl
  | some file =>
    rw [hnew] at hfile
    obtain ⟨hfind, hworkspace, _, hid, hident, hfresh, hfew⟩ := hfile
    refine .inr ⟨file, rfl, hid, hworkspace, hident, hfresh, hfew, ?_, ?_⟩
    · refine List.filter_eq_nil_iff.mpr fun version hversion hkey => ?_
      obtain ⟨owner, howner, hid⟩ :=
        List.mem_map.mp (hlinked.versions (List.mem_map_of_mem hversion))
      exact hfresh owner howner (hid.trans (of_decide_eq_true hkey))
    · rw [hfind]
      rfl

/-- The file of the new version is in the workspace of the publication, and in no other. -/
theorem Published.owner
    (h : Published settings held db workspace_id name expected mission_id attempt_id publication)
    (hkeys : Keyed db) (hlinked : Linked db) (other : String) :
    ((db.files ++ publication.new_file.toList).any fun file =>
      file.id = publication.version.file_id ∧ file.workspace_id = other) =
    decide (other = workspace_id) := by
  rw [Bool.eq_iff_iff, List.any_eq_true, decide_eq_true_iff]
  rcases h.target hlinked with ⟨file, hfile, hnew, hid, hworkspace, _⟩ |
    ⟨file, hnew, hid, hworkspace, _, hfresh, _⟩
  · rw [hnew, Option.toList_none, List.append_nil]
    constructor
    · rintro ⟨found, hfound, howner⟩
      obtain ⟨hsame, rfl⟩ := of_decide_eq_true howner
      rw [Rows.eq_of_key hkeys.files hfound hfile (hsame.trans hid), hworkspace]
    · rintro rfl
      exact ⟨file, hfile, decide_eq_true ⟨hid.symm, hworkspace⟩⟩
  · rw [hnew, Option.toList_some]
    constructor
    · rintro ⟨found, hfound, howner⟩
      obtain ⟨hsame, rfl⟩ := of_decide_eq_true howner
      rcases List.mem_append.mp hfound with hfound | hfound
      · exact absurd (hsame.trans hid) (hfresh found hfound)
      · rw [List.mem_singleton.mp hfound, hworkspace]
    · rintro rfl
      exact ⟨file, by simp, decide_eq_true ⟨hid.symm, hworkspace⟩⟩

/-- The file of an earlier version is not the new one. -/
theorem Published.earlier
    (h : Published settings held db workspace_id name expected mission_id attempt_id publication)
    (hlinked : Linked db) {version : VersionRow} (hversion : version ∈ db.versions)
    (other : String) :
    ((db.files ++ publication.new_file.toList).any fun file =>
      file.id = version.file_id ∧ file.workspace_id = other) =
        db.files.any fun file => file.id = version.file_id ∧ file.workspace_id = other := by
  rw [List.any_append]
  rcases h.target hlinked with ⟨_, _, hnew, _⟩ | ⟨file, hnew, _, _, _, hfresh, _⟩
  · rw [hnew, Option.toList_none, List.any_nil, Bool.or_false]
  · obtain ⟨owner, howner, hid⟩ := List.mem_map.mp (hlinked.versions (List.mem_map_of_mem hversion))
    have hne : file.id ≠ version.file_id := fun heq => hfresh owner howner (hid.trans heq.symm)
    rw [hnew, Option.toList_some, List.any_cons, List.any_nil, Bool.or_false]
    simp [hne]

section Rows

variable (hfiles : db'.files = db.files ++ publication.new_file.toList)
  (hversions : db'.versions = db.versions ++ [publication.version])

include hversions in
theorem versions_of_publication (file_id : String) : db'.versions_of file_id =
    db.versions_of file_id ++ if publication.version.file_id = file_id then [publication.version]
      else [] := by
  rw [Db.versions_of, Db.versions_of, hversions, List.filter_append]
  by_cases hid : publication.version.file_id = file_id <;> simp [hid]

include hfiles hversions in
theorem Published.used_bytes
    (h : Published settings held db workspace_id name expected mission_id attempt_id publication)
    (hkeys : Keyed db) (hlinked : Linked db) (other : String) :
    db'.used_bytes other = db.used_bytes other + if other = workspace_id then publication.raw.length
      else 0 := by
  have hversions' : db'.workspace_versions other =
      db.workspace_versions other ++ if other = workspace_id then [publication.version]
        else [] := by
    rw [Db.workspace_versions, Db.workspace_versions, hversions, hfiles, List.filter_append]
    congr 1
    · exact List.filter_congr fun version hversion => h.earlier hlinked hversion other
    · rw [List.filter_singleton, h.owner hkeys hlinked other]
      by_cases hother : other = workspace_id <;> simp [hother]
  rw [Db.used_bytes, Db.used_bytes, hversions', List.map_append, List.sum_append]
  by_cases hother : other = workspace_id <;> simp [hother, h.size.1]

include hfiles in
theorem Published.workspace_files
    (h : Published settings held db workspace_id name expected mission_id attempt_id publication)
    (hlinked : Linked db) (other : String) (hcounted : (db.workspace_files other).length ≤ 100) :
    (db'.workspace_files other).length ≤ 100 := by
  rw [Db.workspace_files, hfiles, List.filter_append, List.length_append]
  rcases h.target hlinked with ⟨_, _, hnew, _⟩ | ⟨file, hnew, _, hworkspace, _, _, hfew, _⟩
  · rwa [hnew, Option.toList_none, List.filter_nil, List.length_nil, Nat.add_zero]
  · rw [hnew, Option.toList_some, List.filter_singleton]
    by_cases hother : file.workspace_id = other
    · rw [← hother, hworkspace]
      rw [Db.workspace_files] at hfew
      simpa using Nat.succ_le_of_lt hfew
    · rw [Db.workspace_files] at hcounted
      simpa [hother] using hcounted

include hfiles hversions in
/-- A publication keeps both stores as they should be: it adds one version, with the next number. -/
theorem Stored.published (hstored : Stored settings held db) (hkeys : Keyed db)
    (hlinked : Linked db)
    (h : Published settings held db workspace_id name expected mission_id attempt_id publication) :
    Stored settings held db' where
  numbered := by
    intro file hfile
    rw [versions_of_publication hversions]
    rw [hfiles] at hfile
    rcases h.target hlinked with ⟨target, htarget, hnew, hid, _, hcurrent⟩ |
      ⟨target, hnew, hid, _, _, hfresh, _, hempty, hcurrent⟩
    · rw [hnew, Option.toList_none, List.append_nil] at hfile
      obtain ⟨count, hone, hmany, hnumbers⟩ := hstored.numbered file hfile
      by_cases hsame : publication.version.file_id = file.id
      · have hroom := h.room
        have hnumber := h.number
        rw [hcurrent, ← hid, hsame, next_number_of_numbered hnumbers] at hnumber
        refine ⟨count + 1, by omega, by omega, ?_⟩
        rw [if_pos hsame, List.map_append, hnumbers, List.map_singleton, List.range'_concat,
          hnumber, Nat.one_mul, Nat.add_comm]
      · exact ⟨count, hone, hmany, by rwa [if_neg hsame, List.append_nil]⟩
    · rw [hnew, Option.toList_some] at hfile
      rcases List.mem_append.mp hfile with hfile | hfile
      · have hother : publication.version.file_id ≠ file.id :=
          fun heq => hfresh file hfile (heq.symm.trans hid)
        obtain ⟨count, hone, hmany, hnumbers⟩ := hstored.numbered file hfile
        exact ⟨count, hone, hmany, by rwa [if_neg hother, List.append_nil]⟩
      · have hnumber := h.number
        rw [hcurrent] at hnumber
        refine ⟨1, by omega, by omega, ?_⟩
        rw [List.mem_singleton.mp hfile, hempty, if_pos hid, List.nil_append,
          List.map_singleton, hnumber]
        rfl
  counted other := h.workspace_files hfiles hlinked other (hstored.counted other)
  within_quota other := by
    rw [h.used_bytes hfiles hversions hkeys hlinked]
    by_cases hother : other = workspace_id
    · rw [if_pos hother, hother]
      exact h.quota
    · rw [if_neg hother, Nat.add_zero]
      exact hstored.within_quota other
  contents := by
    rw [hversions]
    refine List.forall_mem_append.mpr ⟨hstored.contents, List.forall_mem_singleton.mpr ?_⟩
    refine ⟨publication.raw, ?_, h.digest.symm, h.size.1.symm, h.size.2⟩
    rw [h.digest]
    exact h.stored
  identifiers := by
    rw [hfiles, hversions]
    refine ⟨List.forall_mem_append.mpr ⟨hstored.identifiers.1, ?_⟩,
      List.forall_mem_append.mpr
        ⟨hstored.identifiers.2, List.forall_mem_singleton.mpr h.identifier⟩⟩
    rcases h.target hlinked with ⟨_, _, hnew, _⟩ | ⟨file, hnew, _, _, hident, _⟩
    · rw [hnew]
      exact List.forall_mem_nil _
    · rw [hnew]
      exact List.forall_mem_singleton.mpr hident

end Rows

/-- The other tables do not matter. -/
theorem Stored.congr (h : Stored settings held db) (hfiles : db'.files = db.files)
    (hversions : db'.versions = db.versions) : Stored settings held db' := by
  have hversions_of : ∀ file_id, db'.versions_of file_id = db.versions_of file_id :=
      fun file_id => by
    rw [Db.versions_of, Db.versions_of, hversions]
  have hworkspace : ∀ other, db'.workspace_files other = db.workspace_files other := fun other => by
    rw [Db.workspace_files, Db.workspace_files, hfiles]
  have hused : ∀ other, db'.used_bytes other = db.used_bytes other := fun other => by
    rw [Db.used_bytes, Db.used_bytes, Db.workspace_versions, Db.workspace_versions,
      hfiles, hversions]
  refine ⟨?_, ?_, ?_, ?_, ?_⟩
  · rw [hfiles]
    simpa only [hversions_of] using h.numbered
  · simpa only [hworkspace] using h.counted
  · simpa only [hused] using h.within_quota
  · rw [hversions]
    exact h.contents
  · rw [hfiles, hversions]
    exact h.identifiers

theorem Change.stored (h : Change settings held db db') (hsane : Sane db)
    (hstored : Stored settings held db) :
    Stored settings held db' := by
  cases h with
  | settled _ worker attempt task mission content_hash status error_code hsettle =>
    cases hsettle with
    | ended => exact hstored.congr rfl rfl
    | completed _ publication result event hsettling hpublished =>
      exact hstored.published rfl rfl hsane.keyed hsane.linked hpublished
  | uploaded workspace_id name expected publication hpublished =>
    exact hstored.published rfl rfl hsane.keyed hsane.linked hpublished
  | claimed _ worker mission task attempt hclaim =>
    cases hclaim
    exact hstored.congr rfl rfl
  | fenced _ reason attempt hfence =>
    cases hfence
    exact hstored.congr rfl rfl
  | _ => exact hstored.congr rfl rfl

theorem Change.workspaces (h : Change settings held db db') : db'.workspaces = db.workspaces := by
  cases h with
  | settled _ worker attempt task mission content_hash status error_code hsettle =>
    cases hsettle <;> rfl
  | claimed _ worker mission task attempt hclaim =>
    cases hclaim
    rfl
  | fenced _ reason attempt hfence =>
    cases hfence
    rfl
  | _ => rfl

theorem install_stored (settings : Settings) (boot : Boot) :
    Stored settings held (install settings boot) := by
  refine ⟨List.forall_mem_nil _, fun other => ?_, fun other => ?_, List.forall_mem_nil _,
    List.forall_mem_nil _, List.forall_mem_nil _⟩
  · exact Nat.zero_le _
  · exact Nat.zero_le _

end Publishing

namespace Op

variable {α β : Type} {w v : World} {a : α} {b : β}

/-- From this state, the action returns this value unless the operating system interrupts it. -/
def Yields (op : Op α) (w : World) (a : α) : Prop :=
  (op w).1 = .ok a ∨ (op w).1 = .error .os_error ∨ (op w).1 = .error .killed

theorem yields_of_ok {op : Op α} (h : op w = (.ok a, v)) : Yields op w a := .inl (by rw [h])

theorem yields_of_fault {op : Op α} {fault : Fault} (h : (op w).1 = .error fault.failure) :
    Yields op w a := by
  unfold Fault.failure at h
  split at h
  · exact .inr (.inr h)
  · exact .inr (.inl h)

theorem Yields.bind_ok {x : Op β} {f : β → Op α} (hx : x w = (.ok b, v)) (hf : Yields (f b) v a) :
    Yields (x >>= f) w a := by
  have hrun : (x >>= f) w = f b v := by
    rw [Effect.bind_apply, hx]
  rw [Yields, hrun]
  exact hf

theorem Yields.bind {x : Op β} {f : β → Op α} (hx : Yields x w b)
    (hf : ∀ v, x w = (.ok b, v) → Yields (f b) v a) :
    Yields (x >>= f) w a := by
  cases hrun : x w with
  | mk result v =>
    cases result with
    | ok c =>
      rw [Yields, hrun] at hx
      rcases hx with hx | hx | hx
      · obtain rfl := Except.ok.inj hx
        exact .bind_ok hrun (hf v hrun)
      · cases hx
      · cases hx
    | error failure =>
      have hfail : ((x >>= f) w).1 = .error failure := by rw [Effect.bind_apply, hrun]
      rw [Yields, hrun] at hx
      rcases hx with hx | hx | hx
      · cases hx
      · exact .inr (.inl (hfail.trans (congrArg Except.error (Except.error.inj hx))))
      · exact .inr (.inr (hfail.trans (congrArg Except.error (Except.error.inj hx))))

theorem Yields.require_bind {condition : Prop} [Decidable condition] {failure : Failure}
    {f : Unit → Op α} (h : condition) (hf : Yields (f ()) w a) :
    Yields (require condition failure >>= f) w a :=
  have hpass : require condition failure w = (.ok (), w) := require_eq_ok.mpr ⟨h, rfl⟩
  .bind_ok hpass hf

theorem Yields.demand_bind {value : Option β} {failure : Failure} {f : β → Op α}
    (h : value = some b) (hf : Yields (f b) w a) : Yields (demand value failure >>= f) w a :=
  .bind_ok (demand_eq_ok.mpr ⟨h, rfl⟩) hf

theorem Yields.check_bind {result : Except Failure β} {f : β → Op α} (h : result = .ok b)
    (hf : Yields (f b) w a) :
    Yields (check result >>= f) w a :=
  .bind_ok (check_eq_ok.mpr ⟨h, rfl⟩) hf

theorem Yields.query_bind {query : Db → Except Failure β} {f : β → Op α} (h : query w.db = .ok b)
    (hf : Yields (f b) w a) : Yields (Op.query query >>= f) w a :=
  have hrun : Op.query query w = (.ok b, w) := Prod.ext h rfl
  .bind_ok hrun hf

theorem Yields.select_bind {query : Db → β} {f : β → Op α} (hf : Yields (f (query w.db)) w a) :
    Yields (select query >>= f) w a :=
  have hrun : select query w = (.ok (query w.db), w) := rfl
  .bind_ok hrun hf

theorem Yields.transaction {body : Op α} (h : Yields body w a) :
    Yields (Op.transaction body) w a := by
  unfold Yields Op.transaction
  unfold Yields at h
  split
  · next hbody =>
    rw [hbody] at h
    exact h
  · next result v hbody =>
    rw [hbody] at h
    rcases h with h | h | h
    · obtain rfl := Except.ok.inj h
      split
      · next fault _ =>
        exact @yields_of_fault α w _ (fun _ => (.error fault.failure, w)) fault rfl
      · exact .inl rfl
    · cases h
    · cases h

theorem Yields.map {x : Op β} (h : Yields x w b) (f : β → α) : Yields (f <$> x) w (f b) :=
  Yields.bind (f := fun b => pure (f b)) h fun _ _ => yields_of_ok rfl

/-- Reading a file that is there, and not too long. -/
theorem read_private_yields {path : Path} {raw : Bytes} {limit : Nat} (h : w.files path = some raw)
    (hlimit : raw.length ≤ limit) : Yields (read_private path limit) w raw := by
  unfold read_private
  cases hfault : w.supply.fault 0 with
  | some fault =>
    refine @yields_of_fault _ _ _ _ fault ?_
    simp [Effect.bind_apply, file_step, hfault]
  | none =>
    have hstep : file_step (fun _ files => files) id w = (.ok (), w.with_files w.files) := by
      simp [file_step, hfault]
    have hcontent : content path (w.with_files w.files) = (.ok (some raw), w.with_files w.files) :=
      Prod.ext (congrArg Except.ok h) rfl
    have hlast : Yields (pure raw : Op Bytes) (w.with_files w.files) raw := .inl rfl
    exact .bind_ok hstep (.bind_ok hcontent (.demand_bind rfl (.require_bind hlimit hlast)))

end Op

namespace WorkspaceManager

variable {service : ControlPlane} {w : World} {principal : Principal} {workspace : WorkspaceRow}

theorem workspace_access_run (hrole : principal.role = .admin) {workspace_id : String}
    (hworkspace :
    Rows.find w.db.workspaces (fun row => row.id = workspace_id ∧ row.owner = principal.identity) =
      some workspace) :
    ControlPlane.workspace_access principal workspace_id w = (.ok workspace, w) := by
  have hcheck : require_role principal .admin = .ok () := by
    unfold require_role
    exact Except.require_holds hrole
  unfold ControlPlane.workspace_access
  refine Op.bind_eq_ok.mpr ⟨(), w, Op.check_eq_ok.mpr ⟨hcheck, rfl⟩, ?_⟩
  rw [Op.select_bind_eq_ok]
  exact Op.demand_eq_ok.mpr ⟨hworkspace, rfl⟩

theorem isDigest_sha256 (raw : Bytes) : isDigest (sha256 raw) = true := by
  rw [isDigest, Sha256.sha256_length, Bool.and_eq_true]
  exact ⟨rfl, List.all_eq_true.mpr fun _ => Sha256.sha256_isHex⟩

/-- The version that is asked for is the one that is found. -/
theorem chosen_version_of_mem {db : Db} (hkeys : Keyed db) {version : VersionRow}
    (hversion : version ∈ db.versions) :
    chosen_version version.file_id (some version.id) db = some version := by
  have hmem : version ∈ db.versions_of version.file_id :=
    List.mem_filter.mpr ⟨hversion, decide_eq_true rfl⟩
  have hnodup : ((db.versions_of version.file_id).map (·.id)).Nodup :=
    hkeys.versions.sublist (List.filter_sublist.map _)
  have hfilter : (db.versions_of version.file_id).filter (fun other => some version.id = none ∨
    some other.id = some version.id) =
      (db.versions_of version.file_id).filter fun other => other.id = version.id := by
    simp
  rw [chosen_version, hfilter]
  rcases Rows.filter_key hnodup version.id with hnone | ⟨other, hother, hid, hone⟩
  · have hnot := List.filter_eq_nil_iff.mp hnone version hmem
    simp at hnot
  · rw [hone, Rows.eq_of_key hnodup hother hmem hid]
    rfl

/-- A version that is listed is downloaded as it was stored, unless the system interrupts. -/
theorem download_yields {settings : Settings} {version : VersionRow} {file : FileRow} {raw : Bytes}
    (hkeys : Keyed w.db) (hstored : Stored settings w.files.held w.db)
    (hversion : version ∈ w.db.versions) (hfile : file ∈ w.db.files)
    (hid : file.id = version.file_id) (hrole : principal.role = .admin)
    (hworkspace : Rows.find w.db.workspaces (fun row => row.id = file.workspace_id ∧
      row.owner = principal.identity) =
      some workspace)
    (hheld : w.files.held version.sha256 = some raw) (hdigest : sha256 raw = version.sha256)
    (hsize : raw.length = version.size) (hlimit : raw.length ≤ service.settings.max_file_bytes) :
    Op.Yields (download service principal file.workspace_id file.id (some version.id)) w
      (raw, file.name, version.sha256) := by
  have hident : identifier (.str file.id) = .ok file.id := by
    rw [identifier, if_pos (hstored.identifiers.1 file hfile)]
  have hident' : optional_identifier (optionText (some version.id)) = .ok (some version.id) := by
    rw [optionText, optional_identifier, identifier,
      if_pos (hstored.identifiers.2 version hversion)]
    · rfl
    · exact nofun
  have hfound : Rows.find w.db.files (fun other => other.id = file.id ∧
    other.workspace_id = file.workspace_id) =
      some file :=
    Rows.find_unique hfile (decide_eq_true ⟨rfl, rfl⟩) fun other hother hsame =>
      Rows.eq_of_key hkeys.files hother hfile (of_decide_eq_true hsame).1
  have hchosen : chosen_version file.id (some version.id) w.db = some version := by
    rw [hid]
    exact chosen_version_of_mem hkeys hversion
  unfold download
  refine .check_bind hident (.check_bind hident' (.transaction ?_))
  refine .bind_ok (workspace_access_run hrole hworkspace)
    (.select_bind (.demand_bind hfound (.select_bind
      (.demand_bind hchosen
        (.require_bind ?_ (.bind (Op.read_private_yields hheld hlimit) fun v _ =>
          .require_bind ⟨hsize, hdigest⟩ (.inl rfl)))))))
  rw [← hdigest]
  exact isDigest_sha256 raw

/-- A file that is listed has a version to show. -/
theorem file_view_of_numbered {db : Db} {file : FileRow} {count : Nat} (hcount : 1 ≤ count)
    (h : (db.versions_of file.id).map (·.number) = List.range' 1 count) :
    ∃ entry, file_view db file = .ok entry := by
  unfold file_view
  split
  · next hempty =>
    have hlength := congrArg List.length hempty
    rw [List.length_insertionSort, ← List.length_map
      (f := fun version : VersionRow => version.number), h, List.length_range',
        List.length_nil] at hlength
    omega
  · exact ⟨_, rfl⟩

theorem list_files_yields {settings : Settings} {workspace_id : String}
    (hstored : Stored settings w.files.held w.db) (hrole : principal.role = .admin)
    (hworkspace :
    Rows.find w.db.workspaces (fun row => row.id = workspace_id ∧ row.owner = principal.identity) =
      some workspace) :
    ∃ listing, Op.Yields (list_files service principal workspace_id) w listing := by
  have hviews : ∃ views, (listed workspace_id w.db).mapM (file_view w.db) = .ok views := by
    refine Except.mapM_total fun file hfile => ?_
    have hmem : file ∈ w.db.workspace_files workspace_id :=
      (List.perm_insertionSort _ _).mem_iff.mp hfile
    obtain ⟨count, hcount, _, hnumbers⟩ := hstored.numbered file (List.mem_filter.mp hmem).1
    exact file_view_of_numbered hcount hnumbers
  obtain ⟨views, hviews⟩ := hviews
  unfold list_files
  exact ⟨_, .transaction (.bind_ok (workspace_access_run hrole hworkspace)
    (.query_bind hviews (.select_bind (.inl rfl))))⟩

end WorkspaceManager

namespace ControlPlane

open WorkspaceManager

variable (service : ControlPlane) (boot : Boot) (calls : List Call)

theorem committed_stored :
    Stored service.settings (service.after boot calls).files.held (service.after boot calls).db ∧
    ∀ db ∈ (service.after boot calls).commits,
      Stored service.settings (service.after boot calls).files.held db :=
  after_invariant service boot calls (install_stored service.settings boot) Change.stored

theorem after_workspaces : (service.after boot calls).db.workspaces =
    [⟨identity_text 'w' boot.workspace, "local-admin", "local-project"⟩] :=
  (after_invariant (P := fun db => db.workspaces =
    [⟨identity_text 'w' boot.workspace, "local-admin", "local-project"⟩])
    service boot calls rfl fun h _ hworkspaces => h.workspaces.trans hworkspaces).1

/-- The administrator's only workspace. -/
theorem admin_workspace {workspace_id : String}
    (h : workspace_id = identity_text 'w' boot.workspace) :
    Rows.find (service.after boot calls).db.workspaces (fun row => row.id = workspace_id ∧
      row.owner = ADMIN.identity) =
      some ⟨identity_text 'w' boot.workspace, "local-admin", "local-project"⟩ := by
  rw [after_workspaces, h]
  exact Rows.find_unique List.mem_cons_self (decide_eq_true ⟨rfl, rfl⟩) fun other hother _ =>
    List.mem_singleton.mp hother

/-- Every object stays held through later calls. -/
theorem after_held (more : List Call) :
    Held.le (service.after boot calls).files.held
      (service.after boot (calls ++ more)).files.held := by
  rw [after_append]
  exact (run_progress (after_sane service boot calls) more).held

/-- The index and the objects represent the files together, in every committed state of every run,
    whatever fails in it: versions are numbered without a gap, counts and quota are respected, and
    every version has its object. So the files can always be listed, and every version can be
    downloaded as it was published, after any further calls. -/
theorem store_represented :
    (∀ db ∈ (service.after boot calls).commits,
      Stored service.settings (service.after boot calls).files.held db) ∧
      (∀ supply, ∃ listing, service.outcome (service.after boot calls)
          ⟨.list_files ADMIN (identity_text 'w' boot.workspace), supply⟩ ∈
            [.ok (.json listing), .error .os_error, .error .killed]) ∧
      ∀ version ∈ (service.after boot calls).db.versions,
        ∃ file ∈ (service.after boot calls).db.files, file.id = version.file_id ∧
          ∃ raw, sha256 raw = version.sha256 ∧ raw.length = version.size ∧
          ∀ more supply, service.outcome (service.after boot (calls ++ more))
              ⟨.download ADMIN file.workspace_id file.id (some version.id), supply⟩ ∈
            [.ok (.content raw file.name version.sha256), .error .os_error, .error .killed] := by
  have hyields :
    ∀ {installation : Installation} {request : Request} {supply : Supply} {reply : Reply},
      Op.Yields (request.perform service) (installation.world supply) reply →
        service.outcome installation ⟨request, supply⟩ ∈
          [.ok reply, .error .os_error, .error .killed] := by
    intro installation request supply reply h
    simpa [Op.Yields, outcome] using h
  refine ⟨(committed_stored service boot calls).2, fun supply => ?_, fun version hversion => ?_⟩
  · have hstored := (committed_stored service boot calls).1
    obtain ⟨listing, hlisting⟩ :=
      @list_files_yields service ((service.after boot calls).world supply) ADMIN _ _ _
        hstored rfl (admin_workspace service boot calls rfl)
    exact ⟨listing, hyields (hlisting.map Reply.json)⟩
  · have hlinked := (after_sane service boot calls).linked
    obtain ⟨file, hfile, hid⟩ := List.mem_map.mp (hlinked.versions (List.mem_map_of_mem hversion))
    obtain ⟨raw, hheld, hdigest, hsize, hlimit⟩ :=
      (committed_stored service boot calls).1.contents version hversion
    refine ⟨file, hfile, hid, raw, hdigest, hsize, fun more supply => ?_⟩
    have hextends := after_extends service boot calls more
    have hworkspace : file.workspace_id = identity_text 'w' boot.workspace := by
      have hmem := hlinked.files (List.mem_map_of_mem hfile)
      rw [after_workspaces] at hmem
      exact List.mem_singleton.mp hmem
    have hyield :=
      @download_yields service ((service.after boot (calls ++ more)).world supply) ADMIN _ _ _ _ _
        (after_sane service boot (calls ++ more)).keyed
          (committed_stored service boot (calls ++ more)).1
        (hextends.versions.subset hversion) (hextends.files.subset hfile) hid rfl
          (admin_workspace service boot (calls ++ more) hworkspace)
        (after_held service boot calls more _ _ hheld) hdigest hsize hlimit
    exact hyields (hyield.map fun found => Reply.content found.1 found.2.1 found.2.2)

end ControlPlane

end control_plane
