import PepeuchCluster.ControlPlane.Fencing

set_option synthInstance.maxSize 2048

namespace control_plane

theorem Within.bind {α β : Type} {w : World} {x : Op α} {f : α → Op β} (hx : Within w (x w).2)
    (hf : ∀ a, Op.Local (f a)) : Within w ((x >>= f) w).2 := by
  rw [Effect.bind_apply]
  cases hcase : x w with
  | mk result v =>
    rw [hcase] at hx
    cases result with
    | error failure => exact hx
    | ok a => exact hx.trans ((hf a).within v)

theorem file_name_ok {value : Json} {name : String} (h : file_name value = .ok name) :
    isFileName name := by
  unfold file_name at h
  split at h
  · split at h
    · next hname => exact Except.ok.inj h ▸ hname
    · cases h
  · cases h

/-- A validated output names a file, and its content is within the limit. -/
theorem output_data_ok {data : Json} {limit : Nat} {output : Output}
    (h : output_data data limit = .ok output) :
    isFileName output.name ∧ output.raw.length ≤ limit := by
  simp only [output_data, Except.bind_eq_ok, Except.pure_eq_ok, Except.require_eq_ok] at h
  obtain ⟨_, _, name, hname, size, _, _, hlimit, expected, _, digest, _, raw, _, _,
    ⟨hsize, _⟩, rfl⟩ := h
  exact ⟨file_name_ok hname, hsize ▸ hlimit⟩

namespace WorkspaceManager

variable {w w' : World} {principal : Principal} {service : ControlPlane} {settings : Settings}

/-- The staged bytes only become an object that was not there. -/
theorem place_object_within (temporary : String) (raw : Bytes) :
    Within w (place_object service temporary raw (w.files (.object (sha256 raw))).isSome w).2 := by
  cases hheld : w.files (.object (sha256 raw)) with
  | some held =>
    have hchecked : Op.Local (place_object service temporary raw true) := by
      unfold place_object; infer_instance
    exact hchecked.within w
  | none =>
    have hmove : Held.le w.files.held
        ((w.files.set (.object (sha256 raw)) (w.files (.staging temporary))).set
          (.staging temporary) none).held := by
      refine Held.le_trans ?_ (Op.held_set (fun _ => by simp) _ none)
      intro digest content hcontent
      have hne : Path.object digest ≠ .object (sha256 raw) := by
        intro heq
        simp only [Files.held, heq, hheld] at hcontent
        cases hcontent
      simpa [Files.held, Files.set, hne] using hcontent
    have hreplace : Within w (Op.replace (.staging temporary) (.object (sha256 raw)) w).2 := by
      unfold Op.replace Op.file_step
      cases w.supply.fault 0 with
      | none => exact ⟨rfl, hmove⟩
      | some fault =>
        refine ⟨rfl, ?_⟩
        dsimp only
        split
        · exact Held.le_refl _
        · exact hmove
    exact hreplace.bind fun _ => inferInstanceAs (Op.Local Op.fsync)

instance (temporary : String) (raw : Bytes) : Op.Local (store_object service temporary raw) := by
  have hplaced : ∀ rest : Op Unit, Op.Local rest → Op.Local (do
      place_object service temporary raw (← Op.lexists (.object (sha256 raw)))
      rest) := fun _ hrest => ⟨fun _ => (place_object_within temporary raw).bind fun _ => hrest⟩
  unfold store_object
  have hchecked := hplaced (do
    let held ← Op.read_private (.object (sha256 raw)) service.settings.max_file_bytes
    Op.require (held = raw) (Problem "object_corrupted" 500)) inferInstance
  infer_instance

instance (raw : Bytes) : Op.Local (object service raw) := by unfold object; infer_instance

instance (workspace_id name : String) (file : Option FileRow) :
    Op.Local (file_of workspace_id name file) := by
  cases file <;> (unfold file_of; infer_instance)

instance (workspace_id name : String) (raw : Bytes)
    (expected mission_id attempt_id : Option String) :
    Op.Local (publish service principal workspace_id name raw expected mission_id attempt_id) := by
  unfold publish; infer_instance

instance (workspace_id : String) (output : Output) :
    Op.Local (upload_effect service principal workspace_id output) := by
  unfold upload_effect; infer_instance

instance (mission : MissionRow) (attempt : AttemptRow) (capability : Capability) (output : Json) :
    Op.Local (publish_result service principal mission attempt capability output) := by
  unfold publish_result; infer_instance

instance (exist : Bool) (temporary : String) (raw : Bytes) :
    Op.Reads (place_object service temporary raw exist) := by
  cases exist <;> (unfold place_object; infer_instance)

instance (temporary : String) (raw : Bytes) : Op.Reads (store_object service temporary raw) := by
  unfold store_object; infer_instance

instance (raw : Bytes) : Op.Reads (object service raw) := by unfold object; infer_instance

theorem store_object_ok {temporary : String} {raw : Bytes} {u : Unit}
    (h : store_object service temporary raw w = (.ok u, w')) :
    w'.files.held (sha256 raw) = some raw ∧ raw.length ≤ service.settings.max_file_bytes := by
  simp only [store_object, Op.bind_eq_ok, Op.require_eq_ok] at h
  -- whatever came before, the last reading has found the bytes
  obtain ⟨_, _, _, _, _, _, _, _, _, _, _, _, _, _, _, held, _, hread, rfl, rfl⟩ := h
  obtain ⟨hheld, hlimit, rfl⟩ := Op.read_private_ok hread
  exact ⟨hheld, hlimit⟩

/-- `_object` leaves the bytes under their digest. -/
theorem object_ok {raw : Bytes} {digest : String} (h : object service raw w = (.ok digest, w')) :
    digest = sha256 raw ∧ w'.db = w.db ∧ w'.files.held (sha256 raw) = some raw ∧
      raw.length ≤ service.settings.max_file_bytes := by
  have hsame := Op.Reads.db h
  simp only [object, Op.bind_eq_ok, Op.new_id_eq_ok, Op.ensuring_eq_ok, Op.unlink,
    Op.file_step_eq_ok, Op.pure_eq_ok] at h
  obtain ⟨temporary, _, ⟨_, rfl⟩, _, _, ⟨v, _, hstored, _, rfl⟩, rfl, rfl⟩ := h
  obtain ⟨hheld, hlimit⟩ := store_object_ok hstored
  refine ⟨rfl, hsame, ?_, hlimit⟩
  simpa [Files.held, Files.set] using hheld

theorem file_of_ok {workspace_id name file_id : String} {file : Option FileRow}
    (h : file_of workspace_id name file w = (.ok file_id, w')) :
    w'.files = w.files ∧ match file with
      | some file => file_id = file.id ∧ w'.db = w.db
      | none => isIdentifier file_id = true ∧ (∀ other ∈ w.db.files, other.id ≠ file_id) ∧
          w'.db = { w.db with files := w.db.files ++ [⟨file_id, workspace_id, name⟩] } := by
  cases file with
  | some file =>
    simp only [file_of, Op.pure_eq_ok] at h
    obtain ⟨rfl, rfl⟩ := h
    exact ⟨rfl, rfl, rfl⟩
  | none =>
    simp only [file_of, Op.bind_eq_ok, Op.new_id_eq_ok, Op.execute_eq_ok, Op.pure_eq_ok,
      Db.insert_file_eq_some] at h
    obtain ⟨_, _, ⟨hid, rfl⟩, _, _, ⟨_, _, ⟨⟨hfresh, _⟩, rfl⟩, rfl⟩, rfl, rfl⟩ := h
    refine ⟨rfl, ?_, fun other hother => (hfresh other hother).1, rfl⟩
    rw [← hid]
    exact isIdentifier_identity_text (by decide) _

/-- `_publish` has compared the expected version with the current one, and adds the next. -/
theorem publish_ok {workspace_id name : String} {raw : Bytes}
    {expected mission_id attempt_id : Option String} {published : Published}
    (hname : isFileName name)
    (h : publish service principal workspace_id name raw expected mission_id attempt_id w =
      (.ok published, w')) :
    ∃ publication : Publication, publication.raw = raw ∧
      control_plane.Published service.settings w'.files.held w.db workspace_id name expected
        mission_id attempt_id
        publication ∧
      Logged w.db.events [publication.event] ∧
      published = ⟨publication.version.file_id, publication.version.id, publication.version.sha256,
        publication.version.size⟩ ∧
      w'.db = { w.db with
        files := w.db.files ++ publication.new_file.toList
        versions := w.db.versions ++ [publication.version]
        events := w.db.events ++ [publication.event] } := by
  simp only [publish, Op.select_bind_eq_ok, Op.require_bind_eq_ok] at h
  obtain ⟨hexpected, hquota, hcount, hnumber, h⟩ := h
  obtain ⟨digest, u, hobject, h⟩ := Op.bind_eq_ok.mp h
  obtain ⟨file_id, v, hfile_of, h⟩ := Op.bind_eq_ok.mp h
  simp only [Op.new_id_bind_eq_ok, Op.clock_bind_eq_ok, Op.check_bind_eq_ok,
    Op.execute_bind_eq_ok] at h
  obtain ⟨created_at, _, _, db, hinsert, h⟩ := h
  obtain ⟨_, x, haudit, h⟩ := Op.bind_eq_ok.mp h
  obtain ⟨rfl, rfl⟩ := Op.pure_eq_ok.mp h
  obtain ⟨rfl, hsame, hheld, hlimit⟩ := object_ok hobject
  have hfiles := (file_of_ok hfile_of).1
  obtain ⟨hfresh, rfl⟩ := Db.insert_version_fresh hinsert
  obtain ⟨event, hevent, _, hlogged, hworkspace, hdb⟩ := ControlPlane.audit_ok haudit
  have hstored : x.files.held (sha256 raw) = some raw :=
    (Op.Local.of_run haudit).held _ _ (by
      simpa only [World.with_db_files, World.tick_files, World.draw_files, hfiles] using hheld)
  have hident : isIdentifier (identity_text 'v' (v.supply.uuid 0)) = true :=
    isIdentifier_identity_text (by decide) _
  have hroom : next_number (current_version (w.db.find_file workspace_id name) w.db) ≤ 100 := by
    cases hversion : current_version (w.db.find_file workspace_id name) w.db with
    | none => exact Nat.le_of_ble_eq_true rfl
    | some version =>
      rw [hversion] at hnumber
      exact of_decide_eq_true hnumber
  generalize identity_text 'v' (v.supply.uuid 0) = version_id at *
  let version (file_id : String) : VersionRow := ⟨version_id, file_id,
    next_number (current_version (w.db.find_file workspace_id name) w.db), raw.length, sha256 raw,
    created_at, mission_id, attempt_id⟩
  cases hfile : w.db.find_file workspace_id name with
  | some file =>
    rw [hfile] at hfile_of
    obtain ⟨_, rfl, hv⟩ := file_of_ok hfile_of
    simp only [World.with_db_db, World.tick_db, World.draw_db, hv, hsame]
      at hdb hlogged hworkspace hfresh
    refine ⟨⟨none, version file.id, event, raw⟩, rfl, ⟨hworkspace, hname, ⟨file, hfile, rfl⟩,
      hexpected, rfl, hroom, hfresh, hident, hquota, ⟨rfl, hlimit⟩, rfl, hstored, ⟨rfl, rfl⟩,
      hevent⟩, hlogged, rfl, ?_⟩
    rw [hdb, Option.toList_none, List.append_nil]
  | none =>
    rw [hfile] at hfile_of
    obtain ⟨_, hnew, hunused, hv⟩ := file_of_ok hfile_of
    simp only [World.with_db_db, World.tick_db, World.draw_db, hv, hsame]
      at hdb hlogged hworkspace hfresh
    rw [hsame] at hunused
    have hfew : (w.db.workspace_files workspace_id).length < 100 :=
      Nat.lt_of_not_le fun hmany => hcount ⟨hfile, hmany⟩
    exact ⟨⟨some ⟨file_id, workspace_id, name⟩, version file_id, event, raw⟩, rfl,
      ⟨hworkspace, hname, ⟨hfile, rfl, rfl, rfl, hnew, hunused, hfew⟩, hexpected, rfl, hroom,
        hfresh, hident, hquota, ⟨rfl, hlimit⟩, rfl,
      hstored, ⟨rfl, rfl⟩, hevent⟩, hlogged, rfl, hdb⟩

theorem upload_effect_ok {workspace_id : String} {output : Output} {response : Json}
    (hname : isFileName output.name)
    (h : upload_effect service principal workspace_id output w = (.ok response, w')) :
    Change service.settings w'.files.held w.db w'.db := by
  simp only [upload_effect, Op.bind_eq_ok, Op.pure_eq_ok] at h
  obtain ⟨workspace, _, haccess, published, v, hpublish, rfl, rfl⟩ := h
  obtain ⟨rfl, _, _⟩ := ControlPlane.workspace_access_ok haccess
  obtain ⟨publication, _, hpublished, hlogged, _, hdb⟩ := publish_ok hname hpublish
  rw [hdb]
  exact .uploaded _ workspace_id output.name output.expected_version publication hpublished hlogged

/-- A result is published under the version that its attempt expects. -/
theorem publish_result_ok {mission : MissionRow} {attempt : AttemptRow}
    {capability : Capability} {output : Json} {published : Published}
    (h : publish_result service principal mission attempt capability output w =
      (.ok published, w')) :
    ∃ publication result,
      control_plane.Published service.settings w'.files.held w.db mission.workspace_id "resultat.md"
        attempt.expected_version (some mission.id) (some attempt.id) publication ∧
      Logged w.db.events [publication.event] ∧
      (∀ other ∈ w.db.results, other.id ≠ result.id ∧ other.attempt_id ≠ result.attempt_id) ∧
      isIdentifier result.id = true ∧ result.attempt_id = attempt.id ∧
      result.version_id = publication.version.id ∧ result.provenance = capability ∧
      w'.db = { w.db with
        files := w.db.files ++ publication.new_file.toList
        versions := w.db.versions ++ [publication.version]
        results := w.db.results ++ [result]
        events := w.db.events ++ [publication.event] } := by
  simp only [publish_result, Op.bind_eq_ok, Op.check_eq_ok, Op.require_eq_ok, Op.new_id_eq_ok,
    Op.execute_eq_ok, Op.pure_eq_ok] at h
  obtain ⟨_, _, ⟨_, rfl⟩, _, _, ⟨_, rfl⟩, worker, _, hworker, output, _, ⟨houtput, rfl⟩, _, _,
    ⟨⟨hname, _⟩, rfl⟩, published, v, hpublish, id, _, ⟨hid, rfl⟩, _, _,
      ⟨_, db, hinsert, rfl⟩, rfl, rfl⟩ := h
  obtain ⟨rfl, _⟩ := WorkerRegistry.authorize_ok hworker
  have hfile := (output_data_ok houtput).1
  rw [hname] at hpublish hfile
  obtain ⟨publication, _, hpublished, hlogged, rfl, hdb⟩ := publish_ok hfile hpublish
  obtain ⟨hfresh, rfl⟩ := Db.insert_result_fresh hinsert
  rw [World.draw_db, hdb] at hfresh
  refine ⟨publication, ⟨id, attempt.id, publication.version.id, capability⟩, hpublished, hlogged,
    hfresh, ?_, rfl, rfl, rfl, ?_⟩
  · rw [← hid]
    exact isIdentifier_identity_text (by decide) _
  · rw [World.with_db_db, World.draw_db, hdb]

end WorkspaceManager

end control_plane
