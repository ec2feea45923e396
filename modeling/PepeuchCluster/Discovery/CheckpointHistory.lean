import PepeuchCluster.Discovery.CheckpointStore
import PepeuchCluster.Discovery.Identity

namespace discovery

/-- A call on the directory of the checkpoints, with its arguments. -/
inductive Operation where
  | save (root token : String) (entry : Value)
  | load (root : String) (request : Value) (identity : Json)

def isDead (result : Except Failure Json) : Bool :=
  match result with
  | .error failure => fatal failure
  | .ok _ => false

/-- The lock is let go with the process, and otherwise stays where it was not released. -/
def settle (result : Except Failure Json) (archive : Archive) : Archive :=
  { archive with locked := !isDead result && (archive.locked || archive.holds), holds := false }

theorem settle_ok {archive : Archive} {value : Json} (h : archive.holds = false) :
    settle (.ok value) archive = archive := by
  obtain ⟨files, owned, locked, holds⟩ := archive
  obtain rfl : holds = false := h
  simp [settle, isDead]

/-- What no call takes away. -/
structure Extends (archive after : Archive) : Prop where
  owned : after.owned = archive.owned
  lock : archive.files LOCK ≠ none → after.files LOCK ≠ none
  checkpoint : ∀ identity, isIdentity identity = true →
    ∀ file, archive.files (file_of identity) = some file →
    after.files (file_of identity) = some file

theorem Extends.refl (archive : Archive) : Extends archive archive := ⟨rfl, id, fun _ _ _ h => h⟩

theorem Extends.trans {first second third : Archive} (h : Extends first second)
    (h' : Extends second third) :
    Extends first third :=
  ⟨h'.owned.trans h.owned, fun hlock => h'.lock (h.lock hlock),
    fun identity hidentity file hfile =>
      h'.checkpoint identity hidentity file (h.checkpoint identity hidentity file hfile)⟩

theorem Extends.settled {archive left : Archive} (h : Extends archive left)
    (result : Except Failure Json) :
    Extends archive (settle result left) := ⟨h.owned, h.lock, h.checkpoint⟩

theorem Kept.extends {archive after : Archive} {token identity : String} {raw : List UInt8}
    (h : Kept archive (".pending-" ++ token) (file_of identity) raw after) :
    Extends archive after := by
  refine ⟨h.owned, fun hlock => ?_, fun other hother file hfile => ?_⟩
  · rcases h.lock with hsame | ⟨_, hnew⟩
    · rwa [hsame]
    · rw [hnew]
      exact Option.some_ne_none _
  · by_cases hname : file_of other = file_of identity
    · rcases h.target with hsame | ⟨hnone, _⟩
      · rw [hname, hsame, ← hname, hfile]
      · rw [hname, hnone] at hfile
        cases hfile
    · obtain ⟨hlock, hpending⟩ := file_ne hother
      rw [h.others _ (hpending token) hlock hname, hfile]

section Histories

variable [Unicode] [Datetime]

/-- A call with its clock, its issuers and how its system calls end. -/
structure Invocation where
  now : Now
  trusted_issuers : String → Option (List UInt8)
  fates : List Fate
  operation : Operation

def Invocation.call (invocation : Invocation) : Call Json :=
  match invocation.operation with
  | .save root token entry => do
    return .str (← save_checkpoint invocation.now invocation.trusted_issuers root token entry.json)
  | .load root request identity =>
    load_checkpoint invocation.now invocation.trusted_issuers root request.json identity

def perform (archive : Archive) (invocation : Invocation) : Except Failure Json × Archive :=
  let (result, process) := invocation.call ⟨archive, invocation.fates⟩
  (result, settle result process.archive)

def history (archive : Archive) (invocations : List Invocation) : Archive :=
  invocations.foldl (fun archive invocation => (perform archive invocation).2) archive

/-- A new directory. -/
def empty (owned : Bool) : Archive := ⟨fun _ => none, owned, false, false⟩

def saves (invocation : Invocation) (entry : Json) : Prop :=
  ∃ root token value, invocation.operation = .save root token value ∧ value.json = entry

/-- The whole document of an entry that was saved. -/
def Complete (saved : Json → Prop) (identity : String) (file : File) : Prop :=
  ∃ entry : Value, saved entry.json ∧
    (∃ now trusted_issuers, Cached now trusted_issuers entry.json) ∧
    (checkpoint_bytes entry.json).length ≤ MAX_BYTES ∧ identity = identity_of entry.json ∧
    file = ⟨checkpoint_bytes entry.json, true⟩

/-- What holds between the calls. -/
structure Sound (saved : Json → Prop) (archive : Archive) : Prop where
  released : archive.holds = false
  lock : ∀ file, archive.files LOCK = some file → file.regular = true
  complete : ∀ identity, isIdentity identity = true →
    ∀ file, archive.files (file_of identity) = some file → Complete saved identity file

variable {archive : Archive} {saved : Json → Prop} {now : Now}
  {trusted_issuers : String → Option (List UInt8)}
  {root token : String} {entry : Value} {fates : List Fate}

/-- How a save ends. -/
theorem perform_save (archive : Archive) (now : Now)
    (trusted_issuers : String → Option (List UInt8)) (fates : List Fate)
    (root token : String) (entry : Value) : ∃ result left,
      perform archive ⟨now, trusted_issuers, fates, .save root token entry⟩ =
        (result, settle result left) ∧
      Kept_of token entry.json archive left ∧
      (left ≠ archive → Cached now trusted_issuers entry.json ∧
        (checkpoint_bytes entry.json).length ≤ MAX_BYTES) ∧
      ∀ value, result = .ok value → value = .str (identity_of entry.json) ∧
        Saved now trusted_issuers root token entry.json archive left := by
  have hruns : Runs False (fun left => left = archive)
      (Invocation.call ⟨now, trusted_issuers, fates, .save root token entry⟩)
      (fun value left => value = .str (identity_of entry.json) ∧
        Saved now trusted_issuers root token entry.json archive left)
      fun _ left => Kept_of token entry.json archive left ∧ ¬ False ∧
        (left ≠ archive → Cached now trusted_issuers entry.json ∧
          (checkpoint_bytes entry.json).length ≤ MAX_BYTES) := by
    refine Runs.bind (save_runs entry.wellFormed False.elim) fun identity =>
      Runs.pure fun left h => ?_
    obtain ⟨rfl, hsaved⟩ := h
    exact ⟨rfl, hsaved⟩
  obtain ⟨hvalue, hfail⟩ := hruns ⟨archive, fates⟩ ⟨rfl, False.elim⟩
  cases hcase : Invocation.call ⟨now, trusted_issuers, fates, .save root token entry⟩
    ⟨archive, fates⟩ with
  | mk result process =>
    refine ⟨result, process.archive, by simp [perform, hcase], ?_⟩
    cases result with
    | ok value =>
      obtain ⟨⟨rfl, hsaved⟩, _⟩ := hvalue value process hcase
      refine ⟨hsaved.kept, fun _ => ⟨hsaved.cached, hsaved.size⟩, fun other hother => ?_⟩
      obtain rfl := Except.ok.inj hother
      exact ⟨rfl, hsaved⟩
    | error failure =>
      obtain ⟨hkept, _, hvalid⟩ := hfail failure process hcase
      exact ⟨hkept, hvalid, nofun⟩

/-- How a load ends. -/
theorem perform_load (archive : Archive) (now : Now)
    (trusted_issuers : String → Option (List UInt8)) (fates : List Fate)
    (root : String) (request : Value) (identity : Json) : ∃ result,
      perform archive ⟨now, trusted_issuers, fates, .load root request identity⟩ =
        (result, settle result archive) ∧
      ∀ value, result = .ok value →
      Loaded now trusted_issuers archive request.json identity value := by
  have hload : Runs False (fun start => start = archive)
      (load_checkpoint now trusted_issuers root request.json identity) _ _ :=
    load_ok
  obtain ⟨hvalue, hfail⟩ := hload ⟨archive, fates⟩ ⟨rfl, False.elim⟩
  cases hcase : Invocation.call ⟨now, trusted_issuers, fates, .load root request identity⟩
    ⟨archive, fates⟩ with
  | mk result process =>
    cases result with
    | ok value =>
      obtain ⟨⟨hstart, hloaded⟩, _⟩ := hvalue value process hcase
      refine ⟨.ok value, by simp [perform, hcase, hstart], fun other hother => ?_⟩
      obtain rfl := Except.ok.inj hother
      exact hloaded
    | error failure =>
      have hstart := hfail failure process hcase
      exact ⟨.error failure, by simp [perform, hcase, hstart], nofun⟩

theorem Complete.mono {other : Json → Prop} (h : ∀ entry, saved entry → other entry)
    {identity : String} {file : File} (hcomplete : Complete saved identity file) :
    Complete other identity file := by
  obtain ⟨entry, hsaved, hrest⟩ := hcomplete
  exact ⟨entry, h _ hsaved, hrest⟩

/-- One call keeps the archive sound, and takes no checkpoint away. -/
theorem Sound.perform (h : Sound saved archive) (invocation : Invocation) :
    Sound (fun entry => saved entry ∨ saves invocation entry) (perform archive invocation).2 ∧
      Extends archive (perform archive invocation).2 := by
  obtain ⟨now, trusted_issuers, fates, operation⟩ := invocation
  cases operation with
  | load root request identity =>
    obtain ⟨result, hperform, _⟩ :=
      perform_load archive now trusted_issuers fates root request identity
    rw [hperform]
    exact ⟨⟨rfl, h.lock, fun identity hidentity file hfile =>
      (h.complete identity hidentity file hfile).mono fun _ => .inl⟩,
      (Extends.refl archive).settled result⟩
  | save root token entry =>
    obtain ⟨result, left, hperform, hkept, hvalid, _⟩ :=
      perform_save archive now trusted_issuers fates root token entry
    rw [hperform]
    refine ⟨⟨rfl, fun file hfile => ?_, fun identity hidentity file hfile => ?_⟩,
      hkept.extends.settled result⟩
    · rcases hkept.lock with hsame | ⟨_, hnew⟩
      · exact h.lock file (hsame ▸ hfile)
      · have hfile : left.files LOCK = some file := hfile
        rw [hnew] at hfile
        rw [← Option.some.inj hfile]
    · have hfile : left.files (file_of identity) = some file := hfile
      by_cases hname : file_of identity = file_of (identity_of entry.json)
      · rcases hkept.target with hsame | ⟨hnone, hnew⟩
        · exact (h.complete identity hidentity file (by rw [hname, ← hsame, ← hname, hfile])).mono
            fun _ => .inl
        · have hne : left ≠ archive := by
            rintro rfl
            rw [hnone] at hnew
            cases hnew
          obtain ⟨hcached, hsize⟩ := hvalid hne
          rw [hname, hnew] at hfile
          exact ⟨entry, .inr ⟨root, token, entry, rfl, rfl⟩, ⟨now, trusted_issuers, hcached⟩, hsize,
            file_of_injective hname, (Option.some.inj hfile).symm⟩
      · obtain ⟨hlock, hpending⟩ := file_ne hidentity
        rw [hkept.others _ (hpending token) hlock hname] at hfile
        exact (h.complete identity hidentity file hfile).mono fun _ => .inl

theorem Sound.history (h : Sound saved archive) (calls : List Invocation) :
    Sound (fun entry => saved entry ∨ ∃ call ∈ calls, saves call entry) (history archive calls) ∧
      Extends archive (history archive calls) := by
  induction calls generalizing archive saved with
  | nil =>
    refine ⟨⟨h.released, h.lock, fun identity hidentity file hfile => ?_⟩, Extends.refl archive⟩
    exact (h.complete identity hidentity file hfile).mono fun _ => .inl
  | cons call rest ih =>
    obtain ⟨hsound, hextends⟩ := h.perform call
    obtain ⟨hsound', hextends'⟩ := ih hsound
    refine ⟨⟨hsound'.released, hsound'.lock, fun identity hidentity file hfile => ?_⟩,
      hextends.trans hextends'⟩
    refine (hsound'.complete identity hidentity file hfile).mono fun entry hentry => ?_
    rcases hentry with (hentry | hentry) | ⟨other, hother, hentry⟩
    · exact .inl hentry
    · exact .inr ⟨call, List.mem_cons_self, hentry⟩
    · exact .inr ⟨other, List.mem_cons_of_mem _ hother, hentry⟩

/-- The entries that a history saved. -/
def saved_by (calls : List Invocation) (entry : Json) : Prop := ∃ call ∈ calls, saves call entry

theorem sound_history (owned : Bool) (calls : List Invocation) :
    Sound (saved_by calls) (history (empty owned) calls) ∧
      (history (empty owned) calls).owned = owned := by
  have hempty : Sound (fun _ => False) (empty owned) := ⟨rfl, nofun, nofun⟩
  obtain ⟨hsound, hextends⟩ := hempty.history calls
  refine ⟨⟨hsound.released, hsound.lock, fun identity hidentity file hfile => ?_⟩, hextends.owned⟩
  exact (hsound.complete identity hidentity file hfile).mono fun _ h => h.resolve_left id

/-- A load without faults returns the entry of the file that it finds. -/
theorem load_returns {file : File} (howned : archive.owned = true) (hroot : isAbsolute root = true)
    (hreleased : archive.holds = false)
    (hfile : archive.files (file_of (identity_of entry.json)) = some file)
    (hcontent : file = ⟨checkpoint_bytes entry.json, true⟩)
    (hsize : (checkpoint_bytes entry.json).length ≤ MAX_BYTES)
    (hcached : Cached now trusted_issuers entry.json) :
    perform archive ⟨now, trusted_issuers, [], .load root ⟨_, entry.wellFormed.item "request"⟩
      (.str (identity_of entry.json))⟩ = (.ok entry.json, archive) := by
  have hruns : Runs True (fun start => start = archive)
      (load_checkpoint now trusted_issuers root (entry.json.item "request")
        (.str (identity_of entry.json))) _ _ :=
    load_runs entry.wellFormed hcached hfile (by rw [hcontent]) fun _ => by
      rw [hcontent]
      exact ⟨hroot, howned, rfl, hsize⟩
  obtain ⟨hvalue, hfail⟩ := hruns ⟨archive, []⟩ ⟨rfl, fun _ => rfl⟩
  cases hcase : load_checkpoint now trusted_issuers root (entry.json.item "request")
    (.str (identity_of entry.json))
      ⟨archive, []⟩ with
  | mk result process =>
    cases result with
    | ok value =>
      obtain ⟨⟨rfl, hstart⟩, _⟩ := hvalue value process hcase
      simp [perform, Invocation.call, hcase, hstart, settle_ok hreleased]
    | error failure => exact absurd trivial (hfail failure process hcase).2

/-- A save that nothing refuses returns. -/
theorem save_returns (hready : Ready now trusted_issuers root token entry.json archive) : ∃ left,
    perform archive ⟨now, trusted_issuers, [], .save root token entry⟩ =
      (.ok (.str (identity_of entry.json)), left) ∧
        Saved now trusted_issuers root token entry.json archive left := by
  have hruns : Runs True (fun start => start = archive)
      (save_checkpoint now trusted_issuers root token entry.json) _ _ :=
    save_runs entry.wellFormed fun _ => hready
  obtain ⟨hvalue, hfail⟩ := hruns ⟨archive, []⟩ ⟨rfl, fun _ => rfl⟩
  cases hcase : save_checkpoint now trusted_issuers root token entry.json ⟨archive, []⟩ with
  | mk result process =>
    cases result with
    | ok identity =>
      obtain ⟨⟨rfl, hsaved⟩, _⟩ := hvalue identity process hcase
      refine ⟨process.archive, ?_, hsaved⟩
      simp [perform, Invocation.call, Effect.bind_apply, hcase, settle_ok hsaved.released]
    | error failure => exact absurd trivial (hfail failure process hcase).2.1

/-- The document of an entry is read as that entry. -/
theorem Loaded.whole {request identity value : Json}
    (h : Loaded now trusted_issuers archive request identity value) (hplain : Plain entry.json)
    (hfile : archive.files (file_of identity.text) = some ⟨checkpoint_bytes entry.json, true⟩) :
    value = entry.json := by
  obtain ⟨file, data, hread, hdocument, hvalid, _⟩ := h.read
  obtain rfl := Option.some.inj (hfile.symm.trans hread)
  rw [read_document_checkpoint entry.wellFormed hplain] at hdocument
  obtain rfl := Except.ok.inj hdocument
  have hentry : (checkpoint_document entry.json).item "entry" = entry.json := by
    simp [checkpoint_item]
  rw [hentry] at hvalid
  exact ((validate_cache_ok entry.wellFormed).mp hvalid).1

/-- A load reads the whole document of an entry, and never what a save left behind. -/
theorem Sound.loaded {request identity value : Json} (h : Sound saved archive)
    (hloaded : Loaded now trusted_issuers archive request identity value) :
    ∃ text, identity = .str text ∧
      (∀ token, file_of text ≠ ".pending-" ++ token) ∧
      archive.files (file_of text) = some ⟨checkpoint_bytes value, true⟩ := by
  obtain ⟨text, rfl, hidentity⟩ := hloaded.named
  obtain ⟨file, _, hfile, _⟩ := hloaded.read
  obtain ⟨entry, _, ⟨_, _, hcached⟩, _, rfl, rfl⟩ := h.complete text hidentity file hfile
  obtain rfl := hloaded.whole hcached.plain hfile
  exact ⟨_, rfl, (file_ne hidentity).2, hfile⟩

/-- A save that returned leaves the whole file of its entry. -/
theorem Saved.stays {left : Archive}
    (hsaved : Saved now trusted_issuers root token entry.json archive left)
    (hleft : Sound saved left) :
    left.files (file_of (identity_of entry.json)) = some ⟨checkpoint_bytes entry.json, true⟩ := by
  obtain ⟨file, hfile, hcontent⟩ := hsaved.file
  obtain ⟨other, _, _, _, _, hwhole⟩ := hleft.complete _ (isIdentity_identity entry.json) file hfile
  rw [hfile, ← hcontent, hwhole]

/-- Saving the entry of a file that is there changes no file. -/
theorem perform_again (hlock : archive.files LOCK ≠ none)
    (hfile : archive.files (file_of (identity_of entry.json)) =
      some ⟨checkpoint_bytes entry.json, true⟩) :
    (perform archive ⟨now, trusted_issuers, fates, .save root token entry⟩).2.files =
      archive.files := by
  obtain ⟨result, left, hperform, hkept, _⟩ :=
    perform_save archive now trusted_issuers fates root token entry
  have hheld : archive.files (file_of (identity_of entry.json)) ≠ none := by
    rw [hfile]
    exact Option.some_ne_none _
  rw [hperform]
  refine funext fun name => ?_
  by_cases hpending : name = ".pending-" ++ token
  · rw [hpending]
    exact hkept.residue hheld
  by_cases hlocked : name = LOCK
  · rw [hlocked]
    exact hkept.lock.resolve_right fun hnew => hlock hnew.1
  by_cases hname : name = file_of (identity_of entry.json)
  · rw [hname]
    exact hkept.target.resolve_right fun hnew => hheld hnew.1
  · exact hkept.others name hpending hlocked hname

/-- Without faults, saving it again returns at once. -/
theorem again_returns (hsound : Sound saved archive)
    (hcached : Cached now trusted_issuers entry.json)
    (hsize : (checkpoint_bytes entry.json).length ≤ MAX_BYTES) (hroot : isAbsolute root = true)
    (howned : archive.owned = true) (hunlocked : archive.locked = false)
    (hlock : archive.files LOCK ≠ none) (hfile : archive.files (file_of (identity_of entry.json)) =
      some ⟨checkpoint_bytes entry.json, true⟩) :
    perform archive ⟨now, trusted_issuers, [], .save root token entry⟩ =
      (.ok (.str (identity_of entry.json)), archive) := by
  have hready : Ready now trusted_issuers root token entry.json archive := by
    refine ⟨hcached, hsize, hroot, howned, hunlocked, hsound.lock, fun file hheld => ?_,
      fun hnone => ?_⟩
    · rw [hfile] at hheld
      exact (Option.some.inj hheld).symm
    · rw [hfile] at hnone
      cases hnone
  obtain ⟨left, hperform, hsaved⟩ := save_returns hready
  have hfiles : (perform archive ⟨now, trusted_issuers, [], .save root token entry⟩).2.files =
      archive.files :=
    perform_again hlock hfile
  rw [hperform] at hfiles ⊢
  have hsame : left = archive := by
    obtain ⟨files, owned, locked, holds⟩ := left
    obtain ⟨files', owned', locked', holds'⟩ := archive
    obtain rfl : files = files' := hfiles
    obtain rfl : owned = owned' := hsaved.kept.owned
    obtain rfl : locked = locked' := hsaved.kept.locked
    obtain rfl : holds = false := hsaved.released
    obtain rfl : holds' = false := hsound.released
    rfl
  rw [hsame]

/-- Whatever the calls and however they end: a checkpoint never changes and is always
    whole; what a save returned can be loaded ever after, and saved again without a write;
    a refused entry touches no file; and what a save left behind is neither loaded nor in
    the way of another save. -/
theorem checkpoints_stored (owned : Bool) : ∀ calls : List Invocation,
    (∀ identity file, isIdentity identity = true →
      (history (empty owned) calls).files (file_of identity) = some file →
      Complete (saved_by calls) identity file ∧
        ∀ more, (history (history (empty owned) calls) more).files (file_of identity) = some file) ∧
    (∀ now trusted_issuers fates root token (entry : Value) value left,
      perform (history (empty owned) calls) ⟨now, trusted_issuers, fates, .save root token entry⟩ =
        (.ok value, left) →
      value = .str (identity_of entry.json) ∧ ∀ more later,
        perform (history left more)
          ⟨later, trusted_issuers, [], .load root ⟨_, entry.wellFormed.item "request"⟩ value⟩ =
            (.ok entry.json, history left more) ∧
          (∀ issuers fates root request result,
            (perform (history left more) ⟨later, issuers, fates, .load root request value⟩).1 =
              .ok result → result = entry.json) ∧
          (∀ issuers fates root token,
            (perform (history left more) ⟨later, issuers, fates, .save root token entry⟩).2.files =
                (history left more).files ∧
              ∀ result, (perform (history left more)
                ⟨later, issuers, fates, .save root token entry⟩).1 = .ok result → result = value) ∧
          ∀ token, (history left more).locked = false →
            perform (history left more) ⟨later, trusted_issuers, [], .save root token entry⟩ =
              (.ok value, history left more)) ∧
    (∀ now trusted_issuers fates root token (entry : Value),
      (∀ result, validate_cache now entry.json trusted_issuers ≠ .ok result) →
        (perform (history (empty owned) calls)
          ⟨now, trusted_issuers, fates, .save root token entry⟩).2.files =
            (history (empty owned) calls).files ∧
          ∀ value, (perform (history (empty owned) calls)
            ⟨now, trusted_issuers, fates, .save root token entry⟩).1 ≠ .ok value) ∧
    (∀ now trusted_issuers fates root request identity value,
      (perform (history (empty owned) calls)
        ⟨now, trusted_issuers, fates, .load root request identity⟩).1 = .ok value →
        ∃ text, identity = .str text ∧ (∀ token, file_of text ≠ ".pending-" ++ token) ∧
          (history (empty owned) calls).files (file_of text) =
            some ⟨checkpoint_bytes value, true⟩) ∧
    ∀ now trusted_issuers root token (entry : Value), owned = true → isAbsolute root = true →
      validate_cache now entry.json trusted_issuers = .ok entry.json →
      (checkpoint_bytes entry.json).length ≤ MAX_BYTES →
      (history (empty owned) calls).locked = false →
      (history (empty owned) calls).files (".pending-" ++ token) = none →
      Set.InjOn text_digest
        ({canonical_json entry.json} ∪ canonical_json '' {saved | saved_by calls saved}) →
        ∃ left,
          perform (history (empty owned) calls) ⟨now, trusted_issuers, [], .save root token entry⟩ =
          (.ok (.str (identity_of entry.json)), left) := by
  intro calls
  obtain ⟨hsound, howned⟩ := sound_history owned calls
  refine ⟨fun identity file hidentity hfile =>
    ⟨hsound.complete identity hidentity file hfile, fun more => ?_⟩,
    fun now trusted_issuers fates root token entry value left hperform => ?_,
    fun now trusted_issuers fates root token entry hrefused => ?_,
    fun now trusted_issuers fates root request identity value hload => ?_,
    fun now trusted_issuers root token entry htrue hroot hvalid hsize hunlocked hfresh hinj => ?_⟩
  · exact (hsound.history more).2.checkpoint identity hidentity file hfile
  · obtain ⟨result, left', hsave, _, _, hreturned⟩ :=
      perform_save (history (empty owned) calls) now trusted_issuers fates root token entry
    rw [hsave] at hperform
    obtain ⟨rfl, rfl⟩ := Prod.mk.inj hperform
    obtain ⟨rfl, hsaved⟩ := hreturned value rfl
    refine ⟨rfl, fun more later => ?_⟩
    rw [settle_ok hsaved.released] at hsave ⊢
    have hleft : Sound _ left' := (congrArg Prod.snd hsave) ▸ (hsound.perform _).1
    have hstays := hsaved.stays hleft
    obtain ⟨hmore, hextends⟩ := hleft.history more
    have hfile := hextends.checkpoint _ (isIdentity_identity entry.json) _ hstays
    have hprivate : (history left' more).owned = true :=
      hextends.owned.trans (hsaved.kept.owned.trans hsaved.owned)
    have hlock := hextends.lock hsaved.lock
    have hcached : Cached later trusted_issuers entry.json :=
      hsaved.cached.rechecked entry.wellFormed
    refine ⟨load_returns hprivate hsaved.absolute hmore.released hfile rfl hsaved.size hcached,
      fun issuers fates root request result hload => ?_, fun issuers fates root token =>
        ⟨perform_again hlock hfile, ?_⟩,
      fun token hunlocked =>
        again_returns hmore hcached hsaved.size hsaved.absolute hprivate hunlocked hlock hfile⟩
    · obtain ⟨ended, hload', hloaded⟩ :=
        perform_load (history left' more) later issuers fates root request
          (.str (identity_of entry.json))
      rw [hload'] at hload
      exact (hloaded result hload).whole hsaved.cached.plain hfile
    · intro result hagain
      obtain ⟨ended, _, hagain', _, _, hvalue⟩ :=
        perform_save (history left' more) later issuers fates root token entry
      rw [hagain'] at hagain
      exact (hvalue result hagain).1
  · obtain ⟨result, left, hsave, _, hvalid, hreturned⟩ :=
      perform_save (history (empty owned) calls) now trusted_issuers fates root token entry
    have hnot : ¬ Cached now trusted_issuers entry.json := fun hcached =>
      hrefused _ ((validate_cache_ok entry.wellFormed).mpr ⟨rfl, hcached⟩)
    have hsame : left = history (empty owned) calls := by
      by_contra hne
      exact hnot (hvalid hne).1
    rw [hsave, hsame]
    exact ⟨rfl, fun value heq => hnot (hreturned value heq).2.cached⟩
  · obtain ⟨ended, hload', hloaded⟩ :=
      perform_load (history (empty owned) calls) now trusted_issuers fates root request identity
    rw [hload'] at hload
    exact hsound.loaded (hloaded value hload)
  · have hcached := ((validate_cache_ok entry.wellFormed).mp hvalid).2
    have hready :
        Ready now trusted_issuers root token entry.json (history (empty owned) calls) := by
      refine ⟨hcached, hsize, hroot, howned.trans htrue, hunlocked, hsound.lock,
        fun file hfile => ?_, fun _ => hfresh⟩
      obtain ⟨other, hsaved, _, _, hidentity, rfl⟩ :=
        hsound.complete _ (isIdentity_identity entry.json) file hfile
      have hdigest := identity_digest hidentity
      rw [digest_eq, digest_eq] at hdigest
      have htext := hinj (.inl rfl) (.inr ⟨other.json, hsaved, rfl⟩) hdigest
      rw [canonical_json_injective entry.wellFormed other.wellFormed htext]
    obtain ⟨left, hsave, _⟩ := save_returns hready
    exact ⟨left, hsave⟩

end Histories

end discovery
