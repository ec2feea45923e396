import PepeuchCluster.Discovery.Cache
import PepeuchCluster.Effects.Triple

namespace discovery

/-- A file of the archive, `regular` when it is a private regular file of one name. -/
structure File where
  content : List UInt8
  regular : Bool
deriving DecidableEq

/-- The directory of the checkpoints: its files, whether it is private and owned by the
    current user, whether an earlier call left its lock behind and whether this one has it. -/
structure Archive where
  files : String → Option File
  owned : Bool
  locked : Bool
  holds : Bool

/-- How a system call ends: with its work done, with a part of a transfer, with an error
    of the system, or with the death of the process. In the last two it may have had its
    effect, or a part of it. -/
inductive Fate where
  | done
  | short (count : Nat)
  | raised (count : Nat)
  | killed (count : Nat)
deriving DecidableEq

/-- The archive and how the next system calls end; all others are done. -/
structure Process where
  archive : Archive
  fates : List Fate

abbrev Call (α : Type) : Type := Effect Failure Process α

/-- The death of the process runs no `finally`. -/
def fatal (failure : Failure) : Bool := failure = .killed

section SystemCalls

/-- A transfer of bytes, as many as it says. -/
def transfer (whole : Nat) (perform : Nat → Archive → Archive) : Call Nat := fun s =>
  match s.fates with
  | [] => (.ok whole, ⟨perform whole s.archive, []⟩)
  | .done :: rest => (.ok whole, ⟨perform whole s.archive, rest⟩)
  | .short count :: rest => (.ok (min count whole), ⟨perform (min count whole) s.archive, rest⟩)
  | .raised count :: rest => (.error .os_error, ⟨perform (min count whole) s.archive, rest⟩)
  | .killed count :: rest => (.error .killed, ⟨perform (min count whole) s.archive, rest⟩)

/-- Any other system call. -/
def step (perform : Archive → Archive) : Call Unit := fun s =>
  match s.fates with
  | [] => (.ok (), ⟨perform s.archive, []⟩)
  | .done :: rest => (.ok (), ⟨perform s.archive, rest⟩)
  | .short _ :: rest => (.ok (), ⟨perform s.archive, rest⟩)
  | .raised count :: rest =>
    (.error .os_error, ⟨if count = 0 then s.archive else perform s.archive, rest⟩)
  | .killed count :: rest =>
    (.error .killed, ⟨if count = 0 then s.archive else perform s.archive, rest⟩)

def observe {α : Type} (action : Archive → Call α) : Call α := fun s => action s.archive s

/-- `try … except FileNotFoundError: None`. -/
def found {α : Type} (action : Call α) : Call (Option α) := fun s =>
  match action s with
  | (.ok a, t) => (.ok (some a), t)
  | (.error failure, t) => (if failure = .file_not_found then .ok none else .error failure, t)

end SystemCalls

namespace Archive

def create (name : String) (archive : Archive) : Archive :=
  { archive with files := fun other =>
    if other = name then (archive.files name).or (some ⟨[], true⟩) else archive.files other }

def append (name : String) (bytes : List UInt8) (archive : Archive) : Archive :=
  { archive with files := fun other =>
      if other = name then (archive.files name).map fun file =>
        { file with content := file.content ++ bytes }
      else archive.files other }

/-- `os.replace`, atomic. -/
def replace (source target : String) (archive : Archive) : Archive :=
  { archive with files := fun other =>
      if other = source then none else if other = target then archive.files source
        else archive.files other }

def unlink (name : String) (archive : Archive) : Archive :=
  { archive with files := fun other => if other = name then none else archive.files other }

def acquire (archive : Archive) : Archive := { archive with holds := true }

def release (archive : Archive) : Archive := { archive with holds := false }

end Archive

def MAX_BYTES : Nat := 16 * 1024 * 1024

def LOCK : String := ".writer.lock"

section Files

/-- `Path(root).parts[1:]`. -/
def components (root : String) : List (List Char) :=
  (root.toList.splitOn '/').filter fun part => part ≠ [] ∧ part ≠ ['.']

def isAbsolute (root : String) : Bool :=
  root.toList.head? = some '/' && ['.', '.'] ∉ root.toList.splitOn '/'

/-- `_directory`. -/
def in_directory {α : Type} (root : String) (body : Call α) : Call α := do
  Effect.require (isAbsolute root = true)
    (.value_error "Absolute local checkpoint directory required")
  step id
  Effect.ensuring fatal
    (do
      (components root).forM fun _ => do
        step id
        step id
      step id
      observe fun archive => Effect.require (archive.owned = true)
        (.value_error "Checkpoint directory must be private and owned by the current user")
      body)
    (step id)

/-- `_regular`. -/
def regular (file : File) : Call Unit := do
  step id
  Effect.require (file.regular = true) (.value_error "Private regular checkpoint file required")

def read_chunks (remaining : Nat) (left : List UInt8) : Call (List UInt8) :=
  if remaining = 0 then pure []
  else do
    let count ← transfer (min 65536 (min remaining left.length)) fun _ archive => archive
    if _ : count = 0 ∨ remaining = 0 then pure []
    else return left.take count ++ (← read_chunks (remaining - count) (left.drop count))
termination_by remaining

/-- `_read`. -/
def read_file (name : String) : Call (List UInt8) := do
  step id
  observe fun archive =>
    match archive.files name with
    | none => Effect.raise .file_not_found
    | some file =>
      Effect.ensuring fatal
        (do
          regular file
          Effect.require (file.content.length ≤ MAX_BYTES)
            (.value_error "Checkpoint exceeds local size limit")
          let raw ← read_chunks (MAX_BYTES + 1) file.content
          Effect.require (raw.length ≤ MAX_BYTES ∧ raw.length = file.content.length)
            (.value_error "Checkpoint size changed during read")
          return raw)
        (step id)

/-- `_writer`. -/
def in_writer {α : Type} (body : Call α) : Call α := do
  step (Archive.create LOCK)
  Effect.ensuring fatal
    (do
      observe fun archive =>
        match archive.files LOCK with
        | none => Effect.raise .os_error
        | some file => regular file
      observe fun archive => Effect.require (archive.locked = false)
        (.value_error "Concurrent checkpoint writer refused")
      step Archive.acquire
      body)
    (step Archive.release)

/-- The loop `while view`. -/
def write_all (name : String) (view : List UInt8) : Call Unit :=
  if view = [] then pure ()
  else do
    let count ← transfer view.length fun count => Archive.append name (view.take count)
    if _ : count = 0 ∨ view = [] then Effect.raise .os_error
    else write_all name (view.drop count)
termination_by view.length
decreasing_by
  obtain ⟨hcount, hview⟩ := not_or.mp ‹¬ (count = 0 ∨ view = [])›
  have hlength := List.length_pos_iff.mpr hview
  rw [List.length_drop]
  omega

/-- The part of `save_checkpoint` that writes a new file. -/
def publish (temporary name : String) (raw : List UInt8) : Call Unit := do
  observe fun archive => Effect.require (archive.files temporary = none) .os_error
  step (Archive.create temporary)
  Effect.ensuring fatal
    (do
      Effect.ensuring fatal
        (do
          write_all temporary raw
          step id)
        (step id)
      step (Archive.replace temporary name)
      step id)
    (observe fun archive =>
      step (if archive.files temporary = none then id else Archive.unlink temporary))

end Files

/-- From an archive with `P`, the call ends in a value and an archive with `Q`, or fails and
    leaves an archive with `E`; while it is calm, no system call fails. -/
def Runs {α : Type} (calm : Prop) (P : Archive → Prop) (x : Call α) (Q : α → Archive → Prop)
    (E : Failure → Archive → Prop) : Prop :=
  Effect.Triple (fun s => P s.archive ∧ (calm → s.fates = [])) x
    (fun a s => Q a s.archive ∧ (calm → s.fates = []))
    fun e s => E e s.archive

/-- A failure that leaves a safe archive, while something goes wrong. -/
def Broken (calm : Prop) (safe : Archive → Prop) (failure : Failure) (archive : Archive) : Prop :=
  safe archive ∧ ¬ calm ∧ failure ≠ .file_not_found

namespace Runs

variable {α β : Type} {calm : Prop} {P : Archive → Prop} {E : Failure → Archive → Prop}

theorem pure {Q : α → Archive → Prop} {a : α} (h : ∀ archive, P archive → Q a archive) :
    Runs calm P (pure a : Call α) Q E :=
  Effect.Triple.pure fun s hs => ⟨h s.archive hs.1, hs.2⟩

theorem raise {Q : α → Archive → Prop} {e : Failure} (h : ∀ archive, P archive → E e archive) :
    Runs calm P (Effect.raise e : Call α) Q E :=
  Effect.Triple.raise fun s hs => h s.archive hs.1

theorem ofExcept {Q : α → Archive → Prop} {result : Except Failure α}
    (hok : ∀ archive a, P archive → result = .ok a → Q a archive)
    (herror : ∀ archive e, P archive → result = .error e → E e archive) :
    Runs calm P (Effect.ofExcept result) Q E :=
  Effect.Triple.ofExcept (fun s a hs ha => ⟨hok s.archive a hs.1 ha, hs.2⟩) fun s e hs he =>
    herror s.archive e hs.1 he

theorem require {Q : Unit → Archive → Prop} {condition : Prop} [Decidable condition] {e : Failure}
    (hok : ∀ archive, P archive → condition → Q () archive)
    (herror : ∀ archive, P archive → ¬ condition → E e archive) :
    Runs calm P (Effect.require condition e) Q E :=
  Effect.Triple.require (fun s hs h => ⟨hok s.archive hs.1 h, hs.2⟩) fun s hs h =>
    herror s.archive hs.1 h

/-- A condition that is met. -/
theorem met {condition : Prop} [Decidable condition] {e : Failure} (h : condition) :
    Runs calm P (Effect.require condition e) (fun _ => P) E :=
  require (fun _ hP _ => hP) fun _ _ hnot => absurd h hnot

theorem bind {Q : β → Archive → Prop} {R : α → Archive → Prop} {x : Call α} {f : α → Call β}
    (hx : Runs calm P x R E) (hf : ∀ a, Runs calm (R a) (f a) Q E) : Runs calm P (x >>= f) Q E :=
  Effect.Triple.bind hx hf

theorem weaken {Q S : α → Archive → Prop} {R : Archive → Prop}
    {F : Failure → Archive → Prop} {x : Call α} (h : Runs calm R x S F)
    (hP : ∀ archive, P archive → R archive) (hQ : ∀ a archive, S a archive → Q a archive)
    (hE : ∀ e archive, F e archive → E e archive) : Runs calm P x Q E :=
  Effect.Triple.weaken h (fun _ hs => ⟨hP _ hs.1, hs.2⟩) (fun _ _ hs => ⟨hQ _ _ hs.1, hs.2⟩)
    fun _ _ hs => hE _ _ hs

/-- A fact that does not depend on the archive. -/
theorem observed {Q : α → Archive → Prop} {fact : Prop} {x : Call α}
    (h : fact → Runs calm P x Q E) :
    Runs calm (fun archive => P archive ∧ fact) x Q E :=
  fun s hs => h hs.1.2 s ⟨hs.1.1, hs.2⟩

theorem observe {Q : α → Archive → Prop} {action : Archive → Call α}
    (h : ∀ archive, P archive → Runs calm (fun a => a = archive) (action archive) Q E) :
    Runs calm P (observe action) Q E := by
  refine Effect.Triple.read (f := fun s => action s.archive) fun s hs => ?_
  refine Effect.Triple.weaken (h s.archive hs.1) ?_ (fun _ _ hQ => hQ) fun _ _ hE => hE
  rintro _ rfl
  exact ⟨rfl, hs.2⟩

theorem transfer {Q : Nat → Archive → Prop} {whole : Nat} {perform : Nat → Archive → Archive}
    (hok : ∀ archive count, P archive → count ≤ whole → (calm → count = whole) →
      Q count (perform count archive))
    (herror : ∀ archive e count, P archive → count ≤ whole → ¬ calm → e ≠ .file_not_found →
      E e (perform count archive)) :
    Runs calm P (transfer whole perform) Q E := by
  intro s hs
  obtain ⟨hP, hcalm⟩ := hs
  cases hfates : s.fates with
  | nil =>
    refine Effect.Triple.returns (by simp [discovery.transfer, hfates]; exact ⟨rfl, rfl⟩) ?_
    exact ⟨hok _ _ hP le_rfl fun _ => rfl, fun _ => rfl⟩
  | cons fate rest =>
    have hnot : ¬ calm := fun h => by simp [hcalm h] at hfates
    cases fate with
    | done =>
      refine Effect.Triple.returns (by simp [discovery.transfer, hfates]; exact ⟨rfl, rfl⟩) ?_
      exact ⟨hok _ _ hP le_rfl fun h => absurd h hnot, fun h => absurd h hnot⟩
    | short count =>
      refine Effect.Triple.returns (by simp [discovery.transfer, hfates]; exact ⟨rfl, rfl⟩) ?_
      exact ⟨hok _ _ hP (min_le_right _ _) fun h => absurd h hnot, fun h => absurd h hnot⟩
    | raised count =>
      refine Effect.Triple.fails (by simp [discovery.transfer, hfates]; exact ⟨rfl, rfl⟩) ?_
      exact herror _ _ _ hP (min_le_right _ _) hnot nofun
    | killed count =>
      refine Effect.Triple.fails (by simp [discovery.transfer, hfates]; exact ⟨rfl, rfl⟩) ?_
      exact herror _ _ _ hP (min_le_right _ _) hnot nofun

theorem step {Q : Unit → Archive → Prop} {perform : Archive → Archive}
    (hok : ∀ archive, P archive → Q () (perform archive))
    (herror : ∀ archive e, P archive → ¬ calm → e ≠ .file_not_found →
      E e archive ∧ E e (perform archive)) :
    Runs calm P (step perform) Q E := by
  intro s hs
  obtain ⟨hP, hcalm⟩ := hs
  cases hfates : s.fates with
  | nil =>
    refine Effect.Triple.returns (by simp [discovery.step, hfates]; exact ⟨rfl, rfl⟩) ?_
    exact ⟨hok _ hP, fun _ => rfl⟩
  | cons fate rest =>
    have hnot : ¬ calm := fun h => by simp [hcalm h] at hfates
    cases fate with
    | done =>
      refine Effect.Triple.returns (by simp [discovery.step, hfates]; exact ⟨rfl, rfl⟩) ?_
      exact ⟨hok _ hP, fun h => absurd h hnot⟩
    | short count =>
      refine Effect.Triple.returns (by simp [discovery.step, hfates]; exact ⟨rfl, rfl⟩) ?_
      exact ⟨hok _ hP, fun h => absurd h hnot⟩
    | raised count =>
      obtain ⟨hbefore, hafter⟩ := herror s.archive .os_error hP hnot nofun
      refine Effect.Triple.fails (by simp [discovery.step, hfates]; exact ⟨rfl, rfl⟩) ?_
      dsimp only
      split
      · exact hbefore
      · exact hafter
    | killed count =>
      obtain ⟨hbefore, hafter⟩ := herror s.archive .killed hP hnot nofun
      refine Effect.Triple.fails (by simp [discovery.step, hfates]; exact ⟨rfl, rfl⟩) ?_
      dsimp only
      split
      · exact hbefore
      · exact hafter

/-- A clean-up after a body that returned or failed; it fails only while something goes wrong. -/
theorem settling {Q : α → Archive → Prop} {body : Call α} {cleanup : Call Unit}
    {R : α → Archive → Prop} {F : Failure → Archive → Prop} (hbody : Runs calm P body R F)
    (hok : ∀ a, Runs calm (R a) cleanup (fun _ archive => Q a archive) E)
    (hfailed : ∀ e, Runs calm (F e) cleanup (fun _ archive => E e archive) E)
    (hdead : ∀ e archive, F e archive → E e archive) (hnot : ∀ e archive, F e archive → ¬ calm) :
    Runs calm P (Effect.ensuring fatal body cleanup) Q E := by
  refine Effect.Triple.ensuring hbody hok (fun e _ => ?_) fun e s _ hs => hdead e _ hs
  intro s hs
  obtain ⟨hdone, hbroken⟩ := hfailed e s ⟨hs, fun h => absurd h (hnot e _ hs)⟩
  exact ⟨fun a t ha => (hdone a t ha).1, hbroken⟩

theorem ensuring {Q : α → Archive → Prop} {body : Call α} {cleanup : Call Unit}
    {R : α → Archive → Prop} {F after : Archive → Prop} (hbody : Runs calm P body R (Broken calm F))
    (hok : ∀ a, Runs calm (R a) cleanup (fun _ archive => Q a archive) (Broken calm after))
    (hfailed : Runs calm F cleanup (fun _ archive => after archive) (Broken calm after))
    (hdead : ∀ archive, F archive → after archive) :
    Runs calm P (Effect.ensuring fatal body cleanup) Q (Broken calm after) := by
  refine settling hbody hok (fun e => ?_) (fun _ _ h => ⟨hdead _ h.1, h.2⟩) fun _ _ h => h.2.1
  intro s hs
  obtain ⟨⟨hstart, hbroken⟩, hfates⟩ := hs
  obtain ⟨hdone, hfail⟩ := hfailed s ⟨hstart, hfates⟩
  exact ⟨fun a t ha => ⟨⟨(hdone a t ha).1, hbroken⟩, (hdone a t ha).2⟩, hfail⟩

section Calls

variable {Q : α → Archive → Prop} {safe : Archive → Prop} {body : Call α}

/-- A system call that changes nothing. -/
theorem idle (hP : ∀ archive, P archive → safe archive) :
    Runs calm P (discovery.step id) (fun _ => P) (Broken calm safe) :=
  step (fun _ h => h) fun archive _ h hnot hne =>
    ⟨⟨hP archive h, hnot, hne⟩, hP archive h, hnot, hne⟩

theorem demand {condition : Prop} [Decidable condition] {text : String}
    (hP : ∀ archive, P archive → safe archive)
    (hcondition : calm → ∀ archive, P archive → condition) :
    Runs calm P (Effect.require condition (.value_error text))
      (fun _ archive => P archive ∧ condition) (Broken calm safe) :=
  require (fun _ h hcondition => ⟨h, hcondition⟩)
    fun archive h hnot => ⟨hP archive h, fun hcalm => hnot (hcondition hcalm archive h), nofun⟩

theorem regular {file : File} (hP : ∀ archive, P archive → safe archive)
    (hcalm : calm → file.regular = true) :
    Runs calm P (regular file) (fun _ => P) (Broken calm safe) :=
  Runs.bind (idle hP) fun _ =>
    Runs.weaken (demand hP fun h _ _ => hcalm h) (fun _ h => h) (fun _ _ h => h.1) fun _ _ h => h

theorem forM {β : Type} {items : List β} {action : β → Call Unit}
    (h : ∀ item, Runs calm P (action item) (fun _ => P) E) :
    Runs calm P (items.forM action) (fun _ => P) E := by
  induction items with
  | nil => exact Runs.pure fun _ h => h
  | cons item rest ih => exact Runs.bind (h item) fun _ => ih

/-- A body in an open directory; its failures are kept. -/
theorem in_directory {root : String} (habsolute : calm → isAbsolute root = true)
    (howned : calm → ∀ archive, P archive → archive.owned = true)
    (hP : ∀ archive, P archive → safe archive) (hQ : ∀ a archive, Q a archive → safe archive)
    (hE : ∀ e archive, E e archive → safe archive ∧ ¬ calm)
    (hsafe : ∀ e archive, safe archive → ¬ calm → e ≠ .file_not_found → E e archive)
    (hbody : isAbsolute root = true →
      Runs calm (fun archive => P archive ∧ archive.owned = true) body Q E) :
    Runs calm P (in_directory root body) Q E := by
  have hidle : ∀ {P : Archive → Prop}, (∀ archive, P archive → safe archive) →
      Runs calm P (discovery.step id) (fun _ => P) E := fun hP =>
    Runs.step (fun _ h => h) fun archive e h hnot hne =>
      ⟨hsafe e archive (hP _ h) hnot hne, hsafe e archive (hP _ h) hnot hne⟩
  refine Runs.bind (R := fun _ archive => P archive ∧ isAbsolute root = true)
    (Runs.require (fun _ h hroot => ⟨h, hroot⟩)
      fun archive h hroot => hsafe _ archive (hP archive h) (fun hc => hroot (habsolute hc)) nofun)
    fun _ => ?_
  refine Runs.observed fun hroot => Runs.bind (hidle hP) fun _ => ?_
  refine Runs.settling (R := Q) (F := E) ?_ (fun a => hidle (hQ a)) (fun e => ?_) (fun _ _ h => h)
    fun e archive h => (hE e archive h).2
  · refine Runs.bind (Runs.forM fun _ => Runs.bind (hidle hP) fun _ => hidle hP) fun _ =>
      Runs.bind (hidle hP) fun _ => ?_
    refine Runs.bind (R := fun _ archive => P archive ∧ archive.owned = true)
      (Runs.observe fun archive h => ?_)
      fun _ => hbody hroot
    refine Runs.require ?_ ?_
    · rintro _ rfl hprivate
      exact ⟨h, hprivate⟩
    · rintro _ rfl hnot
      exact hsafe _ _ (hP _ h) (fun hcalm => hnot (howned hcalm _ h)) nofun
  · exact hidle fun archive h => (hE e archive h).1

/-- A body that has the lock, from an archive in which it was taken. -/
theorem in_writer {archive : Archive} {R : α → Archive → Prop}
    (hregular : calm → ∀ file, archive.files LOCK = some file → file.regular = true)
    (hunlocked : calm → archive.locked = false) (hsafe : safe archive)
    (hcreated : safe (archive.create LOCK))
    (hacquire : ∀ archive, safe archive → safe archive.acquire)
    (hrelease : ∀ archive, safe archive → safe archive.release)
    (hR : ∀ a archive, R a archive → safe archive)
    (hbody : Runs calm (fun a => a = (archive.create LOCK).acquire) body R (Broken calm safe)) :
    Runs calm (fun a => a = archive) (in_writer body)
      (fun a archive => ∃ before, R a before ∧ archive = before.release)
      (Broken calm safe) := by
  have hheld : ∃ file, (archive.create LOCK).files LOCK = some file ∧
      (calm → file.regular = true) := by
    cases hfile : archive.files LOCK with
    | none => exact ⟨⟨[], true⟩, by simp [Archive.create, hfile], fun _ => rfl⟩
    | some file =>
      exact ⟨file, by simp [Archive.create, hfile], fun hcalm => hregular hcalm file hfile⟩
  obtain ⟨file, hfile, hprivate⟩ := hheld
  have hstart : ∀ a, a = archive.create LOCK → safe a := by
    rintro _ rfl
    exact hcreated
  refine Runs.bind (R := fun _ a => a = archive.create LOCK) (Runs.step ?_ ?_) fun _ => ?_
  · rintro _ rfl
    rfl
  · rintro _ _ rfl hnot hne
    exact ⟨⟨hsafe, hnot, hne⟩, hcreated, hnot, hne⟩
  refine Runs.ensuring (R := R) (F := safe) ?_ (fun a => Runs.step ?_ ?_)
    (Runs.step ?_ ?_) fun _ h => h
  · refine Runs.bind (R := fun _ a => a = archive.create LOCK) (Runs.observe ?_) fun _ => ?_
    · rintro _ rfl
      rw [hfile]
      exact regular hstart hprivate
    refine Runs.bind (R := fun _ a => a = archive.create LOCK) (Runs.observe ?_) fun _ => ?_
    · rintro _ rfl
      exact Runs.weaken (demand hstart fun hcalm _ _ => hunlocked hcalm) (fun _ h => h)
        (fun _ _ h => h.1) fun _ _ h => h
    refine Runs.bind (R := fun _ a => a = (archive.create LOCK).acquire)
      (Runs.step ?_ ?_) fun _ => hbody
    · rintro _ rfl
      rfl
    · rintro _ _ rfl hnot hne
      exact ⟨⟨hcreated, hnot, hne⟩, hacquire _ hcreated, hnot, hne⟩
  · exact fun before h => ⟨before, h, rfl⟩
  · exact fun before _ h hnot hne =>
      ⟨⟨hR a before h, hnot, hne⟩, hrelease _ (hR a before h), hnot, hne⟩
  · exact fun before h => hrelease _ h
  · exact fun before _ h hnot hne => ⟨⟨h, hnot, hne⟩, hrelease _ h, hnot, hne⟩

end Calls

section Reading

variable {safe : Archive → Prop}

theorem read_chunks (remaining : Nat) (left : List UInt8)
    (hP : ∀ archive, P archive → safe archive) :
    Runs calm P (read_chunks remaining left)
      (fun raw archive => P archive ∧ raw <+: left ∧ (calm → left.length < remaining → raw = left))
        (Broken calm safe) := by
  induction remaining using Nat.strong_induction_on generalizing left with
  | _ remaining ih =>
    rw [discovery.read_chunks]
    by_cases hzero : remaining = 0
    · rw [if_pos hzero]
      exact Runs.pure fun a h => ⟨h, List.nil_prefix, fun _ hlt => by omega⟩
    rw [if_neg hzero]
    refine Runs.bind (R := fun count a => P a ∧ count ≤ min 65536 (min remaining left.length) ∧
      (calm → count = min 65536 (min remaining left.length))) (Runs.transfer ?_ ?_) fun count => ?_
    · exact fun a count h hle hcount => ⟨h, hle, hcount⟩
    · exact fun a _ _ h _ hnot hne => ⟨hP a h, hnot, hne⟩
    · by_cases hstop : count = 0 ∨ remaining = 0
      · rw [dif_pos hstop]
        refine Runs.pure fun a h => ⟨h.1, List.nil_prefix, fun hcalm hlt => ?_⟩
        have hcount := h.2.2 hcalm
        have hnone : left.length = 0 := by omega
        exact (List.length_eq_zero_iff.mp hnone).symm
      · rw [dif_neg hstop]
        obtain ⟨hcount, hremaining⟩ := not_or.mp hstop
        refine Runs.observed fun hbound : count ≤ min 65536 (min remaining left.length) ∧ _ => ?_
        refine Runs.bind (R := fun raw a => P a ∧ raw <+: left.drop count ∧
          (calm → left.length < remaining → raw = left.drop count)) ?_ fun raw => ?_
        · refine Runs.weaken (ih (remaining - count) (by omega) (left.drop count))
            (fun _ h => h) ?_ fun _ _ h => h
          rintro raw a ⟨h, hprefix, hwhole⟩
          refine ⟨h, hprefix, fun hcalm hlt => hwhole hcalm ?_⟩
          rw [List.length_drop]
          omega
        · refine Runs.pure fun a h => ⟨h.1, ?_, fun hcalm hlt => ?_⟩
          · obtain ⟨rest, hrest⟩ := h.2.1
            exact ⟨rest, by rw [List.append_assoc, hrest, List.take_append_drop]⟩
          · rw [h.2.2 hcalm hlt, List.take_append_drop]

/-- A file is read whole, or not at all. -/
theorem read_file {name : String} {file : File}
    (hP : ∀ archive, P archive → archive.files name = some file)
    (hcalm : calm → file.regular = true ∧ file.content.length ≤ MAX_BYTES) :
    Runs calm P (read_file name) (fun raw archive => P archive ∧ raw = file.content)
      (Broken calm P) := by
  have hself : ∀ archive, P archive → P archive := fun _ h => h
  refine Runs.bind (idle hself) fun _ => Runs.observe fun archive h => ?_
  rw [hP archive h]
  refine Runs.weaken (R := P) (S := fun raw archive => P archive ∧ raw = file.content) ?_ ?_
    (fun _ _ h => h) fun _ _ h => h
  · refine Runs.ensuring ?_ (fun raw => idle fun _ h => h.1) (idle hself) hself
    refine Runs.bind (regular hself fun h => (hcalm h).1) fun _ => ?_
    refine Runs.bind (demand hself fun h _ _ => (hcalm h).2) fun _ => Runs.observed fun _ => ?_
    refine Runs.bind (read_chunks (MAX_BYTES + 1) file.content hself) fun raw => ?_
    refine Runs.bind (demand (fun _ h => h.1) fun h _ hraw => ?_) fun _ =>
      Runs.pure fun archive h => ?_
    · have hlength := (hcalm h).2
      rw [hraw.2.2 h (by omega)]
      exact ⟨hlength, rfl⟩
    · exact ⟨h.1.1, h.1.2.1.eq_of_length h.2.2⟩
  · rintro _ rfl
    exact h

theorem read_missing {name : String} (hP : ∀ archive, P archive → archive.files name = none) :
    Effect.Triple (fun s => P s.archive ∧ (calm → s.fates = [])) (discovery.read_file name)
      (fun _ _ => False)
      fun e s => (P s.archive ∧ (calm → s.fates = [])) ∧ (e ≠ .file_not_found → ¬ calm) := by
  have hidle : Runs calm P (discovery.step id) (fun _ => P) (Broken calm P) := idle fun _ h => h
  refine Effect.Triple.bind
    (Effect.Triple.weaken hidle (fun _ h => h) (fun _ _ h => h) fun e s h => ?_) fun _ => ?_
  · exact ⟨⟨h.1, fun hcalm => absurd hcalm h.2.1⟩, fun _ => h.2.1⟩
  · intro s h
    refine Effect.Triple.fails (e := .file_not_found) (t := s)
      (by simp [discovery.observe, hP s.archive h.1, Effect.raise]) ?_
    exact ⟨h, fun hne => absurd rfl hne⟩

/-- What is there, unless reading it fails. -/
theorem found {name : String} {held : Option File}
    (hP : ∀ archive, P archive → archive.files name = held)
    (hcalm : calm → ∀ file ∈ held, file.regular = true ∧ file.content.length ≤ MAX_BYTES) :
    Runs calm P (found (discovery.read_file name))
      (fun raw archive => P archive ∧ raw = held.map File.content)
      (Broken calm P) := by
  intro s hs
  cases held with
  | none =>
    have hmissing : Effect.Triple (fun s => P s.archive ∧ (calm → s.fates = []))
        (discovery.read_file name) (fun _ _ => False) _ :=
      read_missing hP
    obtain ⟨hvalue, hfail⟩ := hmissing s hs
    cases hcase : discovery.read_file name s with
    | mk result t =>
      cases result with
      | ok raw => exact (hvalue raw t hcase).elim
      | error e =>
        obtain ⟨⟨h, hfates⟩, hnot⟩ := hfail e t hcase
        by_cases he : e = .file_not_found
        · exact Effect.Triple.returns (by simp [discovery.found, hcase, he]) ⟨⟨h, rfl⟩, hfates⟩
        · exact Effect.Triple.fails (by simp [discovery.found, hcase, he]) ⟨h, hnot he, he⟩
  | some file =>
    obtain ⟨hvalue, hfail⟩ := read_file hP (fun h => hcalm h file rfl) s hs
    cases hcase : discovery.read_file name s with
    | mk result t =>
      cases result with
      | ok raw =>
        obtain ⟨⟨h, rfl⟩, hfates⟩ := hvalue raw t hcase
        exact Effect.Triple.returns (by simp [discovery.found, hcase]) ⟨⟨h, rfl⟩, hfates⟩
      | error e =>
        obtain ⟨h, hnot, he⟩ := hfail e t hcase
        exact Effect.Triple.fails (by simp [discovery.found, hcase, he]) ⟨h, hnot, he⟩

end Reading

section Writing

variable {start : Archive} {temporary name : String} {raw : List UInt8}

/-- The archive with the bytes that are written so far, and nothing else changed. -/
def Written (start : Archive) (temporary : String) (bytes : List UInt8)
    (archive : Archive) : Prop :=
  archive = { start with files := Function.update start.files temporary (some ⟨bytes, true⟩) }

/-- The archive with the new file. -/
def Published (start : Archive) (temporary name : String) (raw : List UInt8)
    (archive : Archive) : Prop :=
  archive = { start with
    files := Function.update (Function.update start.files name (some ⟨raw, true⟩)) temporary none }

/-- The archive of an attempt: the new file is there whole or not at all. -/
structure Attempted (start : Archive) (temporary name : String) (raw : List UInt8)
    (archive : Archive) : Prop where
  owned : archive.owned = start.owned
  locked : archive.locked = start.locked
  others : ∀ other, other ≠ temporary → other ≠ name → archive.files other = start.files other
  target : archive.files name = none ∨ archive.files name = some ⟨raw, true⟩

theorem Written.attempted {bytes : List UInt8} {archive : Archive} (hname : start.files name = none)
    (hne : name ≠ temporary) (h : Written start temporary bytes archive) :
    Attempted start temporary name raw archive := by
  obtain rfl := h
  refine ⟨rfl, rfl, fun other hother _ => Function.update_of_ne hother _ _, .inl ?_⟩
  dsimp only
  rw [Function.update_of_ne hne, hname]

theorem Published.attempted {archive : Archive} (hne : name ≠ temporary)
    (h : Published start temporary name raw archive) :
    Attempted start temporary name raw archive := by
  obtain rfl := h
  refine ⟨rfl, rfl, fun other htemporary hother => ?_, .inr ?_⟩
  · dsimp only
    rw [Function.update_of_ne htemporary, Function.update_of_ne hother]
  · dsimp only
    rw [Function.update_of_ne hne, Function.update_self]

theorem write_all (view written : List UInt8) :
    Runs calm (Written start temporary written) (write_all temporary view)
      (fun _ => Written start temporary (written ++ view))
      (Broken calm fun archive => ∃ bytes, Written start temporary bytes archive) := by
  induction hlength : view.length using Nat.strong_induction_on generalizing view written with
  | _ length ih =>
    rw [discovery.write_all]
    by_cases hview : view = []
    · rw [if_pos hview]
      exact Runs.pure fun archive h => by rwa [hview, List.append_nil]
    rw [if_neg hview]
    have happend : ∀ archive count, Written start temporary written archive →
        Written start temporary (written ++ view.take count)
          (archive.append temporary (view.take count)) := by
      rintro _ count rfl
      refine congrArg (fun files => { start with files }) (funext fun other => ?_)
      by_cases hother : other = temporary
      · simp [hother]
      · simp [hother]
    refine Runs.bind
      (R := fun count archive => Written start temporary (written ++ view.take count) archive ∧
        (calm → count = view.length)) (Runs.transfer ?_ ?_) fun count => ?_
    · exact fun archive count h _ hcount => ⟨happend archive count h, hcount⟩
    · exact fun archive _ count h _ hnot hne => ⟨⟨_, happend archive count h⟩, hnot, hne⟩
    · by_cases hstop : count = 0 ∨ view = []
      · rw [dif_pos hstop]
        refine Runs.raise fun archive h => ⟨⟨_, h.1⟩, fun hcalm => ?_, nofun⟩
        have hcount := h.2 hcalm
        have hpos := List.length_pos_iff.mpr hview
        rcases hstop with hzero | hnil
        · omega
        · exact hview hnil
      · rw [dif_neg hstop]
        have hdrop : (view.drop count).length < length := by
          have hpos := List.length_pos_iff.mpr hview
          rw [List.length_drop]
          omega
        refine Runs.weaken (ih _ hdrop (view.drop count) (written ++ view.take count) rfl)
          (fun _ h => h.1) ?_ fun _ _ h => h
        intro _ archive h
        rwa [List.append_assoc, List.take_append_drop] at h

/-- Whatever happens, a new file is published whole or not at all. -/
theorem publish (hname : start.files name = none) (hne : name ≠ temporary)
    (hfresh : calm → start.files temporary = none) :
    Runs calm (fun archive => archive = start) (publish temporary name raw)
      (fun _ => Published start temporary name raw)
        (Broken calm (Attempted start temporary name raw)) := by
  have hstart : Attempted start temporary name raw start := ⟨rfl, rfl, fun _ _ _ => rfl, .inl hname⟩
  have hwritten : ∀ bytes archive, Written start temporary bytes archive →
      Attempted start temporary name raw archive :=
    fun bytes archive h => h.attempted hname hne
  have hpublished : ∀ archive, Published start temporary name raw archive →
      Attempted start temporary name raw archive :=
    fun archive h => h.attempted hne
  refine Runs.bind (R := fun _ archive => archive = start ∧ start.files temporary = none)
    (Runs.observe ?_) fun _ => ?_
  · rintro _ rfl
    refine Runs.require (fun archive h hnone => ⟨h, hnone⟩) ?_
    rintro _ rfl hheld
    exact ⟨hstart, fun hcalm => hheld (hfresh hcalm), nofun⟩
  refine Runs.observed fun hnone => ?_
  have hcreate : start.create temporary =
      { start with files := Function.update start.files temporary (some ⟨[], true⟩) } := by
    refine congrArg (fun files => { start with files }) (funext fun other => ?_)
    by_cases hother : other = temporary
    · simp [hother, hnone]
    · simp [hother]
  have hreplace : ∀ archive, Written start temporary raw archive →
      Published start temporary name raw (archive.replace temporary name) := by
    rintro _ rfl
    refine congrArg (fun files => { start with files }) (funext fun other => ?_)
    by_cases hother : other = temporary
    · simp [hother]
    · by_cases hlast : other = name
      · simp [hlast, hne]
      · simp [hother, hlast]
  refine Runs.bind (R := fun _ => Written start temporary []) (Runs.step ?_ ?_) fun _ => ?_
  · rintro _ rfl
    exact hcreate
  · rintro _ _ rfl hnot hne
    exact ⟨⟨hstart, hnot, hne⟩, hwritten [] _ hcreate, hnot, hne⟩
  · refine Runs.ensuring (R := fun _ => Published start temporary name raw)
      (F := Attempted start temporary name raw)
      ?_ ?_ ?_ fun _ h => h
    · refine Runs.bind (R := fun _ => Written start temporary raw) ?_ fun _ => ?_
      · refine Runs.ensuring (R := fun _ => Written start temporary raw)
          (F := Attempted start temporary name raw)
          ?_ (fun _ => Runs.idle fun archive h => hwritten raw archive h)
            (Runs.idle fun _ h => h) fun _ h => h
        refine Runs.bind (R := fun _ => Written start temporary raw) ?_ fun _ =>
          Runs.idle fun archive h => hwritten raw archive h
        refine Runs.weaken (write_all raw []) (fun _ h => h) (fun _ _ h => h) fun e archive h => ?_
        obtain ⟨⟨bytes, hbytes⟩, hrest⟩ := h
        exact ⟨hwritten bytes archive hbytes, hrest⟩
      · refine Runs.bind (R := fun _ => Published start temporary name raw) (Runs.step ?_ ?_)
          fun _ => Runs.idle hpublished
        · exact fun archive h => hreplace archive h
        · exact fun archive _ h hnot hne =>
            ⟨⟨hwritten raw archive h, hnot, hne⟩, hpublished _ (hreplace archive h), hnot, hne⟩
    · refine fun _ => Runs.observe fun archive h => ?_
      have hgone : archive.files temporary = none := by
        obtain rfl := h
        exact Function.update_self _ _ _
      rw [if_pos hgone]
      have hidle : Runs calm (fun a => a = archive) (discovery.step id) (fun _ a => a = archive)
          (Broken calm (Attempted start temporary name raw)) := by
        refine Runs.idle ?_
        rintro _ rfl
        exact hpublished _ h
      refine Runs.weaken hidle (fun _ h => h) ?_ fun _ _ h => h
      · rintro _ _ rfl
        exact h
    · refine Runs.observe fun archive h => ?_
      have hunlink : Attempted start temporary name raw (archive.unlink temporary) := by
        refine ⟨h.owned, h.locked, fun other htemporary hother => ?_, ?_⟩
        · exact (if_neg htemporary).trans (h.others other htemporary hother)
        · exact h.target.imp (fun hnone => (if_neg hne).trans hnone) fun hsome =>
            (if_neg hne).trans hsome
      have hafter : Attempted start temporary name raw
          ((if archive.files temporary = none then id else Archive.unlink temporary) archive) := by
        by_cases hgone : archive.files temporary = none
        · rwa [if_pos hgone]
        · rwa [if_neg hgone]
      refine Runs.step ?_ ?_
      · rintro _ rfl
        exact hafter
      · rintro _ _ rfl hnot hne
        exact ⟨⟨h, hnot, hne⟩, hafter, hnot, hne⟩

end Writing

end Runs

end discovery
