import PepeuchCluster.Effects.Triple
import PepeuchCluster.Worker.Frames

namespace private_io

open control_plane (encode canonical)
open pepeuch_worker (Interpreter Codecs decoded decode_bytes)

/-- What ends a call: what it raises, or the death of the process. -/
inductive Failure where
  | problem (code : String)
  | os_error
  | file_not_found
  | file_exists
  | value_error
  | recursion_error
  | killed
deriving DecidableEq

/-- The death of the process runs no `finally`. -/
def fatal (failure : Failure) : Bool := failure = .killed

/-- A file: its bytes, which file it is, and whether it is a private regular file of one name. -/
structure File where
  content : List UInt8
  inode : Nat
  restricted : Bool
deriving DecidableEq

/-- The directory of the worker: its files, the next new file, and whether it is private. -/
structure Directory where
  files : String → Option File
  fresh : Nat
  restricted : Bool

/-- How a system call ends. In the last two it may have had its effect, or a part of it. -/
inductive Fate where
  | done
  | raised (amount : Nat)
  | killed (amount : Nat)

structure Process where
  directory : Directory
  fates : List Fate

abbrev Io (α : Type) := Effect Failure Process α

section SystemCalls

/-- A system call that does as much as it says. -/
def act (whole : Nat) (perform : Nat → Directory → Directory) : Io Unit := fun s =>
  match s.fates with
  | [] => (.ok (), ⟨perform whole s.directory, []⟩)
  | .done :: rest => (.ok (), ⟨perform whole s.directory, rest⟩)
  | .raised amount :: rest => (.error .os_error, ⟨perform (min amount whole) s.directory, rest⟩)
  | .killed amount :: rest => (.error .killed, ⟨perform (min amount whole) s.directory, rest⟩)

/-- A system call that changes nothing. -/
def quiet : Io Unit := act 0 fun _ directory => directory

def observe {α : Type} (action : Directory → Io α) : Io α := fun s => action s.directory s

/-- `try … except FileNotFoundError: None`. -/
def found {α : Type} (action : Io α) : Io (Option α) := fun s =>
  match action s with
  | (.ok a, t) => (.ok (some a), t)
  | (.error failure, t) => (if failure = .file_not_found then .ok none else .error failure, t)

end SystemCalls

namespace Directory

def put (name : String) (file : Option File) (directory : Directory) : Directory :=
  { directory with files := fun other => if other = name then file else directory.files other }

/-- `os.open` of a new file. -/
def create (name : String) (amount : Nat) (directory : Directory) : Directory :=
  if amount = 0 then directory
  else { directory.put name (some ⟨[], directory.fresh, true⟩) with fresh := directory.fresh + 1 }

/-- The first bytes are written. -/
def write (name : String) (raw : List UInt8) (amount : Nat) (directory : Directory) : Directory :=
  directory.put name
    ((directory.files name).map fun file => { file with content := raw.take amount })

/-- `os.replace`, atomic. -/
def replace (source target : String) (amount : Nat) (directory : Directory) : Directory :=
  if amount = 0 then directory else (directory.put target (directory.files source)).put source none

def unlink (name : String) (amount : Nat) (directory : Directory) : Directory :=
  if amount = 0 then directory else directory.put name none

end Directory

def JOURNAL_MAX : Nat := 262144

def JOURNAL : String := "run.json"

/-- `Path(root).parts[1:]`. -/
def components (root : String) : List (List Char) :=
  (root.toList.splitOn '/').filter fun part => part ≠ [] ∧ part ≠ ['.']

/-- `absolute`. -/
def isAbsolute (root : String) : Bool :=
  match root.toList with
  | '/' :: rest => (rest.splitOn '/').all fun part => part ≠ ['.', '.']
  | _ => false

/-- `opened_directory(root, private=True)`. -/
def opened_directory {α : Type} (root : String) (body : Io α) : Io α := do
  Effect.require (isAbsolute root = true) (.problem "unsafe_worker_path")
  quiet
  Effect.ensuring fatal
    (do
      (components root).forM fun _ => do
        quiet
        quiet
      quiet
      observe fun directory =>
        Effect.require (directory.restricted = true) (.problem "worker_directory_not_private")
      body)
    quiet

/-- `_read_at`. -/
def read_at (name : String) (maximum : Nat) : Io (List UInt8) := do
  quiet
  observe fun directory =>
    match directory.files name with
    | none => Effect.raise .file_not_found
    | some file =>
      Effect.ensuring fatal
        (do
          quiet
          Effect.require (file.restricted = true ∧ file.content.length ≤ maximum)
            (.problem "worker_file_not_private")
          quiet
          Effect.require (file.content.length ≤ maximum) (.problem "worker_file_too_large")
          return file.content)
        quiet

/-- `_create_at`: which file it has created. -/
def create_at (name : String) (raw : List UInt8) : Io Nat :=
  observe fun directory => do
    Effect.require (directory.files name = none) .file_exists
    act 1 (Directory.create name)
    Effect.ensuring fatal
      (do
        act raw.length (Directory.write name raw)
        quiet
        quiet)
      quiet
    return directory.fresh

/-- The end of `save`: a file that it did not create stays. -/
def tidy (name : String) (inode : Nat) : Io Unit := do
  quiet
  observe fun directory =>
    if (directory.files name).map File.inode = some inode then act 1 (Directory.unlink name)
      else pure ()

/-- `canonical(data).encode()`. -/
def written (python : Interpreter) (data : Json) : Except Failure (List UInt8) := do
  Json.traverse .recursion_error .value_error python.encode_depth data
  return encode (canonical data)

/-- The `with` statement of `save`. -/
def replaced (root token : String) (raw : List UInt8) : Io Unit :=
  opened_directory root do
    let _ ← found (read_at JOURNAL JOURNAL_MAX)
    let inode ← create_at (".journal-" ++ token) raw
    Effect.ensuring fatal
      (do
        act 1 (Directory.replace (".journal-" ++ token) JOURNAL)
        quiet)
      (tidy (".journal-" ++ token) inode)

def save (python : Interpreter) (root token : String) (data : Json) : Io Unit := do
  let raw ← Effect.ofExcept (written python data)
  Effect.require (raw.length ≤ JOURNAL_MAX) (.problem "worker_file_too_large")
  replaced root token raw

/-- `load`; `None` is null. -/
def load [Codecs] (root : String) : Io Json :=
  opened_directory root do
    match ← found (read_at JOURNAL JOURNAL_MAX) with
    | none => return .null
    | some raw => Effect.ofExcept ((decode_bytes raw).mapError fun _ => .problem "invalid_json")

section Calls

variable {α : Type} {P Q : Directory → Prop} {E : Directory → Prop}

/-- What a call does to the directory; it may fail at any system call. -/
def Spec (P : Directory → Prop) (x : Io α) (Q : α → Directory → Prop)
    (E : Directory → Prop) : Prop :=
  Effect.Triple (fun s => P s.directory) x (fun a s => Q a s.directory) fun _ s => E s.directory

theorem act_spec {whole : Nat} {perform : Nat → Directory → Directory}
    (hdone : ∀ d, P d → Q (perform whole d)) (hfail : ∀ d n, P d → n ≤ whole → E (perform n d)) :
    Spec P (act whole perform) (fun _ => Q) E := by
  rintro ⟨d, fates⟩ hd
  cases fates with
  | nil => exact Effect.Triple.returns rfl (hdone d hd)
  | cons fate rest =>
    cases fate with
    | done => exact Effect.Triple.returns rfl (hdone d hd)
    | raised amount => exact Effect.Triple.fails rfl (hfail d _ hd (Nat.min_le_right _ _))
    | killed amount => exact Effect.Triple.fails rfl (hfail d _ hd (Nat.min_le_right _ _))

theorem quiet_spec (hP : ∀ d, P d → E d) : Spec P quiet (fun _ => P) E :=
  act_spec (fun _ h => h) fun d _ h _ => hP d h

theorem Spec.bind {β : Type} {x : Io α} {f : α → Io β} {R : α → Directory → Prop}
    {Q : β → Directory → Prop} (hx : Spec P x R E) (hf : ∀ a, Spec (R a) (f a) Q E) :
    Spec P (x >>= f) Q E := Effect.Triple.bind hx hf

theorem observe_spec {action : Directory → Io α} {Q : α → Directory → Prop}
    (h : ∀ d, P d → Spec (· = d) (action d) Q E) : Spec P (observe action) Q E :=
  fun s hs => h s.directory hs s rfl

theorem require_spec {condition : Prop} [Decidable condition] {failure : Failure}
    (hP : ∀ d, P d → E d) :
    Spec P (Effect.require condition failure) (fun _ d => P d ∧ condition) E :=
  Effect.Triple.require (fun _ h hcondition => ⟨h, hcondition⟩) fun s h _ => hP s.directory h

/-- A body that keeps `E` may be opened and closed around. -/
theorem ensured_spec {body : Io α} {cleanup : Io Unit} {R Q : α → Directory → Prop}
    {F : Directory → Prop} (hbody : Spec P body R F)
    (hok : ∀ a, Spec (R a) cleanup (fun _ => Q a) E) (hfailed : Spec F cleanup (fun _ => E) E)
    (hdead : ∀ d, F d → E d) : Spec P (Effect.ensuring fatal body cleanup) Q E :=
  Effect.Triple.ensuring hbody hok (fun _ _ => hfailed) fun _ s _ h => hdead s.directory h

theorem forM_spec {β : Type} {action : β → Io Unit} (h : ∀ b, Spec P (action b) (fun _ => P) E)
    (items : List β) :
    Spec P (items.forM action) (fun _ => P) E := by
  induction items with
  | nil => exact Effect.Triple.pure fun _ h => h
  | cons b items ih => exact Effect.Triple.bind (h b) fun _ => ih

theorem opened_spec {root : String} {body : Io α} {Q : α → Directory → Prop} (hP : ∀ d, P d → E d)
    (hQ : ∀ a d, Q a d → E d) (hbody : Spec P body Q E) :
    Spec P (opened_directory root body) Q E := by
  have hquiet : Spec P quiet (fun _ => P) E := quiet_spec hP
  refine Spec.bind (R := fun _ => P) ?_ fun _ => Spec.bind hquiet fun _ => ?_
  · exact Effect.Triple.require (fun _ h _ => h) fun s h _ => hP s.directory h
  refine ensured_spec (R := Q) (F := E) ?_ (fun a => quiet_spec (hQ a))
    (quiet_spec fun _ h => h) fun _ h => h
  refine Spec.bind (forM_spec (fun _ => Spec.bind hquiet fun _ => hquiet) _) fun _ =>
    Spec.bind hquiet fun _ => ?_
  refine Spec.bind (R := fun _ => P) ?_ fun _ => hbody
  refine observe_spec fun d hd => Effect.Triple.require ?_ ?_
  · rintro s rfl _
    exact hd
  · rintro s rfl _
    exact hP _ hd

/-- A file that is not found is not there. -/
theorem read_at_spec (d : Directory) (name : String) (maximum : Nat) :
    Effect.Triple (fun s => s.directory = d) (read_at name maximum)
      (fun raw s => s.directory = d ∧ ∃ file, d.files name = some file ∧ raw = file.content)
      (fun failure s => s.directory = d ∧ (failure = .file_not_found → d.files name = none)) := by
  have hquiet : Effect.Triple (fun s => s.directory = d) quiet (fun _ s => s.directory = d)
      (fun failure s => s.directory = d ∧ failure ≠ .file_not_found) := by
    rintro ⟨_, fates⟩ rfl
    cases fates with
    | nil => exact Effect.Triple.returns rfl rfl
    | cons fate rest =>
      cases fate with
      | done => exact Effect.Triple.returns rfl rfl
      | raised amount => exact Effect.Triple.fails rfl ⟨rfl, nofun⟩
      | killed amount => exact Effect.Triple.fails rfl ⟨rfl, nofun⟩
  refine Effect.Triple.bind (Effect.Triple.weaken hquiet (fun _ h => h) (fun _ _ h => h)
    fun _ _ h => ⟨h.1, fun hmissing => absurd hmissing h.2⟩) fun _ => ?_
  rintro s rfl
  cases hfile : s.directory.files name with
  | none =>
    refine Effect.Triple.fails (e := .file_not_found) (t := s) ?_ ⟨rfl, fun _ => rfl⟩
    simp only [observe, hfile]
    rfl
  | some file =>
    have hread : Effect.Triple (fun t => t.directory = s.directory) (Effect.ensuring fatal
        (do
          quiet
          Effect.require (file.restricted = true ∧ file.content.length ≤ maximum)
            (.problem "worker_file_not_private")
          quiet
          Effect.require (file.content.length ≤ maximum) (.problem "worker_file_too_large")
          return file.content)
        quiet) (fun raw t => t.directory = s.directory ∧ raw = file.content)
        (fun failure t => t.directory = s.directory ∧ failure ≠ .file_not_found) := by
      refine Effect.Triple.ensuring
        (R := fun raw t => t.directory = s.directory ∧ raw = file.content)
        (F := fun failure t => t.directory = s.directory ∧ failure ≠ .file_not_found) ?_ ?_ ?_
          fun _ _ _ h => h
      · refine Effect.Triple.bind hquiet fun _ => ?_
        refine Effect.Triple.bind (R := fun _ t => t.directory = s.directory)
          (Effect.Triple.require (fun _ h _ => h) fun _ h _ => ⟨h, nofun⟩) fun _ => ?_
        refine Effect.Triple.bind hquiet fun _ => ?_
        refine Effect.Triple.bind (R := fun _ t => t.directory = s.directory)
          (Effect.Triple.require (fun _ h _ => h) fun _ h _ => ⟨h, nofun⟩) fun _ => ?_
        exact Effect.Triple.pure fun _ h => ⟨h, rfl⟩
      · rintro raw t ⟨ht, hraw⟩
        exact Effect.Triple.weaken hquiet (fun _ h => h) (fun _ _ h => ⟨h, hraw⟩)
          (fun _ _ h => h) t ht
      · rintro failure _ t ⟨ht, hfailure⟩
        refine Effect.Triple.weaken hquiet (fun _ h => h) (fun _ _ h => ⟨h, hfailure⟩)
          (fun _ _ h => h) t ht
    obtain ⟨hvalue, hfail⟩ := hread s rfl
    simp only [observe, hfile]
    refine ⟨fun raw t ht => ?_, fun failure t ht => ?_⟩
    · obtain ⟨hsame, hraw⟩ := hvalue raw t ht
      exact ⟨hsame, file, rfl, hraw⟩
    · obtain ⟨hsame, hfailure⟩ := hfail failure t ht
      exact ⟨hsame, fun hmissing => absurd hmissing hfailure⟩

/-- What is read is the file that is there. -/
theorem found_read_spec {d : Directory} {name : String} {maximum : Nat} (hd : E d) :
    Spec (· = d) (found (read_at name maximum))
      (fun read after => after = d ∧ match read with
        | none => d.files name = none
        | some raw => ∃ file, d.files name = some file ∧ raw = file.content) E := by
  intro s hs
  obtain ⟨hvalue, hfail⟩ := read_at_spec d name maximum s hs
  cases hread : read_at name maximum s with
  | mk result t =>
    cases result with
    | ok raw =>
      obtain ⟨hsame, hfile⟩ := hvalue raw t hread
      exact Effect.Triple.returns (a := some raw) (t := t)
        (by simp only [found, hread]) ⟨hsame, hfile⟩
    | error failure =>
      obtain ⟨hsame, hmissing⟩ := hfail failure t hread
      by_cases hfound : failure = .file_not_found
      · refine Effect.Triple.returns (a := none) (t := t) ?_ ⟨hsame, hmissing hfound⟩
        simp only [found, hread, if_pos hfound]
      · refine Effect.Triple.fails (e := failure) (t := t) ?_ (hsame ▸ hd)
        simp only [found, hread, if_neg hfound]

end Calls

section Saves

variable {d after : Directory} {name : String} {raw content : List UInt8} {n : Nat}

/-- What a save may leave: the old journal or its own, and no other file touched. -/
structure Kept (d : Directory) (name : String) (raw : List UInt8) (after : Directory) : Prop where
  restricted : after.restricted = d.restricted
  journal : after.files JOURNAL = d.files JOURNAL ∨
    ∃ inode, after.files JOURNAL = some ⟨raw, inode, true⟩
  others : ∀ other, other ≠ JOURNAL → other ≠ name → after.files other = d.files other
  colliding : d.files name ≠ none → after.files = d.files

/-- The new file is under its own name. -/
structure Staged (d : Directory) (name : String) (content : List UInt8)
    (after : Directory) : Prop where
  restricted : after.restricted = d.restricted
  new : d.files name = none
  file : after.files name = some ⟨content, d.fresh, true⟩
  others : ∀ other, other ≠ name → after.files other = d.files other

/-- The new file is the journal. -/
structure Published (d : Directory) (name : String) (raw : List UInt8)
    (after : Directory) : Prop where
  restricted : after.restricted = d.restricted
  new : d.files name = none
  file : after.files name = none
  journal : after.files JOURNAL = some ⟨raw, d.fresh, true⟩
  others : ∀ other, other ≠ JOURNAL → other ≠ name → after.files other = d.files other

theorem Kept.refl (d : Directory) (name : String) (raw : List UInt8) : Kept d name raw d :=
  ⟨rfl, .inl rfl, fun _ _ _ => rfl, fun _ => rfl⟩

theorem Staged.kept (hname : name ≠ JOURNAL) (h : Staged d name content after) :
    Kept d name raw after :=
  ⟨h.restricted, .inl (h.others _ hname.symm), fun other _ hother => h.others other hother,
    fun hheld => absurd h.new hheld⟩

theorem Published.kept (h : Published d name raw after) : Kept d name raw after :=
  ⟨h.restricted, .inr ⟨_, h.journal⟩, h.others, fun hheld => absurd h.new hheld⟩

theorem put_same (d : Directory) (name : String) (file : Option File) :
    (d.put name file).files name = file :=
  if_pos rfl

theorem put_other {other : String} {file : Option File} (hother : other ≠ name) :
    (d.put name file).files other = d.files other := if_neg hother

theorem staged_create (hnew : d.files name = none) : Staged d name [] (d.create name 1) :=
  ⟨rfl, hnew, put_same _ _ _, fun _ hother => put_other hother⟩

theorem Staged.write (h : Staged d name content after) (raw : List UInt8) (n : Nat) :
    Staged d name (raw.take n) (after.write name raw n) := by
  refine ⟨h.restricted, h.new, ?_,
    fun other hother => (put_other hother).trans (h.others other hother)⟩
  rw [Directory.write, put_same, h.file]
  rfl

theorem Staged.replace (hname : name ≠ JOURNAL) (h : Staged d name raw after) :
    Published d name raw (after.replace name JOURNAL 1) := by
  refine ⟨h.restricted, h.new, put_same _ _ _, ?_, fun other hjournal hother => ?_⟩
  · exact (put_other hname.symm).trans ((put_same _ _ _).trans h.file)
  · exact (put_other hother).trans ((put_other hjournal).trans (h.others other hother))

theorem Staged.unlink (hname : name ≠ JOURNAL) (h : Staged d name raw after) :
    Kept d name raw (after.unlink name n) := by
  unfold Directory.unlink
  split
  · exact h.kept hname
  · refine ⟨h.restricted, .inl ?_, fun other _ hother => ?_, fun hheld => absurd h.new hheld⟩
    · exact (put_other hname.symm).trans (h.others _ hname.symm)
    · exact (put_other hother).trans (h.others other hother)

theorem create_at_spec (d : Directory) (hname : name ≠ JOURNAL) : Spec (· = d) (create_at name raw)
    (fun inode after => Staged d name raw after ∧ inode = d.fresh) (Kept d name raw) := by
  refine observe_spec fun start hstart => ?_
  obtain rfl : d = start := hstart.symm
  refine Spec.bind (require_spec fun _ h => h ▸ Kept.refl _ _ _) fun _ => ?_
  refine Spec.bind (R := fun _ => Staged d name []) (act_spec ?_ ?_) fun _ => ?_
  · rintro _ ⟨rfl, hnew⟩
    exact staged_create hnew
  · rintro _ n ⟨rfl, hnew⟩ hn
    rcases Nat.le_one_iff_eq_zero_or_eq_one.mp hn with rfl | rfl
    · exact Kept.refl _ _ _
    · exact (staged_create hnew).kept hname
  have hkept : ∀ after, Staged d name raw after → Kept d name raw after := fun _ h => h.kept hname
  refine Spec.bind (R := fun _ => Staged d name raw) ?_ fun _ =>
    Effect.Triple.pure fun _ h => ⟨h, rfl⟩
  refine ensured_spec (R := fun _ => Staged d name raw) (F := Kept d name raw) ?_
    (fun _ => quiet_spec hkept)
    (quiet_spec fun _ h => h) fun _ h => h
  refine Spec.bind (R := fun _ => Staged d name raw) (act_spec ?_ ?_) fun _ => ?_
  · intro after h
    have hwritten := h.write raw raw.length
    rwa [List.take_length] at hwritten
  · exact fun after n h _ => (h.write raw n).kept hname
  · exact Spec.bind (quiet_spec hkept) fun _ => quiet_spec hkept

/-- What is removed at the end is the new file, where it is not the journal yet. -/
theorem tidy_spec (hname : name ≠ JOURNAL) :
    Spec (fun after => Staged d name raw after ∨ Published d name raw after)
    (tidy name d.fresh) (fun _ => Kept d name raw) (Kept d name raw) := by
  have hkept : ∀ after, Staged d name raw after ∨ Published d name raw after →
      Kept d name raw after :=
    fun _ h => h.elim (fun h => h.kept hname) fun h => h.kept
  refine Spec.bind (quiet_spec hkept) fun _ => observe_spec fun after h => ?_
  rcases h with h | h
  · rw [if_pos (by rw [h.file]; rfl)]
    refine act_spec ?_ ?_
    · rintro _ rfl
      exact h.unlink hname
    · rintro _ n rfl _
      exact h.unlink hname
  · rw [if_neg (by rw [h.file]; exact Option.some_ne_none _ ∘ Eq.symm)]
    refine Effect.Triple.pure ?_
    rintro _ rfl
    exact h.kept

theorem tidy_published :
    Spec (Published d name raw) (tidy name d.fresh) (fun _ => Published d name raw)
    (Kept d name raw) := by
  refine Spec.bind (quiet_spec fun _ h => h.kept) fun _ => observe_spec fun after h => ?_
  rw [if_neg (by rw [h.file]; exact Option.some_ne_none _ ∘ Eq.symm)]
  refine Effect.Triple.pure ?_
  rintro _ rfl
  exact h

theorem journal_name (token : String) : ".journal-" ++ token ≠ JOURNAL := by
  intro h
  have hhead := congrArg (fun name => name.toList.head?) h
  simp [JOURNAL] at hhead

/-- A journal that is replaced is the new one at the end; where that fails, the old one or the new
    one. -/
theorem replaced_spec (root token : String) (raw : List UInt8) (d : Directory) :
    Spec (· = d) (replaced root token raw) (fun _ => Published d (".journal-" ++ token) raw)
      (Kept d (".journal-" ++ token) raw) := by
  have hname := journal_name token
  refine opened_spec (fun _ h => h ▸ Kept.refl _ _ _) (fun _ _ h => h.kept) ?_
  refine Spec.bind (R := fun _ => (· = d)) ?_ fun _ => ?_
  · exact Effect.Triple.weaken (found_read_spec (Kept.refl _ _ _)) (fun _ h => h)
      (fun _ _ h => h.1) fun _ _ h => h
  refine Spec.bind (R := fun inode after => Staged d (".journal-" ++ token) raw after ∧
    inode = d.fresh) ?_ fun inode => ?_
  · exact create_at_spec d hname
  rintro s ⟨h, rfl⟩
  refine ensured_spec (P := Staged d (".journal-" ++ token) raw)
    (R := fun _ => Published d (".journal-" ++ token) raw)
    (F := fun after => Staged d (".journal-" ++ token) raw after ∨
      Published d (".journal-" ++ token) raw after) ?_
    (fun _ => tidy_published) (tidy_spec hname)
      (fun _ h => h.elim (fun h => h.kept hname) fun h => h.kept) s h
  refine Spec.bind (R := fun _ => Published d (".journal-" ++ token) raw) (act_spec ?_ ?_)
    fun _ => quiet_spec fun _ h => .inr h
  · exact fun _ h => h.replace hname
  · intro after n h hn
    rcases Nat.le_one_iff_eq_zero_or_eq_one.mp hn with rfl | rfl
    · exact .inl h
    · exact .inr (h.replace hname)

/-- What `save` writes: no integer is too long, the encoder follows the value, and the text is not
    too large. -/
def Fits (python : Interpreter) (data : Json) : Prop :=
  (data.Printable ∧ data.depth ≤ python.encode_depth) ∧
    (encode (canonical data)).length ≤ JOURNAL_MAX

theorem Fits.saved {python : Interpreter} {data : Json} (h : Fits python data)
    (root token : String) :
    save python root token data = replaced root token (encode (canonical data)) := by
  have hwritten : written python data = .ok (encode (canonical data)) := by
    rw [written, (Json.traverse_eq_ok data).mpr h.1]
    rfl
  funext s
  rw [save, hwritten, Effect.bind_apply, Effect.ofExcept]
  dsimp only
  rw [Effect.bind_apply, Effect.require, if_pos h.2]
  rfl

/-- What does not fit is refused before anything is done. -/
theorem save_refused {python : Interpreter} {data : Json} (h : ¬ Fits python data)
    (root token : String) (s : Process) :
    ∃ failure, save python root token data s = (.error failure, s) := by
  cases htraverse : Json.traverse Failure.recursion_error .value_error python.encode_depth data with
  | error failure =>
    refine ⟨failure, ?_⟩
    rw [save, written, htraverse, Effect.bind_apply]
    rfl
  | ok _ =>
    have hlength : ¬ (encode (canonical data)).length ≤ JOURNAL_MAX := fun hlength =>
      h ⟨(Json.traverse_eq_ok data).mp htraverse, hlength⟩
    refine ⟨.problem "worker_file_too_large", ?_⟩
    rw [save, written, htraverse, Effect.bind_apply, Except.ok_bind]
    dsimp only [Effect.ofExcept, pure, Except.pure]
    rw [Effect.bind_apply, Effect.require, if_neg hlength]
    rfl

end Saves

section Loads

variable {python : Interpreter} {d : Directory} {root : String} {journal : Option Json}

/-- The journal of a directory, whole. -/
def Holds (python : Interpreter) (d : Directory) : Option Json → Prop
  | none => d.files JOURNAL = none
  | some data => data.WellFormed ∧ Fits python data ∧
      ∃ inode, d.files JOURNAL = some ⟨encode (canonical data), inode, true⟩

theorem Holds.of_file {after : Directory} (h : Holds python d journal)
    (hfile : after.files JOURNAL = d.files JOURNAL) :
    Holds python after journal := by
  cases journal with
  | none => exact hfile.trans h
  | some data =>
    obtain ⟨hwell, hfits, inode, hheld⟩ := h
    exact ⟨hwell, hfits, inode, hfile.trans hheld⟩

/-- What the decoder makes of a journal: the journal, unless it is nested too deep. -/
def reading [Codecs] : Option Json → Except Failure Json
  | none => .ok .null
  | some data => if data.depth ≤ Codecs.decode_depth then .ok data
      else .error (.problem "invalid_json")

theorem reading_alive [Codecs] {failure : Failure} (h : reading journal = .error failure) :
    fatal failure = false := by
  cases journal with
  | none => cases h
  | some data =>
    rw [reading] at h
    split at h
    · cases h
    · obtain rfl := Except.error.inj h
      rfl

theorem decode_journal [Codecs] {data : Json} (hwell : data.WellFormed) (hfits : Fits python data) :
    (decode_bytes (encode (canonical data))).mapError (fun _ => .problem "invalid_json") =
      reading (some data) := by
  rw [pepeuch_worker.decode_text hwell, reading]
  cases htraverse : Json.traverse () () Codecs.decode_depth data with
  | ok _ =>
    rw [if_pos ((Json.traverse_eq_ok data).mp htraverse).2, decoded, htraverse]
    rfl
  | error _ =>
    have hdeep : ¬ data.depth ≤ Codecs.decode_depth := fun hdepth => by
      rw [(Json.traverse_eq_ok data).mpr ⟨hfits.1.1, hdepth⟩] at htraverse
      cases htraverse
    rw [if_neg hdeep, decoded, htraverse]
    rfl

theorem load_spec [Codecs] (h : Holds python d journal) (root : String) : Spec (· = d) (load root)
    (fun value after => after = d ∧ reading journal = .ok value) (· = d) := by
  refine opened_spec (fun _ h => h) (fun _ _ h => h.1)
    (Spec.bind (found_read_spec rfl) fun read => ?_)
  rintro s ⟨hsame, hread⟩
  cases journal with
  | none =>
    cases read with
    | none => exact Effect.Triple.returns (t := s) rfl ⟨hsame, rfl⟩
    | some raw =>
      obtain ⟨file, hfile, _⟩ := hread
      cases h.symm.trans hfile
  | some data =>
    obtain ⟨hwell, hfits, inode, hfile⟩ := h
    cases read with
    | none => cases hfile.symm.trans hread
    | some raw =>
      obtain ⟨file, hfound, rfl⟩ := hread
      obtain rfl := Option.some.inj (hfile.symm.trans hfound)
      dsimp only
      rw [decode_journal hwell hfits]
      refine Effect.Triple.ofExcept (P := fun t => t = s) ?_ ?_ s rfl
      · rintro t value rfl hvalue
        exact ⟨hsame, hvalue⟩
      · rintro t failure rfl _
        exact hsame

theorem quiet_returns (d : Directory) : quiet ⟨d, []⟩ = (.ok (), ⟨d, []⟩) := rfl

theorem returns_bind {α β : Type} {x : Io α} {f : α → Io β} {a : α} {s t : Process}
    (h : x s = (.ok a, t)) :
    (x >>= f) s = f a t := by
  rw [Effect.bind_apply, h]

theorem ensured_returns {α : Type} {body : Io α} {cleanup : Io Unit} {result : Except Failure α}
    {s t u : Process} (h : body s = (result, t)) (hcleanup : cleanup t = (.ok (), u))
    (halive : ∀ failure, result = .error failure → fatal failure = false) :
    Effect.ensuring fatal body cleanup s = (result, u) := by
  unfold Effect.ensuring
  rw [h]
  cases result with
  | ok a =>
    dsimp only
    rw [hcleanup]
  | error failure =>
    dsimp only
    rw [halive failure rfl, hcleanup]
    rfl

theorem forM_returns {β : Type} {action : β → Io Unit}
    (h : ∀ b, action b ⟨d, []⟩ = (.ok (), ⟨d, []⟩)) (items : List β) :
    items.forM action ⟨d, []⟩ = (.ok (), ⟨d, []⟩) := by
  induction items with
  | nil => rfl
  | cons b items ih =>
    change (action b >>= fun _ => items.forM action) ⟨d, []⟩ = _
    rw [returns_bind (h b)]
    exact ih

theorem require_returns {condition : Prop} [Decidable condition] {failure : Failure} {s : Process}
    (h : condition) :
    (Effect.require condition failure : Io Unit) s = (.ok (), s) := by
  rw [Effect.require, if_pos h]
  rfl

theorem opened_returns {α : Type} {body : Io α} {result : Except Failure α} {after : Directory}
    (hroot : isAbsolute root = true) (hrestricted : d.restricted = true)
    (h : body ⟨d, []⟩ = (result, ⟨after, []⟩))
    (halive : ∀ failure, result = .error failure → fatal failure = false) :
    opened_directory root body ⟨d, []⟩ = (result, ⟨after, []⟩) := by
  unfold opened_directory
  rw [returns_bind (require_returns hroot), returns_bind (quiet_returns d)]
  refine ensured_returns ?_ (quiet_returns _) halive
  have hpart : ∀ _ : List Char, (quiet >>= fun _ => quiet) ⟨d, []⟩ = (.ok (), ⟨d, []⟩) :=
    fun _ => rfl
  rw [returns_bind (forM_returns hpart (components root)), returns_bind (quiet_returns d)]
  have hprivate : observe (fun directory => Effect.require (directory.restricted = true)
      (.problem "worker_directory_not_private")) ⟨d, []⟩ = (.ok (), ⟨d, []⟩) :=
    require_returns hrestricted
  rw [returns_bind hprivate]
  exact h

theorem read_returns {name : String} {file : File} {maximum : Nat}
    (hfile : d.files name = some file) (hrestricted : file.restricted = true)
    (hlength : file.content.length ≤ maximum) :
    read_at name maximum ⟨d, []⟩ = (.ok file.content, ⟨d, []⟩) := by
  unfold read_at
  rw [returns_bind (quiet_returns d)]
  simp only [observe, hfile]
  refine ensured_returns ?_ (quiet_returns _) nofun
  rw [returns_bind (quiet_returns d), returns_bind (require_returns ⟨hrestricted, hlength⟩)]
  rw [returns_bind (quiet_returns d), returns_bind (require_returns hlength)]
  rfl

theorem read_missing {name : String} {maximum : Nat} (hfile : d.files name = none) :
    read_at name maximum ⟨d, []⟩ = (.error .file_not_found, ⟨d, []⟩) := by
  unfold read_at
  rw [returns_bind (quiet_returns d)]
  simp only [observe, hfile]
  rfl

/-- Without faults, what is whole is loaded, as far as the decoder follows it. -/
theorem load_returns [Codecs] (h : Holds python d journal) (hroot : isAbsolute root = true)
    (hrestricted : d.restricted = true) : load root ⟨d, []⟩ = (reading journal, ⟨d, []⟩) := by
  refine opened_returns hroot hrestricted ?_ fun _ => reading_alive
  cases journal with
  | none =>
    rw [returns_bind (a := none) (t := ⟨d, []⟩) (by simp only [found, read_missing h, if_pos])]
    rfl
  | some data =>
    obtain ⟨hwell, hfits, inode, hfile⟩ := h
    have hread := read_returns hfile rfl hfits.2
    rw [returns_bind (a := some (encode (canonical data))) (t := ⟨d, []⟩)
      (by simp only [found, hread])]
    dsimp only
    rw [decode_journal hwell hfits]
    rfl

theorem found_journal (h : Holds python d journal) :
    ∃ read, found (read_at JOURNAL JOURNAL_MAX) ⟨d, []⟩ = (.ok read, ⟨d, []⟩) := by
  cases journal with
  | none => exact ⟨none, by simp only [found, read_missing h, if_pos]⟩
  | some data =>
    obtain ⟨_, hfits, inode, hfile⟩ := h
    exact ⟨some (encode (canonical data)), by simp only [found, read_returns hfile rfl hfits.2]⟩

theorem create_returns {name : String} (raw : List UInt8) (hnew : d.files name = none) :
    ∃ after, create_at name raw ⟨d, []⟩ = (.ok d.fresh, ⟨after, []⟩) := by
  refine ⟨(d.create name 1).write name raw raw.length, ?_⟩
  change (Effect.require (d.files name = none) Failure.file_exists >>= _) (⟨d, []⟩ : Process) = _
  rw [returns_bind (require_returns hnew)]
  rfl

/-- Without faults, a journal that fits is saved. -/
theorem save_returns {token : String} {data : Json} (h : Holds python d journal)
    (hroot : isAbsolute root = true) (hrestricted : d.restricted = true) (hfits : Fits python data)
    (hnew : d.files (".journal-" ++ token) = none) :
    ∃ after, save python root token data ⟨d, []⟩ = (.ok (), ⟨after, []⟩) := by
  obtain ⟨read, hread⟩ := found_journal h
  obtain ⟨staged, hcreate⟩ := create_returns (encode (canonical data)) hnew
  have hremoved : (staged.replace (".journal-" ++ token) JOURNAL 1).files (".journal-" ++ token) =
      none := put_same _ _ _
  refine ⟨staged.replace (".journal-" ++ token) JOURNAL 1, ?_⟩
  rw [hfits.saved]
  refine opened_returns hroot hrestricted ?_ nofun
  rw [returns_bind hread, returns_bind hcreate]
  refine ensured_returns (t := ⟨staged.replace (".journal-" ++ token) JOURNAL 1, []⟩) rfl ?_ nofun
  unfold tidy
  rw [returns_bind (quiet_returns _)]
  simp only [observe, hremoved]
  rfl

end Loads

section Runs

variable {python : Interpreter} {d start : Directory} {root : String}
  {journals : List (Option Json)}

inductive Request where
  | save (token : String) (data : { data : Json // data.WellFormed })
  | load

/-- A call of a worker, and how its system calls end. -/
structure Call where
  request : Request
  fates : List Fate

def perform [Codecs] (python : Interpreter) (root : String) : Request → Io Json
  | .save token data => do
    save python root token data
    return .null
  | .load => load root

/-- The journals that may be there after a call: a save that fails may still have replaced the old
    one. -/
def candidates (journals : List (Option Json)) : Request → Except Failure Json → List (Option Json)
  | .load, _ => journals
  | .save _ data, .ok _ => [some data.val]
  | .save _ data, .error _ => some data.val :: journals

def execute [Codecs] (python : Interpreter) (root : String)
    (state : Directory × List (Option Json)) (call : Call) :
    Directory × List (Option Json) :=
  let (result, process) := perform python root call.request ⟨state.1, call.fates⟩
  (process.directory, candidates state.2 call.request result)

/-- The worker starts without a journal. -/
def history [Codecs] (python : Interpreter) (root : String) (start : Directory)
    (calls : List Call) :
    Directory × List (Option Json) :=
  calls.foldl (execute python root) (start.put JOURNAL none, [none])

/-- One of the journals is there, whole, and every file that was there at the start. -/
structure Stored (python : Interpreter) (start d : Directory)
    (journals : List (Option Json)) : Prop where
  restricted : d.restricted = start.restricted
  journal : ∃ journal ∈ journals, Holds python d journal
  others : ∀ name, name ≠ JOURNAL → start.files name ≠ none → d.files name = start.files name

theorem Stored.kept {name : String} {data : Json} {after : Directory}
    (h : Stored python start d journals) (hkept : Kept d name (encode (canonical data)) after)
    (hwell : data.WellFormed) (hfits : Fits python data) :
    Stored python start after (some data :: journals) := by
  obtain ⟨journal, hmem, hholds⟩ := h.journal
  refine ⟨hkept.restricted.trans h.restricted, ?_, fun other hjournal hheld => ?_⟩
  · rcases hkept.journal with hsame | ⟨inode, hnew⟩
    · exact ⟨journal, List.mem_cons_of_mem _ hmem, hholds.of_file hsame⟩
    · exact ⟨some data, List.mem_cons_self, hwell, hfits, inode, hnew⟩
  · have hbefore := h.others other hjournal hheld
    by_cases hother : other = name
    · subst hother
      rw [hkept.colliding (hbefore ▸ hheld), hbefore]
    · exact (hkept.others other hjournal hother).trans hbefore

theorem Stored.published {name : String} {data : Json} {after : Directory}
    (h : Stored python start d journals)
    (hpublished : Published d name (encode (canonical data)) after) (hwell : data.WellFormed)
    (hfits : Fits python data) : Stored python start after [some data] :=
  ⟨hpublished.restricted.trans h.restricted,
    ⟨some data, List.mem_singleton_self _, hwell, hfits, _, hpublished.journal⟩,
    (h.kept hpublished.kept hwell hfits).others⟩

theorem execute_stored [Codecs] (call : Call) (h : Stored python start d journals) :
    Stored python start (execute python root (d, journals) call).1
      (execute python root (d, journals) call).2 := by
  obtain ⟨request, fates⟩ := call
  cases request with
  | load =>
    obtain ⟨journal, hmem, hholds⟩ := h.journal
    obtain ⟨hvalue, hfail⟩ := load_spec hholds root ⟨d, fates⟩ rfl
    have hsame : (load root ⟨d, fates⟩).2.directory = d := by
      cases hload : load root ⟨d, fates⟩ with
      | mk result t =>
        cases result with
        | ok value => exact (hvalue value t hload).1
        | error failure => exact hfail failure t hload
    change Stored python start (load root ⟨d, fates⟩).2.directory journals
    rwa [hsame]
  | save token data =>
    obtain ⟨data, hwell⟩ := data
    simp only [execute, perform, Effect.bind_apply]
    by_cases hfits : Fits python data
    · obtain ⟨hvalue, hfail⟩ := replaced_spec root token (encode (canonical data)) d ⟨d, fates⟩ rfl
      rw [hfits.saved]
      cases hsave : replaced root token (encode (canonical data)) ⟨d, fates⟩ with
      | mk result t =>
        cases result with
        | ok _ => exact h.published (hvalue () t hsave) hwell hfits
        | error failure => exact h.kept (hfail failure t hsave) hwell hfits
    · obtain ⟨failure, hrefused⟩ := save_refused hfits root token ⟨d, fates⟩
      rw [hrefused]
      obtain ⟨journal, hmem, hholds⟩ := h.journal
      exact ⟨h.restricted, ⟨journal, List.mem_cons_of_mem _ hmem, hholds⟩, h.others⟩

theorem history_stored [Codecs] (python : Interpreter) (root : String) (start : Directory)
    (calls : List Call) :
    Stored python (start.put JOURNAL none) (history python root start calls).1
      (history python root start calls).2 := by
  have hrun : ∀ state : Directory × List (Option Json),
    Stored python (start.put JOURNAL none) state.1 state.2 →
      Stored python (start.put JOURNAL none) (calls.foldl (execute python root) state).1
        (calls.foldl (execute python root) state).2 := by
    induction calls with
    | nil => exact fun _ h => h
    | cons call calls ih => exact fun state h => ih _ (execute_stored call h)
  exact hrun _ ⟨rfl, ⟨none, List.mem_singleton_self _, put_same _ _ _⟩, fun _ _ _ => rfl⟩

/-- Saves and loads that fail or die at any system call leave one of the journals whole. A load
    returns it as far as the decoder follows it, what fits can be saved, and what does not fit is
    refused; other files stay. -/
theorem journals_kept [Codecs] (python : Interpreter)
    (root : { root : String // isAbsolute root = true }) (files : String → Option File)
    (fresh : Nat) (calls : List Call) :
    let start : Directory := ⟨files, fresh, true⟩
    let (d, journals) := history python root start calls
    (∃ journal ∈ journals, load root ⟨d, []⟩ = (reading journal, ⟨d, []⟩) ∧
      ∀ fates value after, load root ⟨d, fates⟩ = (.ok value, after) →
        reading journal = .ok value ∧ after.directory = d) ∧
    (∀ token (data : Json),
      (Fits python data → d.files (".journal-" ++ token) = none →
        ∃ after, save python root token data ⟨d, []⟩ = (.ok (), ⟨after, []⟩)) ∧
      (¬ Fits python data →
        ∀ process, ∃ failure, save python root token data process = (.error failure, process))) ∧
    ∀ name, name ≠ JOURNAL → files name ≠ none → d.files name = files name := by
  intro start
  have h := history_stored python root start calls
  have hothers : ∀ name, name ≠ JOURNAL → (start.put JOURNAL none).files name = files name :=
    fun _ => put_other
  obtain ⟨journal, hmem, hholds⟩ := h.journal
  refine ⟨⟨journal, hmem, load_returns hholds root.property h.restricted, ?_⟩, ?_,
    fun name hname hheld => ?_⟩
  · intro fates value after hload
    obtain ⟨hvalue, _⟩ := load_spec hholds root ⟨_, fates⟩ rfl
    exact (hvalue value after hload).symm
  · intro token data
    exact ⟨fun hfits hnew => save_returns hholds root.property h.restricted hfits hnew,
      fun hfits => save_refused hfits root token⟩
  · exact (h.others name hname (by rwa [hothers name hname])).trans (hothers name hname)

end Runs

end private_io
