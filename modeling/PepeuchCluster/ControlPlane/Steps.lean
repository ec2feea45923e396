import PepeuchCluster.ControlPlane.Lifecycle

open Relation

namespace control_plane

/-- The invariant of every committed index. -/
structure Sane (db : Db) : Prop where
  keyed : Keyed db
  linked : Linked db
  coherent : Coherent db

theorem Held.le_refl (held : String → Option Bytes) : Held.le held held := fun _ _ h => h

theorem Held.le_trans {first second third : String → Option Bytes} (h : Held.le first second)
    (h' : Held.le second third) : Held.le first third :=
  fun digest raw hraw => h' digest raw (h digest raw hraw)

theorem Published.mono {settings : Settings} {held held' : String → Option Bytes} {db : Db}
    {workspace_id name : String} {expected mission_id attempt_id : Option String}
    {publication : Publication}
    (h : Published settings held db workspace_id name expected mission_id attempt_id publication)
    (hheld : Held.le held held') :
    Published settings held' db workspace_id name expected mission_id attempt_id publication :=
  { h with stored := hheld _ _ h.stored }

theorem Change.mono {settings : Settings} {held held' : String → Option Bytes} {db db' : Db}
    (h : Change settings held db db') (hheld : Held.le held held') :
    Change settings held' db db' := by
  cases h with
  | created mission capability events hfresh hid hworkspace hstate htext hfiles hevents hlogged =>
    exact .created _ mission capability events hfresh hid hworkspace hstate htext
      hfiles hevents hlogged
  | approved mission task approval queueing hmission hstate htask happroval hqueueing hlogged =>
    exact .approved _ mission task approval queueing hmission hstate htask happroval
      hqueueing hlogged
  | cancelled mission event hmission hallowed hwaiting hevent hlogged =>
    exact .cancelled _ mission event hmission hallowed hwaiting hevent hlogged
  | retried mission event hmission hstate hevent hlogged =>
    exact .retried _ mission event hmission hstate hevent hlogged
  | claimed _ worker mission task attempt hclaim =>
    exact .claimed _ _ worker mission task attempt hclaim
  | fenced _ reason attempt hfence => exact .fenced _ _ reason attempt hfence
  | settled _ worker attempt task mission content_hash status error_code hsettle =>
    refine .settled _ _ worker attempt task mission content_hash status error_code ?_
    cases hsettle with
    | ended _ _ _ event hsettling hopen hevent hlogged =>
      exact .ended _ status error_code event hsettling hopen hevent hlogged
    | completed _ publication result event hsettling hpub hfresh hid hresult hevent hlogged =>
      exact .completed _ publication result event hsettling
        (hpub.mono hheld) hfresh hid hresult hevent hlogged
  | uploaded workspace_id name expected publication hpub hlogged =>
    exact .uploaded _ workspace_id name expected publication (hpub.mono hheld) hlogged
  | enrolled worker workspace_id event hfresh hid hcapability hlimits hepoch hworkspace
      hevent hlogged =>
    exact .enrolled _ worker workspace_id event hfresh hid hcapability hlimits hepoch
      hworkspace hevent hlogged
  | rotated worker digest updated_at reason workspace_id event hworker hworkspace hevent hlogged =>
    exact .rotated _ worker digest updated_at reason workspace_id event hworker
      hworkspace hevent hlogged
  | revoked worker updated_at hworker hactive => exact .revoked _ worker updated_at hworker hactive
  | noted worker workspace_id event hworkspace hevent hlogged =>
    exact .noted _ worker workspace_id event hworkspace hevent hlogged
  | recorded operation hfresh => exact .recorded _ operation hfresh

theorem Change.sane {settings : Settings} {held : String → Option Bytes} {db db' : Db}
    (h : Change settings held db db') (hsane : Sane db) : Sane db' :=
  ⟨h.keyed hsane.keyed, h.linked hsane.linked, h.coherent hsane.keyed hsane.linked hsane.coherent⟩

/-- The effect of one transaction: finitely many changes. -/
def Changes (settings : Settings) (held : String → Option Bytes) : Db → Db → Prop :=
  ReflTransGen (Change settings held)

namespace Changes

variable {settings : Settings} {held held' : String → Option Bytes} {db db' db'' : Db}

theorem single (h : Change settings held db db') : Changes settings held db db' :=
  ReflTransGen.single h

theorem mono (h : Changes settings held db db') (hheld : Held.le held held') :
    Changes settings held' db db' :=
  ReflTransGen.mono (fun _ _ hchange => Change.mono hchange hheld) _ _ h

theorem sane (h : Changes settings held db db') (hsane : Sane db) : Sane db' := by
  induction h with
  | refl => exact hsane
  | tail _ hchange ih => exact hchange.sane ih

end Changes

/-- The states that consecutive transactions commit, from one index to another. -/
inductive Trail (settings : Settings) (held : String → Option Bytes) :
    Db → List Db → Db → Prop where
  | nil (db : Db) : Trail settings held db [] db
  | cons {db next last : Db} {rest : List Db} (hchanges : Changes settings held db next)
      (hrest : Trail settings held next rest last) : Trail settings held db (next :: rest) last

namespace Trail

variable {settings : Settings} {held held' : String → Option Bytes} {db db' db'' : Db}
  {commits commits' : List Db}

theorem mono (h : Trail settings held db commits db') (hheld : Held.le held held') :
    Trail settings held' db commits db' := by
  induction h with
  | nil db => exact .nil db
  | cons hchanges _ ih => exact .cons (hchanges.mono hheld) ih

theorem append (h : Trail settings held db commits db')
    (h' : Trail settings held db' commits' db'') :
    Trail settings held db (commits ++ commits') db'' := by
  induction h with
  | nil db => exact h'
  | cons hchanges _ ih => exact .cons hchanges (ih h')

theorem changes (h : Trail settings held db commits db') : Changes settings held db db' := by
  induction h with
  | nil db => exact .refl
  | cons hchanges _ ih => exact hchanges.trans ih

theorem sane (h : Trail settings held db commits db') (hsane : Sane db) :
    ∀ commit ∈ commits, Sane commit := by
  induction h with
  | nil db => exact List.forall_mem_nil _
  | cons hchanges _ ih =>
    have hnext := hchanges.sane hsane
    exact List.forall_mem_cons.mpr ⟨hnext, ih hnext⟩

/-- Whatever every change preserves holds of every state that is committed. -/
theorem invariant {P : Db → Prop}
    (hstep : ∀ {db db'}, Change settings held db db' → Sane db → P db → P db')
    (h : Trail settings held db commits db') (hsane : Sane db) (hdb : P db) :
    P db' ∧ ∀ commit ∈ commits, P commit := by
  have hrun : ∀ {db db'}, Changes settings held db db' → Sane db → P db → P db' := by
    intro db db' hchanges hsane hdb
    induction hchanges with
    | refl => exact hdb
    | tail hchanges hchange ih => exact hstep hchange (Changes.sane hchanges hsane) ih
  induction h with
  | nil db => exact ⟨hdb, List.forall_mem_nil _⟩
  | cons hchanges _ ih =>
    have hnext := hrun hchanges hsane hdb
    obtain ⟨hlast, hcommits⟩ := ih (hchanges.sane hsane) hnext
    exact ⟨hlast, List.forall_mem_cons.mpr ⟨hnext, hcommits⟩⟩

/-- A preorder that every change respects orders all the states along a trail. -/
theorem pairwise {R : Db → Db → Prop} (hrefl : ∀ db, R db db)
    (htrans : ∀ {db db' db''}, R db db' → R db' db'' → R db db'')
    (hstep : ∀ {db db'}, Change settings held db db' → R db db')
    (h : Trail settings held db commits db') : (db :: commits).Pairwise R := by
  have hrun : ∀ {db db'}, Changes settings held db db' → R db db' := by
    intro db db' hchanges
    induction hchanges with
    | refl => exact hrefl db
    | tail _ hchange ih => exact htrans ih (hstep hchange)
  induction h with
  | nil db => exact List.pairwise_singleton _ _
  | cons hchanges _ ih =>
    have hnext := hrun hchanges
    refine List.pairwise_cons.mpr ⟨List.forall_mem_cons.mpr ⟨hnext, fun later hlater => ?_⟩, ih⟩
    exact htrans hnext ((List.pairwise_cons.mp ih).1 later hlater)

end Trail

/-- Inside a transaction nothing is committed, and objects only appear. -/
structure Within (w w' : World) : Prop where
  commits : w'.commits = w.commits
  held : Held.le w.files.held w'.files.held

theorem Within.refl (w : World) : Within w w := ⟨rfl, Held.le_refl _⟩

theorem Within.trans {w v u : World} (h : Within w v) (h' : Within v u) : Within w u :=
  ⟨h'.commits.trans h.commits, Held.le_trans h.held h'.held⟩

/-- Between transactions the index moves along a trail of commits. -/
structure Advances (settings : Settings) (w w' : World) : Prop where
  held : Held.le w.files.held w'.files.held
  trail : Sane w.db → ∃ commits, w'.commits = w.commits ++ commits ∧
    Trail settings w'.files.held w.db commits w'.db

theorem Advances.refl (settings : Settings) (w : World) : Advances settings w w :=
  ⟨Held.le_refl _, fun _ => ⟨[], (List.append_nil _).symm, .nil _⟩⟩

theorem Advances.trans {settings : Settings} {w v u : World} (h : Advances settings w v)
    (h' : Advances settings v u) : Advances settings w u := by
  refine ⟨Held.le_trans h.held h'.held, fun hsane => ?_⟩
  obtain ⟨commits, hcommits, htrail⟩ := h.trail hsane
  obtain ⟨commits', hcommits', htrail'⟩ := h'.trail (htrail.changes.sane hsane)
  refine ⟨commits ++ commits', ?_, (htrail.mono h'.held).append htrail'⟩
  rw [hcommits', hcommits, List.append_assoc]

namespace Op

/-- A part of a transaction. -/
class Local {α : Type} (op : Op α) : Prop where
  within : Effect.Keeps Within op

/-- A call, or a part of one outside of its transactions. -/
class Outer {α : Type} (settings : Settings) (op : Op α) : Prop where
  advances : Effect.Keeps (Advances settings) op

section Instances

variable {α β : Type} {settings : Settings}

instance (a : α) : Local (pure a) := ⟨Effect.Keeps.pure Within.refl a⟩

instance {x : Op α} {f : α → Op β} [hx : Local x] [hf : ∀ a, Local (f a)] : Local (x >>= f) :=
  ⟨Effect.Keeps.bind hx.within (fun a => (hf a).within) fun _ _ _ => Within.trans⟩

instance (failure : Failure) : Local (raise failure : Op α) :=
  ⟨Effect.Keeps.raise Within.refl failure⟩

instance (result : Except Failure α) : Local (check result) :=
  ⟨Effect.Keeps.ofExcept Within.refl result⟩

instance (condition : Prop) {_ : Decidable condition} (failure : Failure) :
    Local (require condition failure) :=
  ⟨Effect.Keeps.require Within.refl condition failure⟩

instance (value : Option α) (failure : Failure) : Local (demand value failure) :=
  ⟨Effect.Keeps.demand Within.refl value failure⟩

instance (query : Db → α) : Local (select query) := ⟨fun w => Within.refl w⟩

instance (select : Db → Except Failure α) : Local (query select) := ⟨fun w => Within.refl w⟩

instance : Local clock := ⟨fun _ => ⟨rfl, Held.le_refl _⟩⟩

instance (kind : Char) : Local (new_id kind) := ⟨fun _ => ⟨rfl, Held.le_refl _⟩⟩

instance : Local token_urlsafe := ⟨fun _ => ⟨rfl, Held.le_refl _⟩⟩

instance (path : Path) : Local (content path) := ⟨fun w => Within.refl w⟩

instance (path : Path) : Local (lexists path) := ⟨fun w => Within.refl w⟩

instance (statement : Db → Option Db) : Local (execute statement) := by
  refine ⟨fun w => ?_⟩
  unfold execute
  cases w.supply.fault 0 with
  | some fault => exact ⟨rfl, Held.le_refl _⟩
  | none => cases statement w.db <;> exact ⟨rfl, Held.le_refl _⟩

theorem file_step_local {partially : Nat → Files → Files} {change : Files → Files}
    (hpartially : ∀ progress files, Held.le files.held (partially progress files).held)
    (hchange : ∀ files, Held.le files.held (change files).held) :
    Local (file_step partially change) := by
  refine ⟨fun w => ?_⟩
  unfold file_step
  cases w.supply.fault 0 with
  | some fault => exact ⟨rfl, hpartially fault.progress w.files⟩
  | none => exact ⟨rfl, hchange w.files⟩

/-- A file that is no object may change freely. -/
theorem held_set {path : Path} (hpath : ∀ digest, path ≠ .object digest) (files : Files)
    (content : Option Bytes) : Held.le files.held (files.set path content).held := by
  intro digest raw hraw
  have hne : Path.object digest ≠ path := fun heq => hpath digest heq.symm
  simpa [Files.held, Files.set, hne] using hraw

theorem write_new_local {path : Path} (hpath : ∀ digest, path ≠ .object digest) (data : Bytes) :
    Local (write_new path data) := by
  have hstep := file_step_local
    (fun progress files => show Held.le files.held (if progress = 0 then files else
        files.set path (some (data.take (progress - 1)))).held by
      split
      · exact Held.le_refl _
      · exact held_set hpath files _)
    (fun files => held_set hpath files (some data))
  unfold write_new
  infer_instance

instance (name : String) (data : Bytes) : Local (write_new (.staging name) data) :=
  write_new_local (fun _ => by simp) data

instance (identity : String) (epoch : Nat) (data : Bytes) :
    Local (write_new (.credential identity epoch) data) :=
  write_new_local (fun _ => by simp) data

instance (path : Path) (limit : Nat) : Local (read_private path limit) := by
  have hstep := file_step_local (fun _ files => Held.le_refl files.held)
    (fun files => Held.le_refl (id files).held)
  unfold read_private
  infer_instance

instance : Local fsync :=
  file_step_local (fun _ files => Held.le_refl files.held)
    (fun files => Held.le_refl (id files).held)

instance (name : String) : Local (unlink (.staging name)) :=
  file_step_local
    (fun progress files => by
      split
      · exact Held.le_refl _
      · exact held_set (fun _ => by simp) files none)
    (fun files => held_set (fun _ => by simp) files none)

instance {body : Op α} {cleanup : Op Unit} [hbody : Local body] [hcleanup : Local cleanup] :
    Local (ensuring body cleanup) :=
  ⟨Effect.Keeps.ensuring _ hbody.within hcleanup.within fun _ _ _ => Within.trans⟩

instance (a : α) : Outer settings (pure a) := ⟨Effect.Keeps.pure (Advances.refl settings) a⟩

instance {x : Op α} {f : α → Op β} [hx : Outer settings x] [hf : ∀ a, Outer settings (f a)] :
    Outer settings (x >>= f) :=
  ⟨Effect.Keeps.bind hx.advances (fun a => (hf a).advances) fun _ _ _ => Advances.trans⟩

instance (result : Except Failure α) : Outer settings (check result) :=
  ⟨Effect.Keeps.ofExcept (Advances.refl settings) result⟩

instance (condition : Prop) {_ : Decidable condition} (failure : Failure) :
    Outer settings (require condition failure) :=
  ⟨Effect.Keeps.require (Advances.refl settings) condition failure⟩

instance (kind : Char) : Outer settings (new_id kind) :=
  ⟨fun _ => ⟨Held.le_refl _, fun _ => ⟨[], (List.append_nil _).symm, .nil _⟩⟩⟩

end Instances

variable {α : Type} {settings : Settings}

/-- A transaction commits the changes of its body, or leaves the index as it was. -/
theorem transaction_advances {body : Op α} [hlocal : Local body]
    (hbody : ∀ w w' a, Sane w.db → body w = (.ok a, w') →
      Changes settings w'.files.held w.db w'.db) :
    Outer settings (transaction body) := by
  refine ⟨fun w => ?_⟩
  have hwithin := hlocal.within w
  unfold transaction
  cases hresult : body w with
  | mk result w' =>
    rw [hresult] at hwithin
    obtain ⟨hcommits, hheld⟩ := hwithin
    cases result with
    | error failure => exact ⟨hheld, fun _ => ⟨[], hcommits.trans (List.append_nil _).symm, .nil _⟩⟩
    | ok a =>
      cases hfault : w'.supply.fault 0 with
      | some fault =>
        simp only [hfault]
        exact ⟨hheld, fun _ => ⟨[], hcommits.trans (List.append_nil _).symm, .nil _⟩⟩
      | none =>
        simp only [hfault]
        refine ⟨hheld, fun hsane => ⟨[w'.db], ?_, .cons ?_ (.nil _)⟩⟩
        · exact congrArg (· ++ [w'.db]) hcommits
        · exact hbody w w' a hsane hresult

end Op

end control_plane
