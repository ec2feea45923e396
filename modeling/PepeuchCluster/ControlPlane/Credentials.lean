import PepeuchCluster.ControlPlane.Completion

open Relation

namespace control_plane

/-- The identity of the principal is active, and its epoch is the one that the principal carries. -/
def Holds (db : Db) (principal : Principal) : Prop := ∃ worker, Authorised db principal worker

/-- The attempt was claimed by this worker, under its current epoch. -/
def Leased (db : Db) (worker : IdentityRow) (identity : String) : Prop :=
  ∃ attempt ∈ db.attempts, attempt.id = identity ∧ attempt.worker_id = worker.id ∧
    db.epoch_of identity = some worker.credential_epoch

/-- The attempt was claimed under an epoch that its worker has left. -/
def Stale (db : Db) (attempt : AttemptRow) : Prop :=
  ∃ worker ∈ db.worker_identities, worker.id = attempt.worker_id ∧
    ∃ epoch, db.epoch_of attempt.id = some epoch ∧ epoch < worker.credential_epoch

/-- The worker is revoked, and none of its attempts is under way. -/
def Retired (db : Db) (identity : String) : Prop :=
  (∃ worker ∈ db.worker_identities, worker.id = identity ∧ worker.status = .revoked) ∧
    ∀ attempt ∈ db.attempts, attempt.worker_id = identity → attempt.state.active = false

section Histories

variable {db db' db'' : Db} {principal : Principal} {worker : IdentityRow}

/-- The identity of a later state is the same row, or has a higher epoch. -/
theorem Extends.credential (h : Extends db db') (hkeys : Keyed db')
    (hworker : worker ∈ db.worker_identities) {later : IdentityRow}
    (hlater : later ∈ db'.worker_identities) (hid : later.id = worker.id) :
    later = worker ∨ worker.credential_epoch < later.credential_epoch := by
  obtain ⟨next, hnext, hnextid, hsame⟩ := h.credentials worker hworker
  rwa [Rows.eq_of_key hkeys.identities hlater hnext (hid.trans hnextid.symm)]

/-- A credential that was lost does not come back. -/
theorem Extends.lost (h : Extends db db') (h' : Extends db' db'') (hkeys : Keyed db'')
    (hheld : Holds db principal) (hlost : ¬Holds db' principal) : ¬Holds db'' principal := by
  rintro ⟨last, hlast⟩
  obtain ⟨worker, hworker⟩ := hheld
  obtain ⟨next, hnext, hid, hchanged⟩ := h.credentials worker hworker.mem
  have hhigher : worker.credential_epoch < next.credential_epoch := by
    rcases hchanged with rfl | hhigher
    · exact absurd ⟨next, { hworker with mem := hnext }⟩ hlost
    · exact hhigher
  have hlastid : last.id = next.id := hlast.id.trans (hworker.id.symm.trans hid.symm)
  have hepoch : last.credential_epoch = worker.credential_epoch :=
    Option.some.inj (hlast.epoch.symm.trans hworker.epoch)
  rcases h'.credential hkeys hnext hlast.mem hlastid with rfl | hhigher'
  · omega
  · omega

/-- The epoch recorded for an attempt stays. -/
theorem Extends.epoch_of (h : Extends db db') {identity : String} {epoch : Nat}
    (hepoch : db.epoch_of identity = some epoch) :
    db'.epoch_of identity = some epoch := by
  obtain ⟨more, hmore⟩ := h.epochs
  obtain ⟨row, hrow, rfl⟩ := Option.map_eq_some_iff.mp hepoch
  rw [Db.epoch_of, ← hmore, Rows.find, List.find?_append]
  rw [Rows.find] at hrow
  rw [hrow, Option.some_or, Option.map_some]

end Histories

section Settlements

variable {settings : Settings} {held : String → Option Bytes} {db db' : Db} {attempt : AttemptRow}

/-- What identifies the attempt, and the result that it has. -/
def AttemptRow.settled (row : AttemptRow) : String × String × Option String :=
  (row.id, row.worker_id, row.result_sha256)

/-- A change keeps the result of every attempt that it does not settle. -/
theorem Change.keeps_settled (h : Change settings held db db') (hkeys : Keyed db)
    (hattempt : attempt ∈ db.attempts) (hother : ∀ worker other task mission status,
      Settling db worker other task mission status → attempt ≠ other) :
    attempt.settled ∈ db'.attempts.map AttemptRow.settled := by
  have hmem : attempt.settled ∈ db.attempts.map AttemptRow.settled := List.mem_map_of_mem hattempt
  cases h with
  | cancelled =>
    refine List.IsPrefix.subset ?_ hmem
    exact prefix_update fun _ => rfl
  | claimed _ worker mission task started hclaim =>
    cases hclaim
    rw [List.map_append]
    exact List.mem_append_left _ hmem
  | fenced _ reason fenced hfence =>
    cases hfence
    refine List.IsPrefix.subset ?_ hmem
    exact prefix_update fun _ => rfl
  | settled _ worker other task mission content_hash status error_code hsettle =>
    cases hsettle with
    | ended _ _ _ event hsettling =>
      have hne := hother worker other task mission status hsettling
      exact List.mem_map_of_mem (mem_update_of_ne hkeys.attempts hsettling.claimed.1 hattempt hne)
    | completed _ publication result event hsettling =>
      have hne := hother worker other task mission .completed hsettling
      exact List.mem_map_of_mem (mem_update_of_ne hkeys.attempts hsettling.claimed.1 hattempt hne)
  | _ => exact hmem

/-- The attempt takes no result any more: it has one, or its worker has left the epoch of its
    claim. -/
def Sealed (db : Db) (attempt : AttemptRow) : Prop :=
  Stale db attempt ∨ attempt.result_sha256 ≠ none

theorem Sealed.ne (h : Sealed db attempt) (hkeys : Keyed db) {worker : IdentityRow}
    {other : AttemptRow} {task : TaskRow} {mission : MissionRow} {status : State}
    (hsettling : Settling db worker other task mission status) : attempt ≠ other := by
  rintro rfl
  rcases h with ⟨owner, howner, hid, epoch, hepoch, hless⟩ | hresult
  · have hsame :=
      Rows.eq_of_key hkeys.identities howner hsettling.authorised.1 (hid.trans hsettling.claimed.2)
    have hcurrent := Option.some.inj (hepoch.symm.trans hsettling.epoch)
    rw [hsame] at hless
    omega
  · exact hresult hsettling.unsettled

theorem Stale.later (h : Stale db attempt) (hextends : Extends db db') {later : AttemptRow}
    (hsame : later.settled = attempt.settled) : Stale db' later := by
  obtain ⟨worker, hworker, hid, epoch, hepoch, hless⟩ := h
  obtain ⟨next, hnext, hnextid, hchanged⟩ := hextends.credentials worker hworker
  obtain ⟨hlaterid, hrest⟩ := Prod.mk.inj hsame
  obtain ⟨hlaterworker, _⟩ := Prod.mk.inj hrest
  refine ⟨next, hnext, hnextid.trans (hid.trans hlaterworker.symm), epoch, ?_, ?_⟩
  · rw [hlaterid]
    exact hextends.epoch_of hepoch
  · rcases hchanged with rfl | hhigher
    · exact hless
    · exact hless.trans hhigher

theorem Sealed.later (h : Sealed db attempt) (hextends : Extends db db') {later : AttemptRow}
    (hsame : later.settled = attempt.settled) : Sealed db' later := by
  rcases h with hstale | hresult
  · exact .inl (hstale.later hextends hsame)
  · have hkept : later.result_sha256 = attempt.result_sha256 :=
      (Prod.mk.inj (Prod.mk.inj hsame).2).2
    exact .inr (hkept ▸ hresult)

/-- Sealed attempts keep the result that they have, or none. -/
def Shelved (db db' : Db) : Prop := Sane db → Sane db' ∧ Extends db db' ∧
  ∀ attempt ∈ db.attempts, Sealed db attempt → attempt.settled ∈ db'.attempts.map AttemptRow.settled

namespace Shelved

theorem refl (db : Db) : Shelved db db :=
  fun hsane => ⟨hsane, Extends.refl db, fun _ hattempt _ => List.mem_map_of_mem hattempt⟩

theorem trans {db'' : Db} (h : Shelved db db') (h' : Shelved db' db'') :
    Shelved db db'' := fun hsane => by
  obtain ⟨hsane', hextends, hkept⟩ := h hsane
  obtain ⟨hsane'', hextends', hkept'⟩ := h' hsane'
  refine ⟨hsane'', hextends.trans hextends', fun attempt hattempt hsealed => ?_⟩
  obtain ⟨later, hlater, hsame⟩ := List.mem_map.mp (hkept attempt hattempt hsealed)
  rw [← hsame]
  exact hkept' later hlater (hsealed.later hextends hsame)

theorem of_change (h : Change settings held db db') : Shelved db db' := fun hsane =>
  ⟨h.sane hsane, h.extends_of_sane hsane, fun _ hattempt hsealed =>
    h.keeps_settled hsane.keyed hattempt fun _ _ _ _ _ => hsealed.ne hsane.keyed⟩

theorem of_changes (h : Changes settings held db db') : Shelved db db' := by
  induction h with
  | refl => exact refl db
  | tail _ hchange ih => exact ih.trans (of_change hchange)

end Shelved

end Settlements

section Requests

variable {service : ControlPlane} {w w' : World} {principal : Principal} {reason : String}

/-- The worker that makes the request. -/
def Request.worker : Request → Option Principal
  | .operation principal (.claim _) => some principal
  | .finish principal _ _ => some principal
  | .state principal _ => some principal
  | _ => none

/-- The attempt that the request is about. -/
def Request.attempt : Request → Option String
  | .finish _ identity _ => some identity
  | .state _ identity => some identity
  | _ => none

theorem expire_ok {u : Unit} (hsane : Sane w.db) (h : ExecutionManager.expire w = (.ok u, w')) :
    ExecutionManager.Fences "attempt_expired" w.db w'.db := by
  obtain ⟨v, hfence, _, rfl⟩ := Op.transaction_eq_ok.mp h
  have hfences := ExecutionManager.fence_ok hsane.keyed hfence
  exact hfences

/-- An interruption leaves every attempt with its worker. -/
theorem Fences.attempts_fixed {db db' : Db} (h : ExecutionManager.Fences reason db db') :
    db'.attempts.map AttemptRow.fixed = db.attempts.map AttemptRow.fixed := by
  induction h with
  | refl => rfl
  | tail _ hfence ih =>
    obtain ⟨attempt, ⟨_⟩⟩ := hfence
    rw [← ih]
    exact Rows.update_map fun _ => rfl

/-- Who holds a credential, and under which epoch an attempt was claimed, does not depend on
    expiries. -/
theorem Leased.of_fences {db db' : Db} (h : ExecutionManager.Fences reason db db')
    {worker : IdentityRow} {attempt : AttemptRow} (hauthorised : Authorised db' principal worker)
    (hattempt : attempt ∈ db'.attempts) (hworker : attempt.worker_id = worker.id)
    (hepoch : db'.epoch_of attempt.id = some worker.credential_epoch) :
    Authorised db principal worker ∧ Leased db worker attempt.id := by
  have hframe := h.frame
  have hidentities : db'.worker_identities = db.worker_identities := by rw [hframe]
  have hepochs : db'.attempt_worker_epochs = db.attempt_worker_epochs := by rw [hframe]
  have hfixed : attempt.fixed ∈ db.attempts.map AttemptRow.fixed := by
    rw [← Fences.attempts_fixed h]
    exact List.mem_map_of_mem hattempt
  obtain ⟨old, hold, hsame⟩ := List.mem_map.mp hfixed
  have hid : old.fixed.id = attempt.fixed.id := congrArg AttemptRow.id hsame
  have holdworker : old.fixed.worker_id = attempt.fixed.worker_id :=
    congrArg AttemptRow.worker_id hsame
  refine ⟨{ hauthorised with mem := hidentities ▸ hauthorised.mem }, old, hold, hid,
    holdworker.trans hworker, ?_⟩
  rw [Db.epoch_of, ← hepochs]
  exact hepoch

theorem claim_holds {data : Json} {response : Json}
    (h : ExecutionManager.claim service principal data w = (.ok response, w')) :
    Holds w.db principal := by
  simp only [ExecutionManager.claim, ControlPlane.operate, Op.check_bind_eq_ok] at h
  obtain ⟨_, _, _, _, _, _, operation, _, h⟩ := h
  obtain ⟨v, hrun, _, rfl⟩ := Op.transaction_eq_ok.mp h
  obtain ⟨actor, hactor, _⟩ := ControlPlane.operate_once_ok hrun
  obtain ⟨_, worker, hworker, _⟩ := ControlPlane.actor_ok hactor
  exact ⟨worker, hworker⟩

theorem finish_leased {identity : String} {data response : Json} (hsane : Sane w.db)
    (h : ExecutionManager.finish service principal identity data w = (.ok response, w')) :
    ∃ worker, Authorised w.db principal worker ∧ Leased w.db worker identity := by
  simp only [ExecutionManager.finish, Op.check_bind_eq_ok, Op.require_bind_eq_ok] at h
  obtain ⟨_, _, result, hresult, identity', hidentity, hid, h⟩ := h
  obtain ⟨_, v, hexpire, h⟩ := Op.bind_eq_ok.mp h
  obtain ⟨u, hrun, _, rfl⟩ := Op.transaction_eq_ok.mp h
  obtain ⟨worker, attempt, task, hworker, hattempt, hresultid, hclaimed, _, hepoch, _⟩ :=
    ExecutionManager.finish_effect_ok (from_dict_ok hresult) hrun
  obtain ⟨hauthorised, hleased⟩ := Leased.of_fences (expire_ok hsane hexpire) hworker hattempt
    (hclaimed.trans hworker.id.symm) hepoch
  have hname : attempt.id = identity := by
    rw [hresultid, hid]
    exact (Json.str.inj (identifier_ok hidentity).1).symm
  exact ⟨worker, hauthorised, hname ▸ hleased⟩

theorem state_leased {identity : String} {response : Json} (hsane : Sane w.db)
    (h : ExecutionManager.state service principal identity w = (.ok response, w')) :
    ∃ worker, Authorised w.db principal worker ∧ Leased w.db worker identity := by
  simp only [ExecutionManager.state, Op.check_bind_eq_ok] at h
  obtain ⟨_, _, identity', hidentity, h⟩ := h
  obtain ⟨_, v, hexpire, h⟩ := Op.bind_eq_ok.mp h
  obtain ⟨u, hrun, _, rfl⟩ := Op.transaction_eq_ok.mp h
  obtain ⟨worker, _, hauthorize, hrun⟩ := Op.bind_eq_ok.mp hrun
  obtain ⟨rfl, hworker, _⟩ := WorkerRegistry.authorize_ok hauthorize
  simp only [Op.select_bind_eq_ok, Op.demand_bind_eq_ok, Op.require_bind_eq_ok] at hrun
  obtain ⟨attempt, hfind, hepoch, _⟩ := hrun
  obtain ⟨hattempt, hkey⟩ := Rows.find_some hfind
  obtain ⟨hid, hclaimed⟩ := of_decide_eq_true hkey
  have hname : attempt.id = identity := hid.trans (Json.str.inj (identifier_ok hidentity).1).symm
  rw [← hid] at hepoch
  obtain ⟨hauthorised, hleased⟩ := Leased.of_fences (expire_ok hsane hexpire) hworker hattempt
    (hclaimed.trans hworker.id.symm) hepoch
  exact ⟨worker, hauthorised, hname ▸ hleased⟩

/-- What a worker is answered, it is answered under a credential that it holds. -/
theorem answered_holds {request : Request} {reply : Reply} (hsane : Sane w.db)
    (hrequest : request.worker = some principal) (h : request.perform service w = (.ok reply, w')) :
    ∃ worker, Authorised w.db principal worker ∧
      ∀ identity, request.attempt = some identity → Leased w.db worker identity := by
  cases request with
  | operation other action =>
    cases action with
    | claim data =>
      obtain rfl := Option.some.inj hrequest
      obtain ⟨response, v, hrun, _⟩ := Op.bind_eq_ok.mp h
      obtain ⟨worker, hworker⟩ := claim_holds hrun
      refine ⟨worker, hworker, fun identity hidentity => ?_⟩
      cases hidentity
    | _ => cases hrequest
  | finish other identity data =>
    obtain rfl := Option.some.inj hrequest
    obtain ⟨response, v, hrun, _⟩ := Op.bind_eq_ok.mp h
    obtain ⟨worker, hworker, hleased⟩ := finish_leased hsane hrun
    exact ⟨worker, hworker, fun named hnamed => Option.some.inj hnamed ▸ hleased⟩
  | state other identity =>
    obtain rfl := Option.some.inj hrequest
    obtain ⟨response, v, hrun, _⟩ := Op.bind_eq_ok.mp h
    obtain ⟨worker, hworker, hleased⟩ := state_leased hsane hrun
    exact ⟨worker, hworker, fun named hnamed => Option.some.inj hnamed ▸ hleased⟩
  | _ => cases hrequest

end Requests

section Revocations

open ExecutionManager

variable {service : ControlPlane} {w w' : World} {reason : String} {principal : Principal}

/-- After an interruption the attempt is over, and every other one is as it was. -/
theorem Fence.active {db db' : Db} {attempt : AttemptRow} (h : Fence reason attempt db db')
    {other : AttemptRow} (hother : other ∈ db'.attempts) (hactive : other.state.active = true) :
    other ∈ db.attempts ∧ other.id ≠ attempt.id := by
  cases h
  rcases Rows.mem_update.mp hother with ⟨hmem, hselected⟩ | ⟨_, _, _, rfl⟩
  · exact ⟨hmem, of_decide_eq_false hselected⟩
  · cases hactive

/-- Without a look at the deadlines, every selected attempt is interrupted. -/
theorem fence_rows_active {rows : List (AttemptRow × TaskRow)} {u : Unit}
    (hids : (rows.map (·.1.id)).Nodup) (hrows : ∀ row ∈ rows, Pending w.db row)
    (h : fence_rows reason false rows w = (.ok u, w')) :
    ∀ other ∈ w'.db.attempts, other.state.active = true → other ∈ w.db.attempts ∧
      ∀ row ∈ rows, other.id ≠ row.1.id := by
  induction rows generalizing w with
  | nil =>
    simp only [fence_rows, Op.pure_eq_ok] at h
    rw [← h.2]
    exact fun other hother _ => ⟨hother, List.forall_mem_nil _⟩
  | cons row rows ih =>
    obtain ⟨_, v, hrow, hrest⟩ := Op.bind_eq_ok.mp h
    obtain ⟨hfresh, hids⟩ := List.nodup_cons.mp hids
    have hfence : Fence reason row.1 w.db v.db := interrupt_ok (hrows row (by simp)) hrow
    have hpending : ∀ other ∈ rows, Pending v.db other := by
      intro other hother
      exact Fence.pending hfence (hrows other (List.mem_cons_of_mem _ hother)) fun heq =>
        hfresh (List.mem_map.mpr ⟨other, hother, heq⟩)
    intro other hother hactive
    obtain ⟨hmem, hrest⟩ := ih hids hpending hrest other hother hactive
    obtain ⟨hmem, hne⟩ := hfence.active hmem hactive
    exact ⟨hmem, List.forall_mem_cons.mpr ⟨hne, hrest⟩⟩

/-- `_fence` of a worker leaves it no active attempt. -/
theorem fence_worker_ok {identity : String} {u : Unit} (hsane : Sane w.db)
    (h : fence reason false (some identity) w = (.ok u, w')) :
    ∀ attempt ∈ w'.db.attempts, attempt.worker_id = identity → attempt.state.active = false := by
  obtain ⟨rows, _, hselect, hrows⟩ := Op.bind_eq_ok.mp h
  obtain ⟨rfl, rfl⟩ := Op.select_eq_ok.mp hselect
  obtain ⟨hids, hpending⟩ := active_attempts_pending hsane.keyed (some identity)
  intro attempt hattempt hworker
  by_contra hactive
  have hactive := Bool.of_not_eq_false hactive
  obtain ⟨hmem, hne⟩ := fence_rows_active hids hpending hrows attempt hattempt hactive
  obtain ⟨task, htask, hlink⟩ := List.mem_map.mp (hsane.linked.attempts (List.mem_map_of_mem hmem))
  refine hne (attempt, task) (List.mem_flatMap.mpr ⟨attempt, hmem, ?_⟩) rfl
  rw [if_pos ⟨hactive, .inr (congrArg some hworker.symm)⟩]
  exact List.mem_map_of_mem (List.mem_filter.mpr ⟨htask, decide_eq_true hlink⟩)

theorem revoke_worker_effect_retires {identity : String} {response : Json} (hsane : Sane w.db)
    (h : ControlPlane.revoke_worker_effect principal identity w = (.ok response, w')) :
    Retired w'.db identity := by
  obtain ⟨_, u, hrevoke, h⟩ := Op.bind_eq_ok.mp h
  obtain ⟨_, v, hfence, h⟩ := Op.bind_eq_ok.mp h
  simp only [Op.select_bind_eq_ok, Op.demand_bind_eq_ok] at h
  obtain ⟨workspace, _, h⟩ := h
  obtain ⟨_, x, haudit, h⟩ := Op.bind_eq_ok.mp h
  obtain ⟨_, rfl⟩ := Op.pure_eq_ok.mp h
  obtain ⟨event, _, _, _, _, hdb⟩ := ControlPlane.audit_ok haudit
  obtain ⟨worker, hworker, hid, hcase⟩ := WorkerRegistry.revoke_ok hrevoke
  have hretired : (∃ row ∈ u.db.worker_identities, row.id = identity ∧ row.status = .revoked) ∧
      Sane u.db := by
    rcases hcase with ⟨hstatus, hsame⟩ | ⟨hactive, updated_at, hchanged⟩
    · rw [hsame]
      exact ⟨⟨worker, hworker, hid, hstatus⟩, hsane⟩
    · have hchange : Change .default w.files.held w.db u.db :=
        hchanged ▸ .revoked _ worker updated_at hworker hactive
      refine ⟨?_, hchange.sane hsane⟩
      rw [hchanged]
      exact ⟨_, Rows.mem_update.mpr (.inr ⟨worker, hworker, by simp, rfl⟩), hid, rfl⟩
  have hidentities := congrArg (·.worker_identities) (fence_ok hretired.2.keyed hfence).frame
  rw [hdb]
  refine ⟨?_, fence_worker_ok hretired.2 hfence⟩
  change ∃ row ∈ v.db.worker_identities, _
  rw [hidentities]
  exact hretired.1

/-- The operation identifier of the request has not been used by this actor. -/
def Unused (db : Db) (principal : Principal) (data : Json) : Prop :=
  ∀ old ∈ db.operations, old.actor = principal.identity → Json.str old.id ≠ item data "operation_id"

theorem operation_id_ok {value : Json} {operation : String}
    (h : operation_id value = .ok operation) :
    value = .str operation := by
  unfold operation_id at h
  split at h
  · split at h
    · rw [Except.ok.inj h]
    · cases h
  · cases h

theorem revoke_worker_retires {identity : String} {data response : Json} (hsane : Sane w.db)
    (hunused : Unused w.db principal data)
    (h : service.revoke_worker principal identity data w = (.ok response, w')) :
    Retired w'.db identity := by
  simp only [ControlPlane.revoke_worker, ControlPlane.operate, Op.check_bind_eq_ok] at h
  obtain ⟨_, _, _, _, operation, hoperation, h⟩ := h
  obtain ⟨v, hrun, _, rfl⟩ := Op.transaction_eq_ok.mp h
  obtain ⟨actor, hactor, ⟨old, hold, ⟨hactorId, hid⟩, _⟩ | ⟨_, x, heffect, _, _, hdb⟩⟩ :=
    ControlPlane.operate_once_ok hrun
  · have hname : actor = principal.identity := (ControlPlane.actor_ok hactor).2
    exact absurd (hid ▸ (operation_id_ok hoperation).symm) (hunused old hold (hactorId.trans hname))
  · have hretired := revoke_worker_effect_retires hsane heffect
    change Retired v.db identity
    rw [hdb]
    exact hretired

/-- A retired worker has no principal. -/
theorem Retired.unheld {db : Db} (h : Retired db principal.identity) (hkeys : Keyed db) :
    ¬Holds db principal := by
  rintro ⟨worker, hworker⟩
  obtain ⟨⟨row, hrow, hid, hstatus⟩, _⟩ := h
  have hsame := Rows.eq_of_key hkeys.identities hrow hworker.mem (hid.trans hworker.id.symm)
  rw [hsame, hworker.status] at hstatus
  cases hstatus

/-- A rotation replaces the credential, whoever held it. -/
theorem rotate_unheld {identity : String} {reactivate : Bool} {response : Json} (hkeys : Keyed w.db)
    (hid : principal.identity = identity) (hheld : Holds w.db principal)
    (h : WorkerRegistry.rotate identity reactivate w = (.ok response, w')) :
    ¬Holds w'.db principal := by
  simp only [WorkerRegistry.rotate, Op.check_bind_eq_ok] at h
  obtain ⟨_, _, h⟩ := h
  obtain ⟨v, hrun, _, rfl⟩ := Op.transaction_eq_ok.mp h
  obtain ⟨worker, updated_at, _, _, _, hworker, hname, _, _, _, hdb⟩ := WorkerRegistry.renew_ok hrun
  rintro ⟨later, hlater⟩
  obtain ⟨old, hold⟩ := hheld
  obtain rfl :=
    Rows.eq_of_key hkeys.identities hold.mem hworker (hold.id.trans (hid.trans hname.symm))
  have hmem : later ∈ v.db.worker_identities := hlater.mem
  rw [hdb] at hmem
  rcases Rows.mem_update.mp hmem with ⟨_, hother⟩ | ⟨_, _, _, rfl⟩
  · exact of_decide_eq_false hother (hlater.id.trans hid)
  · have hepoch := Option.some.inj (hlater.epoch.symm.trans hold.epoch)
    exact Nat.succ_ne_self _ hepoch

end Revocations

namespace ControlPlane

variable (service : ControlPlane) (boot : Boot) (calls : List Call)

/-- A call that is answered in JSON leaves the state that its operation leaves. -/
theorem step_json {installation : Installation} {request : Request} {supply : Supply}
    {reply : Reply} {op : Op Json} (hrequest : request.perform service = Reply.json <$> op)
    (h : service.outcome installation ⟨request, supply⟩ = .ok reply) :
    ∃ response v, op (installation.world supply) = (.ok response, v) ∧
      (service.step installation ⟨request, supply⟩).db = v.db ∧ reply = .json response := by
  have hrun : request.perform service (installation.world supply) = (.ok reply, _) := Prod.ext h rfl
  have hstep : (service.step installation ⟨request, supply⟩).db =
      (request.perform service (installation.world supply)).2.db := rfl
  rw [hrequest] at hrun hstep
  obtain ⟨response, v, hop, hlast⟩ := Op.bind_eq_ok.mp hrun
  obtain ⟨hreply, hsame⟩ := Op.pure_eq_ok.mp hlast
  exact ⟨response, v, hop, hstep.trans (congrArg World.db hsame.symm), hreply.symm⟩

theorem after_shelved (more : List Call) :
    Shelved (service.after boot calls).db (service.after boot (calls ++ more)).db := by
  rw [after_append]
  obtain ⟨commits, _, htrail⟩ := (run_progress (after_sane service boot calls) more).trail
  exact Shelved.of_changes htrail.changes

/-- Credentials fence their workers, in every run and whatever calls follow. A principal that has
    lost its credential never holds it again; a worker is answered only under a credential that it
    holds, and about an attempt only under the epoch of its claim; an attempt of an epoch that has
    passed keeps the result that it has, or none; a rotation takes the credential from whoever held
    it, and a revocation also ends every attempt of its worker. -/
theorem credentials_fenced :
    (∀ more rest principal, Holds (service.after boot calls).db principal →
      ¬Holds (service.after boot (calls ++ more)).db principal →
      ¬Holds (service.after boot (calls ++ more ++ rest)).db principal) ∧
    (∀ call reply principal, call.request.worker = some principal →
      service.outcome (service.after boot calls) call = .ok reply →
      ∃ worker, Authorised (service.after boot calls).db principal worker ∧
        ∀ identity, call.request.attempt = some identity →
        Leased (service.after boot calls).db worker identity) ∧
    (∀ more, ∀ attempt ∈ (service.after boot calls).db.attempts,
      Stale (service.after boot calls).db attempt →
        ∃ later ∈ (service.after boot (calls ++ more)).db.attempts,
        later.settled = attempt.settled) ∧
    (∀ principal reactivate supply reply, Holds (service.after boot calls).db principal →
      service.outcome (service.after boot calls) ⟨.rotate principal.identity reactivate, supply⟩ =
        .ok reply →
      ¬Holds (service.step (service.after boot calls)
        ⟨.rotate principal.identity reactivate, supply⟩).db principal) ∧
    ∀ admin principal data supply reply, Unused (service.after boot calls).db admin data →
      service.outcome (service.after boot calls)
        ⟨.operation admin (.revoke_worker principal.identity data), supply⟩ = .ok reply →
      Retired (service.step (service.after boot calls)
          ⟨.operation admin (.revoke_worker principal.identity data), supply⟩).db
      principal.identity ∧
        ¬Holds (service.step (service.after boot calls)
          ⟨.operation admin (.revoke_worker principal.identity data), supply⟩).db principal := by
  have hsane := after_sane service boot calls
  refine ⟨fun more rest principal hheld hlost => ?_, fun call reply principal hworker hreply => ?_,
    fun more attempt hattempt hstale =>
      ?_, fun principal reactivate supply reply hheld hreply => ?_,
    fun admin principal data supply reply hunused hreply => ?_⟩
  · have hextends := after_extends service boot (calls ++ more) rest
    exact (after_extends service boot calls more).lost hextends
      (after_sane service boot _).keyed hheld hlost
  · exact answered_holds (w := (service.after boot calls).world call.supply) hsane hworker
      (Prod.ext hreply rfl)
  · obtain ⟨_, _, hkept⟩ := after_shelved service boot calls more hsane
    exact List.mem_map.mp (hkept attempt hattempt (.inl hstale))
  · obtain ⟨response, v, hrotate, hdb, _⟩ := step_json service rfl hreply
    rw [hdb]
    exact rotate_unheld hsane.keyed rfl hheld hrotate
  · obtain ⟨response, v, hrevoke, hdb, _⟩ := step_json service rfl hreply
    have hretired : Retired v.db principal.identity := revoke_worker_retires hsane hunused hrevoke
    rw [← hdb] at hretired
    exact ⟨hretired, hretired.unheld ((step_progress hsane _).sane hsane).keyed⟩

end ControlPlane

end control_plane
