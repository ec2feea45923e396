import PepeuchCluster.ControlPlane.Refinement

set_option synthInstance.maxSize 2048

open Relation

namespace control_plane

section Checks

theorem text_ok {value : Json} {maximum : Nat} {s : String} (h : text value maximum = .ok s) :
    isText s maximum := by
  unfold text at h
  split at h
  · split at h
    · next htext => exact Except.ok.inj h ▸ htext
    · cases h
  · cases h

theorem identifier_ok {value : Json} {s : String} (h : identifier value = .ok s) :
    value = .str s ∧ isIdentifier s = true := by
  unfold identifier at h
  split at h
  · split at h
    · next hid =>
      obtain rfl := Except.ok.inj h
      exact ⟨rfl, hid⟩
    · cases h
  · cases h

theorem file_references_ok {data : Json} {refs : List String}
    (h : ControlPlane.file_references data = .ok refs) :
    refs.length ≤ 32 ∧ ∀ reference ∈ refs, isIdentifier reference = true := by
  unfold ControlPlane.file_references at h
  split at h
  · obtain rfl := Except.ok.inj h
    simp
  · next items _ =>
    simp only [Except.bind_eq_ok, Except.require_eq_ok, Except.pure_eq_ok] at h
    obtain ⟨_, hlength, found, hfound, _, _, rfl⟩ := h
    obtain ⟨hcount, hmem⟩ := Except.mapM_ok hfound
    refine ⟨hcount ▸ hlength, fun reference hreference => ?_⟩
    obtain ⟨value, _, hvalue⟩ := hmem reference hreference
    exact (identifier_ok hvalue).2
  · cases h

theorem status_of_ok {value : Json} {status : State}
    (h : ExecutionResult.status_of value = .ok status) :
    status ∈ [State.completed, .failed, .interrupted, .cancelled] := by
  unfold ExecutionResult.status_of at h
  split at h
  · split at h
    · next found hfound =>
      obtain rfl := Except.ok.inj h
      exact List.mem_of_find?_eq_some hfound
    · cases h
  · cases h

theorem from_dict_ok {data : Json} {result : ExecutionResult}
    (h : ExecutionResult.from_dict data = .ok result) :
    result.status ∈ [State.completed, .failed, .interrupted, .cancelled] := by
  simp only [ExecutionResult.from_dict, Except.bind_eq_ok, Except.pure_eq_ok] at h
  obtain ⟨_, _, _, _, _, _, _, _, status, hstatus, _, _, _, _, rfl⟩ := h
  exact status_of_ok hstatus

end Checks

section Calls

/-! Every call is a sequence of transactions, and each of them makes its changes. -/

variable {service : ControlPlane} {principal : Principal}

instance (data : Json) (capability : Capability) :
    Op.Outer service.settings (service.create_mission_as principal data capability) := by
  refine Op.check_bind_outer fun _ _ => Op.check_bind_outer fun title htitle =>
    Op.check_bind_outer fun objective hobjective => Op.check_bind_outer fun workspace_id _ =>
    Op.check_bind_outer fun refs hrefs => Op.require_bind_outer fun hinputs => ?_
  obtain ⟨hcount, hids⟩ := file_references_ok hrefs
  exact ControlPlane.operate_outer fun w w' response _ h =>
    .single (ControlPlane.create_mission_effect_ok ⟨text_ok htitle, text_ok hobjective⟩
      ⟨hcount, hids, hinputs⟩ h)

instance (data : Json) : Op.Outer service.settings (service.create_mission principal data) := by
  unfold ControlPlane.create_mission; infer_instance

instance (data : Json) : Op.Outer service.settings (service.create_cpu_mission principal data) := by
  unfold ControlPlane.create_cpu_mission; infer_instance

instance (identity : String) (data : Json) :
    Op.Outer service.settings (ExecutionManager.approve service principal identity data) :=
  Op.check_bind_outer fun _ _ => ControlPlane.operate_outer fun _ _ _ hsane h =>
    .single (ExecutionManager.approve_effect_ok hsane.keyed h)

instance (identity : String) (data : Json) :
    Op.Outer service.settings (ExecutionManager.cancel service principal identity data) := by
  have hcancel : Op.Outer service.settings (service.operate principal (item data "operation_id")
      ("cancel:" ++ identity) data (ExecutionManager.cancel_effect principal identity)) := by
    refine ControlPlane.operate_outer fun w w' response _ h => ?_
    rcases ExecutionManager.cancel_effect_ok h with hsame | hchange
    · rw [hsame]
      exact ReflTransGen.refl
    · exact .single hchange
  unfold ExecutionManager.cancel
  infer_instance

instance (identity : String) (data : Json) :
    Op.Outer service.settings (ExecutionManager.retry service principal identity data) := by
  have hretry : Op.Outer service.settings (service.operate principal (item data "operation_id")
      ("retry:" ++ identity) data (ExecutionManager.retry_effect principal identity)) :=
    ControlPlane.operate_outer fun _ _ _ _ h => .single (ExecutionManager.retry_effect_ok h)
  unfold ExecutionManager.retry
  infer_instance

instance (workspace_id : String) (data : Json) :
    Op.Outer service.settings (WorkspaceManager.upload service principal workspace_id data) :=
  Op.check_bind_outer fun _ _ => Op.check_bind_outer fun _ _ => Op.check_bind_outer fun _ houtput =>
    ControlPlane.operate_outer fun _ _ _ _ h =>
      .single (WorkspaceManager.upload_effect_ok (output_data_ok houtput).1 h)

instance (identity : String) (data : Json) :
    Op.Outer service.settings (service.revoke_worker principal identity data) :=
  Op.check_bind_outer fun _ _ => ControlPlane.operate_outer fun _ _ _ hsane h =>
    ControlPlane.revoke_worker_effect_ok hsane h

instance (data : Json) :
    Op.Outer service.settings (ExecutionManager.claim service principal data) := by
  refine Op.check_bind_outer fun _ _ => Op.check_bind_outer fun _ _ =>
    ControlPlane.operate_outer fun w w' response hsane h => ?_
  obtain ⟨db, worker, hfences, _, ⟨_, rfl⟩ | ⟨mission, task, attempt, hclaim, _⟩⟩ :=
    ExecutionManager.claim_effect_ok hsane h
  · exact hfences.changes
  · exact hfences.changes.tail (.claimed _ _ worker mission task attempt hclaim)

instance (identity : String) (data : Json) :
    Op.Outer service.settings (ExecutionManager.finish service principal identity data) := by
  refine Op.check_bind_outer fun _ _ => Op.check_bind_outer fun result hresult => ?_
  have hfinish : Op.Outer service.settings
      (Op.transaction (ExecutionManager.finish_effect service principal result)) := by
    refine Op.transaction_advances fun w w' response _ h => ?_
    obtain ⟨worker, attempt, task, _, _, _, _, _, _, ⟨_, _, rfl⟩ | ⟨mission, hsettle, _⟩⟩ :=
      ExecutionManager.finish_effect_ok (from_dict_ok hresult) h
    · exact ReflTransGen.refl
    · exact .single (.settled _ _ worker attempt task mission _ _ _ hsettle)
  infer_instance

instance (identity : String) :
    Op.Outer service.settings (ExecutionManager.state service principal identity) := by
  unfold ExecutionManager.state; infer_instance

instance (identity : String) :
    Op.Outer service.settings (ControlPlane.get_mission principal identity) := by
  unfold ControlPlane.get_mission; infer_instance

instance : Op.Outer service.settings (ControlPlane.list_missions principal) := by
  unfold ControlPlane.list_missions; infer_instance

instance (identity : String) :
    Op.Outer service.settings (ControlPlane.events principal identity) := by
  unfold ControlPlane.events; infer_instance

instance : Op.Outer service.settings (ExecutionManager.nodes principal) := by
  unfold ExecutionManager.nodes; infer_instance

instance (workspace_id : String) :
    Op.Outer service.settings (WorkspaceManager.list_files service principal workspace_id) := by
  unfold WorkspaceManager.list_files; infer_instance

instance (workspace_id file_id : String) (version_id : Option String) :
    Op.Outer service.settings
      (WorkspaceManager.download service principal workspace_id file_id version_id) := by
  unfold WorkspaceManager.download; infer_instance

instance {α β : Type} (f : α → β) {x : Op α} [hx : Op.Outer service.settings x] :
    Op.Outer service.settings (f <$> x) :=
  inferInstanceAs (Op.Outer service.settings (x >>= fun a => pure (f a)))

instance (action : Operation) : Op.Outer service.settings (action.perform service principal) := by
  cases action <;> (unfold Operation.perform; infer_instance)

instance (request : Request) : Op.Outer service.settings (request.perform service) := by
  cases request <;> (unfold Request.perform; infer_instance)

end Calls

end control_plane
