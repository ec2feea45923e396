import PepeuchCluster.ControlPlane.Runs

set_option synthInstance.maxSize 2048

open Relation

namespace control_plane

open ExecutionManager (Fences expire fence fence_ok)

namespace Op

/-- A step that at most interrupts attempts whose lease has expired. -/
class Expiring {α : Type} (op : Op α) : Prop where
  fences : Effect.Keeps (fun w w' => Sane w.db → Fences "attempt_expired" w.db w'.db) op

/-- A call that, when it fails, has at most interrupted attempts whose lease has expired. -/
class Refusing {α : Type} (op : Op α) : Prop where
  fences : ∀ w w' failure, Sane w.db → op w = (.error failure, w') →
    Fences "attempt_expired" w.db w'.db

section Instances

variable {α β : Type}

theorem Expiring.of_same {op : Op α} (h : Effect.Keeps (fun w w' => w'.db = w.db) op) :
    Expiring op := by
  refine ⟨fun w _ => ?_⟩
  rw [show (op w).2.db = w.db from h w]
  exact ReflTransGen.refl

instance (result : Except Failure α) : Expiring (check result) := .of_same fun _ => rfl

instance (condition : Prop) {_ : Decidable condition} (failure : Failure) :
    Expiring (require condition failure) :=
  .of_same (inferInstance : Reads (require condition failure)).same

instance (kind : Char) : Expiring (new_id kind) := .of_same fun _ => rfl

instance : Expiring expire := by
  refine ⟨fun w hsane => ?_⟩
  unfold expire transaction
  cases hrun : fence "attempt_expired" true none w with
  | mk result w' =>
    cases result with
    | error failure => exact ReflTransGen.refl
    | ok u =>
      have hfences := fence_ok hsane.keyed hrun
      dsimp only
      cases w'.supply.fault 0 with
      | some fault => exact ReflTransGen.refl
      | none => exact hfences

instance (body : Op α) : Refusing (transaction body) := by
  refine ⟨fun w w' failure _ h => ?_⟩
  unfold transaction at h
  split at h
  · rw [← (Prod.mk.inj h).2]
    exact ReflTransGen.refl
  · split at h
    · rw [← (Prod.mk.inj h).2]
      exact ReflTransGen.refl
    · cases (Prod.mk.inj h).1

theorem Fences.sane {reason : String} {db db' : Db} (h : Fences reason db db')
    (hsane : Sane db) : Sane db' :=
  Changes.sane (h.changes : Changes .default (fun _ => none) db db') hsane

instance {x : Op α} {f : α → Op β} [hx : Expiring x] [hf : ∀ a, Refusing (f a)] :
    Refusing (x >>= f) := by
  refine ⟨fun w w' failure hsane h => ?_⟩
  have hfirst := hx.fences w hsane
  rcases Effect.bind_eq_error.mp h with hx' | ⟨a, v, hx', hrest⟩
  · rwa [hx'] at hfirst
  · rw [hx'] at hfirst
    exact ReflTransGen.trans hfirst ((hf a).fences v w' failure (Fences.sane hfirst hsane) hrest)

instance (f : α → β) {x : Op α} [hx : Refusing x] : Refusing (f <$> x) := by
  refine ⟨fun w w' failure hsane h => ?_⟩
  rcases Effect.bind_eq_error.mp
    (h : (x >>= fun a => pure (f a)) w = (.error failure, w')) with hx' | ⟨_, _, _, hpure⟩
  · exact hx.fences w w' failure hsane hx'
  · cases (Prod.mk.inj hpure).1

end Instances

end Op

section Calls

variable {service : ControlPlane} {principal : Principal}

instance (operation : Json) (action : String) (payload : Json) (effect : Op Json) (role : Role) :
    Op.Refusing (service.operate principal operation action payload effect role) := by
  unfold ControlPlane.operate; infer_instance

instance (action : Operation) : Op.Refusing (action.perform service principal) := by
  cases action <;> simp only [Operation.perform]
  · unfold ControlPlane.create_mission ControlPlane.create_mission_as; infer_instance
  · unfold ControlPlane.create_cpu_mission ControlPlane.create_mission_as; infer_instance
  · unfold ExecutionManager.approve; infer_instance
  · unfold ExecutionManager.cancel; infer_instance
  · unfold ExecutionManager.retry; infer_instance
  · unfold WorkspaceManager.upload; infer_instance
  · unfold ControlPlane.revoke_worker; infer_instance
  · unfold ExecutionManager.claim; infer_instance

instance (request : Request) : Op.Refusing (request.perform service) := by
  cases request <;> simp only [Request.perform]
  · infer_instance
  · unfold ExecutionManager.finish; infer_instance
  · unfold ExecutionManager.state; infer_instance
  · unfold ControlPlane.get_mission; infer_instance
  · unfold ControlPlane.list_missions; infer_instance
  · unfold ControlPlane.events; infer_instance
  · unfold ExecutionManager.nodes; infer_instance
  · unfold WorkspaceManager.list_files; infer_instance
  · unfold WorkspaceManager.download; infer_instance
  · unfold WorkerRegistry.enroll; infer_instance
  · unfold WorkerRegistry.rotate; infer_instance
  · unfold ExecutionManager.expire; infer_instance
  · unfold ExecutionManager.recover; infer_instance

end Calls

/-- A call that raises leaves nothing but the expiry that it committed before. -/
theorem ControlPlane.refused {service : ControlPlane} {installation : Installation} {call : Call}
    {failure : Failure} (hsane : Sane installation.db)
    (h : service.outcome installation call = .error failure) :
    Fences "attempt_expired" installation.db (service.step installation call).db := by
  have hrefusing : Op.Refusing (call.request.perform service) := inferInstance
  exact hrefusing.fences (installation.world call.supply) _ failure hsane (Prod.ext h rfl)

end control_plane
