import PepeuchCluster.ControlPlane.Requests

open Relation

namespace control_plane

theorem install_keyed (settings : Settings) (boot : Boot) : Keyed (install settings boot) := by
  constructor <;> simp [install]

theorem install_linked (settings : Settings) (boot : Boot) : Linked (install settings boot) := by
  constructor <;> simp [install]

theorem install_coherent (settings : Settings) (boot : Boot) :
    Coherent (install settings boot) := by
  refine ⟨?_, ?_, ?_, ?_, fun worker hworker => ?_⟩
  · simp [install]
  · simp [install]
  · simp [install]
  · simp [install]
  · exact ⟨.demo, by rw [List.mem_singleton.mp hworker]⟩

theorem install_sane (settings : Settings) (boot : Boot) : Sane (install settings boot) :=
  ⟨install_keyed settings boot, install_linked settings boot, install_coherent settings boot⟩

/-- What some calls have done to an installation: its index has moved along the states
    that they committed, and every object is still held. -/
structure Progress (settings : Settings) (before after : Installation) : Prop where
  held : Held.le before.files.held after.files.held
  trail : ∃ commits, after.commits = before.commits ++ commits ∧
    Trail settings after.files.held before.db commits after.db

namespace Progress

variable {settings : Settings} {first second third : Installation}

theorem refl (settings : Settings) (installation : Installation) :
    Progress settings installation installation :=
  ⟨Held.le_refl _, [], (List.append_nil _).symm, .nil _⟩

theorem trans (h : Progress settings first second) (h' : Progress settings second third) :
    Progress settings first third := by
  obtain ⟨commits, hcommits, htrail⟩ := h.trail
  obtain ⟨commits', hcommits', htrail'⟩ := h'.trail
  refine ⟨Held.le_trans h.held h'.held, commits ++ commits', ?_,
    (htrail.mono h'.held).append htrail'⟩
  rw [hcommits', hcommits, List.append_assoc]

theorem sane (h : Progress settings first second) (hsane : Sane first.db) : Sane second.db := by
  obtain ⟨_, _, htrail⟩ := h.trail
  exact htrail.changes.sane hsane

end Progress

namespace ControlPlane

variable {service : ControlPlane} {installation : Installation}

theorem step_progress (hsane : Sane installation.db) (call : Call) :
    Progress service.settings installation (service.step installation call) := by
  have houter : Op.Outer service.settings (call.request.perform service) := inferInstance
  have hadvances := houter.advances (installation.world call.supply)
  exact ⟨hadvances.held, hadvances.trail hsane⟩

theorem run_progress (hsane : Sane installation.db) (calls : List Call) :
    Progress service.settings installation (service.run installation calls) := by
  induction calls generalizing installation with
  | nil => exact Progress.refl service.settings installation
  | cons call calls ih =>
    have hstep : Progress service.settings installation (service.step installation call) :=
      step_progress hsane call
    exact hstep.trans (ih (hstep.sane hsane))

variable (service : ControlPlane) (boot : Boot) (calls : List Call)

theorem after_progress :
    Progress service.settings (.fresh service.settings boot) (service.after boot calls) :=
  run_progress (install_sane service.settings boot) calls

theorem after_sane : Sane (service.after boot calls).db :=
  (after_progress service boot calls).sane (install_sane service.settings boot)

/-- A property of the new index that every change preserves holds of every committed
    state of every run, and of the state that the run ends in. -/
theorem after_invariant {P : Db → Prop} (hinstall : P (install service.settings boot))
    (hstep :
    ∀ {db db'}, Change service.settings (service.after boot calls).files.held db db' → Sane db →
      P db → P db') :
    P (service.after boot calls).db ∧ ∀ db ∈ (service.after boot calls).commits, P db := by
  obtain ⟨commits, hcommits, htrail⟩ := (after_progress service boot calls).trail
  obtain ⟨hlast, hall⟩ := htrail.invariant hstep (install_sane service.settings boot) hinstall
  refine ⟨hlast, ?_⟩
  rw [hcommits]
  exact List.forall_mem_append.mpr ⟨List.forall_mem_singleton.mpr hinstall, hall⟩

/-- A preorder that every change respects orders the committed states of every run. -/
theorem after_pairwise {R : Db → Db → Prop} (hrefl : ∀ db, R db db)
    (htrans : ∀ {db db' db''}, R db db' → R db' db'' → R db db'')
    (hstep : ∀ {held db db'}, Change service.settings held db db' → R db db') :
    (service.after boot calls).commits.Pairwise R := by
  obtain ⟨commits, hcommits, htrail⟩ := (after_progress service boot calls).trail
  rw [hcommits]
  exact htrail.pairwise hrefl htrans hstep

theorem committed_sane : ∀ db ∈ (service.after boot calls).commits, Sane db :=
  (after_invariant service boot calls (install_sane service.settings boot) fun h hsane _ =>
    h.sane hsane).2

end ControlPlane

end control_plane
