import Mathlib.Data.List.Induction

/-- What watches the events of a run: what is allowed in a state, and how an event changes
    the state. -/
structure Watch (ε μ : Type) where
  initial : μ
  allowed : μ → ε → Prop
  next : μ → ε → μ

namespace Watch

variable {ε μ : Type} (watch : Watch ε μ)

/-- The state after some events. -/
def after (events : List ε) : μ := events.foldl watch.next watch.initial

/-- Every event was allowed when it came. -/
def Accepts (events : List ε) : Prop :=
  ∀ before event later, events = before ++ event :: later → watch.allowed (watch.after before) event

@[simp] theorem after_snoc (events : List ε) (event : ε) :
    watch.after (events ++ [event]) = watch.next (watch.after events) event := by
  rw [after, List.foldl_append]
  rfl

theorem accepts_nil : watch.Accepts [] := by
  intro before event later h
  simp at h

/-- An event is accepted where it is allowed. -/
theorem accepts_snoc {events : List ε} {event : ε} :
    watch.Accepts (events ++ [event]) ↔
      watch.Accepts events ∧ watch.allowed (watch.after events) event := by
  constructor
  · intro h
    refine ⟨fun before other later heq => h before other (later ++ [event]) ?_,
      h events event [] rfl⟩
    rw [heq, List.append_assoc, List.cons_append]
  · rintro ⟨h, hallowed⟩ before other later heq
    induction later using List.reverseRecOn with
    | nil =>
      obtain ⟨rfl, hlast⟩ := List.append_inj' heq rfl
      rwa [← List.head_eq_of_cons_eq hlast]
    | append_singleton later last _ =>
      rw [← List.cons_append, ← List.append_assoc] at heq
      exact h before other later (List.append_inj' heq rfl).1

/-- Whatever every allowed event preserves holds after every accepted run. -/
theorem Accepts.invariant {watch : Watch ε μ} {P : μ → Prop} {events : List ε}
    (h : watch.Accepts events) (hinitial : P watch.initial)
    (hnext : ∀ m event, P m → watch.allowed m event → P (watch.next m event)) :
    P (watch.after events) := by
  induction events using List.reverseRecOn with
  | nil => exact hinitial
  | append_singleton events event ih =>
    obtain ⟨hevents, hallowed⟩ := watch.accepts_snoc.mp h
    rw [after_snoc]
    exact hnext _ _ (ih hevents) hallowed

/-- What was accepted before is accepted. -/
theorem Accepts.of_append {watch : Watch ε μ} {events later : List ε}
    (h : watch.Accepts (events ++ later)) :
    watch.Accepts events := by
  intro before event rest heq
  apply h before event (rest ++ later)
  rw [heq, List.append_assoc, List.cons_append]

/-- An event of an accepted run was allowed in a state that every allowed event preserves. -/
theorem Accepts.allowed_mem {watch : Watch ε μ} {P : μ → Prop} {events : List ε} {event : ε}
    (h : watch.Accepts events) (hinitial : P watch.initial)
    (hnext : ∀ m event, P m → watch.allowed m event → P (watch.next m event))
    (hevent : event ∈ events) : ∃ m, P m ∧ watch.allowed m event := by
  obtain ⟨before, later, rfl⟩ := List.append_of_mem hevent
  exact ⟨watch.after before, h.of_append.invariant hinitial hnext, h before event later rfl⟩

/-- A counter of some of the events. -/
theorem after_count (count : μ → Nat) (counted : ε → Bool) (hinitial : count watch.initial = 0)
    (hnext : ∀ m event, count (watch.next m event) = count m + if counted event then 1 else 0)
    (events : List ε) :
    count (watch.after events) = events.countP counted := by
  induction events using List.reverseRecOn with
  | nil => exact hinitial
  | append_singleton events event ih =>
    rw [after_snoc, hnext, ih, List.countP_append, List.countP_singleton]

end Watch
