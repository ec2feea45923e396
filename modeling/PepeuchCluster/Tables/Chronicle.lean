import Mathlib.Data.List.Chain

/-- The states that a value has had, oldest first, from its start to the state that it is in. -/
inductive Chronicle {σ : Type} (edge : σ → σ → Prop) (start : σ) : σ → List σ → Prop where
  | start : Chronicle edge start start [start]
  | step {state next : σ} {states : List σ} (h : Chronicle edge start state states)
      (hedge : edge state next) :
      Chronicle edge start next (states ++ [next])

namespace Chronicle

variable {σ : Type} {edge : σ → σ → Prop} {start state : σ} {states : List σ}

theorem head? (h : Chronicle edge start state states) : states.head? = some start := by
  induction h with
  | start => rfl
  | step _ _ ih => rw [List.head?_append, ih, Option.some_or]

theorem getLast? (h : Chronicle edge start state states) : states.getLast? = some state := by
  cases h with
  | start => rfl
  | step _ _ => exact List.getLast?_concat

/-- Consecutive states are joined by an edge. -/
theorem isChain (h : Chronicle edge start state states) : states.IsChain edge := by
  induction h with
  | start => exact List.isChain_singleton _
  | step h hedge ih =>
    refine List.isChain_append.mpr ⟨ih, List.isChain_singleton _, fun last hlast first hfirst => ?_⟩
    rw [h.getLast?] at hlast
    obtain rfl := Option.some.inj hlast
    obtain rfl := Option.some.inj hfirst
    exact hedge

end Chronicle
