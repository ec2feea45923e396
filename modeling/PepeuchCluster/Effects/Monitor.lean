import PepeuchCluster.Effects.Program

namespace Program

/-- A call and its answer. -/
structure Step (ε ι : Type) (κ : ι → Type) where
  op : ι
  answer : Except ε (κ op)

variable {ε ι α β μ : Type} {κ : ι → Type}

/-- What a program may have come to after these calls, whatever their answers. -/
inductive Reaches : Program ε ι κ α → List (Step ε ι κ) → Program ε ι κ α → Prop where
  | refl (program : Program ε ι κ α) : Reaches program [] program
  | call {op : ι} {next : Except ε (κ op) → Program ε ι κ α} {answer : Except ε (κ op)}
      {steps : List (Step ε ι κ)} {rest : Program ε ι κ α} (h : Reaches (next answer) steps rest) :
        Reaches (.call op next) (⟨op, answer⟩ :: steps) rest

namespace Reaches

variable {p rest : Program ε ι κ α} {steps : List (Step ε ι κ)}

theorem request_bind {op : ι} {a : κ op} {f : κ op → Program ε ι κ α}
    (h : Reaches (f a) steps rest) :
    Reaches (request op >>= f) (⟨op, .ok a⟩ :: steps) rest :=
  .call h

theorem ofExcept_bind {result : Except ε β} {b : β} {f : β → Program ε ι κ α}
    (hresult : result = .ok b) (h : Reaches (f b) steps rest) :
    Reaches (ofExcept result >>= f) steps rest := by
  subst hresult
  exact h

/-- A program, then another. -/
theorem bind {q : Program ε ι κ β} {f : β → Program ε ι κ α} {before : List (Step ε ι κ)} {b : β}
    (hq : Reaches q before (.done (.ok b))) (h : Reaches (f b) steps rest) :
    Reaches (q >>= f) (before ++ steps) rest := by
  generalize hdone : Program.done (.ok b) = ending at hq
  induction hq with
  | refl program =>
    subst hdone
    exact h
  | call _ ih => exact .call (ih hdone)

end Reaches

/-- What watches the calls of a program: what is to be allowed in a state, and how a call
    changes the state. -/
structure Monitor (ε ι : Type) (κ : ι → Type) (μ : Type) where
  allowed : μ → ι → Prop
  next : μ → Step ε ι κ → μ

/-- Every call is allowed, and the program ends with `Q`. -/
def Obeys (monitor : Monitor ε ι κ μ) (Q : Except ε α → μ → Prop) : Program ε ι κ α → μ → Prop
  | .done result, m => Q result m
  | .call op next, m =>
    monitor.allowed m op ∧ ∀ answer, Obeys monitor Q (next answer) (monitor.next m ⟨op, answer⟩)

namespace Obeys

variable {monitor : Monitor ε ι κ μ} {m : μ}

theorem weaken {Q R : Except ε α → μ → Prop} {p : Program ε ι κ α} (h : Obeys monitor Q p m)
    (hQ : ∀ result m, Q result m → R result m) : Obeys monitor R p m := by
  induction p generalizing m with
  | done result => exact hQ result m h
  | call op next ih => exact ⟨h.1, fun answer => ih answer (h.2 answer)⟩

theorem bind {R : Except ε α → μ → Prop} {Q : Except ε β → μ → Prop} {p : Program ε ι κ α}
    {f : α → Program ε ι κ β} (hp : Obeys monitor R p m)
    (hok : ∀ a m, R (.ok a) m → Obeys monitor Q (f a) m)
    (herror : ∀ e m, R (.error e) m → Q (.error e) m) : Obeys monitor Q (p >>= f) m := by
  induction p generalizing m with
  | done result =>
    cases result with
    | ok a => exact hok a m hp
    | error e => exact herror e m hp
  | call op next ih => exact ⟨hp.1, fun answer => ih answer (hp.2 answer)⟩

/-- A call, then the rest of the program. -/
theorem request_bind {Q : Except ε β → μ → Prop} {op : ι} {f : κ op → Program ε ι κ β}
    (hop : monitor.allowed m op) (hok : ∀ a, Obeys monitor Q (f a) (monitor.next m ⟨op, .ok a⟩))
    (herror : ∀ e, Q (.error e) (monitor.next m ⟨op, .error e⟩)) :
    Obeys monitor Q (request op >>= f) m := by
  refine ⟨hop, fun answer => ?_⟩
  cases answer with
  | ok a => exact hok a
  | error e => exact herror e

theorem ofExcept_bind {Q : Except ε β → μ → Prop} {result : Except ε α} {f : α → Program ε ι κ β}
    (hok : ∀ a, result = .ok a → Obeys monitor Q (f a) m)
    (herror : ∀ e, result = .error e → Q (.error e) m) :
    Obeys monitor Q (ofExcept result >>= f) m := by
  cases result with
  | ok a => exact hok a rfl
  | error e => exact herror e rfl

theorem require_bind {Q : Except ε β → μ → Prop} {condition : Prop} [Decidable condition] {e : ε}
    {f : Unit → Program ε ι κ β} (hok : condition → Obeys monitor Q (f ()) m)
    (herror : ¬ condition → Q (.error e) m) :
    Obeys monitor Q (require condition e >>= f) m := by
  unfold require
  by_cases h : condition
  · rw [if_pos h]
    exact hok h
  · rw [if_neg h]
    exact herror h

/-- What has been called was allowed, and the program still obeys. -/
theorem reaches {Q : Except ε α → μ → Prop} {p rest : Program ε ι κ α} {steps : List (Step ε ι κ)}
    (h : Obeys monitor Q p m) (hsteps : Reaches p steps rest) :
    Obeys monitor Q rest (steps.foldl monitor.next m) ∧
      ∀ before step after, steps = before ++ step :: after →
      monitor.allowed (before.foldl monitor.next m) step.op := by
  induction hsteps generalizing m with
  | refl program => exact ⟨h, fun before step after heq => by simp at heq⟩
  | call _ ih =>
    obtain ⟨hrest, hallowed⟩ := ih (h.2 _)
    refine ⟨hrest, fun before step after heq => ?_⟩
    cases before with
    | nil =>
      obtain ⟨rfl, _⟩ := List.cons.inj heq
      exact h.1
    | cons first before =>
      obtain ⟨rfl, htail⟩ := List.cons.inj heq
      exact hallowed before step after htail

end Obeys

end Program
