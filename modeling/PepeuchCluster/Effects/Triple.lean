import PepeuchCluster.Effects.Effect

namespace Effect

variable {ε σ α β : Type}

/-- From a state with `P`, the action ends in a value and a state with `Q`, or fails
    with an error and a state with `E`. -/
def Triple (P : σ → Prop) (x : Effect ε σ α) (Q : α → σ → Prop) (E : ε → σ → Prop) : Prop :=
  ∀ s, P s → (∀ a t, x s = (.ok a, t) → Q a t) ∧ ∀ e t, x s = (.error e, t) → E e t

namespace Triple

variable {P : σ → Prop} {E : ε → σ → Prop}

theorem pure {Q : α → σ → Prop} {a : α} (h : ∀ s, P s → Q a s) :
    Triple P (pure a : Effect ε σ α) Q E := by
  intro s hs
  constructor
  · intro b t hb
    obtain ⟨rfl, rfl⟩ := pure_eq_ok.mp hb
    exact h s hs
  · intro e t he
    cases he

theorem raise {Q : α → σ → Prop} {e : ε} (h : ∀ s, P s → E e s) :
    Triple P (raise e : Effect ε σ α) Q E := by
  intro s hs
  constructor
  · intro b t hb
    cases hb
  · intro e' t he
    cases he
    exact h s hs

theorem ofExcept {Q : α → σ → Prop} {result : Except ε α}
    (hok : ∀ s a, P s → result = .ok a → Q a s) (herror : ∀ s e, P s → result = .error e → E e s) :
    Triple P (ofExcept result) Q E := by
  intro s hs
  constructor
  · intro a t ha
    obtain ⟨hresult, rfl⟩ := ofExcept_eq_ok.mp ha
    exact hok s a hs hresult
  · intro e t he
    cases hresult : result with
    | ok a => simp [Effect.ofExcept, hresult] at he
    | error e' =>
      rw [hresult] at he
      cases he
      exact herror s e hs hresult

theorem require {Q : Unit → σ → Prop} {condition : Prop} [Decidable condition] {e : ε}
    (hok : ∀ s, P s → condition → Q () s) (herror : ∀ s, P s → ¬ condition → E e s) :
    Triple P (require condition e) Q E := by
  unfold Effect.require
  by_cases h : condition
  · rw [if_pos h]
    exact Triple.pure fun s hs => hok s hs h
  · rw [if_neg h]
    exact Triple.raise fun s hs => herror s hs h

theorem demand {Q : α → σ → Prop} {value : Option α} {e : ε}
    (hok : ∀ s a, P s → value = some a → Q a s) (herror : ∀ s, P s → value = none → E e s) :
    Triple P (demand value e) Q E := by
  cases h : value with
  | none => exact Triple.raise fun s hs => herror s hs h
  | some a => exact Triple.pure fun s hs => hok s a hs h

theorem bind {Q : β → σ → Prop} {R : α → σ → Prop} {x : Effect ε σ α} {f : α → Effect ε σ β}
    (hx : Triple P x R E) (hf : ∀ a, Triple (R a) (f a) Q E) : Triple P (x >>= f) Q E := by
  intro s hs
  obtain ⟨hvalue, hfail⟩ := hx s hs
  constructor
  · intro b t hb
    obtain ⟨a, s', ha, hb⟩ := bind_eq_ok.mp hb
    exact (hf a s' (hvalue a s' ha)).1 b t hb
  · intro e t he
    rcases bind_eq_error.mp he with he | ⟨a, s', ha, he⟩
    · exact hfail e t he
    · exact (hf a s' (hvalue a s' ha)).2 e t he

theorem weaken {Q Q' : α → σ → Prop} {P' : σ → Prop} {E' : ε → σ → Prop} {x : Effect ε σ α}
    (h : Triple P' x Q' E') (hP : ∀ s, P s → P' s) (hQ : ∀ a s, Q' a s → Q a s)
    (hE : ∀ e s, E' e s → E e s) : Triple P x Q E := by
  intro s hs
  obtain ⟨hvalue, hfail⟩ := h s (hP s hs)
  exact ⟨fun a t ha => hQ a t (hvalue a t ha), fun e t he => hE e t (hfail e t he)⟩

theorem returns {Q : α → σ → Prop} {x : Effect ε σ α} {s t : σ} {a : α}
    (h : x s = (.ok a, t)) (hQ : Q a t) :
    (∀ a t, x s = (.ok a, t) → Q a t) ∧ ∀ e t, x s = (.error e, t) → E e t := by
  rw [h]
  constructor
  · rintro _ _ ⟨⟩
    exact hQ
  · rintro _ _ ⟨⟩

theorem fails {Q : α → σ → Prop} {x : Effect ε σ α} {s t : σ} {e : ε}
    (h : x s = (.error e, t)) (hE : E e t) :
    (∀ a t, x s = (.ok a, t) → Q a t) ∧ ∀ e t, x s = (.error e, t) → E e t := by
  rw [h]
  constructor
  · rintro _ _ ⟨⟩
  · rintro _ _ ⟨⟩
    exact hE

/-- The clean-up starts where the body ends, unless that failure ends the process. -/
theorem ensuring {Q : α → σ → Prop} {fatal : ε → Bool} {body : Effect ε σ α}
    {cleanup : Effect ε σ Unit} {R : α → σ → Prop} {F : ε → σ → Prop} (hbody : Triple P body R F)
    (hok : ∀ a, Triple (R a) cleanup (fun _ s => Q a s) E)
    (hfailed : ∀ e, fatal e = false → Triple (F e) cleanup (fun _ s => E e s) E)
    (hdead : ∀ e s, fatal e = true → F e s → E e s) :
    Triple P (ensuring fatal body cleanup) Q E := by
  intro s hs
  obtain ⟨hvalue, hfail⟩ := hbody s hs
  cases hcase : body s with
  | mk result s' =>
    cases result with
    | ok a =>
      obtain ⟨hdone, hbroken⟩ := hok a s' (hvalue a s' hcase)
      cases hclean : cleanup s' with
      | mk finished t =>
        cases finished with
        | ok u => exact returns (by simp [Effect.ensuring, hcase, hclean]) (hdone u t hclean)
        | error e => exact fails (by simp [Effect.ensuring, hcase, hclean]) (hbroken e t hclean)
    | error e =>
      have hstart := hfail e s' hcase
      cases hfatal : fatal e with
      | true => exact fails (by simp [Effect.ensuring, hcase, hfatal]) (hdead e s' hfatal hstart)
      | false =>
        obtain ⟨hdone, hbroken⟩ := hfailed e hfatal s' hstart
        cases hclean : cleanup s' with
        | mk finished t =>
          cases finished with
          | ok u =>
            exact fails (by simp [Effect.ensuring, hcase, hfatal, hclean]) (hdone u t hclean)
          | error e' =>
            exact fails (by simp [Effect.ensuring, hcase, hfatal, hclean]) (hbroken e' t hclean)

/-- An action that reads the state first. -/
theorem read {Q : α → σ → Prop} {f : σ → Effect ε σ α}
    (h : ∀ s, P s → Triple (fun t => t = s) (f s) Q E) :
    Triple P (fun s => f s s) Q E := by
  intro s hs
  exact h s hs s rfl

end Triple

end Effect
