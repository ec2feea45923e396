import Mathlib.Init
import Mathlib.Data.List.Forall2

namespace Except

variable {ε α β : Type}

theorem bind_eq_ok {x : Except ε α} {f : α → Except ε β} {b : β} :
    (x >>= f) = .ok b ↔ ∃ a, x = .ok a ∧ f a = .ok b := by
  cases x <;> simp [bind, Except.bind]

theorem pure_eq_ok {a b : α} : (pure a : Except ε α) = .ok b ↔ a = b := by
  simp [pure, Except.pure]

theorem ok_bind (a : α) (f : α → Except ε β) : (Except.ok a : Except ε α) >>= f = f a := rfl

/-- Raises the failure unless the condition holds. -/
def require (condition : Prop) [Decidable condition] (e : ε) : Except ε Unit :=
  if condition then .ok () else .error e

theorem require_eq_ok {condition : Prop} [Decidable condition] {e : ε} {u : Unit} :
    require condition e = .ok u ↔ condition := by
  unfold require
  split <;> simp_all

theorem require_holds {condition : Prop} [Decidable condition] {e : ε} (h : condition) :
    require condition e = .ok () :=
  require_eq_ok.mpr h

theorem mapError_eq_ok {ε' : Type} {f : ε → ε'} {x : Except ε α} {a : α} :
    x.mapError f = .ok a ↔ x = .ok a := by
  cases x <;> simp [Except.mapError]

theorem map_eq_ok {x : Except ε α} {f : α → β} {b : β} :
    f <$> x = .ok b ↔ ∃ a, x = .ok a ∧ f a = b := by
  cases x <;> simp [Functor.map, Except.map]

theorem forM_eq_ok {f : α → Except ε Unit} {xs : List α} {u : Unit} :
    xs.forM f = .ok u ↔ ∀ x ∈ xs, f x = .ok () := by
  induction xs with
  | nil => simp [pure, Except.pure]
  | cons x xs ih =>
    rw [List.forM_eq_forM] at ih ⊢
    rw [List.forM_cons, bind_eq_ok, List.forall_mem_cons]
    exact ⟨fun ⟨(), hx, hxs⟩ => ⟨hx, ih.mp hxs⟩, fun ⟨hx, hxs⟩ => ⟨(), hx, ih.mpr hxs⟩⟩

theorem mapM_eq_ok {f : α → Except ε β} {xs : List α} {ys : List β} :
    xs.mapM f = .ok ys ↔ List.Forall₂ (fun x y => f x = .ok y) xs ys := by
  induction xs generalizing ys with
  | nil => simp [pure, Except.pure, eq_comm]
  | cons x xs ih =>
    simp only [List.mapM_cons, bind_eq_ok, pure_eq_ok, List.forall₂_cons_left_iff]
    constructor
    · rintro ⟨y, hy, ys, hys, rfl⟩
      exact ⟨y, ys, hy, ih.mp hys, rfl⟩
    · rintro ⟨y, ys, hy, hys, rfl⟩
      exact ⟨y, hy, ys, ih.mpr hys, rfl⟩

theorem mapM_ok {f : α → Except ε β} {xs : List α} {ys : List β} (h : xs.mapM f = .ok ys) :
    ys.length = xs.length ∧ ∀ y ∈ ys, ∃ x ∈ xs, f x = .ok y := by
  induction xs generalizing ys with
  | nil =>
    obtain rfl := pure_eq_ok.mp h
    simp
  | cons x xs ih =>
    simp only [List.mapM_cons, bind_eq_ok, pure_eq_ok] at h
    obtain ⟨y, hy, rest, hrest, rfl⟩ := h
    obtain ⟨hlength, hmem⟩ := ih hrest
    refine ⟨congrArg Nat.succ hlength, fun other hother => ?_⟩
    rcases List.mem_cons.mp hother with rfl | hother
    · exact ⟨x, by simp, hy⟩
    · obtain ⟨x', hx', hother⟩ := hmem other hother
      exact ⟨x', List.mem_cons_of_mem _ hx', hother⟩

theorem mapM_total {f : α → Except ε β} {xs : List α} (h : ∀ x ∈ xs, ∃ y, f x = .ok y) :
    ∃ ys, xs.mapM f = .ok ys := by
  induction xs with
  | nil => exact ⟨[], rfl⟩
  | cons x xs ih =>
    obtain ⟨hx, hxs⟩ := List.forall_mem_cons.mp h
    obtain ⟨y, hy⟩ := hx
    obtain ⟨ys, hys⟩ := ih hxs
    exact ⟨y :: ys, mapM_eq_ok.mpr (.cons hy (mapM_eq_ok.mp hys))⟩

/-- Every failure of the computation has the property. -/
def Fails (P : ε → Prop) (x : Except ε α) : Prop := ∀ e, x = .error e → P e

namespace Fails

variable {P : ε → Prop}

theorem ok (a : α) : Fails P (.ok a : Except ε α) := nofun

theorem error {e : ε} (h : P e) : Fails P (.error e : Except ε α) :=
  fun _ heq => Except.error.inj heq ▸ h

theorem require {condition : Prop} [Decidable condition] {e : ε} (h : P e) :
    Fails P (require condition e) := by
  unfold Except.require
  split
  · exact .ok _
  · exact .error h

theorem mapError {ε' : Type} {f : ε' → ε} {x : Except ε' α} (h : ∀ e, P (f e)) :
    Fails P (x.mapError f) := by
  cases x with
  | ok a => exact .ok a
  | error e => exact .error (h e)

theorem weaken {Q : ε → Prop} {x : Except ε α} (h : Fails Q x)
    (himp : ∀ e, Q e → P e) : Fails P x :=
  fun e heq => himp e (h e heq)

theorem bind {x : Except ε α} {f : α → Except ε β} (hx : Fails P x)
    (hf : ∀ a, x = .ok a → Fails P (f a)) :
    Fails P (x >>= f) := by
  intro e h
  cases hcase : x with
  | error e' =>
    rw [hcase] at h
    cases h
    exact hx e hcase
  | ok a =>
    rw [hcase] at h
    exact hf a hcase e h

theorem mapM {f : α → Except ε β} {xs : List α} (h : ∀ x ∈ xs, Fails P (f x)) :
    Fails P (xs.mapM f) := by
  induction xs with
  | nil => exact ok []
  | cons x xs ih =>
    obtain ⟨hx, hxs⟩ := List.forall_mem_cons.mp h
    rw [List.mapM_cons]
    exact bind hx fun _ _ => bind (ih hxs) fun _ _ => ok _

theorem forM {f : α → Except ε Unit} {xs : List α} (h : ∀ x ∈ xs, Fails P (f x)) :
    Fails P (xs.forM f) := by
  induction xs with
  | nil => exact ok ()
  | cons x xs ih =>
    obtain ⟨hx, hxs⟩ := List.forall_mem_cons.mp h
    rw [List.forM_eq_forM] at ih ⊢
    rw [List.forM_cons]
    exact bind hx fun _ _ => ih hxs

end Fails

/-- The conditions one after the other, up to the first that does not hold. -/
def every : List (Except ε Bool) → Except ε Bool
  | [] => .ok true
  | condition :: rest => do
    if ← condition then every rest else return false

theorem every_cons_true {condition : Except ε Bool} {rest : List (Except ε Bool)}
    (h : condition = .ok true) :
    every (condition :: rest) = every rest := by
  rw [h]
  rfl

theorem every_cons_false {condition : Except ε Bool} {rest : List (Except ε Bool)}
    (h : condition = .ok false) :
    every (condition :: rest) = .ok false := by
  rw [h]
  rfl

theorem every_cons_error {condition : Except ε Bool} {rest : List (Except ε Bool)} {e : ε}
    (h : condition = .error e) :
    every (condition :: rest) = .error e := by
  rw [h]
  rfl

theorem every_eq_ok_true {conditions : List (Except ε Bool)} :
    every conditions = .ok true ↔ ∀ condition ∈ conditions, condition = .ok true := by
  induction conditions with
  | nil => simp [every]
  | cons condition rest ih =>
    rw [List.forall_mem_cons, ← ih]
    cases condition with
    | error e => exact iff_of_false nofun nofun
    | ok holds =>
      cases holds with
      | false => exact iff_of_false nofun nofun
      | true => exact ⟨fun h => ⟨rfl, h⟩, fun h => h.2⟩

theorem Fails.every {P : ε → Prop} {conditions : List (Except ε Bool)}
    (h : ∀ condition ∈ conditions, Fails P condition) :
    Fails P (every conditions) := by
  induction conditions with
  | nil => exact Fails.ok true
  | cons condition rest ih =>
    obtain ⟨hcondition, hrest⟩ := List.forall_mem_cons.mp h
    refine hcondition.bind fun holds _ => ?_
    cases holds with
    | false => exact Fails.ok false
    | true => exact ih hrest

end Except

/-- A computation over a state that may fail; the state at the failure is kept. -/
def Effect (ε σ α : Type) := σ → Except ε α × σ

namespace Effect

variable {ε σ α β : Type}

instance : Monad (Effect ε σ) where
  pure a := fun s => (.ok a, s)
  bind x f := fun s =>
    match x s with
    | (.ok a, s') => f a s'
    | (.error e, s') => (.error e, s')

def raise (e : ε) : Effect ε σ α := fun s => (.error e, s)

def ofExcept (result : Except ε α) : Effect ε σ α := fun s => (result, s)

def require (condition : Prop) [Decidable condition] (e : ε) : Effect ε σ Unit :=
  if condition then pure () else raise e

def demand (value : Option α) (e : ε) : Effect ε σ α :=
  match value with
  | some a => pure a
  | none => raise e

/-- `try … finally`: the clean-up runs on success and on failure, but not after
    a failure that ends the process. -/
def ensuring (fatal : ε → Bool) (body : Effect ε σ α) (cleanup : Effect ε σ Unit) : Effect ε σ α :=
  fun s =>
    match body s with
    | (.ok a, s') =>
      match cleanup s' with
      | (.ok _, t) => (.ok a, t)
      | (.error e, t) => (.error e, t)
    | (.error e, s') =>
      if fatal e then (.error e, s')
      else
        match cleanup s' with
        | (.ok _, t) => (.error e, t)
        | (.error e', t) => (.error e', t)

@[simp] theorem pure_apply (a : α) (s : σ) : (pure a : Effect ε σ α) s = (.ok a, s) := rfl

theorem bind_apply (x : Effect ε σ α) (f : α → Effect ε σ β) (s : σ) :
    (x >>= f) s = match x s with
      | (.ok a, s') => f a s'
      | (.error e, s') => (.error e, s') := rfl

theorem bind_eq_ok {x : Effect ε σ α} {f : α → Effect ε σ β} {s t : σ} {b : β} :
    (x >>= f) s = (.ok b, t) ↔ ∃ a s', x s = (.ok a, s') ∧ f a s' = (.ok b, t) := by
  rw [bind_apply]
  cases h : x s with
  | mk result s' =>
    cases result with
    | error e => simp
    | ok a =>
      constructor
      · exact fun hf => ⟨a, s', rfl, hf⟩
      · rintro ⟨_, _, ⟨⟩, hf⟩
        exact hf

theorem bind_eq_error {x : Effect ε σ α} {f : α → Effect ε σ β} {s t : σ} {e : ε} :
    (x >>= f) s = (.error e, t) ↔
      x s = (.error e, t) ∨ ∃ a s', x s = (.ok a, s') ∧ f a s' = (.error e, t) := by
  rw [bind_apply]
  cases h : x s with
  | mk result s' =>
    cases result with
    | error e' => simp
    | ok a =>
      constructor
      · exact fun hf => Or.inr ⟨a, s', rfl, hf⟩
      · rintro (hx | ⟨_, _, ⟨⟩, hf⟩)
        · simp at hx
        · exact hf

@[simp] theorem pure_eq_ok {a b : α} {s t : σ} : (pure a : Effect ε σ α) s = (.ok b, t) ↔
    a = b ∧ s = t := by
  simp

@[simp] theorem raise_eq_ok {e : ε} {a : α} {s t : σ} :
    (raise e : Effect ε σ α) s = (.ok a, t) ↔ False := by
  simp [raise]

@[simp] theorem ofExcept_eq_ok {result : Except ε α} {a : α} {s t : σ} :
    (ofExcept result : Effect ε σ α) s = (.ok a, t) ↔ result = .ok a ∧ s = t := by
  simp [ofExcept]

@[simp] theorem require_eq_ok {condition : Prop} [Decidable condition] {e : ε}
    {u : Unit} {s t : σ} :
    (require condition e : Effect ε σ Unit) s = (.ok u, t) ↔ condition ∧ s = t := by
  unfold require
  split <;> simp_all

@[simp] theorem demand_eq_ok {value : Option α} {e : ε} {a : α} {s t : σ} :
    (demand value e : Effect ε σ α) s = (.ok a, t) ↔ value = some a ∧ s = t := by
  cases value <;> simp [demand]

theorem ensuring_eq_ok {fatal : ε → Bool} {body : Effect ε σ α} {cleanup : Effect ε σ Unit}
    {s t : σ} {a : α} :
    ensuring fatal body cleanup s = (.ok a, t) ↔ ∃ s' u, body s = (.ok a, s') ∧
      cleanup s' = (.ok u, t) := by
  unfold ensuring
  cases hbody : body s with
  | mk result s' =>
    cases result with
    | error e =>
      dsimp only
      split
      · simp
      · split <;> simp
    | ok b =>
      dsimp only
      cases hclean : cleanup s' with
      | mk done t' =>
        cases done with
        | error e => simp [hclean]
        | ok u =>
          simp only [Prod.mk.injEq, Except.ok.injEq]
          constructor
          · rintro ⟨rfl, rfl⟩
            exact ⟨s', u, ⟨rfl, rfl⟩, hclean⟩
          · rintro ⟨v, u', ⟨rfl, rfl⟩, hv⟩
            rw [hclean] at hv
            exact ⟨rfl, (Prod.mk.injEq ..).mp hv |>.2⟩

/-- Every outcome of the action, a failure included, is related to its start. -/
def Keeps (R : σ → σ → Prop) (x : Effect ε σ α) : Prop := ∀ s, R s (x s).2

namespace Keeps

variable {R : σ → σ → Prop}

theorem pure (hrefl : ∀ s, R s s) (a : α) : Keeps R (pure a : Effect ε σ α) := fun s => hrefl s

theorem raise (hrefl : ∀ s, R s s) (e : ε) : Keeps R (raise e : Effect ε σ α) := fun s => hrefl s

theorem ofExcept (hrefl : ∀ s, R s s) (result : Except ε α) :
    Keeps R (ofExcept result : Effect ε σ α) := fun s => hrefl s

theorem require (hrefl : ∀ s, R s s) (condition : Prop) [Decidable condition] (e : ε) :
    Keeps R (require condition e : Effect ε σ Unit) := by
  unfold Effect.require
  split
  · exact pure hrefl ()
  · exact raise hrefl e

theorem demand (hrefl : ∀ s, R s s) (value : Option α) (e : ε) :
    Keeps R (demand value e : Effect ε σ α) := by
  cases value with
  | none => exact raise hrefl e
  | some a => exact pure hrefl a

theorem bind {x : Effect ε σ α} {f : α → Effect ε σ β} (hx : Keeps R x) (hf : ∀ a, Keeps R (f a))
    (htrans : ∀ s t u, R s t → R t u → R s u) : Keeps R (x >>= f) := by
  intro s
  rw [bind_apply]
  have h := hx s
  cases hcase : x s with
  | mk result s' =>
    rw [hcase] at h
    cases result with
    | ok a => exact htrans _ _ _ h (hf a s')
    | error e => exact h

theorem ensuring (fatal : ε → Bool) {body : Effect ε σ α} {cleanup : Effect ε σ Unit}
    (hbody : Keeps R body) (hcleanup : Keeps R cleanup) (htrans : ∀ s t u, R s t → R t u → R s u) :
    Keeps R (ensuring fatal body cleanup) := by
  intro s
  unfold Effect.ensuring
  have h := hbody s
  cases hcase : body s with
  | mk result s' =>
    rw [hcase] at h
    have hclean := htrans _ _ _ h (hcleanup s')
    cases result with
    | ok a =>
      dsimp only
      split <;> next heq => rw [heq] at hclean; exact hclean
    | error e =>
      dsimp only
      split
      · exact h
      · split <;> next heq => rw [heq] at hclean; exact hclean

end Keeps

end Effect
