import PepeuchCluster.Effects.Effect

/-- A program that may fail. It has ended, or waits for the answer to a call, which may
    be an error. -/
inductive Program (ε ι : Type) (κ : ι → Type) (α : Type) where
  | done (result : Except ε α)
  | call (op : ι) (next : Except ε (κ op) → Program ε ι κ α)

namespace Program

variable {ε ι α β : Type} {κ : ι → Type}

def bind : Program ε ι κ α → (α → Program ε ι κ β) → Program ε ι κ β
  | .done (.ok a), f => f a
  | .done (.error e), _ => .done (.error e)
  | .call op next, f => .call op fun answer => bind (next answer) f

instance : Monad (Program ε ι κ) where
  pure a := .done (.ok a)
  bind := bind

def raise (e : ε) : Program ε ι κ α := .done (.error e)

def ofExcept (result : Except ε α) : Program ε ι κ α := .done result

def require (condition : Prop) [Decidable condition] (e : ε) : Program ε ι κ Unit :=
  if condition then pure () else raise e

def request (op : ι) : Program ε ι κ (κ op) := .call op .done

/-- Several programs and one world. Each call is answered at once, but between two calls
    of a program the others may have changed the world, and it may move by itself. -/
structure World (ε ι : Type) (κ : ι → Type) (σ φ δ : Type) where
  answer : (op : ι) → φ → σ → Except ε (κ op) × σ
  drift : δ → σ → σ

/-- What is known of the world: a property that always holds, and how it grows. -/
structure Growth (σ : Type) where
  valid : σ → Prop
  grows : σ → σ → Prop
  refl : ∀ s, grows s s
  trans : ∀ s t u, grows s t → grows t u → grows s u

variable {σ φ δ : Type}

/-- No growth takes the assertion back. -/
def Growth.Stable (growth : Growth σ) (P : σ → Prop) : Prop :=
  ∀ s t, growth.grows s t → P s → P t

/-- Started where `P` holds, whatever the others do meanwhile: each call of the program is
    admitted and makes the world grow, and the program ends with `Q`. -/
def Safe (world : World ε ι κ σ φ δ) (growth : Growth σ) (admitted : ι → σ → Prop)
    (Q : Except ε α → σ → Prop) :
    Program ε ι κ α → (σ → Prop) → Prop
  | .done result, P => ∀ s, growth.valid s → P s → Q result s
  | .call op next, P => (∀ s, growth.valid s → P s → admitted op s) ∧
      ∃ R : Except ε (κ op) → σ → Prop, (∀ answer, growth.Stable (R answer)) ∧
        (∀ fate s, growth.valid s → P s →
          growth.valid (world.answer op fate s).2 ∧ growth.grows s (world.answer op fate s).2 ∧
            R (world.answer op fate s).1 (world.answer op fate s).2) ∧
        ∀ answer, Safe world growth admitted Q (next answer) (R answer)

namespace Safe

variable {world : World ε ι κ σ φ δ} {growth : Growth σ} {admitted : ι → σ → Prop} {P : σ → Prop}

theorem request {op : ι} {Q : Except ε (κ op) → σ → Prop}
    (hop : ∀ s, growth.valid s → P s → admitted op s) (hstable : ∀ answer, growth.Stable (Q answer))
    (hanswer : ∀ fate s, growth.valid s → P s →
      growth.valid (world.answer op fate s).2 ∧ growth.grows s (world.answer op fate s).2 ∧
        Q (world.answer op fate s).1 (world.answer op fate s).2) :
    Safe world growth admitted Q (request op) P :=
  ⟨hop, Q, hstable, hanswer, fun _ _ _ h => h⟩

theorem weaken {Q R : Except ε α → σ → Prop} {S : σ → Prop} {p : Program ε ι κ α}
    (h : Safe world growth admitted Q p S) (hP : ∀ s, growth.valid s → P s → S s)
    (hQ : ∀ result s, growth.valid s → Q result s → R result s) :
    Safe world growth admitted R p P := by
  induction p generalizing P S with
  | done result => exact fun s hs hp => hQ result s hs (h s hs (hP s hs hp))
  | call op next ih =>
    obtain ⟨hop, T, hstable, hanswer, hnext⟩ := h
    refine ⟨fun s hs hp => hop s hs (hP s hs hp), T, hstable,
      fun fate s hs hp => hanswer fate s hs (hP s hs hp), ?_⟩
    exact fun answer => ih answer (hnext answer) fun _ _ hT => hT

theorem bind {Q : Except ε β → σ → Prop} {R : Except ε α → σ → Prop} {p : Program ε ι κ α}
    {f : α → Program ε ι κ β} (hp : Safe world growth admitted R p P)
    (hok : ∀ a, Safe world growth admitted Q (f a) (R (.ok a)))
    (herror : ∀ e s, growth.valid s → R (.error e) s → Q (.error e) s) :
    Safe world growth admitted Q (p >>= f) P := by
  induction p generalizing P with
  | done result =>
    cases result with
    | ok a => exact weaken (hok a) hp fun _ _ _ h => h
    | error e => exact fun s hs h => herror e s hs (hp s hs h)
  | call op next ih =>
    obtain ⟨hop, T, hstable, hanswer, hnext⟩ := hp
    exact ⟨hop, T, hstable, hanswer, fun answer => ih answer (hnext answer)⟩

/-- Nothing is asked of a program that is never reached. -/
theorem unreached {Q : Except ε α → σ → Prop} {p : Program ε ι κ α} (h : ∀ s, ¬ P s) :
    Safe world growth admitted Q p P := by
  induction p generalizing P with
  | done result => exact fun s _ hs => absurd hs (h s)
  | call op next ih =>
    exact ⟨fun s _ hs => absurd hs (h s), fun _ _ => False, fun _ _ _ _ hfalse => hfalse,
      fun _ s _ hs => absurd hs (h s), fun answer => ih answer fun _ hfalse => hfalse⟩

/-- A fact that does not depend on the world. -/
theorem observed {Q : Except ε α → σ → Prop} {p : Program ε ι κ α} {fact : Prop}
    (h : fact → Safe world growth admitted Q p P) : Safe world growth admitted Q p fun s =>
      P s ∧ fact := by
  by_cases hfact : fact
  · exact weaken (h hfact) (fun _ _ hs => hs.1) fun _ _ _ hQ => hQ
  · exact unreached fun s hs => hfact hs.2

theorem require {Q : Except ε Unit → σ → Prop} {condition : Prop} [Decidable condition] {e : ε}
    (hok : ∀ s, growth.valid s → P s → condition → Q (.ok ()) s)
    (herror : ∀ s, growth.valid s → P s → ¬ condition → Q (.error e) s) :
    Safe world growth admitted Q (require condition e) P := by
  unfold Program.require
  by_cases h : condition
  · rw [if_pos h]
    exact fun s hs hp => hok s hs hp h
  · rw [if_neg h]
    exact fun s hs hp => herror s hs hp h

end Safe

/-- A program under way: what it was started for, and the world at its start. -/
structure Thread (ρ ε ι : Type) (κ : ι → Type) (α σ : Type) where
  run : ρ
  start : σ
  program : Program ε ι κ α

structure Crowd (ρ ε ι : Type) (κ : ι → Type) (α σ : Type) where
  world : σ
  threads : Nat → Option (Thread ρ ε ι κ α σ)

/-- A thread that gets no further event was killed; a new run may take its place. -/
inductive Event (ρ φ δ : Type) where
  | start (thread : Nat) (run : ρ)
  | call (thread : Nat) (fate : φ)
  | drift (move : δ)

namespace Crowd

variable {ρ : Type} (world : World ε ι κ σ φ δ) (code : ρ → Program ε ι κ α)

def perform (crowd : Crowd ρ ε ι κ α σ) : Event ρ φ δ → Crowd ρ ε ι κ α σ
  | .start thread run =>
    { crowd with
      threads := Function.update crowd.threads thread (some ⟨run, crowd.world, code run⟩) }
  | .call thread fate =>
    match crowd.threads thread with
    | some ⟨run, start, .call op next⟩ =>
      let (answer, after) := world.answer op fate crowd.world
      ⟨after, Function.update crowd.threads thread (some ⟨run, start, next answer⟩)⟩
    | _ => crowd
  | .drift move => { crowd with world := world.drift move crowd.world }

def history (crowd : Crowd ρ ε ι κ α σ) (events : List (Event ρ φ δ)) : Crowd ρ ε ι κ α σ :=
  events.foldl (Crowd.perform world code) crowd

variable {world code} {growth : Growth σ} {admitted : ρ → σ → ι → σ → Prop}
  {Q : ρ → σ → Except ε α → σ → Prop}
  {allowed : ρ → Prop}

/-- What a thread may still do. -/
def Kept (world : World ε ι κ σ φ δ) (growth : Growth σ) (admitted : ρ → σ → ι → σ → Prop)
    (Q : ρ → σ → Except ε α → σ → Prop) (allowed : ρ → Prop) (s : σ)
    (thread : Thread ρ ε ι κ α σ) : Prop :=
  allowed thread.run ∧ growth.valid thread.start ∧ growth.grows thread.start s ∧
    ∃ P : σ → Prop, growth.Stable P ∧ P s ∧
      Safe world growth (admitted thread.run thread.start)
        (Q thread.run thread.start) thread.program P

structure Sound (world : World ε ι κ σ φ δ) (growth : Growth σ) (admitted : ρ → σ → ι → σ → Prop)
    (Q : ρ → σ → Except ε α → σ → Prop) (allowed : ρ → Prop)
    (crowd : Crowd ρ ε ι κ α σ) : Prop where
  valid : growth.valid crowd.world
  threads : ∀ index thread, crowd.threads index = some thread →
    Kept world growth admitted Q allowed crowd.world thread

theorem Kept.grow {s t : σ} {thread : Thread ρ ε ι κ α σ}
    (h : Kept world growth admitted Q allowed s thread) (hgrows : growth.grows s t) :
    Kept world growth admitted Q allowed t thread := by
  obtain ⟨hallowed, hstart, hgrown, P, hstable, hP, hsafe⟩ := h
  exact ⟨hallowed, hstart, growth.trans _ _ _ hgrown hgrows, P, hstable,
    hstable s t hgrows hP, hsafe⟩

section Runs

variable (hcode : ∀ run start, allowed run → growth.valid start →
    Safe world growth (admitted run start) (Q run start) (code run) (growth.grows start))
  (hdrift : ∀ move s, growth.valid s → growth.valid (world.drift move s) ∧
    growth.grows s (world.drift move s))
include hcode hdrift

theorem Sound.perform {crowd : Crowd ρ ε ι κ α σ} (h : Sound world growth admitted Q allowed crowd)
    {event : Event ρ φ δ} (hevent : ∀ thread run, event = .start thread run → allowed run) :
    Sound world growth admitted Q allowed (crowd.perform world code event) ∧
      growth.grows crowd.world (crowd.perform world code event).world := by
  cases event with
  | start index run =>
    refine ⟨⟨h.valid, fun other thread hthread => ?_⟩, growth.refl _⟩
    by_cases hother : other = index
    · subst hother
      obtain rfl : ⟨run, crowd.world, code run⟩ = thread := by simpa [Crowd.perform] using hthread
      have hallowed := hevent other run rfl
      exact ⟨hallowed, h.valid, growth.refl _, growth.grows crowd.world,
        fun s t hst hs => growth.trans _ _ _ hs hst, growth.refl _,
          hcode run crowd.world hallowed h.valid⟩
    · exact h.threads other thread (by simpa [Crowd.perform, hother] using hthread)
  | call index fate =>
    cases hfound : crowd.threads index with
    | none =>
      exact ⟨by simpa [Crowd.perform, hfound] using h,
        by simpa [Crowd.perform, hfound] using growth.refl _⟩
    | some found =>
      obtain ⟨run, start, program⟩ := found
      cases program with
      | done result =>
        exact ⟨by simpa [Crowd.perform, hfound] using h,
          by simpa [Crowd.perform, hfound] using growth.refl _⟩
      | call op next =>
        obtain ⟨hallowed, hstart, hgrown, P, hstable, hP, hop, R, hR, hanswer, hnext⟩ :=
          h.threads index _ hfound
        obtain ⟨hvalid, hgrows, hafter⟩ := hanswer fate crowd.world h.valid hP
        have hperform : crowd.perform world code (.call index fate) =
          ⟨(world.answer op fate crowd.world).2,
            Function.update crowd.threads index
              (some ⟨run, start, next (world.answer op fate crowd.world).1⟩)⟩ := by
          simp [Crowd.perform, hfound]
        rw [hperform]
        refine ⟨⟨hvalid, fun other thread hthread => ?_⟩, hgrows⟩
        by_cases hother : other = index
        · subst hother
          obtain rfl : ⟨run, start, next (world.answer op fate crowd.world).1⟩ = thread := by
            simpa using hthread
          exact ⟨hallowed, hstart, growth.trans _ _ _ hgrown hgrows, R _, hR _, hafter, hnext _⟩
        · exact (h.threads other thread (by simpa [hother] using hthread)).grow hgrows
  | drift move =>
    obtain ⟨hvalid, hgrows⟩ := hdrift move crowd.world h.valid
    exact ⟨⟨hvalid, fun other thread hthread => (h.threads other thread hthread).grow hgrows⟩,
      hgrows⟩

theorem Sound.history {crowd : Crowd ρ ε ι κ α σ} (h : Sound world growth admitted Q allowed crowd)
    (events : List (Event ρ φ δ))
    (hevents : ∀ thread run, .start thread run ∈ events → allowed run) :
    Sound world growth admitted Q allowed (crowd.history world code events) ∧
      growth.grows crowd.world (crowd.history world code events).world := by
  induction events generalizing crowd with
  | nil => exact ⟨h, growth.refl _⟩
  | cons event events ih =>
    have hevent : ∀ thread run, event = .start thread run → allowed run := fun thread run hrun =>
      hevents thread run (hrun ▸ List.mem_cons_self)
    obtain ⟨hnext, hgrows⟩ := h.perform hcode hdrift hevent
    obtain ⟨hlast, hmore⟩ := ih hnext fun thread run hrun =>
      hevents thread run (List.mem_cons_of_mem _ hrun)
    exact ⟨hlast, growth.trans _ _ _ hgrows hmore⟩

end Runs

theorem Sound.returned {crowd : Crowd ρ ε ι κ α σ} (h : Sound world growth admitted Q allowed crowd)
    {index : Nat} {run : ρ} {start : σ} {result : Except ε α}
    (hthread : crowd.threads index = some ⟨run, start, .done result⟩) :
    Q run start result crowd.world := by
  obtain ⟨_, _, _, P, _, hP, hsafe⟩ := h.threads index _ hthread
  exact hsafe crowd.world h.valid hP

theorem Sound.asked {crowd : Crowd ρ ε ι κ α σ} (h : Sound world growth admitted Q allowed crowd)
    {index : Nat} {run : ρ} {start : σ} {op : ι} {next : Except ε (κ op) → Program ε ι κ α}
    (hthread : crowd.threads index = some ⟨run, start, .call op next⟩) :
    admitted run start op crowd.world := by
  obtain ⟨_, _, _, P, _, hP, hsafe⟩ := h.threads index _ hthread
  exact hsafe.1 crowd.world h.valid hP

end Crowd

end Program
