import Mathlib.Data.List.Nodup

/-- Writes of single rows, each under a guard on the row that it finds. -/
structure Guarded (σ κ ρ α : Type) where
  read : σ → κ → Option ρ
  write : α → σ → Option σ
  key : α → κ
  /-- The row that a write leaves, none where the guard refuses. -/
  guard : α → Option ρ → Option ρ
  write_eq_none (action : α) (store : σ) : write action store = none ↔
    guard action (read store (key action)) = none
  read_written {action : α} {store next : σ} (h : write action store = some next) :
    read next (key action) = guard action (read store (key action))
  read_other {action : α} {store next : σ} (h : write action store = some next) {name : κ}
    (hname : name ≠ key action) :
    read next name = read store name
  /-- A write passes its own guard again, and changes nothing then. -/
  settles {action : α} {found : Option ρ} {row : ρ} (h : guard action found = some row) :
    guard action (some row) = some row

namespace Guarded

/-- What happens while a plan is applied statement by statement. -/
inductive Event (σ : Type) where
  | statement
  | stop
  | change (edit : σ → σ)

/-- An application of a plan: its store, the statements that it has made, and whether
    one was refused. -/
structure Pass (σ : Type) where
  store : σ
  position : Nat
  refused : Bool

variable {σ κ ρ α : Type} (G : Guarded σ κ ρ α) (actions : List α)

def next (pass : Pass σ) : Event σ → Pass σ
  | .statement =>
    match actions[pass.position]? with
    | none => pass
    | some action =>
      match G.write action pass.store with
      | none => { pass with position := 0, refused := true }
      | some store => { pass with store, position := pass.position + 1 }
  | .stop => { pass with position := 0 }
  | .change edit => { pass with store := edit pass.store }

def run (pass : Pass σ) (events : List (Event σ)) : Pass σ := events.foldl (G.next actions) pass

def Pass.fresh (store : σ) : Pass σ := ⟨store, 0, false⟩

/-- The events of an application from the start to the end. -/
def whole : List (Event σ) := .stop :: List.replicate actions.length .statement

/-- No other writer. -/
def Event.Quiet : Event σ → Prop
  | .change _ => False
  | _ => True

variable {G actions}

theorem run_append {pass : Pass σ} {earlier later : List (Event σ)} :
    G.run actions pass (earlier ++ later) = G.run actions (G.run actions pass earlier) later :=
  List.foldl_append

theorem next_ended {pass : Pass σ} (h : actions[pass.position]? = none) :
    G.next actions pass .statement = pass := by
  simp only [next, h]

theorem next_refused {pass : Pass σ} {action : α} (h : actions[pass.position]? = some action)
    (hwrite : G.write action pass.store = none) :
    G.next actions pass .statement = { pass with position := 0, refused := true } := by
  simp only [next, h, hwrite]

theorem next_written {pass : Pass σ} {action : α} {store : σ}
    (h : actions[pass.position]? = some action) (hwrite : G.write action pass.store = some store) :
    G.next actions pass .statement = { pass with store, position := pass.position + 1 } := by
  simp only [next, h, hwrite]

/-- What holds of a pass and is kept by every allowed event holds of every run. -/
theorem run_induction (holds : Pass σ → Prop) {allowed : Event σ → Prop} {pass : Pass σ}
    {events : List (Event σ)}
    (hstep : ∀ pass event, holds pass → allowed event → holds (G.next actions pass event))
    (hpass : holds pass) (hevents : ∀ event ∈ events, allowed event) :
    holds (G.run actions pass events) := by
  induction events generalizing pass with
  | nil => exact hpass
  | cons event rest ih =>
    obtain ⟨hevent, hrest⟩ := List.forall_mem_cons.mp hevents
    exact ih (hstep pass event hpass hevent) hrest

section Kept

variable {name : κ} {row : ρ}

/-- A row that the guards of its key refuse is never overwritten. -/
theorem next_kept
    (hrefused : ∀ action ∈ actions, G.key action = name → G.guard action (some row) = none)
    {pass : Pass σ} {event : Event σ} (hrow : G.read pass.store name = some row)
    (hevent : ∀ edit, event = .change edit →
      ∀ store, G.read (edit store) name = G.read store name) :
    G.read (G.next actions pass event).store name = some row := by
  cases event with
  | stop => exact hrow
  | change edit =>
    rw [next, hevent edit rfl]
    exact hrow
  | statement =>
    cases haction : actions[pass.position]? with
    | none => rwa [next_ended haction]
    | some action =>
      have hmem := List.mem_of_getElem? haction
      cases hwrite : G.write action pass.store with
      | none => rwa [next_refused haction hwrite]
      | some store =>
        rw [next_written haction hwrite]
        by_cases hname : G.key action = name
        · have hguard := hrefused action hmem hname
          rw [← hrow, ← hname, ← G.write_eq_none, hwrite] at hguard
          cases hguard
        · exact (G.read_other hwrite (Ne.symm hname)).trans hrow

theorem run_kept
    (hrefused : ∀ action ∈ actions, G.key action = name → G.guard action (some row) = none)
    {pass : Pass σ} {events : List (Event σ)} (hrow : G.read pass.store name = some row)
    (hevents : ∀ event ∈ events, ∀ edit, event = .change edit →
      ∀ store, G.read (edit store) name = G.read store name) :
    G.read (G.run actions pass events).store name = some row :=
  run_induction (fun pass => G.read pass.store name = some row)
    (fun _ _ hpass hevent => next_kept hrefused hpass hevent) hrow hevents

end Kept

section Settling

variable (G actions) in
/-- A pass that started from a store whose rows every guard admits: each targeted key
    holds its first row or what its write leaves, the latter up to the position. -/
structure Settling (start : σ) (pass : Pass σ) : Prop where
  admitted : pass.refused = false
  within : pass.position ≤ actions.length
  rows : ∀ action ∈ actions, G.read pass.store (G.key action) = G.read start (G.key action) ∨
    G.read pass.store (G.key action) = G.guard action (G.read start (G.key action))
  written : ∀ action ∈ actions.take pass.position,
    G.read pass.store (G.key action) = G.guard action (G.read start (G.key action))
  others : ∀ name ∉ actions.map G.key, G.read pass.store name = G.read start name

variable (G actions) in
/-- Every write has been made. -/
def Settled (start store : σ) : Prop :=
  ∀ action ∈ actions, G.read store (G.key action) = G.guard action (G.read start (G.key action))

variable {start : σ} {pass : Pass σ} {action : α}

/-- Either row of a settling key passes the guard of its action, with the same result. -/
theorem guard_settling (hadmitted : G.guard action (G.read start (G.key action)) ≠ none)
    (hrow : G.read pass.store (G.key action) = G.read start (G.key action) ∨
      G.read pass.store (G.key action) = G.guard action (G.read start (G.key action))) :
    G.guard action (G.read pass.store (G.key action)) =
      G.guard action (G.read start (G.key action)) := by
  rcases hrow with hrow | hrow
  · rw [hrow]
  · obtain ⟨row, hguard⟩ := Option.ne_none_iff_exists'.mp hadmitted
    rw [hrow, hguard, G.settles hguard]

variable (hkeys : (actions.map G.key).Nodup)
  (hadmitted : ∀ action ∈ actions, G.guard action (G.read start (G.key action)) ≠ none)
include hkeys hadmitted

/-- The write of a settling pass succeeds. -/
theorem Settling.write (hpass : G.Settling actions start pass) (haction : action ∈ actions) :
    ∃ store, G.write action pass.store = some store ∧
      ∀ other ∈ actions, G.read store (G.key other) = G.read pass.store (G.key other) ∧
      other ≠ action ∨
        other = action ∧
        G.read store (G.key other) = G.guard other (G.read start (G.key other)) := by
  have hguard := guard_settling (hadmitted action haction) (hpass.rows action haction)
  cases hwrite : G.write action pass.store with
  | none =>
    rw [G.write_eq_none, hguard] at hwrite
    exact absurd hwrite (hadmitted action haction)
  | some store =>
    refine ⟨store, rfl, fun other hother => ?_⟩
    by_cases hsame : G.key other = G.key action
    · obtain rfl := List.inj_on_of_nodup_map hkeys hother haction hsame
      exact .inr ⟨rfl, (G.read_written hwrite).trans hguard⟩
    · exact .inl ⟨G.read_other hwrite hsame, fun heq => hsame (heq ▸ rfl)⟩

theorem Settling.next (hpass : G.Settling actions start pass) {event : Event σ}
    (hquiet : event.Quiet) :
    G.Settling actions start (G.next actions pass event) := by
  cases event with
  | change edit => cases hquiet
  | stop =>
    refine ⟨hpass.admitted, Nat.zero_le _, hpass.rows, fun action haction => ?_, hpass.others⟩
    change action ∈ actions.take 0 at haction
    simp at haction
  | statement =>
    cases haction : actions[pass.position]? with
    | none => rwa [next_ended haction]
    | some action =>
      obtain ⟨hlt, hget⟩ := List.getElem?_eq_some_iff.mp haction
      have hmem := List.mem_of_getElem? haction
      obtain ⟨store, hwrite, hrows⟩ := hpass.write hkeys hadmitted hmem
      rw [next_written haction hwrite]
      refine ⟨hpass.admitted, hlt, fun other hother => ?_, fun other hother => ?_,
        fun name hname => ?_⟩
      · rcases hrows other hother with ⟨hsame, _⟩ | ⟨_, hwritten⟩
        · rw [hsame]
          exact hpass.rows other hother
        · exact .inr hwritten
      · change other ∈ actions.take (pass.position + 1) at hother
        rcases hrows other (List.mem_of_mem_take hother) with ⟨hsame, hne⟩ | ⟨_, hwritten⟩
        · rw [List.take_succ_eq_append_getElem hlt, List.mem_append, hget,
            List.mem_singleton] at hother
          rw [hsame]
          exact hpass.written other (hother.resolve_right hne)
        · exact hwritten
      · have hne : name ≠ G.key action := fun heq => hname (heq ▸ List.mem_map_of_mem hmem)
        exact (G.read_other hwrite hne).trans (hpass.others name hname)

theorem Settling.run (hpass : G.Settling actions start pass) {events : List (Event σ)}
    (hquiet : ∀ event ∈ events, event.Quiet) :
    G.Settling actions start (G.run actions pass events) :=
  run_induction _ (fun _ _ hpass hevent => hpass.next hkeys hadmitted hevent) hpass hquiet

/-- A statement of a settled pass leaves it settled. -/
theorem Settling.next_settled (hpass : G.Settling actions start pass)
    (hsettled : G.Settled actions start pass.store) {event : Event σ} (hquiet : event.Quiet) :
    G.Settled actions start (G.next actions pass event).store := by
  cases event with
  | change edit => cases hquiet
  | stop => exact hsettled
  | statement =>
    cases haction : actions[pass.position]? with
    | none => rwa [next_ended haction]
    | some action =>
      obtain ⟨store, hwrite, hrows⟩ := hpass.write hkeys hadmitted (List.mem_of_getElem? haction)
      rw [next_written haction hwrite]
      intro other hother
      rcases hrows other hother with ⟨hsame, _⟩ | ⟨_, hwritten⟩
      · exact hsame.trans (hsettled other hother)
      · exact hwritten

theorem Settling.run_settled (hpass : G.Settling actions start pass)
    (hsettled : G.Settled actions start pass.store) {events : List (Event σ)}
    (hquiet : ∀ event ∈ events, event.Quiet) :
    G.Settled actions start (G.run actions pass events).store := by
  have hboth :=
    run_induction (fun pass => G.Settling actions start pass ∧ G.Settled actions start pass.store)
      (fun pass event hpass hevent =>
        ⟨hpass.1.next hkeys hadmitted hevent, hpass.1.next_settled hkeys hadmitted hpass.2 hevent⟩)
      ⟨hpass, hsettled⟩ hquiet
  exact hboth.2

omit hkeys hadmitted in
theorem Settling.settled (hpass : G.Settling actions start pass)
    (hend : pass.position = actions.length) :
    G.Settled actions start pass.store := by
  intro action haction
  apply hpass.written
  rwa [hend, List.take_length]

/-- Statements take a settling pass to its end. -/
theorem Settling.statements (hpass : G.Settling actions start pass) {count : Nat}
    (hcount : pass.position + count = actions.length) :
    (G.run actions pass (List.replicate count .statement)).position = actions.length := by
  induction count generalizing pass with
  | zero => exact hcount
  | succ count ih =>
    have hlt : pass.position < actions.length := by omega
    obtain ⟨store, hwrite, _⟩ := hpass.write hkeys hadmitted (List.getElem_mem hlt)
    have hnext := next_written (List.getElem?_eq_getElem hlt) hwrite
    rw [List.replicate_succ]
    refine ih (hpass.next hkeys hadmitted trivial) ?_
    rw [hnext]
    dsimp only
    omega

/-- The rest of the writes, one after another, are those of the statements to the end. -/
theorem Settling.applied (hpass : G.Settling actions start pass) {rest : List α}
    (hrest : actions.drop pass.position = rest) :
    rest.foldlM (fun store action => G.write action store) pass.store =
      some (G.run actions pass (List.replicate rest.length .statement)).store := by
  induction rest generalizing pass with
  | nil => rfl
  | cons action rest ih =>
    have haction : actions[pass.position]? = some action := by
      rw [← List.head?_drop, hrest, List.head?_cons]
    obtain ⟨store, hwrite, _⟩ := hpass.write hkeys hadmitted (List.mem_of_getElem? haction)
    have hsettling : G.Settling actions start (G.next actions pass .statement) :=
      hpass.next hkeys hadmitted trivial
    have hnext := next_written haction hwrite
    have htail : actions.drop (G.next actions pass .statement).position = rest := by
      rw [hnext, ← List.tail_drop, hrest, List.tail_cons]
    rw [List.foldlM_cons, hwrite]
    refine Eq.trans ?_ (ih hsettling htail)
    rw [hnext]
    rfl

theorem Settling.whole (hpass : G.Settling actions start pass) :
    (G.run actions pass (Guarded.whole actions)).position = actions.length := by
  have hstop : G.Settling actions start (G.next actions pass .stop) :=
    hpass.next hkeys hadmitted trivial
  exact hstop.statements hkeys hadmitted (Nat.zero_add _)

omit hkeys hadmitted in
theorem Settling.fresh : G.Settling actions start (.fresh start) := by
  refine ⟨rfl, Nat.zero_le _, fun _ _ => .inl rfl, fun action haction => ?_, fun _ _ => rfl⟩
  change action ∈ actions.take 0 at haction
  simp at haction

end Settling

end Guarded
