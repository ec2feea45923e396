import PepeuchCluster.Discovery.ImportReplay
import PepeuchCluster.Tables.Guarded

namespace discovery

/-- How an application of a plan ends. -/
inductive Ending where
  | applied
  | interrupted
  | refused
  deriving DecidableEq, Repr

/-- `state.update(staged)`. -/
def refreshed (state staged : List (String × Json)) : List (String × Json) :=
  staged.foldl (fun state pair => put state pair.1 pair.2) state

/-- The loop of `simulate_protocol`. Rows are objects, so that no row is null. -/
def simulate (atomic : Bool) (fail_after : Option Nat) :
    List Json → Nat → List (String × Json) → List (String × Json) → List (String × Json) × Ending
  | [], _, state, staged => (if atomic then refreshed state staged else state, .applied)
  | action :: rest, index, state, staged =>
    if fail_after = some index then (state, .interrupted)
    else match upsert staged action with
      | none => (state, .refused)
      | some staged => simulate atomic fail_after rest (index + 1)
          (if atomic then state else refreshed state staged) staged

/-- The state that the oracle leaves, and how it ends. -/
def simulate_protocol (state : List (String × Json)) (plan : Json) (atomic : Bool)
    (fail_after : Option Nat) :
    List (String × Json) × Ending :=
  simulate atomic fail_after (elements (plan.item "actions")) 0 state state

/-- The row that an action leaves, none where it is refused. -/
def guarded (action : Json) (found : Option Json) : Option Json :=
  if found.any fun row => row.equal (action.item "record") then found
  else if admits (action.item "expected") found then some (action.item "record")
  else none

section Statements

variable {store next : List (String × Json)} {action : Json}

theorem upsert_eq : upsert store action =
    if (store.lookup (key_of action)).any fun row =>
      row.equal (action.item "record") then some store
    else if admits (action.item "expected") (store.lookup (key_of action)) then
      some (put store (key_of action) (action.item "record"))
    else none :=
  rfl

theorem upsert_eq_none : upsert store action = none ↔
    guarded action (store.lookup (key_of action)) = none := by
  rw [upsert_eq, guarded]
  split
  · next hheld =>
    obtain ⟨row, hrow, _⟩ := (Option.any_eq_true _ _).mp hheld
    simp [hrow]
  · split
    · simp
    · simp

theorem upsert_written (h : upsert store action = some next) :
    next.lookup (key_of action) = guarded action (store.lookup (key_of action)) := by
  rw [upsert_eq] at h
  rw [guarded]
  split at h
  · next hheld =>
    obtain rfl := Option.some.inj h
    rw [if_pos hheld]
  · next hheld =>
    rw [if_neg hheld]
    split at h
    · next hadmits =>
      obtain rfl := Option.some.inj h
      rw [if_pos hadmits, lookup_put, if_pos rfl]
    · cases h

theorem guarded_settles {found : Option Json} {row : Json} (h : guarded action found = some row) :
    guarded action (some row) = some row := by
  have hequal : row.equal (action.item "record") = true := by
    unfold guarded at h
    split at h
    · next hheld =>
      rw [h] at hheld
      exact hheld
    · split at h
      · obtain rfl := Option.some.inj h
        exact Json.equal_refl _
      · cases h
  rw [guarded, if_pos (by simpa using hequal)]

/-- The store of a plan, row by row. -/
def rows : Guarded (List (String × Json)) String Json Json where
  read store key := store.lookup key
  write action store := upsert store action
  key := key_of
  guard := guarded
  write_eq_none _ _ := upsert_eq_none
  read_written := upsert_written
  read_other h _ hname := (upsert_lookup h).2 _ hname
  settles := guarded_settles

theorem guarded_admitted : guarded action (store.lookup (key_of action)) ≠ none ↔
    Admitted store action := by
  rw [← upsert_isSome, ← Option.ne_none_iff_exists']
  exact not_congr upsert_eq_none.symm

/-- A row that is neither what an action expects nor its record. -/
def Foreign (action row : Json) : Prop :=
  row.equal (action.item "record") = false ∧ admits (action.item "expected") (some row) = false

theorem Foreign.refused {row : Json} (h : Foreign action row) :
    guarded action (some row) = none := by
  rw [guarded, if_neg (by simp [h.1]), if_neg (by simp [h.2])]

end Statements

section Oracle

variable {state staged next : List (String × Json)} {actions : List Json}

theorem put_keys_nodup {pairs : List (String × Json)} {key : String} {entry : Json}
    (h : (pairs.map Prod.fst).Nodup) :
    ((put pairs key entry).map Prod.fst).Nodup := by
  unfold put
  split
  · next hmem =>
    have hsame : (pairs.map fun pair => if pair.1 = key then (key, entry) else pair).map Prod.fst =
        pairs.map Prod.fst := by
      rw [List.map_map]
      refine List.map_congr_left fun pair _ => ?_
      by_cases hpair : pair.1 = key <;> simp [hpair]
    rwa [hsame]
  · next hmem =>
    rw [List.map_append, List.map_singleton]
    exact List.Nodup.append h (List.nodup_singleton key) (by simpa using hmem)

theorem upsert_keys_nodup {action : Json} (h : (staged.map Prod.fst).Nodup)
    (hnext : upsert staged action = some next) :
    (next.map Prod.fst).Nodup := by
  rw [upsert_eq] at hnext
  split at hnext
  · obtain rfl := Option.some.inj hnext
    exact h
  · split at hnext
    · obtain rfl := Option.some.inj hnext
      exact put_keys_nodup h
    · cases hnext

theorem refreshed_lookup (h : (staged.map Prod.fst).Nodup) (key : String) :
    (refreshed state staged).lookup key = (staged.lookup key).or (state.lookup key) := by
  induction staged generalizing state with
  | nil => rfl
  | cons pair rest ih =>
    obtain ⟨hfresh, hrest⟩ := List.nodup_cons.mp h
    rw [refreshed, List.foldl_cons, ← refreshed, ih hrest, lookup_put, List.lookup_cons]
    by_cases hkey : key = pair.1
    · subst hkey
      rw [lookup_eq_none_of_fresh hfresh, if_pos rfl, beq_self_eq_true,
        Option.none_or, Option.some_or]
    · rw [if_neg hkey, beq_false_of_ne hkey]

/-- A statement on a copy, copied back, is a statement on the store itself. -/
theorem refreshed_upsert {action : Json} (hsame : ∀ key, state.lookup key = staged.lookup key)
    (h : (staged.map Prod.fst).Nodup) (hnext : upsert staged action = some next) (key : String) :
    (refreshed state next).lookup key = next.lookup key := by
  rw [refreshed_lookup (upsert_keys_nodup h hnext), hsame]
  obtain ⟨⟨row, hrow, _⟩, hothers⟩ := upsert_lookup hnext
  by_cases hkey : key = key_of action
  · rw [hkey, hrow, Option.some_or]
  · rw [hothers key hkey, Option.or_self]

/-- The oracle of single statements makes those of a pass until it ends. -/
theorem simulate_statements {rest : List Json} {index : Nat} {fail_after : Option Nat}
    (hrest : actions.drop index = rest) (hsame : ∀ key, state.lookup key = staged.lookup key)
    (h : (staged.map Prod.fst).Nodup) :
    ∃ count, (∀ key, (simulate false fail_after rest index state staged).1.lookup key =
        (rows.run actions ⟨staged, index, false⟩ (List.replicate count .statement)).store.lookup
          key) ∧
      ((simulate false fail_after rest index state staged).2 = .refused ↔
        (rows.run actions ⟨staged, index, false⟩ (List.replicate count .statement)).refused =
          true) ∧
      ((simulate false fail_after rest index state staged).2 = .applied → count = rest.length) ∧
      ((simulate false fail_after rest index state staged).2 = .interrupted →
        fail_after = some (index + count)) := by
  induction rest generalizing index state staged with
  | nil => exact ⟨0, hsame, by simp [simulate, Guarded.run], fun _ => rfl, by simp [simulate]⟩
  | cons action rest ih =>
    have haction : actions[index]? = some action := by
      rw [← List.head?_drop, hrest, List.head?_cons]
    by_cases hfail : fail_after = some index
    · refine ⟨0, ?_⟩
      simp only [simulate, if_pos hfail]
      exact ⟨hsame, by simp [Guarded.run], nofun, fun _ => hfail⟩
    · cases hnext : upsert staged action with
      | none =>
        refine ⟨1, ?_⟩
        have hrefused : rows.next actions ⟨staged, index, false⟩ .statement = ⟨staged, 0, true⟩ :=
          Guarded.next_refused haction hnext
        simp only [simulate, if_neg hfail, hnext, List.replicate_one, Guarded.run, List.foldl_cons,
          hrefused, List.foldl_nil]
        exact ⟨hsame, by simp, nofun, nofun⟩
      | some next =>
        have hwritten : rows.next actions ⟨staged, index, false⟩ .statement =
            ⟨next, index + 1, false⟩ :=
          Guarded.next_written haction hnext
        have htail : actions.drop (index + 1) = rest := by
          rw [← List.tail_drop, hrest, List.tail_cons]
        obtain ⟨count, hstore, hrefused, happlied, hinterrupted⟩ :=
          ih htail (refreshed_upsert hsame h hnext) (upsert_keys_nodup h hnext)
        refine ⟨count + 1, ?_⟩
        simp only [simulate, if_neg hfail, hnext, List.replicate_succ, Guarded.run,
          List.foldl_cons, hwritten]
        refine ⟨hstore, hrefused, fun hend => ?_, fun hend => ?_⟩
        · rw [happlied hend, List.length_cons]
        · rw [hinterrupted hend]
          congr 1
          omega

end Oracle

def actions_of (plan : Json) : List Json := elements (plan.item "actions")

/-- The keys that a plan writes. -/
def targets (plan : Json) : List String := (actions_of plan).map key_of

/-- The applications of a plan to a store, statement by statement, among other writers. The
    oracle is the case of statements alone (`simulate_protocol_replay`). -/
def replay (plan : Json) (pass : Guarded.Pass (List (String × Json)))
    (events : List (Guarded.Event (List (String × Json)))) : Guarded.Pass (List (String × Json)) :=
  rows.run (actions_of plan) pass events

/-- The oracle leaves the store of as many statements as it made. -/
theorem simulate_protocol_replay {store : List (String × Json)} {plan : Json}
    {fail_after : Option Nat} (h : (store.map Prod.fst).Nodup) :
    ∃ count, (∀ key, (simulate_protocol store plan false fail_after).1.lookup key =
        (replay plan (.fresh store) (List.replicate count .statement)).store.lookup key) ∧
      ((simulate_protocol store plan false fail_after).2 = .refused ↔
        (replay plan (.fresh store) (List.replicate count .statement)).refused = true) ∧
      ((simulate_protocol store plan false fail_after).2 = .applied →
        count = (actions_of plan).length) ∧
      ((simulate_protocol store plan false fail_after).2 = .interrupted →
        fail_after = some count) := by
  obtain ⟨count, hstore, hrefused, happlied, hinterrupted⟩ :=
    simulate_statements (show (actions_of plan).drop 0 = actions_of plan from rfl) (fun _ => rfl) h
  exact ⟨count, hstore, hrefused, happlied, fun hend => by simpa using hinterrupted hend⟩

/-- An event that leaves the row of a key to the plan. -/
def Leaves (key : String) (event : Guarded.Event (List (String × Json))) : Prop :=
  ∀ edit, event = .change edit → ∀ store, (edit store).lookup key = store.lookup key

/-- What replays of a plan do to a store of which every targeted row is expected or
    already written: whatever was stopped before, one more whole application reaches
    the store of a single one, and no other key changes. -/
structure Settles (plan : Json) (store final : List (String × Json)) : Prop where
  applied : apply_plan store plan = some final
  others : ∀ key ∉ targets plan, final.lookup key = store.lookup key
  admitted : ∀ events, (∀ event ∈ events, event.Quiet) →
    (replay plan (.fresh store) events).refused = false ∧
      ∀ key ∉ targets plan, (replay plan (.fresh store) events).store.lookup key = store.lookup key
  reached : ∀ earlier later, (∀ event ∈ earlier ++ later, event.Quiet) →
    (replay plan (.fresh store) earlier).position = (actions_of plan).length →
      ∀ key, (replay plan (.fresh store) (earlier ++ later)).store.lookup key = final.lookup key
  completes : ∀ events, (∀ event ∈ events, event.Quiet) →
    (replay plan (.fresh store) (events ++ Guarded.whole (actions_of plan))).position =
      (actions_of plan).length

/-- The law of a plan: it settles, and a row that another writer left under a targeted
    key, neither expected nor written by the plan, stays. -/
structure Replayable (plan : Json) : Prop where
  settles : ∀ store, (∀ action ∈ actions_of plan, Admitted store action) →
    ∃ final, Settles plan store final
  keeps : ∀ (pass : Guarded.Pass (List (String × Json))) (key : String) (row : Json),
    pass.store.lookup key = some row →
      (∀ action ∈ actions_of plan, key_of action = key → Foreign action row) →
      ∀ events, (∀ event ∈ events, Leaves key event) →
      (replay plan pass events).store.lookup key = some row

section Plans

variable {plan : Json} {store : List (String × Json)}

theorem settles_of_admitted (hkeys : (targets plan).Nodup)
    (h : ∀ action ∈ actions_of plan, Admitted store action) :
    ∃ final, Settles plan store final := by
  replace hkeys : ((actions_of plan).map rows.key).Nodup := hkeys
  have hadmitted : ∀ action ∈ actions_of plan,
      rows.guard action (rows.read store (rows.key action)) ≠ none :=
    fun action haction => guarded_admitted.mpr (h action haction)
  have hstart : rows.Settling (actions_of plan) store (.fresh store) := Guarded.Settling.fresh
  have happlied := hstart.applied hkeys hadmitted rfl
  have hquiet : ∀ event ∈ List.replicate (actions_of plan).length
      (Guarded.Event.statement (σ := List (String × Json))), event.Quiet := fun event hevent =>
        List.eq_of_mem_replicate hevent ▸ trivial
  have hfinal := hstart.run hkeys hadmitted hquiet
  have hend := hstart.statements hkeys hadmitted (Nat.zero_add _)
  have hsettled := hfinal.settled hend
  refine ⟨_, happlied, hfinal.others, fun events hevents => ?_,
    fun earlier later hevents hposition key => ?_, fun events hevents => ?_⟩
  · have hpass := hstart.run hkeys hadmitted hevents
    exact ⟨hpass.admitted, hpass.others⟩
  · obtain ⟨hearlier, hlater⟩ := List.forall_mem_append.mp hevents
    have hpass := hstart.run hkeys hadmitted hearlier
    have hdone := hpass.run_settled hkeys hadmitted (hpass.settled hposition) hlater
    have hothers := (hpass.run hkeys hadmitted hlater).others
    rw [replay, Guarded.run_append]
    by_cases hkey : key ∈ targets plan
    · obtain ⟨action, haction, rfl⟩ := List.mem_map.mp hkey
      exact (hdone action haction).trans (hsettled action haction).symm
    · exact (hothers key hkey).trans (hfinal.others key hkey).symm
  · rw [replay, Guarded.run_append]
    exact (hstart.run hkeys hadmitted hevents).whole hkeys hadmitted

theorem replayable (hkeys : (targets plan).Nodup) : Replayable plan := by
  refine ⟨fun store h => settles_of_admitted hkeys h,
    fun pass key row hrow hforeign events hevents => ?_⟩
  exact Guarded.run_kept (G := rows)
    (fun action haction hkey => (hforeign action haction hkey).refused) hrow hevents

variable [Unicode] [Datetime] (now : Now) (trusted_issuers : String → Option (List UInt8))

/-- Every plan is replayable: the already-applied test and the expected row never
    contradict each other. By `simulate_protocol_replay` this holds of the oracle too, of which
    each run is a prefix of a replay. -/
theorem plan_replayable : ∀ (before : Option Value) (after : Value) (plan : Json),
    plan_import now (before.map Value.json) after.json trusted_issuers = .ok plan →
      Replayable plan := by
  intro before after plan h
  have hbefore : ∀ entry ∈ before.map Value.json, entry.WellFormed := by
    rintro _ hentry
    obtain ⟨value, _, rfl⟩ := Option.mem_map.mp hentry
    exact value.wellFormed
  obtain ⟨hcached, _, changes, rfl⟩ := plan_of_last hbefore after.wellFormed h
  apply replayable
  rw [targets, actions_of, plan_actions, elements, actions_keys after.wellFormed]
  exact hcached.keys_nodup

end Plans

open Sample in
theorem sighting_replayable : ∃ (before after : Value) (plan : Json),
    before.json = observed_entry "a" instant ∧
      after.json = observed_entry "b" "2026-10-29T00:00:00+00:00" ∧
      plan_import Sample.now (some before.json) after.json (fun _ => none) = .ok plan ∧
      Replayable plan := by
  have hbefore : ("a", instant) ∈ sightings := by decide
  have hafter : ("b", "2026-10-29T00:00:00+00:00") ∈ sightings := by decide
  obtain ⟨plan, hplan⟩ := next_plan hbefore hafter (by simp)
  let before : Value := ⟨_, entry_wellFormed hbefore⟩
  let after : Value := ⟨_, entry_wellFormed hafter⟩
  exact ⟨before, after, plan, rfl, rfl, hplan,
    plan_replayable Sample.now (fun _ => none) (some before) after plan hplan⟩

end discovery
