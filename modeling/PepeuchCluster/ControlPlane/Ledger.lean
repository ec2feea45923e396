import PepeuchCluster.ControlPlane.Refusals
import PepeuchCluster.Tables.Chronicle

open Relation

namespace control_plane

/-- The `state` details of a mission's `mission_created` and `mission_state` events. -/
def history (events : List EventRow) (identity : String) : List (Option String) :=
  (events.filter fun event => event.mission_id = some identity ∧
    (event.type = .mission_created ∨ event.type = .mission_state)).map fun event =>
    event.details.lookup "state"

/-- One detail of all events of a type. -/
def noted (type : EventType) (key : String) (events : List EventRow) : List (Option String) :=
  (events.filter fun event => event.type = type).map fun event => event.details.lookup key

def Edge (state target : State) : Prop := target ∈ TRANSITIONS state

/-- The ledger tells what the tables hold. -/
structure Ledger (db : Db) : Prop where
  sequence : (db.events.map (·.sequence)).Pairwise (· < ·)
  histories : ∀ mission ∈ db.missions, ∃ states, Chronicle Edge .draft mission.state states ∧
    history db.events mission.id = states.map fun state => some state.text
  approvals : ∀ mission ∈ db.missions, some State.approved.text ∈ history db.events mission.id ↔
    mission.id ∈ db.tasks.map (·.mission_id)
  starts : noted .attempt_started "attempt_id" db.events = (db.attempts.map (·.id)).map some
  publications : noted .file_published "version_id" db.events = (db.versions.map (·.id)).map some

@[simp] theorem history_append (events more : List EventRow) (identity : String) :
    history (events ++ more) identity = history events identity ++ history more identity := by
  simp [history]

@[simp] theorem noted_append (type : EventType) (key : String) (events more : List EventRow) :
    noted type key (events ++ more) = noted type key events ++ noted type key more := by
  simp [noted]

namespace StateEvent

variable {mission : MissionRow} {target : State} {event : EventRow}

theorem history (h : StateEvent mission target event) (identity : String) :
    history [event] identity = if identity = mission.id then [some target.text] else [] := by
  by_cases hid : identity = mission.id
  · simp [control_plane.history, h.mission_id, h.type, h.state, hid]
  · simp [control_plane.history, h.mission_id, hid, eq_comm]

theorem noted (h : StateEvent mission target event) (type : EventType)
    (htype : type ≠ .mission_state) (key : String) : noted type key [event] = [] := by
  simp [control_plane.noted, h.type, htype.symm]

end StateEvent

namespace NoteEvent

variable {mission_id : Option String} {workspace_id : String} {type : EventType}
  {details : List (String × String)} {event : EventRow}

theorem history (h : NoteEvent mission_id workspace_id type details event)
    (htype : type ≠ .mission_created ∧ type ≠ .mission_state) (identity : String) :
    history [event] identity = [] := by
  simp [control_plane.history, h.type, htype]

theorem noted (h : NoteEvent mission_id workspace_id type details event) (other : EventType)
    (htype : type ≠ other) (key : String) : noted other key [event] = [] := by
  simp [control_plane.noted, h.type, htype]

theorem noted_self (h : NoteEvent mission_id workspace_id type details event) (key : String) :
    control_plane.noted type key [event] = [details.lookup key] := by
  simp [control_plane.noted, h.type, h.details]

end NoteEvent

theorem lt_next_sequence {events : Rows EventRow} {event : EventRow} (h : event ∈ events) :
    event.sequence < Db.next_sequence events := by
  induction events with
  | nil => cases h
  | cons first rest ih =>
    rw [Db.next_sequence, List.foldr_cons, ← Db.next_sequence]
    rcases List.mem_cons.mp h with rfl | hrest
    · exact Nat.lt_of_lt_of_le (Nat.lt_succ_self _) (Nat.le_max_left _ _)
    · exact Nat.lt_of_lt_of_le (ih hrest) (Nat.le_max_right _ _)

theorem Logged.sequence {events : Rows EventRow} {more : List EventRow} (h : Logged events more)
    (hevents : (events.map (·.sequence)).Pairwise (· < ·)) :
    ((events ++ more).map (·.sequence)).Pairwise (· < ·) := by
  induction more generalizing events with
  | nil => simpa using hevents
  | cons event rest ih =>
    obtain ⟨_, hsequence, _, hrest⟩ := h
    have hsorted : ((events ++ [event]).map (·.sequence)).Pairwise (· < ·) := by
      rw [List.map_append, List.pairwise_append]
      refine ⟨hevents, List.pairwise_singleton _ _, fun value hvalue last hlast => ?_⟩
      obtain ⟨other, hother, rfl⟩ := List.mem_map.mp hvalue
      rw [List.map_singleton, List.mem_singleton] at hlast
      rw [hlast, hsequence]
      exact lt_next_sequence hother
    simpa using ih hrest hsorted

namespace Ledger

variable {db db' : Db} {more : List EventRow}

/-- A change of one mission's state is written down with the states that it went through. -/
theorem moved (h : Ledger db) (hkeys : Keyed db) {mission : MissionRow} {target : State}
    {path : List State} {planned started published : List String} (hmission : mission ∈ db.missions)
    (hmissions : db'.missions = Rows.update db.missions (fun row => row.id = mission.id) fun row =>
      { row with state := target })
    (hevents : db'.events = db.events ++ more) (hlogged : Logged db.events more)
    (hpath : ∀ states, Chronicle Edge .draft mission.state states →
      Chronicle Edge .draft target (states ++ path))
    (hhistory : ∀ identity, history more identity =
      if identity = mission.id then path.map fun state => some state.text else [])
    (htasks : db'.tasks.map (·.mission_id) = db.tasks.map (·.mission_id) ++ planned)
    (hplanned : planned = [] ∧ .approved ∉ path ∨ planned = [mission.id] ∧ .approved ∈ path)
    (hattempts : db'.attempts.map (·.id) = db.attempts.map (·.id) ++ started)
    (hstarted : noted .attempt_started "attempt_id" more = started.map some)
    (hversions : db'.versions.map (·.id) = db.versions.map (·.id) ++ published)
    (hpublished : noted .file_published "version_id" more = published.map some) : Ledger db' := by
  have hrow : ∀ row ∈ db'.missions, row.id ≠ mission.id ∧ row ∈ db.missions ∨
      row = { mission with state := target } := by
    intro row hrow
    rw [hmissions] at hrow
    rcases Rows.mem_update.mp hrow with ⟨hmem, hother⟩ | ⟨old, hold, hsame, rfl⟩
    · exact Or.inl ⟨of_decide_eq_false hother, hmem⟩
    · rw [Rows.eq_of_key hkeys.missions hold hmission (of_decide_eq_true hsame)]
      exact Or.inr rfl
  have happroved : some State.approved.text ∈ path.map (fun state => some state.text) ↔
      State.approved ∈ path := by
    simp only [List.mem_map, Option.some.injEq]
    exact ⟨fun ⟨state, hstate, heq⟩ => State.text_injective heq ▸ hstate,
      fun hmem => ⟨_, hmem, rfl⟩⟩
  refine ⟨hevents ▸ hlogged.sequence h.sequence, fun row hmem => ?_, fun row hmem => ?_, ?_, ?_⟩
  · rw [hevents, history_append, hhistory]
    rcases hrow row hmem with ⟨hother, hold⟩ | rfl
    · rw [if_neg hother, List.append_nil]
      exact h.histories row hold
    · obtain ⟨states, hstates, heq⟩ := h.histories mission hmission
      exact ⟨states ++ path, hpath states hstates, by rw [if_pos rfl, heq, List.map_append]⟩
  · rw [hevents, history_append, hhistory, htasks, List.mem_append, List.mem_append]
    rcases hrow row hmem with ⟨hother, hold⟩ | rfl
    · rw [if_neg hother, h.approvals row hold]
      rcases hplanned with ⟨rfl, _⟩ | ⟨rfl, _⟩ <;> simp [hother]
    · rw [if_pos rfl, h.approvals mission hmission, happroved]
      rcases hplanned with ⟨rfl, hnot⟩ | ⟨rfl, hpresent⟩
      · simp [hnot]
      · simp [hpresent]
  · rw [hevents, noted_append, hstarted, hattempts, List.map_append, h.starts]
  · rw [hevents, noted_append, hpublished, hversions, List.map_append, h.publications]

/-- A change that leaves every mission's state may still write notes. -/
theorem still (h : Ledger db) {published : List String} (hmissions : db'.missions = db.missions)
    (hevents : db'.events = db.events ++ more) (hlogged : Logged db.events more)
    (hhistory : ∀ identity, history more identity = []) (htasks : db'.tasks = db.tasks)
    (hattempts : db'.attempts = db.attempts)
    (hstarted : noted .attempt_started "attempt_id" more = [])
    (hversions : db'.versions.map (·.id) = db.versions.map (·.id) ++ published)
    (hpublished : noted .file_published "version_id" more = published.map some) : Ledger db' := by
  have hsame : ∀ identity, history db'.events identity = history db.events identity :=
      fun identity => by
    rw [hevents, history_append, hhistory, List.append_nil]
  refine ⟨hevents ▸ hlogged.sequence h.sequence, fun row hmem => ?_, fun row hmem => ?_, ?_, ?_⟩
  · rw [hsame]
    exact h.histories row (hmissions ▸ hmem)
  · rw [hsame, htasks]
    exact h.approvals row (hmissions ▸ hmem)
  · rw [hevents, noted_append, hstarted, List.append_nil, hattempts, h.starts]
  · rw [hevents, noted_append, hpublished, hversions, List.map_append, h.publications]

theorem history_fresh (hlinked : Linked db) {identity : String}
    (hfresh : ∀ mission ∈ db.missions, mission.id ≠ identity) :
    history db.events identity = [] := by
  rw [history, List.map_eq_nil_iff, List.filter_eq_nil_iff]
  intro event hevent hselected
  have howner : identity ∈ db.events.filterMap (·.mission_id) :=
    List.mem_filterMap.mpr ⟨event, hevent, (of_decide_eq_true hselected).1⟩
  obtain ⟨mission, hmission, hid⟩ := List.mem_map.mp (hlinked.event_missions howner)
  exact hfresh mission hmission hid

/-- A new mission starts its history. -/
theorem created (h : Ledger db) (hlinked : Linked db) {mission : MissionRow}
    {capability : Capability} (hfresh : ∀ other ∈ db.missions, other.id ≠ mission.id)
    (hstate : mission.state = .draft) (hmore : CreationEvents mission capability more)
    (hlogged : Logged db.events more) (hmissions : db'.missions = db.missions ++ [mission])
    (hevents : db'.events = db.events ++ more) (htasks : db'.tasks = db.tasks)
    (hattempts : db'.attempts = db.attempts) (hversions : db'.versions = db.versions) :
    Ledger db' := by
  obtain ⟨hhistory, hstarted, hpublished⟩ : (∀ identity, history more identity =
      if identity = mission.id then [some State.draft.text] else []) ∧
      noted .attempt_started "attempt_id" more = [] ∧
      noted .file_published "version_id" more = [] := by
    obtain ⟨first, hfirst, hrest⟩ := hmore
    have hself : ∀ identity, history [first] identity =
        if identity = mission.id then [some State.draft.text] else [] := by
      intro identity
      by_cases hid : identity = mission.id
      · simp [history, hfirst.mission_id, hfirst.type, hfirst.details, hid]
      · simp [history, hfirst.mission_id, hid, eq_comm]
    cases capability with
    | demo =>
      obtain rfl := hrest
      exact ⟨hself, hfirst.noted .attempt_started nofun _, hfirst.noted .file_published nofun _⟩
    | cpu_digest =>
      obtain ⟨contract, rfl, hcontract⟩ := hrest
      refine ⟨fun identity => ?_, ?_, ?_⟩
      · rw [← List.singleton_append, history_append, hself, hcontract.history ⟨nofun, nofun⟩,
          List.append_nil]
      · rw [← List.singleton_append, noted_append, hfirst.noted .attempt_started nofun,
          hcontract.noted .attempt_started nofun, List.append_nil]
      · rw [← List.singleton_append, noted_append, hfirst.noted .file_published nofun,
          hcontract.noted .file_published nofun, List.append_nil]
  have hold : ∀ row ∈ db'.missions, row.id ≠ mission.id ∧ row ∈ db.missions ∨ row = mission := by
    intro row hrow
    rw [hmissions] at hrow
    rcases List.mem_append.mp hrow with hrow | hrow
    · exact Or.inl ⟨hfresh row hrow, hrow⟩
    · exact Or.inr (List.mem_singleton.mp hrow)
  refine ⟨hevents ▸ hlogged.sequence h.sequence, fun row hmem => ?_, fun row hmem => ?_, ?_, ?_⟩
  · rw [hevents, history_append, hhistory]
    rcases hold row hmem with ⟨hother, hrow⟩ | rfl
    · rw [if_neg hother, List.append_nil]
      exact h.histories row hrow
    · rw [if_pos rfl, history_fresh hlinked hfresh, hstate]
      exact ⟨[.draft], .start, rfl⟩
  · rw [hevents, history_append, hhistory, htasks]
    rcases hold row hmem with ⟨hother, hrow⟩ | rfl
    · rw [if_neg hother, List.append_nil]
      exact h.approvals row hrow
    · rw [if_pos rfl, history_fresh hlinked hfresh]
      refine ⟨fun hdraft => ?_, fun htask => ?_⟩
      · simp [State.text] at hdraft
      · obtain ⟨other, hother, hid⟩ := List.mem_map.mp (hlinked.tasks htask)
        exact absurd hid (hfresh other hother)
  · rw [hevents, noted_append, hstarted, List.append_nil, hattempts, h.starts]
  · rw [hevents, noted_append, hpublished, List.append_nil, hversions, h.publications]

end Ledger

section Steps

variable {settings : Settings} {held : String → Option Bytes} {db db' : Db}

/-- One state event, with notes around it that no history shows. -/
theorem Ledger.one_state (h : Ledger db) (hkeys : Keyed db) {mission : MissionRow} {target : State}
    {event : EventRow} {more : List EventRow} {started published : List String}
    (hmission : mission ∈ db.missions) (hevent : StateEvent mission target event)
    (hallowed : target ∈ TRANSITIONS mission.state) (htarget : target ≠ .approved)
    (hmissions : db'.missions = Rows.update db.missions (fun row => row.id = mission.id) fun row =>
      { row with state := target })
    (hevents : db'.events = db.events ++ more) (hlogged : Logged db.events more)
    (hhistory : ∀ identity, history more identity = history [event] identity)
    (htasks : db'.tasks.map (·.mission_id) = db.tasks.map (·.mission_id))
    (hattempts : db'.attempts.map (·.id) = db.attempts.map (·.id) ++ started)
    (hstarted : noted .attempt_started "attempt_id" more = started.map some)
    (hversions : db'.versions.map (·.id) = db.versions.map (·.id) ++ published)
    (hpublished : noted .file_published "version_id" more = published.map some) : Ledger db' := by
  have hpath : ∀ identity, history more identity =
      if identity = mission.id then [target].map (fun state => some state.text) else [] :=
        fun identity => by
    rw [hhistory, hevent.history]
    rfl
  have hplanned : ([] : List String) = [] ∧ State.approved ∉ [target] :=
    ⟨rfl, fun hmem => htarget (List.mem_singleton.mp hmem).symm⟩
  exact h.moved hkeys hmission hmissions hevents hlogged
    (fun states hstates => hstates.step hallowed) hpath (htasks.trans (List.append_nil _).symm)
      (Or.inl hplanned) hattempts hstarted hversions hpublished

theorem Change.ledger (h : Change settings held db db') (hsane : Sane db) (hledger : Ledger db) :
    Ledger db' := by
  have hkeys := hsane.keyed
  cases h with
  | created mission capability events hfresh hid hworkspace hstate htext hfiles hevents hlogged =>
    exact hledger.created hsane.linked hfresh hstate hevents hlogged rfl rfl rfl rfl rfl
  | approved mission task approval queueing hmission hstate htask happroval hqueueing hlogged =>
    have hpath : ∀ states, Chronicle Edge .draft mission.state states →
        Chronicle Edge .draft .queued (states ++ [.approved, .queued]) := by
      intro states hstates
      rw [hstate] at hstates
      have hfirst : Chronicle Edge .draft .approved (states ++ [.approved]) :=
        hstates.step (show State.approved ∈ TRANSITIONS .draft by decide)
      have hsecond := hfirst.step
        (show Edge .approved .queued from (by decide : State.queued ∈ TRANSITIONS .approved))
      rwa [List.append_assoc] at hsecond
    refine hledger.moved hkeys hmission rfl rfl hlogged hpath (fun identity => ?_)
      (by simp [htask.mission_id])
      (Or.inr ⟨rfl, by decide⟩) (List.append_nil _).symm ?_ (List.append_nil _).symm ?_
    · rw [← List.singleton_append, history_append, happroval.history, hqueueing.history]
      split <;> rfl
    · rw [← List.singleton_append, noted_append, happroval.noted .attempt_started nofun,
        hqueueing.noted .attempt_started nofun]
      rfl
    · rw [← List.singleton_append, noted_append, happroval.noted .file_published nofun,
        hqueueing.noted .file_published nofun]
      rfl
  | cancelled mission event hmission hallowed hwaiting hevent hlogged =>
    have htarget : ExecutionManager.cancel_target mission.state ≠ .approved := by
      unfold ExecutionManager.cancel_target
      split <;> nofun
    exact hledger.one_state hkeys hmission hevent hallowed htarget rfl rfl hlogged (fun _ => rfl)
      (Rows.update_map fun _ => rfl) (Rows.update_map_append_nil fun _ => rfl)
      (hevent.noted .attempt_started nofun _) (List.append_nil _).symm
        (hevent.noted .file_published nofun _)
  | retried mission event hmission hstate hevent hlogged =>
    have hallowed : State.queued ∈ TRANSITIONS mission.state := by
      rcases hstate with hstate | hstate <;> (rw [hstate]; decide)
    exact hledger.one_state hkeys hmission hevent hallowed nofun rfl rfl hlogged (fun _ => rfl)
      (Rows.update_map fun _ => rfl) (List.append_nil _).symm
        (hevent.noted .attempt_started nofun _) (List.append_nil _).symm
      (hevent.noted .file_published nofun _)
  | claimed _ worker mission task attempt hclaim =>
    obtain ⟨event, started, hworker, hactive, hmission, htask, hstate, hqueued, hlink, hassigned,
      hfree, hattempt, hevent, hstarted, hlogged⟩ := hclaim
    have hallowed : State.running ∈ TRANSITIONS mission.state := by
      rw [hstate]
      decide
    refine hledger.one_state hkeys hmission hevent hallowed nofun rfl rfl hlogged
      (fun identity => ?_)
      (Rows.update_map fun _ => rfl) List.map_append ?_ (List.append_nil _).symm ?_
    · rw [← List.singleton_append, history_append, hstarted.history ⟨nofun, nofun⟩, List.append_nil]
    · rw [← List.singleton_append, noted_append, hevent.noted .attempt_started nofun,
        hstarted.noted_self]
      rfl
    · rw [← List.singleton_append, noted_append, hevent.noted .file_published nofun,
        hstarted.noted .file_published nofun]
      rfl
  | fenced _ reason attempt hfence =>
    obtain ⟨task, mission, event, hattempt, hactive, htask, hlink, hmission, howner, hallowed,
      hevent, hlogged⟩ :=
      hfence
    exact hledger.one_state hkeys hmission hevent hallowed nofun rfl rfl hlogged (fun _ => rfl)
      (Rows.update_map fun _ => rfl) (Rows.update_map_append_nil fun _ => rfl)
      (hevent.noted .attempt_started nofun _) (List.append_nil _).symm
        (hevent.noted .file_published nofun _)
  | settled _ worker attempt task mission content_hash status error_code hsettle =>
    cases hsettle with
    | ended _ _ _ event hsettling hopen hevent hlogged =>
      have htarget : status ≠ .approved := by
        rintro rfl
        exact absurd hsettling.final (by decide)
      exact hledger.one_state hkeys hsettling.of_mission.1 hevent hsettling.allowed
        htarget rfl rfl hlogged
        (fun _ => rfl) (Rows.update_map fun _ => rfl)
        (Rows.update_map_append_nil fun _ => rfl) (hevent.noted .attempt_started nofun _)
        (List.append_nil _).symm (hevent.noted .file_published nofun _)
    | completed _ publication result event hsettling hpublished hfresh hid hresult hevent hlogged =>
      refine hledger.one_state hkeys hsettling.of_mission.1 hevent hsettling.allowed
        nofun rfl rfl hlogged
        (fun identity => ?_) (Rows.update_map fun _ => rfl)
        (Rows.update_map_append_nil fun _ => rfl) ?_ List.map_append ?_
      · rw [← List.singleton_append, history_append, hpublished.event.history ⟨nofun, nofun⟩,
          List.nil_append]
      · rw [← List.singleton_append, noted_append, hpublished.event.noted .attempt_started nofun,
          hevent.noted .attempt_started nofun]
        rfl
      · rw [← List.singleton_append, noted_append, hpublished.event.noted_self,
          hevent.noted .file_published nofun]
        rfl
  | uploaded workspace_id name expected publication hpublished hlogged =>
    exact hledger.still rfl rfl hlogged (hpublished.event.history ⟨nofun, nofun⟩) rfl rfl
      (hpublished.event.noted .attempt_started nofun _) List.map_append
        (hpublished.event.noted_self _)
  | enrolled worker workspace_id event hfresh hid hcapability hlimits hepoch hworkspace
      hevent hlogged =>
    exact hledger.still rfl rfl hlogged (hevent.history ⟨nofun, nofun⟩) rfl rfl
      (hevent.noted .attempt_started nofun _)
      (List.append_nil _).symm (hevent.noted .file_published nofun _)
  | rotated worker digest updated_at reason workspace_id event hworker hworkspace hevent hlogged =>
    exact hledger.still rfl rfl hlogged (hevent.history ⟨nofun, nofun⟩) rfl rfl
      (hevent.noted .attempt_started nofun _)
      (List.append_nil _).symm (hevent.noted .file_published nofun _)
  | revoked worker updated_at hworker hactive => exact { hledger with }
  | noted worker workspace_id event hworkspace hevent hlogged =>
    exact hledger.still rfl rfl hlogged (hevent.history ⟨nofun, nofun⟩) rfl rfl
      (hevent.noted .attempt_started nofun _)
      (List.append_nil _).symm (hevent.noted .file_published nofun _)
  | recorded operation hfresh => exact { hledger with }

theorem Change.events_prefix (h : Change settings held db db') : db.events <+: db'.events := by
  cases h with
  | fenced _ reason attempt hfence =>
    cases hfence
    exact List.prefix_append _ _
  | claimed _ worker mission task attempt hclaim =>
    cases hclaim
    exact List.prefix_append _ _
  | settled _ worker attempt task mission content_hash status error_code hsettle =>
    cases hsettle <;> exact List.prefix_append _ _
  | revoked worker updated_at hworker hactive => exact List.prefix_rfl
  | recorded operation hfresh => exact List.prefix_rfl
  | _ => exact List.prefix_append _ _

end Steps

theorem install_ledger (settings : Settings) (boot : Boot) : Ledger (install settings boot) := by
  constructor <;> simp [install, noted]

theorem noted_count (type : EventType) (key : String) (events : List EventRow)
    (value : Option String) :
    (noted type key events).count value =
      (events.filter fun event => event.type = type ∧ event.details.lookup key = value).length := by
  rw [noted, List.count_eq_length_filter, List.filter_map, List.length_map, List.filter_filter]
  congr 2
  funext event
  rw [Bool.decide_and, Bool.and_comm, Function.comp_apply, beq_eq_decide]

/-- The events in the order of their sequence numbers. -/
def Db.ordered_events (db : Db) : List EventRow :=
  db.events.insertionSort fun a b => a.sequence ≤ b.sequence

theorem Ledger.ordered_events {db : Db} (h : Ledger db) : db.ordered_events = db.events :=
  List.Pairwise.insertionSort_eq ((List.pairwise_map.mp h.sequence).imp Nat.le_of_lt)

/-- What the ledger tells is what the tables hold. -/
structure Faithful (db : Db) : Prop where
  histories : ∀ mission ∈ db.missions, ∃ states : List State,
    history db.ordered_events mission.id = states.map (fun state => some state.text) ∧
      states.head? = some .draft ∧ states.IsChain (fun state target => target ∈ TRANSITIONS state) ∧
      states.getLast? = some mission.state
  starts : ∀ attempt ∈ db.attempts, (db.events.filter fun event =>
    event.type = .attempt_started ∧ event.details.lookup "attempt_id" = some attempt.id).length = 1
  publications : ∀ version ∈ db.versions, (db.events.filter fun event =>
    event.type = .file_published ∧ event.details.lookup "version_id" = some version.id).length = 1

theorem Ledger.faithful {db : Db} (h : Ledger db) (hkeys : Keyed db) : Faithful db := by
  have hcount : ∀ {ids : List String} {id : String}, ids.Nodup → id ∈ ids →
      (ids.map some).count (some id) = 1 :=
    fun hids hid =>
      List.count_eq_one_of_mem (hids.map (Option.some_injective _)) (List.mem_map_of_mem hid)
  refine ⟨fun mission hmission => ?_, fun attempt hattempt => ?_, fun version hversion => ?_⟩
  · obtain ⟨states, hstates, hhistory⟩ := h.histories mission hmission
    exact ⟨states, by rw [h.ordered_events, hhistory], hstates.head?, hstates.isChain,
      hstates.getLast?⟩
  · rw [← noted_count, h.starts]
    exact hcount hkeys.attempts (mem_ids hattempt)
  · rw [← noted_count, h.publications]
    exact hcount hkeys.versions (mem_ids hversion)

/-- The event of an expired lease. -/
def Expiry (event : EventRow) : Prop :=
  event.type = .mission_state ∧ event.actor = SYSTEM.identity ∧
    event.details = [("state", State.interrupted.text), ("reason", "attempt_expired")]

theorem expiries {db db' : Db} (h : ExecutionManager.Fences "attempt_expired" db db') :
    ∃ more, db'.events = db.events ++ more ∧ ∀ event ∈ more, Expiry event := by
  induction h with
  | refl => exact ⟨[], (List.append_nil _).symm, List.forall_mem_nil _⟩
  | tail _ hfence ih =>
    obtain ⟨more, hmore, hall⟩ := ih
    obtain ⟨attempt, _, _, event, _, _, _, _, _, _, _, hevent, _, hactor, hdetails⟩ := hfence
    refine ⟨more ++ [event], ?_, List.forall_mem_append.mpr ⟨hall, ?_⟩⟩
    · rw [← List.append_assoc, ← hmore]
    · exact List.forall_mem_singleton.mpr ⟨hevent.type, hactor, hdetails⟩

namespace ControlPlane

variable (service : ControlPlane) (boot : Boot) (calls : List Call)

theorem committed_ledger :
    Ledger (service.after boot calls).db ∧ ∀ db ∈ (service.after boot calls).commits, Ledger db :=
  after_invariant service boot calls (install_ledger service.settings boot) Change.ledger

/-- In every run the ledger is faithful in every committed state, no event is ever
    changed or removed, and a call that raises leaves no event but those of the expiry
    that it committed before. -/
theorem ledger_faithful :
    (∀ db ∈ (service.after boot calls).commits, Faithful db) ∧
      (service.after boot calls).commits.Pairwise
        (fun earlier later => earlier.events <+: later.events) ∧
      ∀ call failure, service.outcome (service.after boot calls) call = .error failure →
        ∃ more, (service.step (service.after boot calls) call).db.events =
            (service.after boot calls).db.events ++ more ∧
          ∀ event ∈ more, Expiry event := by
  refine ⟨fun db hdb => ?_, ?_, fun call failure hfailure => ?_⟩
  · exact ((committed_ledger service boot calls).2 db hdb).faithful
      (committed_sane service boot calls db hdb).keyed
  · exact after_pairwise service boot calls (fun _ => List.prefix_rfl) List.IsPrefix.trans
      Change.events_prefix
  · exact expiries (refused (after_sane service boot calls) hfailure)

end ControlPlane

end control_plane
