import PepeuchCluster.Worker.Results

namespace pepeuch_worker

open control_plane (ExecutionResult State isIdentifier)
open Program (Step Reaches Monitor Obeys)

/-! ### The guard and what it protects -/

abbrev Event := Step Raised Call Reply

/-- What is never done without the guard. -/
def Call.Protected : Call → Prop
  | .claim _ | .finish _ _ | .execute _ => True
  | _ => False

/-- The calls of the client and of the executor. -/
def Call.Outward : Call → Prop
  | .claim _ | .state _ | .finish _ _ | .execute _ => True
  | _ => False

/-- What the guard must directly precede. -/
def Call.Adjacent : Call → Prop
  | .finish _ _ | .execute _ => True
  | _ => False

/-- A guard call that succeeds. -/
def passed : Event := ⟨.isolation, .ok ()⟩

/-- Every protected event follows a guard call of its own, and nothing that leaves the
    worker stands between an execution or a publication and its guard call. -/
def Placed (events : List Event) : Prop :=
  ∀ before event after, events = before ++ event :: after → event.op.Protected →
    ∃ earlier since, before = earlier ++ passed :: since ∧ (∀ other ∈ since, ¬ other.op.Protected) ∧
      (event.op.Adjacent → ∀ other ∈ since, ¬ other.op.Outward)

/-- The journal on disk after these events, when it was `content` before them. -/
def disk (content : Json) (events : List Event) : Json :=
  events.foldl (fun content event =>
    match event with
    | ⟨.save journal, .ok _⟩ => journal
    | _ => content) content

/-- What is known of a run: a guard call since the last protected event, nothing outward
    since that call, the error of the guard, and whether a save has failed. -/
structure Watch where
  guarded : Bool
  adjacent : Bool
  refused : Option Raised
  torn : Bool

def Watch.next (watch : Watch) (event : Event) : Watch :=
  match event with
  | ⟨.isolation, .ok _⟩ => { watch with guarded := true, adjacent := true }
  | ⟨.isolation, .error raised⟩ => { watch with refused := some raised }
  | ⟨.claim _, _⟩ | ⟨.finish _ _, _⟩ | ⟨.execute _, _⟩ =>
    { watch with guarded := false, adjacent := false }
  | ⟨.state _, _⟩ => { watch with adjacent := false }
  | ⟨.save _, .error _⟩ => { watch with torn := true }
  | _ => watch

def Watch.allowed (watch : Watch) (op : Call) : Prop :=
  watch.refused = none ∧ watch.torn = false ∧ (op.Protected → watch.guarded = true) ∧
    (op.Adjacent → watch.adjacent = true)

def placement : Monitor Raised Call Reply Watch := ⟨Watch.allowed, Watch.next⟩

/-- A guard that refuses ends the run with its error, and no save has failed then. -/
def Ends {α : Type} (result : Except Raised α) (watch : Watch) : Prop :=
  ∀ raised, watch.refused = some raised → result = .error raised ∧ watch.torn = false

/-- A run under way: nothing was refused. -/
def Open (watch : Watch) : Prop := watch.refused = none ∧ watch.torn = false

section Placement

variable {α β : Type} {watch : Watch}

theorem ends_of_open {result : Except Raised α} (h : Open watch) : Ends result watch := by
  intro raised hrefused
  rw [h.1] at hrefused
  cases hrefused

/-- A part of the run that is entered with nothing refused, and with a guard call since
    the last protected event where it is armed: so is what follows its success. -/
def Guards (armed still : Bool) (p : Run α) : Prop :=
  ∀ watch, Open watch → (armed = true → watch.guarded = true) →
    Obeys placement (fun result after => Ends result after ∧
      ∀ a, result = .ok a → Open after ∧ (still = true → after.guarded = true)) p watch

theorem Guards.pure (armed : Bool) (a : α) : Guards armed armed (pure a : Run α) :=
  fun _ h harmed => ⟨ends_of_open h, fun _ _ => ⟨h, harmed⟩⟩

theorem Guards.raise (armed still : Bool) (raised : Raised) :
    Guards armed still (.done (.error raised) : Run α) :=
  fun _ h _ => ⟨ends_of_open h, nofun⟩

theorem Guards.bind {armed still last : Bool} {p : Run α} {f : α → Run β}
    (hp : Guards armed still p) (hf : ∀ a, Guards still last (f a)) :
    Guards armed last (p >>= f) := by
  intro watch h harmed
  refine Obeys.bind (hp watch h harmed) (fun a after hafter => ?_) fun raised after hafter => ?_
  · obtain ⟨hopen, hstill⟩ := hafter.2 a rfl
    exact hf a after hopen hstill
  · refine ⟨fun other hother => ?_, nofun⟩
    obtain ⟨heq, htorn⟩ := hafter.1 other hother
    exact ⟨by rw [Except.error.inj heq], htorn⟩

theorem Guards.disarm {armed still : Bool} {p : Run α} (h : Guards false still p) :
    Guards armed false p := by
  intro watch hopen _
  refine (h watch hopen nofun).weaken fun result after hafter => ⟨hafter.1, fun a ha => ?_⟩
  exact ⟨(hafter.2 a ha).1, nofun⟩

theorem Guards.checked (armed : Bool) (result : Except Failure α) :
    Guards armed armed (checked result) := by
  cases result with
  | ok a => exact Guards.pure armed a
  | error failure => exact Guards.raise armed armed _

theorem Guards.require (armed : Bool) (condition : Prop) [Decidable condition] (raised : Raised) :
    Guards armed armed (Program.require condition raised : Run Unit) := by
  unfold Program.require
  split
  · exact Guards.pure armed ()
  · exact Guards.raise armed armed raised

/-- A call that is not protected. -/
theorem Guards.ask (armed : Bool) (op : Call) (h : ¬ op.Protected) :
    Guards armed armed (ask op) := by
  intro watch hopen harmed
  refine ⟨⟨hopen.1, hopen.2, fun hop => absurd hop h, fun hop => ?_⟩, fun answer => ?_⟩
  · cases op with
    | finish _ _ => exact absurd trivial h
    | execute _ => exact absurd trivial h
    | _ => cases hop
  · cases op with
    | claim _ => exact absurd trivial h
    | finish _ _ => exact absurd trivial h
    | execute _ => exact absurd trivial h
    | isolation =>
      cases answer with
      | ok _ => exact ⟨ends_of_open hopen, fun _ _ => ⟨hopen, fun _ => rfl⟩⟩
      | error raised =>
        refine ⟨fun other hother => ?_, nofun⟩
        obtain rfl : raised = other := Option.some.inj hother
        exact ⟨rfl, hopen.2⟩
    | save _ =>
      cases answer with
      | ok _ => exact ⟨ends_of_open hopen, fun _ _ => ⟨hopen, harmed⟩⟩
      | error raised =>
        refine ⟨fun other hother => ?_, nofun⟩
        have hnone : watch.refused = some other := hother
        rw [hopen.1] at hnone
        cases hnone
    | _ => exact ⟨ends_of_open hopen, fun _ _ => ⟨hopen, harmed⟩⟩

/-- The guard arms what follows it. -/
theorem Guards.isolation (armed : Bool) : Guards armed true (pepeuch_worker.ask .isolation) := by
  intro watch hopen _
  refine ⟨⟨hopen.1, hopen.2, nofun, nofun⟩, fun answer => ?_⟩
  cases answer with
  | ok _ => exact ⟨ends_of_open hopen, fun _ _ => ⟨hopen, fun _ => rfl⟩⟩
  | error raised =>
    refine ⟨fun other hother => ?_, nofun⟩
    obtain rfl : raised = other := Option.some.inj hother
    exact ⟨rfl, hopen.2⟩

theorem Guards.claim (data : Json) : Guards true false (pepeuch_worker.ask (.claim data)) := by
  intro watch hopen harmed
  refine ⟨⟨hopen.1, hopen.2, fun _ => harmed rfl, nofun⟩, fun answer => ?_⟩
  exact ⟨ends_of_open hopen, fun _ _ => ⟨hopen, nofun⟩⟩

/-- A guard call and what it directly precedes. -/
theorem Guards.adjacent (armed : Bool) (op : Call) (hop : op.Adjacent)
    {rest : Except Raised (Reply op) → Run α} (hrest : ∀ answer, Guards false false (rest answer)) :
    Guards armed false (pepeuch_worker.ask .isolation >>= fun _ => .call op rest) := by
  intro watch hopen _
  refine Obeys.request_bind ⟨hopen.1, hopen.2, nofun, nofun⟩ (fun _ => ?_) fun raised => ?_
  · refine ⟨⟨hopen.1, hopen.2, fun _ => rfl, fun _ => rfl⟩, fun answer => hrest answer _ ?_ nofun⟩
    cases op with
    | finish _ _ => exact hopen
    | execute _ => exact hopen
    | _ => cases hop
  · refine ⟨fun other hother => ?_, nofun⟩
    obtain rfl : raised = other := Option.some.inj hother
    exact ⟨rfl, hopen.2⟩

theorem Guards.ite {armed still : Bool} {condition : Prop} [Decidable condition] {p q : Run α}
    (hp : Guards armed still p) (hq : Guards armed still q) :
    Guards armed still (if condition then p else q) := by
  split
  · exact hp
  · exact hq

variable (runner : Runner)

theorem Guards.save (armed : Bool) (journal : Journal) (done : Bool) :
    Guards armed armed (runner.save journal done) :=
  Guards.ask armed (.save _) id

theorem Guards.observe_state (armed : Bool) (request : Json) :
    Guards armed armed (observe_state request) :=
  (Guards.ask armed (.state _) id).bind fun _ => Guards.checked armed _

theorem Guards.execute (armed : Bool) (request : Json) :
    Guards armed false (pepeuch_worker.ask .isolation >>= fun _ => execute request) := by
  refine Guards.adjacent armed (.execute request) trivial fun answer => ?_
  split
  · exact Guards.pure false _
  · exact Guards.pure false _
  · exact Guards.pure false _
  · exact Guards.raise false false _

theorem Guards.settle (journal : Journal) (pending : Bool) (state : String) :
    Guards false false (settle journal pending state) := by
  unfold pepeuch_worker.settle
  refine Guards.ite (Guards.pure false _)
    (Guards.ite ?_ (Guards.ite (Guards.pure false _) (Guards.execute false _)))
  exact (Guards.checked false _).bind fun result => (Guards.require false _ _).bind fun _ =>
    Guards.pure false result

theorem Guards.finish (journal : Journal) (result : ExecutionResult) :
    Guards false false (runner.finish journal result) := by
  have hrest : ∀ acknowledgement, Guards false false (do
      pepeuch_worker.checked (acknowledged journal.request acknowledgement)
      runner.save journal true
      return result.status.text : Run String) := fun acknowledgement =>
    (Guards.checked false _).bind fun _ => (Guards.save runner false _ _).bind fun _ =>
      Guards.pure false _
  refine Guards.adjacent false (.finish (attempt_of journal.request) result.to_dict) trivial
    fun answer => ?_
  cases answer with
  | ok acknowledgement => exact hrest acknowledgement
  | error raised => exact Guards.raise false false raised

theorem Guards.publish (journal : Journal) (result : ExecutionResult) :
    Guards false false (runner.publish journal result) := by
  unfold Runner.publish
  refine (Guards.observe_state false _).bind fun state =>
    Guards.ite ?_ (Guards.ite ?_ (Guards.finish runner _ _))
  · exact (Guards.save runner false _ _).bind fun _ => Guards.pure false _
  · exact (Guards.save runner false _ _).bind fun _ => Guards.finish runner _ _

variable [Datetime]

theorem Guards.resume (journal : Journal) (pending : Bool) :
    Guards false false (runner.resume journal pending) := by
  unfold Runner.resume
  refine (Guards.checked false _).bind fun _ => (Guards.observe_state false _).bind fun state =>
    Guards.ite ?_ ?_
  · exact (Guards.save runner false _ _).bind fun _ => Guards.pure false _
  · exact (Guards.settle _ _ _).bind fun result => (Guards.save runner false _ _).bind fun _ =>
      Guards.publish runner _ _

theorem Guards.proceed (journal : Journal) (pending : Bool) :
    Guards true false (runner.proceed journal pending) := by
  unfold Runner.proceed
  refine Guards.ite (Guards.resume runner journal pending).disarm
    ((Guards.claim _).bind fun response =>
      (Guards.checked false _).bind fun _ => Guards.ite ?_ ?_)
  · exact (Guards.save runner false _ _).bind fun _ => Guards.pure false _
  · exact (Guards.checked false _).bind fun _ => (Guards.save runner false _ _).bind fun _ =>
      Guards.resume runner _ _

/-- Every run keeps to the guard. -/
theorem Guards.run_once (recover : Bool) : Guards false false (runner.run_once recover) := by
  unfold Runner.run_once
  refine (Guards.ask false .locked id).bind fun _ => (Guards.isolation false).bind fun _ =>
    (Guards.ask true .load id).bind fun data => (Guards.checked true _).bind fun loaded => ?_
  cases loaded with
  | some journal => exact (Guards.require true _ _).bind fun _ => Guards.proceed runner journal true
  | none =>
    refine Guards.ite ((Guards.pure false _).disarm)
      ((Guards.ask true .uuid4 id).bind fun claim_id =>
        (Guards.save runner true _ _).bind fun _ => Guards.proceed runner _ false)

end Placement

section Traces

def start : Watch := ⟨false, false, none, false⟩

def watched (events : List Event) : Watch := events.foldl Watch.next start

theorem watched_concat (events : List Event) (event : Event) :
    watched (events ++ [event]) = (watched events).next event := by
  rw [watched, List.foldl_append]
  rfl

/-- A watch that is armed has seen the guard. -/
theorem watched_guarded (events : List Event) : (watched events).guarded = true →
    ∃ earlier since, events = earlier ++ passed :: since ∧ (∀ other ∈ since, ¬ other.op.Protected) ∧
      ((watched events).adjacent = true → ∀ other ∈ since, ¬ other.op.Outward) := by
  induction events using List.reverseRecOn with
  | nil => nofun
  | append_singleton events event ih =>
    rw [watched_concat]
    obtain ⟨op, answer⟩ := event
    have hextend : ∀ step : Event, ¬ step.op.Protected → (watched events).guarded = true →
        ((watched events).adjacent = true → ¬ step.op.Outward) →
        ∃ earlier since, events ++ [step] = earlier ++ passed :: since ∧
        (∀ other ∈ since, ¬ other.op.Protected) ∧
          ((watched events).adjacent = true → ∀ other ∈ since, ¬ other.op.Outward) := by
      intro step hprotected hguarded houtward
      obtain ⟨earlier, since, hsplit, hsince, hadjacent⟩ := ih hguarded
      refine ⟨earlier, since ++ [step], by rw [hsplit]; simp, ?_, fun hstill => ?_⟩
      · exact List.forall_mem_append.mpr ⟨hsince, List.forall_mem_singleton.mpr hprotected⟩
      · exact List.forall_mem_append.mpr
          ⟨hadjacent hstill, List.forall_mem_singleton.mpr (houtward hstill)⟩
    cases op with
    | isolation =>
      cases answer with
      | ok _ => exact fun _ =>
        ⟨events, [], rfl, List.forall_mem_nil _, fun _ => List.forall_mem_nil _⟩
      | error raised => exact fun hguarded => hextend _ id hguarded fun _ => id
    | state attempt_id =>
      intro hguarded
      obtain ⟨earlier, since, hsplit, hsince, _⟩ := ih hguarded
      refine ⟨earlier, since ++ [⟨.state attempt_id, answer⟩], by rw [hsplit]; simp, ?_, nofun⟩
      exact List.forall_mem_append.mpr ⟨hsince, List.forall_mem_singleton.mpr id⟩
    | claim _ => nofun
    | finish _ _ => nofun
    | execute _ => nofun
    | save journal =>
      cases answer with
      | ok _ => exact fun hguarded => hextend _ id hguarded fun _ => id
      | error raised => exact fun hguarded => hextend _ id hguarded fun _ => id
    | locked => exact fun hguarded => hextend _ id hguarded fun _ => id
    | load => exact fun hguarded => hextend _ id hguarded fun _ => id
    | uuid4 => exact fun hguarded => hextend _ id hguarded fun _ => id

/-- A watch notes a save that fails, and forgets none. -/
theorem watched_saves (events : List Event) (htorn : (watched events).torn = false) {journal : Json}
    {answer : Except Raised Unit} (hsave : ⟨.save journal, answer⟩ ∈ events) : answer = .ok () := by
  induction events using List.reverseRecOn with
  | nil => cases hsave
  | append_singleton events event ih =>
    rw [watched_concat] at htorn
    obtain ⟨op, reply⟩ := event
    have hearlier : (watched events).torn = false := by
      cases op with
      | save _ =>
        cases reply with
        | ok _ => exact htorn
        | error _ => cases htorn
      | isolation =>
        cases reply with
        | ok _ => exact htorn
        | error _ => exact htorn
      | _ => exact htorn
    rcases List.mem_append.mp hsave with hmem | hlast
    · exact ih hearlier hmem
    · cases List.mem_singleton.mp hlast
      cases answer with
      | ok _ => rfl
      | error _ => cases htorn

variable [Datetime] {runner : Runner} {recover : Bool} {events : List Event} {rest : Run String}

theorem run_once_watched (h : Reaches (runner.run_once recover) events rest) :
    Obeys placement (fun result after => Ends result after) rest (watched events) ∧
      ∀ before event after, events = before ++ event :: after →
      (watched before).allowed event.op := by
  have hobeys := Guards.run_once runner recover start ⟨rfl, rfl⟩ nofun
  exact (hobeys.weaken fun result after hafter => hafter.1).reaches h

/-- Every run keeps the guard where the source places it. -/
theorem run_once_placed (h : Reaches (runner.run_once recover) events rest) : Placed events := by
  intro before event after hsplit hprotected
  obtain ⟨_, _, hguarded, hadjacent⟩ := (run_once_watched h).2 before event after hsplit
  obtain ⟨earlier, since, hbefore, hsince, houtward⟩ := watched_guarded before (hguarded hprotected)
  exact ⟨earlier, since, hbefore, hsince, fun hop => houtward (hadjacent hop)⟩

/-- A guard that refuses ends the run, and every save before it succeeded. -/
theorem run_once_refused (h : Reaches (runner.run_once recover) events rest)
    {before after : List Event} {raised : Raised}
    (hsplit : events = before ++ ⟨.isolation, .error raised⟩ :: after) :
    after = [] ∧ rest = .done (.error raised) ∧
      ∀ journal answer, ⟨.save journal, answer⟩ ∈ before → answer = .ok () := by
  obtain ⟨hrest, hallowed⟩ := run_once_watched h
  have hrefused : (watched (before ++ [⟨.isolation, .error raised⟩])).refused = some raised := by
    rw [watched_concat]
    rfl
  have hafter : after = [] := by
    cases after with
    | nil => rfl
    | cons event after =>
      have hnone :=
        (hallowed (before ++ [⟨.isolation, .error raised⟩]) event after (by rw [hsplit]; simp)).1
      rw [hrefused] at hnone
      cases hnone
  subst hafter
  rw [hsplit] at hrest
  refine ⟨rfl, ?_, fun journal answer hsave => ?_⟩
  · cases rest with
    | done result => rw [(hrest raised hrefused).1]
    | call op next =>
      have hnone := hrest.1.1
      rw [hrefused] at hnone
      cases hnone
  · exact watched_saves before (hallowed before _ [] hsplit).2.1 hsave

end Traces

end pepeuch_worker
