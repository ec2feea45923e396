import PepeuchCluster.Worker.Isolation

namespace pepeuch_worker

open control_plane (ExecutionResult State isIdentifier)
open Program (Step Reaches Monitor Obeys)

/-! ### What is on disk when the guard refuses -/

/-- A result for the attempt of the request. -/
structure Fits (request : Json) (result : ExecutionResult) : Prop where
  publishable : Publishable result
  attempt_id : result.attempt_id = attempt_of request
  generation : result.generation = (request.item "generation").text

/-- A journal from which a recovery can go on. -/
structure Resumable [Datetime] (runner : Runner) (journal : Journal) : Prop where
  claim_id : operation_id journal.claim_id = .ok ()
  request : runner.accepted journal.request = .ok ()
  result : journal.result = .null ∨ ∃ result, Fits journal.request result ∧
    journal.result = result.to_dict

section Requests

variable [Datetime] {runner : Runner} {request : Json}

theorem validate_request_ok {capabilities : List control_plane.Capability}
    (h : validate_request request capabilities = .ok ()) :
    isIdentity (request.item "attempt_id") = true ∧ isIdentity (request.item "generation") = true ∧
      isDeadline (request.item "deadline") = true ∧ request ≠ .null := by
  simp only [validate_request, fields, Except.bind_eq_ok, Except.require_eq_ok,
    Except.forM_eq_ok] at h
  obtain ⟨_, hkeys, _, _, _, _, _, hids, _, _, _, _, h⟩ := h
  have hids' : ∀ x ∈ [request.item "attempt_id", request.item "generation"],
      isIdentity x = true := by
    intro x hx
    have hid := hids x (by simp only [List.mem_cons, List.not_mem_nil, or_false] at hx ⊢; tauto)
    rwa [identifier, Except.require_eq_ok] at hid
  refine ⟨hids' _ (by simp), hids' _ (by simp), ?_, ?_⟩
  · split at h
    · cases h
    · simp only [Except.bind_eq_ok, Except.require_eq_ok] at h
      obtain ⟨_, _, _, _, h⟩ := h
      split at h
      · simp only [Except.bind_eq_ok, Except.require_eq_ok] at h
        obtain ⟨_, _, _, hdeadline, _⟩ := h
        exact hdeadline
      · simp only [Except.bind_eq_ok, Except.require_eq_ok] at h
        obtain ⟨_, hdeadline, _⟩ := h
        exact hdeadline
  · rintro rfl
    cases hkeys

theorem accepted_ok (h : runner.accepted request = .ok ()) :
    isIdentity (request.item "attempt_id") = true ∧ isIdentity (request.item "generation") = true ∧
      isDeadline (request.item "deadline") = true ∧ request ≠ .null := by
  simp only [Runner.accepted, Except.bind_eq_ok] at h
  obtain ⟨_, hvalid, _⟩ := h
  exact validate_request_ok hvalid

omit [Datetime] in
theorem isIdentity_text {value : Json} (h : isIdentity value = true) :
    isIdentifier value.text = true := by
  cases value with
  | str s => exact h
  | _ => cases h

/-- The results of the runner itself are for the attempt of an accepted request. -/
theorem own_result_fits (h : runner.accepted request = .ok ()) {status : State}
    {error_code : Option String}
    (hstatus : status ∈ [State.completed, .failed, .interrupted, .cancelled])
    (herror : ∀ code ∈ error_code, code ∈ ExecutionResult.ERROR_CODES) :
    Fits request (own_result request status error_code) := by
  obtain ⟨hattempt, hgeneration, _, _⟩ := accepted_ok h
  exact ⟨⟨isIdentity_text hattempt, isIdentity_text hgeneration, hstatus, Nat.zero_le _, herror⟩,
    rfl, rfl⟩

theorem cancelled_fits (h : runner.accepted request = .ok ()) : Fits request (cancelled request) :=
  own_result_fits h (by simp) (by simp)

theorem interrupted_fits (h : runner.accepted request = .ok ()) :
    Fits request (interrupted request) :=
  own_result_fits h (by simp) (by simp [ExecutionResult.ERROR_CODES])

end Requests

section Journals

variable {runner : Runner} {data : Json} {journal : Journal}

theorem pending_some (h : runner.pending data = .ok (some journal)) :
    operation_id journal.claim_id = .ok () ∧ journal.request = data.item "request" ∧
      journal.result = data.item "result" := by
  unfold Runner.pending at h
  split at h
  · cases h
  · simp only [Except.bind_eq_ok] at h
    obtain ⟨_, _, _, _, _, hclaim, h⟩ := h
    split at h
    · cases h
    · simp only [Except.bind_eq_ok, Except.pure_eq_ok, Option.some.injEq] at h
      obtain ⟨_, _, rfl⟩ := h
      exact ⟨hclaim, rfl, rfl⟩

theorem document_item (journal : Journal) (done : Bool) (key : String) :
    (runner.document journal done).item key =
    (([("schema", Json.str JOURNAL_SCHEMA), ("worker_id", .str runner.worker_id),
      ("backend_url", .str runner.backend_url), ("credential_sha256", .str runner.fingerprint),
        ("claim_id", journal.claim_id), ("request", journal.request),
      ("result", journal.result), ("done", .bool done)].find? fun field => field.1 == key).map
    Prod.snd).getD .null :=
  Json.item_dict (by simp)

/-- A saved journal that is not done is pending again. -/
theorem pending_document (h : operation_id journal.claim_id = .ok ()) :
    runner.pending (runner.document journal false) = .ok (some journal) := by
  have hkeys : (runner.document journal false).HasKeys JOURNAL_FIELDS := Json.hasKeys_dict _ rfl
  have hnull : runner.document journal false ≠ .null := nofun
  unfold Runner.pending
  rw [if_neg hnull]
  simp [fields, Except.require, hkeys, document_item, h, Bind.bind, Except.bind,
    Pure.pure, Except.pure]

end Journals

/-- What a run leaves on disk: its last save, whether the guard refused, and whether the
    executor kept to its attempts. -/
structure Durability where
  saved : Option Json
  refused : Bool
  sound : Prop

def Durability.next (d : Durability) (event : Event) : Durability :=
  match event with
  | ⟨.isolation, .error _⟩ => { d with refused := true }
  | ⟨.save journal, .ok _⟩ => { d with saved := some journal }
  | ⟨.execute request, .ok result⟩ => { d with sound := d.sound ∧ Fits request result }
  | _ => d

def durability : Monitor Raised Call Reply Durability := ⟨fun _ _ => True, Durability.next⟩

section Durable

variable [Datetime] (runner : Runner)

/-- What was saved last, if anything, can be resumed. -/
def Resumes (saved : Option Json) : Prop :=
  ∀ content, saved = some content → ∃ journal, content = runner.document journal false ∧
    Resumable runner journal

/-- Where the guard refuses, what is on disk can be resumed. -/
def Kept {α : Type} (_ : Except Raised α) (d : Durability) : Prop :=
  d.refused = true → d.sound → Resumes runner d.saved

variable {runner} {α β : Type} {d : Durability}

theorem kept_of_calm {result : Except Raised α} (h : d.refused = false) : Kept runner result d := by
  intro hrefused
  rw [h] at hrefused
  cases hrefused

theorem Resumes.document {journal : Journal} (h : Resumable runner journal) :
    Resumes runner (some (runner.document journal false)) := by
  intro content hcontent
  obtain rfl := Option.some.inj hcontent
  exact ⟨journal, rfl, h⟩

theorem checked_bind {result : Except Failure α} {f : α → Run β} (hcalm : d.refused = false)
    (hok : ∀ a, result = .ok a → Obeys durability (Kept runner) (f a) d) :
    Obeys durability (Kept runner) (checked result >>= f) d := by
  cases result with
  | ok a => exact hok a rfl
  | error failure => exact kept_of_calm hcalm

theorem observe_state_bind {request : Json} {f : String → Run β} (hcalm : d.refused = false)
    (hok : ∀ state, Obeys durability (Kept runner) (f state) d) :
    Obeys durability (Kept runner) (observe_state request >>= f) d := by
  refine ⟨trivial, fun answer => ?_⟩
  cases answer with
  | ok reply => exact checked_bind hcalm fun state _ => hok state
  | error raised => exact kept_of_calm hcalm

theorem save_bind {journal : Journal} {done : Bool} {f : Unit → Run β} (hcalm : d.refused = false)
    (hok : Obeys durability (Kept runner) (f ())
      { d with saved := some (runner.document journal done) }) :
    Obeys durability (Kept runner) (runner.save journal done >>= f) d := by
  refine ⟨trivial, fun answer => ?_⟩
  cases answer with
  | ok _ => exact hok
  | error raised => exact kept_of_calm hcalm

theorem isolation_bind {f : Unit → Run β} (hkept : d.sound → Resumes runner d.saved)
    (hok : Obeys durability (Kept runner) (f ()) d) :
    Obeys durability (Kept runner) (ask .isolation >>= f) d := by
  refine ⟨trivial, fun answer => ?_⟩
  cases answer with
  | ok _ => exact hok
  | error raised => exact fun _ => hkept

theorem finish_kept {journal : Journal} {result : ExecutionResult} (hcalm : d.refused = false)
    (hkept : d.sound → Resumes runner d.saved) :
    Obeys durability (Kept runner) (runner.finish journal result) d := by
  refine isolation_bind hkept ⟨trivial, fun answer => ?_⟩
  cases answer with
  | error raised => exact kept_of_calm hcalm
  | ok acknowledgement =>
    exact checked_bind hcalm fun _ _ => save_bind hcalm (kept_of_calm hcalm)

theorem publish_kept {journal : Journal} {result : ExecutionResult} (hcalm : d.refused = false)
    (hkept : d.sound → Resumes runner d.saved) (hclaim : operation_id journal.claim_id = .ok ())
    (hrequest : runner.accepted journal.request = .ok ()) :
    Obeys durability (Kept runner) (runner.publish journal result) d := by
  unfold Runner.publish
  refine observe_state_bind hcalm fun state => ?_
  split
  · exact save_bind hcalm (kept_of_calm hcalm)
  · split
    · refine save_bind hcalm
        (finish_kept hcalm fun _ => Resumes.document ⟨hclaim, hrequest, .inr ?_⟩)
      exact ⟨_, cancelled_fits hrequest, rfl⟩
    · exact finish_kept hcalm hkept

/-- The result that is settled is for the attempt, unless the executor did not keep to it. -/
theorem settle_kept {journal : Journal} {pending : Bool} {state : String}
    (hcalm : d.refused = false) (hkept : journal.result = .null → d.sound → Resumes runner d.saved)
    (hrequest : runner.accepted journal.request = .ok ()) :
    Obeys durability (fun result after => Kept runner result after ∧
      ∀ r, result = .ok r → after.refused = false ∧ (after.sound → Fits journal.request r))
    (settle journal pending state) d := by
  have hown : ∀ {after : Durability} {result : ExecutionResult}, after.refused = false →
    Fits journal.request result →
      Kept runner (.ok result : Except Raised ExecutionResult) after ∧
      ∀ r, (.ok result : Except Raised ExecutionResult) = .ok r →
        after.refused = false ∧ (after.sound → Fits journal.request r) := by
    intro after result hafter hfits
    refine ⟨kept_of_calm hafter, fun r hr => ⟨hafter, fun _ => ?_⟩⟩
    rwa [← Except.ok.inj hr]
  unfold settle
  split
  · exact hown hcalm (cancelled_fits hrequest)
  · split
    · refine Obeys.ofExcept_bind (fun result hresult => ?_) fun _ _ => ⟨kept_of_calm hcalm, nofun⟩
      refine Obeys.require_bind (fun hmatch => ?_) fun _ => ⟨kept_of_calm hcalm, nofun⟩
      have hread := lifted_eq_ok.mp (Except.mapError_eq_ok.mp hresult)
      exact hown hcalm ⟨(from_dict_eq_ok.mp hread).2.2, hmatch.1, hmatch.2⟩
    · next hnull =>
      split
      · exact hown hcalm (interrupted_fits hrequest)
      · refine ⟨trivial, fun answer => ?_⟩
        cases answer with
        | error raised => exact ⟨fun _ => hkept (not_not.mp hnull), nofun⟩
        | ok _ =>
          refine ⟨trivial, fun answer => ?_⟩
          cases answer with
          | ok result => exact ⟨kept_of_calm hcalm,
              fun r hr => ⟨hcalm, fun hsound => Except.ok.inj hr ▸ hsound.2⟩⟩
          | error raised =>
            cases raised with
            | keyboard_interrupt => exact hown hcalm (interrupted_fits hrequest)
            | exception failure =>
              cases failure with
              | problem code status =>
                exact hown hcalm
                  (own_result_fits hrequest (by simp) (by simp [ExecutionResult.ERROR_CODES]))
              | _ => exact ⟨kept_of_calm hcalm, nofun⟩

theorem resume_kept {journal : Journal} {pending : Bool} (hcalm : d.refused = false)
    (hkept : runner.accepted journal.request = .ok () → journal.result = .null → d.sound →
      Resumes runner d.saved)
    (hclaim : operation_id journal.claim_id = .ok ()) :
    Obeys durability (Kept runner) (runner.resume journal pending) d := by
  unfold Runner.resume
  refine checked_bind hcalm fun _ hrequest => observe_state_bind hcalm fun state => ?_
  split
  · exact save_bind hcalm (kept_of_calm hcalm)
  · refine Obeys.bind (settle_kept hcalm (hkept hrequest) hrequest) (fun result after hafter => ?_)
      fun raised after hafter =>
      hafter.1
    obtain ⟨hquiet, hfits⟩ := hafter.2 result rfl
    refine save_bind hquiet
      (publish_kept hquiet (fun hsound => Resumes.document ?_) hclaim hrequest)
    exact ⟨hclaim, hrequest, .inr ⟨result, hfits hsound, rfl⟩⟩

theorem proceed_kept {journal : Journal} {pending : Bool} (hcalm : d.refused = false)
    (hkept : journal.request ≠ .null → d.saved = none)
    (hclaim : operation_id journal.claim_id = .ok ()) :
    Obeys durability (Kept runner) (runner.proceed journal pending) d := by
  unfold Runner.proceed
  split
  · next hrequest =>
    refine resume_kept hcalm (fun _ _ _ content hcontent => ?_) hclaim
    rw [hkept hrequest] at hcontent
    cases hcontent
  · refine ⟨trivial, fun answer => ?_⟩
    cases answer with
    | error raised => exact kept_of_calm hcalm
    | ok response =>
      refine checked_bind hcalm fun _ _ => ?_
      dsimp only
      split
      · exact save_bind hcalm (kept_of_calm hcalm)
      · refine checked_bind hcalm fun _ haccepted =>
          save_bind hcalm (resume_kept hcalm (fun _ hresult _ => ?_) hclaim)
        exact Resumes.document ⟨hclaim, haccepted, .inl hresult⟩

/-- Where the guard refuses, what the run has saved can be resumed. -/
theorem run_once_kept (recover : Bool) :
    Obeys durability (Kept runner) (runner.run_once recover) ⟨none, false, True⟩ := by
  have hnone : Resumes runner none := nofun
  refine ⟨trivial, fun answer => ?_⟩
  cases answer with
  | error raised => exact kept_of_calm rfl
  | ok _ =>
    refine isolation_bind (fun _ => hnone) ⟨trivial, fun answer => ?_⟩
    cases answer with
    | error raised => exact kept_of_calm rfl
    | ok data =>
      refine checked_bind rfl fun loaded hloaded => ?_
      cases loaded with
      | some journal =>
        have hclaim := (pending_some hloaded).1
        exact Obeys.require_bind (fun _ => proceed_kept rfl (fun _ => rfl) hclaim) fun _ =>
          kept_of_calm rfl
      | none =>
        dsimp only
        split
        · exact kept_of_calm rfl
        · refine ⟨trivial, fun answer => ?_⟩
          cases answer with
          | error raised => exact kept_of_calm rfl
          | ok claim_id =>
            refine save_bind rfl (proceed_kept rfl (fun h => absurd rfl h) ?_)
            rw [operation_id, Except.require_eq_ok]
            exact claim_id.2

end Durable

/-! ### What a recovery does -/

/-- What a recovery may do with the journal that it finds: nothing is computed, and what
    is published is the journaled result, an interruption where there is none, or the
    acknowledgement of a cancellation. -/
def Repeats (content : Json) (cancelling : Prop) : Call → Prop
  | .execute _ => False
  | .claim _ => content.item "request" = .null
  | .finish attempt_id payload =>
    ∃ request, attempt_id = attempt_of request ∧
      (content.item "request" ≠ .null → request = content.item "request") ∧
      (content.item "result" ≠ .null ∧ payload = content.item "result" ∨
        content.item "result" = .null ∧ payload = (interrupted request).to_dict ∨
          cancelling ∧ payload = (cancelled request).to_dict)
  | _ => True

/-- The backend has said that the attempt is being cancelled. -/
def Cancelling (events : List Event) : Prop :=
  ∃ attempt_id reply, ⟨.state attempt_id, .ok reply⟩ ∈ events ∧
    reply.item "state" = .str "cancel_requested"

/-- A recovery from a journal. -/
def Recovered (content : Json) (events : List Event) : Prop :=
  (∀ answer, ⟨.load, answer⟩ ∈ events → answer = .ok content) →
    ∀ before event after, events = before ++ event :: after →
    Repeats content (Cancelling before) event.op

structure Recovering where
  own : Prop
  cancelling : Prop

def Recovering.next (content : Json) (r : Recovering) (event : Event) : Recovering :=
  match event with
  | ⟨.load, answer⟩ => { r with own := r.own ∧ answer = .ok content }
  | ⟨.state _, .ok reply⟩ =>
    { r with cancelling := r.cancelling ∨ reply.item "state" = .str "cancel_requested" }
  | _ => r

def recovery (content : Json) : Monitor Raised Call Reply Recovering :=
  ⟨fun r op => r.own → Repeats content r.cancelling op, Recovering.next content⟩

section Recoveries

variable {runner : Runner} {content : Json} {r : Recovering}

/-- What is due for a request: the third disjunct of a publication aside, a result that
    does not depend on the backend. -/
def Due (content request : Json) (cancelling : Prop) (payload : Json) : Prop :=
  content.item "result" ≠ .null ∧ payload = content.item "result" ∨
    content.item "result" = .null ∧ payload = (interrupted request).to_dict ∨ cancelling ∧
    payload = (cancelled request).to_dict

theorem Due.mono {request payload : Json} {cancelling more : Prop}
    (h : Due content request cancelling payload) (hmore : cancelling → more) :
    Due content request more payload :=
  h.imp_right fun h => h.imp_right fun h => ⟨hmore h.1, h.2⟩

theorem finish_repeats {journal : Journal} {result : ExecutionResult}
    (hrequest : r.own → content.item "request" ≠ .null → journal.request = content.item "request")
    (hdue : r.own → Due content journal.request r.cancelling result.to_dict) :
    Obeys (recovery content) (fun _ _ => True) (runner.finish journal result) r := by
  refine Obeys.request_bind (fun _ => trivial) (fun _ => ?_) fun _ => trivial
  refine Obeys.request_bind (fun hown => ⟨journal.request, rfl, hrequest hown, hdue hown⟩)
    (fun _ => ?_) fun _ => trivial
  refine Obeys.ofExcept_bind (fun _ _ => ?_) fun _ _ => trivial
  exact Obeys.request_bind (fun _ => trivial) (fun _ => trivial) fun _ => trivial

theorem state_of_ok {request reply : Json} {state : String}
    (h : state_of request reply = .ok state) :
    reply.item "state" = .str state := by
  simp only [state_of, Except.bind_eq_ok, Except.require_eq_ok, Except.pure_eq_ok] at h
  obtain ⟨_, _, _, ⟨_, _, _, hstate⟩, rfl⟩ := h
  obtain ⟨text, _, htext⟩ := List.mem_map.mp hstate
  rw [← htext]
  rfl

theorem observe_state_repeats {request : Json} {f : String → Run String}
    (hok : ∀ state r', (r'.own → r.own) → (r.cancelling → r'.cancelling) →
      (state = "cancel_requested" → r'.cancelling) →
      Obeys (recovery content) (fun _ _ => True) (f state) r') :
    Obeys (recovery content) (fun _ _ => True) (observe_state request >>= f) r := by
  refine ⟨fun _ => trivial, fun answer => ?_⟩
  cases answer with
  | error raised => exact trivial
  | ok reply =>
    refine Obeys.ofExcept_bind (fun state hstate => ?_) fun _ _ => trivial
    refine hok state _ id .inl ?_
    rintro rfl
    exact .inr (state_of_ok (Except.mapError_eq_ok.mp hstate))

theorem save_repeats {journal : Journal} {done : Bool} {f : Unit → Run String}
    (hok : Obeys (recovery content) (fun _ _ => True) (f ()) r) :
    Obeys (recovery content) (fun _ _ => True) (runner.save journal done >>= f) r :=
  Obeys.request_bind (fun _ => trivial) (fun _ => hok) fun _ => trivial

theorem publish_repeats {journal : Journal} {result : ExecutionResult}
    (hrequest : r.own → content.item "request" ≠ .null → journal.request = content.item "request")
    (hdue : r.own → Due content journal.request r.cancelling result.to_dict) :
    Obeys (recovery content) (fun _ _ => True) (runner.publish journal result) r := by
  unfold Runner.publish
  refine observe_state_repeats fun state r' hown hcancelling hstate => ?_
  split
  · exact save_repeats trivial
  · split
    · next hcancel =>
      exact save_repeats
        (finish_repeats (fun h => hrequest (hown h)) fun _ => .inr (.inr ⟨hstate hcancel.1, rfl⟩))
    · exact finish_repeats (fun h => hrequest (hown h)) fun h => (hdue (hown h)).mono hcancelling

variable [Datetime]

theorem resume_repeats {journal : Journal} (hcontent : content.WellFormed)
    (hrequest : r.own → content.item "request" ≠ .null → journal.request = content.item "request")
    (hresult : r.own → journal.result = content.item "result") :
    Obeys (recovery content) (fun _ _ => True) (runner.resume journal true) r := by
  unfold Runner.resume
  refine Obeys.ofExcept_bind (fun _ _ => ?_) fun _ _ => trivial
  refine observe_state_repeats fun state r' hown hcancelling hstate => ?_
  split
  · exact save_repeats trivial
  · have hsettle :
      Obeys (recovery content) (fun settled after => after = r' ∧ ∀ result, settled = .ok result →
        r'.own → Due content journal.request r'.cancelling result.to_dict)
      (settle journal true state) r' := by
      unfold settle
      split
      · next hcancel =>
        refine ⟨rfl, fun result heq _ => .inr (.inr ⟨hstate hcancel, ?_⟩)⟩
        rw [Except.ok.inj heq]
      · split
        · next hnull =>
          refine Obeys.ofExcept_bind (fun read hread => ?_) fun _ _ => ⟨rfl, nofun⟩
          refine Obeys.require_bind (fun _ => ⟨rfl, fun result heq h => .inl ?_⟩) fun _ =>
            ⟨rfl, nofun⟩
          have hsame := hresult (hown h)
          have hdict := lifted_eq_ok.mp (Except.mapError_eq_ok.mp hread)
          rw [hsame] at hdict hnull
          rw [← Except.ok.inj heq]
          exact ⟨hnull, to_dict_from_dict (hcontent.item _) hdict⟩
        · next hnull =>
          refine ⟨rfl, fun result heq h => .inr (.inl ⟨?_, ?_⟩)⟩
          · rw [← hresult (hown h)]
            exact not_not.mp hnull
          · rw [Except.ok.inj heq]
    refine Obeys.bind hsettle (fun result after hafter => ?_) fun _ _ _ => trivial
    obtain ⟨rfl, hdue⟩ := hafter
    exact save_repeats (publish_repeats (fun h => hrequest (hown h)) (hdue result rfl))

theorem run_once_repeats (hcontent : content.WellFormed) :
    Obeys (recovery content) (fun _ _ => True) (runner.run_once true) ⟨True, False⟩ := by
  refine Obeys.request_bind (fun _ => trivial) (fun _ => ?_) fun _ => trivial
  refine Obeys.request_bind (fun _ => trivial) (fun _ => ?_) fun _ => trivial
  refine Obeys.request_bind (fun _ => trivial) (fun data => ?_) fun _ => trivial
  refine Obeys.ofExcept_bind (fun loaded hloaded => ?_) fun _ _ => trivial
  cases loaded with
  | none => exact trivial
  | some journal =>
    obtain ⟨_, hrequest, hresult⟩ := pending_some (Except.mapError_eq_ok.mp hloaded)
    refine Obeys.require_bind (fun _ => ?_) fun _ => trivial
    have hown : (True ∧ (Except.ok data : Except Raised Json) = .ok content) → data = content :=
      fun h => Except.ok.inj h.2
    change Obeys (recovery content) (fun _ _ => True) (runner.proceed journal true)
      ⟨True ∧ (Except.ok data : Except Raised Json) = .ok content, False⟩
    unfold Runner.proceed
    split
    · exact resume_repeats hcontent (fun h _ => hown h ▸ hrequest) fun h => hown h ▸ hresult
    · next hnull =>
      have hclaim : (True ∧ (Except.ok data : Except Raised Json) = .ok content) →
          content.item "request" = .null := by
        intro h
        rw [← hown h, ← hrequest]
        exact not_not.mp hnull
      refine Obeys.request_bind hclaim (fun response => ?_) fun _ => trivial
      refine Obeys.ofExcept_bind (fun _ _ => ?_) fun _ _ => trivial
      dsimp only
      split
      · exact save_repeats trivial
      · refine Obeys.ofExcept_bind (fun _ _ => ?_) fun _ _ => trivial
        exact save_repeats
          (resume_repeats hcontent (fun h hne => absurd (hclaim h) hne) fun h => hown h ▸ hresult)

omit [Datetime] in
theorem recovering_noted (events : List Event) :
    ((events.foldl (Recovering.next content) ⟨True, False⟩).own ↔
      ∀ answer, ⟨.load, answer⟩ ∈ events → answer = .ok content) ∧
      ((events.foldl (Recovering.next content) ⟨True, False⟩).cancelling ↔ Cancelling events) := by
  induction events using List.reverseRecOn with
  | nil => exact ⟨by simp, by simp [Cancelling]⟩
  | append_singleton events event ih =>
    obtain ⟨hown, hcancelling⟩ := ih
    rw [List.foldl_append, List.foldl_cons, List.foldl_nil]
    obtain ⟨op, answer⟩ := event
    have hloads :
      (∀ reply, ⟨.load, reply⟩ ∈ events ++ [(⟨op, answer⟩ : Event)] → reply = .ok content) ↔
        (∀ reply, ⟨.load, reply⟩ ∈ events → reply = .ok content) ∧
          ∀ reply, (⟨.load, reply⟩ : Event) = ⟨op, answer⟩ → reply = .ok content := by
      simp only [List.mem_append, List.mem_singleton, or_imp, forall_and]
    have hstates : Cancelling (events ++ [(⟨op, answer⟩ : Event)]) ↔ Cancelling events ∨
        ∃ attempt_id reply, (⟨.state attempt_id, .ok reply⟩ : Event) = ⟨op, answer⟩ ∧
          reply.item "state" = .str "cancel_requested" := by
      simp only [Cancelling, List.mem_append, List.mem_singleton, or_and_right, exists_or]
    rw [hloads, hstates]
    cases op with
    | load =>
      refine ⟨and_congr hown ⟨fun heq reply hreply => ?_, fun h => h answer rfl⟩, ?_⟩
      · cases hreply
        exact heq
      · rw [or_iff_left (by rintro ⟨_, _, heq, _⟩; cases heq)]
        exact hcancelling
    | state attempt_id =>
      cases answer with
      | ok reply =>
        refine ⟨hown.trans (and_iff_left (by rintro _ heq; cases heq)).symm,
          or_congr hcancelling ⟨fun heq => ?_, ?_⟩⟩
        · exact ⟨attempt_id, reply, rfl, heq⟩
        · rintro ⟨_, _, heq, hstate⟩
          cases heq
          exact hstate
      | error raised =>
        refine ⟨hown.trans (and_iff_left (by rintro _ heq; cases heq)).symm, ?_⟩
        rw [or_iff_left (by rintro ⟨_, _, heq, _⟩; cases heq)]
        exact hcancelling
    | _ =>
      refine ⟨hown.trans (and_iff_left (by rintro _ heq; cases heq)).symm, ?_⟩
      rw [or_iff_left (by rintro ⟨_, _, heq, _⟩; cases heq)]
      exact hcancelling

/-- A recovery repeats what the journal says. -/
theorem run_once_recovered (hcontent : content.WellFormed) {events : List Event} {rest : Run String}
    (h : Reaches (runner.run_once true) events rest) : Recovered content events := by
  intro hload before event after hsplit
  have hallowed := ((run_once_repeats hcontent).reaches h).2 before event after hsplit
  have hrepeats : Repeats content
      ((before.foldl (Recovering.next content) ⟨True, False⟩).cancelling) event.op :=
    hallowed ((recovering_noted before).1.mpr fun answer hanswer =>
      hload answer (hsplit ▸ List.mem_append_left _ hanswer))
  rwa [propext (recovering_noted before).2] at hrepeats

/-- What the backend answers while the attempt runs. -/
def running (request : Json) : Json :=
  .dict [("schema", .str "pepeuch.control-plane/attempt-state/v1"), ("state", .str "running"),
    ("deadline", request.item "deadline")]

omit [Datetime] in
theorem state_of_running {request : Json} (h : isDeadline (request.item "deadline") = true) :
    state_of request (running request) = .ok "running" := by
  have hkeys : (running request).HasKeys ["schema", "state", "deadline"] := Json.hasKeys_dict _ rfl
  have hitem : ∀ key, (running request).item key =
    (([("schema", Json.str "pepeuch.control-plane/attempt-state/v1"),
      ("state", .str "running"), ("deadline", request.item "deadline")].find? fun field =>
    field.1 == key).map
        Prod.snd).getD .null := fun key => Json.item_dict (by simp)
  have hnumber : isNumber (request.item "deadline") = true := by
    cases hvalue : request.item "deadline" with
    | number _ => rfl
    | _ => simp [hvalue, isDeadline] at h
  simp [state_of, fields, Except.require, hkeys, hitem, hnumber, Json.equal_refl, STATES, Bind.bind,
    Except.bind, Pure.pure, Except.pure, Json.text]

/-- Calls that succeed, up to the publication of a payload for the attempt. -/
def Publishes (runner : Runner) (content : Json) : Prop :=
  ∃ events request payload next,
    Reaches (runner.run_once true) events (.call (.finish (attempt_of request) payload) next) ∧
    ⟨.load, .ok content⟩ ∈ events ∧ (∀ event ∈ events, ∃ reply, event.answer = .ok reply) ∧
      request = content.item "request" ∧
        (content.item "result" ≠ .null ∧ payload = content.item "result" ∨
          content.item "result" = .null ∧ payload = (interrupted request).to_dict)

omit [Datetime] in
theorem reaches_state {request : Json} {f : String → Run String} {events : List Event}
    {rest : Run String} (h : isDeadline (request.item "deadline") = true)
    (hrest : Reaches (f "running") events rest) :
    Reaches (observe_state request >>= f)
      (⟨.state (attempt_of request), .ok (running request)⟩ :: events) rest := by
  refine .call ?_
  change Reaches (checked (state_of request (running request)) >>= f) events rest
  rw [state_of_running h]
  exact hrest

theorem reaches_proceed {data : Json} {journal : Journal} {events : List Event} {rest : Run String}
    (hdata : runner.pending data = .ok (some journal))
    (h : Reaches (runner.proceed journal true) events rest) :
    Reaches (runner.run_once true)
      (⟨.locked, .ok ()⟩ :: ⟨.isolation, .ok ()⟩ :: ⟨.load, .ok data⟩ :: events) rest := by
  refine .call (.call (.call ?_))
  change Reaches (checked (runner.pending data) >>= _) events rest
  rw [hdata]
  exact h

/-- From a journal that can be resumed, a recovery whose calls succeed publishes. -/
theorem publishes_of_resumable {journal : Journal} (h : Resumable runner journal) :
    Publishes runner (runner.document journal false) := by
  obtain ⟨_, _, hdeadline, hnull⟩ := accepted_ok h.request
  have hrequest : (runner.document journal false).item "request" = journal.request := by
    simp [document_item]
  have hresult : (runner.document journal false).item "result" = journal.result := by
    simp [document_item]
  obtain ⟨result, hfits, hsettle, hpayload⟩ : ∃ result, Fits journal.request result ∧
      settle journal true "running" = pure result ∧
        (journal.result ≠ .null ∧ result.to_dict = journal.result ∨
          journal.result = .null ∧ result.to_dict = (interrupted journal.request).to_dict) := by
    rcases h.result with hnone | ⟨result, hfits, hdict⟩
    · refine ⟨_, interrupted_fits h.request, ?_, .inr ⟨hnone, rfl⟩⟩
      simp [settle, hnone]
    · have hne : journal.result ≠ .null := by
        rw [hdict]
        nofun
      refine ⟨result, hfits, ?_, .inl ⟨hne, hdict.symm⟩⟩
      have hread : checked (lifted (ExecutionResult.from_dict journal.result)) =
          (pure result : Run ExecutionResult) := by
        rw [hdict, from_dict_to_dict hfits.publishable]
        rfl
      rw [settle, if_neg (by decide), if_pos hne, hread]
      change (Program.require (result.attempt_id = attempt_of journal.request ∧
        result.generation = (journal.request.item "generation").text) _ >>= fun _ => pure result) =
        _
      rw [Program.require, if_pos ⟨hfits.attempt_id, hfits.generation⟩]
      rfl
  let settled : Journal := { journal with result := result.to_dict }
  have hfinish : ∃ next, Reaches (runner.finish settled result) [⟨.isolation, .ok ()⟩]
      (.call (.finish (attempt_of journal.request) result.to_dict) next) := ⟨_, .call (.refl _)⟩
  obtain ⟨next, hfinish⟩ := hfinish
  have hpublish : Reaches (runner.publish settled result)
    [⟨.state (attempt_of journal.request), .ok (running journal.request)⟩,
      ⟨.isolation, .ok ()⟩] (.call (.finish (attempt_of journal.request) result.to_dict) next) :=
    reaches_state hdeadline hfinish
  have hresume : Reaches (runner.resume journal true)
    [⟨.state (attempt_of journal.request), .ok (running journal.request)⟩,
      ⟨.save (runner.document settled false), .ok ()⟩,
        ⟨.state (attempt_of journal.request), .ok (running journal.request)⟩,
      ⟨.isolation, .ok ()⟩] (.call (.finish (attempt_of journal.request) result.to_dict) next) := by
    unfold Runner.resume
    rw [h.request]
    refine reaches_state hdeadline ?_
    rw [if_neg (by decide), hsettle]
    exact .call hpublish
  refine ⟨[⟨.locked, .ok ()⟩, ⟨.isolation, .ok ()⟩, ⟨.load, .ok (runner.document journal false)⟩,
    ⟨.state (attempt_of journal.request), .ok (running journal.request)⟩,
      ⟨.save (runner.document settled false), .ok ()⟩,
    ⟨.state (attempt_of journal.request), .ok (running journal.request)⟩, ⟨.isolation, .ok ()⟩],
    journal.request,
    result.to_dict, next, reaches_proceed (pending_document h.claim_id) ?_, by
      simp, ?_, hrequest.symm, ?_⟩
  · rw [Runner.proceed, if_pos hnull]
    exact hresume
  · intro event hevent
    simp only [List.mem_cons, List.not_mem_nil, or_false] at hevent
    rcases hevent with rfl | rfl | rfl | rfl | rfl | rfl | rfl <;> exact ⟨_, rfl⟩
  · rw [hresult]
    exact hpayload

end Recoveries

/-- The executor returned results for the attempts that it was asked for. -/
def Sound (events : List Event) : Prop :=
  ∀ request result, ⟨.execute request, .ok result⟩ ∈ events → Fits request result

theorem durable_noted (content : Json) (events : List Event) :
    ((events.foldl Durability.next ⟨none, false, True⟩).saved.getD content = disk content events) ∧
      ((∃ journal, ⟨.save journal, .ok ()⟩ ∈ events) →
        (events.foldl Durability.next ⟨none, false, True⟩).saved ≠ none) ∧
        (Sound events → (events.foldl Durability.next ⟨none, false, True⟩).sound) := by
  induction events using List.reverseRecOn with
  | nil => exact ⟨rfl, fun ⟨_, h⟩ => absurd h List.not_mem_nil, fun _ => trivial⟩
  | append_singleton events event ih =>
    obtain ⟨hdisk, hsaved, hsound⟩ := ih
    have hearlier : Sound (events ++ [event]) → Sound events := fun h request result hmem =>
      h request result (List.mem_append_left _ hmem)
    rw [disk, List.foldl_append, List.foldl_append, List.foldl_cons, List.foldl_nil,
      List.foldl_cons, List.foldl_nil, ← disk]
    have hother : (∀ journal, event ≠ ⟨.save journal, .ok ()⟩) →
      (∃ journal, ⟨.save journal, .ok ()⟩ ∈ events ++ [event]) →
        (events.foldl Durability.next ⟨none, false, True⟩).saved ≠ none := by
      rintro hne ⟨journal, hmem⟩
      rcases List.mem_append.mp hmem with hmem | hlast
      · exact hsaved ⟨journal, hmem⟩
      · exact absurd (List.mem_singleton.mp hlast).symm (hne journal)
    obtain ⟨op, answer⟩ := event
    cases op with
    | save journal =>
      cases answer with
      | ok _ => exact ⟨rfl, fun _ => nofun, fun h => hsound (hearlier h)⟩
      | error raised =>
        exact ⟨hdisk, hother (by rintro _ heq; cases heq), fun h => hsound (hearlier h)⟩
    | execute request =>
      cases answer with
      | ok result =>
        exact ⟨hdisk, hother (by rintro _ heq; cases heq),
          fun h => ⟨hsound (hearlier h), h request result (by simp)⟩⟩
      | error raised =>
        exact ⟨hdisk, hother (by rintro _ heq; cases heq), fun h => hsound (hearlier h)⟩
    | isolation =>
      cases answer with
      | ok _ => exact ⟨hdisk, hother (by rintro _ heq; cases heq), fun h => hsound (hearlier h)⟩
      | error raised =>
        exact ⟨hdisk, hother (by rintro _ heq; cases heq), fun h => hsound (hearlier h)⟩
    | _ => exact ⟨hdisk, hother (by rintro _ heq; cases heq), fun h => hsound (hearlier h)⟩

/-- The law of a guarded run. Where the guard refuses, the run ends with its error after
    saves that all succeeded; a recovery from what is on disk computes nothing and
    publishes only what the journal says, and it can publish when the run had saved. -/
structure Isolated [Datetime] (runner : Runner) (events : List Event)
    (rest : Run String) : Prop where
  placed : Placed events
  refused : ∀ before raised after, events = before ++ ⟨.isolation, .error raised⟩ :: after →
    after = [] ∧ rest = .done (.error raised) ∧ ∀ journal answer, ⟨.save journal, answer⟩ ∈ before →
    answer = .ok ()
  recovered : ∀ before raised after, events = before ++ ⟨.isolation, .error raised⟩ :: after →
    ∀ content, (disk content before).WellFormed →
    ∀ later rest', Reaches (runner.run_once true) later rest' →
      Recovered (disk content before) later
  publishes : ∀ before raised after, events = before ++ ⟨.isolation, .error raised⟩ :: after →
    Sound before → (∃ journal, ⟨.save journal, .ok ()⟩ ∈ before) →
    ∀ content, Publishes runner (disk content before)

/-- Every run of a guarded runner, whatever its surroundings answer. -/
theorem run_once_isolated [Datetime] (runner : Runner) (recover : Bool) (events : List Event)
    (rest : Run String) (h : Reaches (runner.run_once recover) events rest) :
    Isolated runner events rest := by
  refine ⟨run_once_placed h, fun before raised after hsplit => run_once_refused h hsplit,
    fun before raised after hsplit content hcontent later rest' hlater =>
      run_once_recovered hcontent hlater,
    fun before raised after hsplit hsound hsaved content => ?_⟩
  obtain ⟨rfl, rfl, _⟩ := run_once_refused h hsplit
  have hobeys : Obeys durability (Kept runner) (runner.run_once recover) ⟨none, false, True⟩ :=
    run_once_kept recover
  obtain ⟨hkept, _⟩ := hobeys.reaches h
  rw [hsplit, List.foldl_append] at hkept
  obtain ⟨hdisk, hsome, hkeeps⟩ := durable_noted content before
  obtain ⟨saved, hlast⟩ := Option.ne_none_iff_exists'.mp (hsome hsaved)
  obtain ⟨journal, rfl, hresumable⟩ := hkept rfl (hkeeps hsound) saved hlast
  rw [← hdisk, show (before.foldl Durability.next ⟨none, false, True⟩).saved = _ from hlast]
  exact publishes_of_resumable hresumable

theorem checked_reached {α β : Type} {result : Except Failure β} {b : β}
    {f : β → Run α} {rest : Run α} {steps : List (Step Raised Call Reply)}
    (hresult : result = .ok b) (h : Reaches (f b) steps rest) :
    Reaches (checked result >>= f) steps rest :=
  .ofExcept_bind (by rw [hresult]; rfl) h

namespace Sample

def runner : Runner := ⟨"n_00000000000000000000000000000000", "http://127.0.0.1:8765", ""⟩

def claim_id : OperationId := ⟨"00000000-0000-4000-8000-000000000000", by decide⟩

def mission_id : String := "m_00000000000000000000000000000000"

/-- A request for the digest of a text. -/
def request : Json :=
  .dict [("schema", .str "pepeuch.control-plane/execution-request/v1"),
    ("attempt_id", .str "a_00000000000000000000000000000000"),
    ("generation", .str "g_00000000000000000000000000000000"),
    ("task", .dict [("schema", .str "pepeuch.control-plane/task/v1"),
      ("id", .str "t_00000000000000000000000000000000"), ("mission_id", .str mission_id),
        ("role", .str "cpu-text-digest"), ("capability", .str "cpu.text.sha256.v1"),
      ("worker_id", .str runner.worker_id), ("state", .str "running"), ("simulated", .bool false)]),
    ("mission",
      .dict [("id", .str mission_id), ("title", .str "Digest"), ("objective", .str "One digest")]),
    ("authorized_files", .arr []), ("started_at", .str "2026-01-01T00:00:00+00:00"),
    ("deadline", .number (.int 1767225660)), ("expected_version", .null)]

def running : Json :=
  .dict [("schema", .str "pepeuch.control-plane/attempt-state/v1"), ("state", .str "running"),
    ("deadline", .number (.int 1767225660))]

/-- The journal when the claim, the request and the result are known. -/
def journal (request result : Json) : Json :=
  runner.document ⟨.str claim_id.1, request, result⟩ false

/-- A run that claims, executes and saves the result, and whose guard refuses the publication. -/
def withheld : List (Step Raised Call Reply) :=
  [⟨.locked, .ok ()⟩, ⟨.isolation, .ok ()⟩, ⟨.load, .ok .null⟩, ⟨.uuid4, .ok claim_id⟩,
    ⟨.save (journal .null .null), .ok ()⟩,
    ⟨.claim (.dict [("operation_id", .str claim_id.1)]), .ok (.dict [("request", request)])⟩,
    ⟨.save (journal request .null), .ok ()⟩, ⟨.state (attempt_of request), .ok running⟩,
    ⟨.isolation, .ok ()⟩, ⟨.execute request, .ok (interrupted request)⟩,
    ⟨.save (journal request (interrupted request).to_dict), .ok ()⟩,
    ⟨.state (attempt_of request), .ok running⟩, ⟨.isolation, .error .keyboard_interrupt⟩]

theorem observed : Reaches (observe_state request) [⟨.state (attempt_of request), .ok running⟩]
    (.done (.ok "running")) := by
  have hrunning : state_of request running = .ok "running" := by decide
  refine .request_bind ?_
  rw [hrunning]
  exact .refl _

theorem withheld_reached [Datetime] (haccepted : runner.accepted request = .ok ()) :
    Reaches (runner.run_once false) withheld (.done (.error .keyboard_interrupt)) := by
  have hclaimed : fields (Json.dict [("request", request)]) ["request"] = .ok () :=
    Except.require_holds (Json.hasKeys_dict _ rfl)
  have hrequest : (Json.dict [("request", request)]).item "request" = request :=
    Json.item_dict (by simp)
  have hnull : request ≠ .null := nofun
  unfold Runner.run_once
  refine .request_bind (.request_bind (.request_bind (.ofExcept_bind (b := none) rfl ?_)))
  refine .request_bind (.request_bind (.request_bind (checked_reached hclaimed ?_)))
  rw [hrequest]
  dsimp only
  rw [if_neg hnull]
  refine checked_reached haccepted (.request_bind (checked_reached haccepted (.bind observed ?_)))
  have hsettled : Reaches (settle ⟨.str claim_id.1, request, .null⟩ false "running")
      [⟨.isolation, .ok ()⟩, ⟨.execute request, .ok (interrupted request)⟩]
        (.done (.ok (interrupted request))) :=
    .call (.call (.refl _))
  rw [if_neg (by simp)]
  refine .bind hsettled (.request_bind (.bind observed ?_))
  rw [if_neg (by simp), if_neg (by simp)]
  exact .call (.refl _)

end Sample

/-- The guard refuses a run that has claimed, executed and saved its result. -/
theorem refused_isolated : ∃ (_ : Datetime) (rest : Run String),
    Reaches (Sample.runner.run_once false) Sample.withheld rest ∧
      Isolated Sample.runner Sample.withheld rest := by
  let _ : Datetime := ⟨fun _ => some (some 0)⟩
  have haccepted : Sample.runner.accepted Sample.request = .ok () := by decide
  have h := Sample.withheld_reached haccepted
  exact ⟨_, _, h, run_once_isolated Sample.runner false _ _ h⟩

end pepeuch_worker
