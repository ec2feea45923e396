import PepeuchCluster.Worker.FailClosed
import PepeuchCluster.Worker.Frames
import PepeuchCluster.Json.Ordered

namespace pepeuch_worker

open control_plane (canonical encode encode_canonical_length)

/-! ### What is raised -/

/-- A failure that `check` turns into its refusal. -/
abbrev Caught (failure : Failure) : Prop := isCaught failure = true

theorem caught_of_refusal {failure : Failure} (h : Refusal failure) : Caught failure := by
  cases failure <;> first | rfl | cases h

theorem returned_caught {α : Type} (result : Syscall α) :
    Except.Fails Caught (returned result) := by
  cases result with
  | ok a => exact .ok a
  | error fault => cases fault <;> exact .error rfl

theorem demand_caught {condition : Prop} [Decidable condition] :
    Except.Fails Caught (Except.require condition unverified) :=
  .require rfl

theorem credentials_caught (ancillary : List Ancillary) :
    Except.Fails Caught (credentials_of ancillary) := by
  induction ancillary with
  | nil => exact .ok _
  | cons message rest ih =>
    cases message with
    | credentials value => exact ih.bind fun _ _ => .ok _
    | other closed => exact (returned_caught closed).bind fun _ _ => ih.bind fun _ _ => .ok _

theorem writer_of_caught (writer : Option Credentials) (arrival : Arrival) :
    Except.Fails Caught (writer_of writer arrival) := by
  refine (credentials_caught _).bind fun ⟨credentials, unexpected⟩ _ => ?_
  dsimp only
  split
  · exact demand_caught.bind fun _ _ => .ok _
  · exact .error rfl

theorem receive_caught (deadline : ℚ) (size : Nat) (arrivals : List Arrival) :
    ∀ (writer : Option Credentials) (parts : List UInt8),
      Except.Fails Caught (receive deadline size writer parts arrivals) := by
  induction arrivals with
  | nil =>
    intro writer parts
    rw [receive]
    split
    · exact .error rfl
    · exact .ok _
  | cons arrival arrivals ih =>
    intro writer parts
    rw [receive]
    split
    · exact demand_caught.bind fun _ _ => (returned_caught _).bind fun _ _ =>
        (writer_of_caught _ _).bind fun _ _ =>
        demand_caught.bind fun _ _ => ih _ _
    · exact .ok _

theorem lifted_caught {α : Type} (result : Except control_plane.Failure α) :
    Except.Fails Caught (lifted result) := by
  unfold lifted
  split
  · exact .ok _
  · exact .error rfl
  · exact .error rfl
  · exact .error rfl
  · exact .error rfl

theorem decode_caught [Codecs] (raw : List UInt8) : Except.Fails Caught (decode_bytes raw) := by
  unfold decode_bytes
  split
  · refine (lifted_caught _).bind fun value _ => Except.Fails.bind ?_ fun _ _ => .ok _
    unfold decoded
    cases Json.traverse () () Codecs.decode_depth value with
    | ok _ => exact .ok _
    | error _ => exact .error rfl
  · exact .error rfl

theorem transfer_caught [Codecs] {python : Interpreter} {peer : Peer} {raw : Json}
    (h : raw.depth ≤ python.encode_depth) :
    Except.Fails Caught (python.transfer peer raw) := by
  have htraverse : Except.Fails Caught
      (Json.traverse Failure.recursion_error .value_error python.encode_depth raw) :=
    fun _ herror => Json.traverse_error raw h herror ▸ rfl
  have hwritten : Except.Fails Caught (python.written raw) := htraverse.bind fun _ _ =>
    demand_caught.bind fun _ _ => .ok _
  refine (returned_caught _).bind fun _ _ => hwritten.bind fun _ _ =>
    (returned_caught _).bind fun _ _ =>
    (receive_caught _ _ _ _ _).bind fun _ _ => demand_caught.bind fun _ _ => ?_
  exact (receive_caught _ _ _ _ _).bind fun _ _ => (decode_caught _).bind fun _ _ => .ok _

theorem get_caught (data : Json) (key : String) : Except.Fails Caught (get data key) := by
  unfold get
  split
  · exact .ok _
  · exact .error rfl

theorem subscript_caught (data : Json) (key : String) : Except.Fails Caught (subscript data key) :=
  (subscript_refusal data key).weaken fun _ => caught_of_refusal

theorem fields_caught (data : Json) (required : List String) :
    Except.Fails Caught (fields data required) :=
  (fields_fails data required).weaken fun _ => caught_of_refusal

theorem digest_caught {python : Interpreter} {data : Json} (h : data.depth ≤ python.encode_depth) :
    Except.Fails Caught (python.digest data) :=
  (Interpreter.digest_refusal h).weaken fun _ => caught_of_refusal

theorem reads_caught {data : Json} {key : String} {expected : Except Failure Json}
    (h : Except.Fails Caught expected) :
    Except.Fails Caught (reads data key expected) :=
  (get_caught data key).bind fun _ _ => h.bind fun _ _ => .ok _

theorem guaranteed_caught (item : Json) : Except.Fails Caught (guaranteed item) :=
  (fields_caught _ _).bind fun _ _ => demand_caught

section Session

variable {session : VerificationSession} {python : Interpreter} {call : Surroundings}
  {reply context : Json} {nonce : String}

theorem configuration_depth (session : VerificationSession) (python : Interpreter) :
    session.configuration.data.depth ≤ python.encode_depth := by
  have hdepth := session.configuration.depth
  have henough := python.enough
  have hencode := python.copy_le_encode
  omega

theorem matching_caught : Except.Fails Caught (session.matching python call context) := by
  have hfour : ∀ (data : Json) (key : String), Except.Fails Caught (four <$> subscript data key) :=
    fun data key => (four_fails data key).weaken fun _ => caught_of_refusal
  have hdigest :
      Except.Fails Caught (do return Json.str (← python.digest session.configuration.data)) :=
    (digest_caught (configuration_depth session python)).bind fun _ _ => .ok _
  refine (subscript_caught _ _).bind fun profile _ =>
    (get_caught _ _).bind fun status _ => .every ?_
  refine List.forall_mem_append.mpr ⟨?_, List.forall_mem_map.mpr fun key _ => reads_caught (.ok _)⟩
  simp only [List.forall_mem_cons]
  exact ⟨reads_caught (.ok _), .ok _, (subscript_caught _ _).bind fun _ _ => .ok _,
    (subscript_caught _ _).bind fun _ _ => .ok _, .ok _, (subscript_caught _ _).bind fun _ _ =>
      .ok _, reads_caught hdigest,
    reads_caught (hfour _ _), reads_caught (hfour _ _), reads_caught (.ok _), List.forall_mem_nil _⟩

theorem context_caught : Except.Fails Caught (session.context_of python call) :=
  demand_caught.bind fun _ _ => (returned_caught _).bind fun _ _ => demand_caught.bind fun _ _ =>
    (returned_caught _).bind fun _ _ => demand_caught.bind fun _ _ =>
      (get_caught _ _).bind fun _ _ =>
      demand_caught.bind fun _ _ => (get_caught _ _).bind fun _ _ => demand_caught.bind fun _ _ =>
        (get_caught _ _).bind fun _ _ => demand_caught.bind fun _ _ =>
          (subscript_caught _ _).bind fun _ _ =>
          matching_caught.bind fun _ _ => demand_caught.bind fun _ _ => .ok _

theorem same_caught {pinned : Json} (hpinned : pinned.depth ≤ python.encode_depth)
    (h : context.depth ≤ python.encode_depth) :
    Except.Fails Caught (python.same pinned context) :=
  (digest_caught hpinned).bind fun _ _ => (digest_caught h).bind fun _ _ => .ok _

theorem scope_caught (h : context.depth ≤ python.encode_depth) :
    Except.Fails Caught (python.scope reply session.configuration.data context nonce) :=
  (fields_caught _ _).bind fun _ _ => demand_caught.bind fun _ _ =>
    (digest_caught h).bind fun _ _ =>
    demand_caught.bind fun _ _ =>
      (digest_caught (configuration_depth session python)).bind fun _ _ =>
      demand_caught.bind fun _ _ => (subscript_caught _ _).bind fun _ _ =>
        (subscript_caught _ _).bind fun _ _ =>
        demand_caught.bind fun _ _ => demand_caught

/-- A decision whose window is within the floats raises only what is caught. -/
theorem validate_caught {now : Reading} (h : context.depth ≤ python.encode_depth)
    (hwindow : python.scope reply session.configuration.data context nonce = .ok () →
      ¬ Overflowing (reply.item "issued_monotonic") (reply.item "expires_monotonic")) :
    Except.Fails Caught
      (python.validate_decision reply session.configuration.data context nonce now.value) := by
  refine (scope_caught h).bind fun _ hscope => ?_
  obtain ⟨current, hcurrent, _⟩ : ∃ current,
    isCurrent (reply.item "issued_monotonic") (reply.item "expires_monotonic")
      now.value 2 = .ok current ∧ (current = true ↔ OpenWindow (reply.item "issued_monotonic")
        (reply.item "expires_monotonic") now.value 2) := isCurrent_ok (hwindow hscope)
  rw [hcurrent]
  exact demand_caught.bind fun _ _ => demand_caught.bind fun _ _ => .forM fun entry _ =>
    guaranteed_caught entry.2

end Session

/-! ### Checks -/

/-- A call that the code follows to its end: what is left open can be closed, the duplicate where no
    socket is made of it and the socket where the decision is valid; the context that is admitted is
    not too deep, and the window of a decision for it is within the floats. -/
structure VerificationSession.Follows [Codecs] (session : VerificationSession)
    (python : Interpreter) (call : Surroundings) : Prop where
  close_duplicate : call.dup = .ok () → call.socket ≠ .ok () → call.close_duplicate = .ok ()
  close : ∀ context reply writer, session.context_of python call = .ok context →
    python.transfer call.peer (session.request call context) = .ok (reply, writer) →
      python.validate_decision reply session.configuration.data context call.nonce
        call.now.value = .ok () → call.close = .ok ()
  shallow : ∀ context, session.context_of python call = .ok context →
    context.depth < python.encode_depth ∧ context.depth ≤ python.copy_depth
  window : ∀ context reply writer, session.context_of python call = .ok context →
    python.transfer call.peer (session.request call context) = .ok (reply, writer) →
      python.scope reply session.configuration.data context call.nonce = .ok () →
        ¬ Overflowing (reply.item "issued_monotonic") (reply.item "expires_monotonic")

section Checks

variable [Codecs] {session : VerificationSession} {python : Interpreter}
  {call : Surroundings} {pins : Pins}

theorem attempt_caught (h : session.Follows python call)
    (hpins : ∀ pinned ∈ pins.context, pinned.depth ≤ python.encode_depth) :
    Except.Fails Caught (session.attempt python pins call) := by
  have hencode := python.copy_le_encode
  have henough := python.enough
  refine context_caught.bind fun context hcontext => ?_
  obtain ⟨hless, hcopy⟩ := h.shallow context hcontext
  have hsame : Except.Fails Caught (VerificationSession.same_context python pins context) := by
    unfold VerificationSession.same_context
    split
    · exact .ok _
    · next pinned hpinned => exact (same_caught (hpins pinned hpinned) hless.le).bind fun _ _ =>
        demand_caught
  have hrequest : (session.request call context).depth ≤ python.encode_depth := by
    have hconfiguration := session.configuration.depth
    obtain ⟨room, hroom⟩ : ∃ room, python.encode_depth = room + 1 :=
      ⟨python.encode_depth - 1, by omega⟩
    rw [hroom]
    refine Json.depth_dict ?_
    simp only [List.forall_mem_cons]
    exact ⟨Nat.zero_le _, Nat.zero_le _, by omega, by omega, List.forall_mem_nil _⟩
  refine hsame.bind fun _ _ => (transfer_caught hrequest).bind fun ⟨reply, writer⟩ htransfer => ?_
  refine (validate_caught hless.le fun hscope =>
    h.window context reply writer hcontext htransfer hscope).bind fun _ _ =>
    demand_caught.bind fun _ _ => ?_
  rw [Interpreter.deepcopy_self hcopy]
  exact .ok _

/-- What a session has pinned after a successful check. -/
structure Pin where
  context_sha256 : String
  writer : Credentials
  policy_sha256 : Json

/-- The reply permits the call that it answers: with its nonce, in a window of two seconds that
    is open, with every check enforced and verified. -/
structure Permits (reply : Json) (call : Surroundings) : Prop where
  nonce : reply.item "nonce" = .str call.nonce
  lease : OpenWindow (reply.item "issued_monotonic")
    (reply.item "expires_monotonic") call.now.value 2
  checks : (reply.item "guarantees").HasKeys CHECKS
  guarantees : ∀ entry ∈ (reply.item "guarantees").entries,
    entry.2.item "enforced" = .bool true ∧ entry.2.item "verified" = .bool true

/-- What a successful check carries. -/
structure Permitted (python : Interpreter) (call : Surroundings) (pin : Pin) : Prop where
  context : python.digest (call.observations.item "process") = .ok pin.context_sha256
  reply : ∃ reply, Received call.peer reply pin.writer ∧
    reply.item "policy_sha256" = pin.policy_sha256 ∧ Permits reply call

/-- The pins of a session that has succeeded. -/
structure Pins.Hold (pins : Pins) (python : Interpreter) (pin : Pin) : Prop where
  context : ∃ pinned, pins.context = some pinned ∧ python.digest pinned = .ok pin.context_sha256
  writer : pins.writer = some pin.writer
  policy_sha256 : pins.policy_sha256 = some pin.policy_sha256

/-- What is pinned can be encoded. -/
def Pins.Shallow (pins : Pins) (python : Interpreter) : Prop :=
  ∀ pinned ∈ pins.context, pinned.depth ≤ python.encode_depth

omit [Codecs] in
theorem context_of_process {context : Json} (h : session.context_of python call = .ok context) :
    context = call.observations.item "process" := by
  simp only [VerificationSession.context_of, Except.bind_eq_ok, Except.pure_eq_ok] at h
  obtain ⟨_, _, _, _, _, _, _, _, _, _, _, _, _, _, _, _, _, _, _, _, _, _, process, hprocess, _,
    _, _, _, rfl⟩ := h
  exact (subscript_eq_ok hprocess).symm

omit [Codecs] in
theorem isDigest_text {data : Json} (h : isDigest data = true) : ∃ text, data = .str text := by
  cases data with
  | str text => exact ⟨text, rfl⟩
  | _ => simp [isDigest, isHexText] at h

omit [Codecs] in
/-- A window that passes its test is open. -/
theorem window_of_current {issued expires : Json} {now : Reading} {seconds : Int}
    (h : isCurrent issued expires now.value seconds = .ok true) :
    OpenWindow issued expires now.value seconds := by
  by_cases hoverflow : Overflowing issued expires
  · rw [isCurrent_overflow hoverflow] at h
    cases h
  · obtain ⟨current, hcurrent, hopen⟩ : ∃ current,
      isCurrent issued expires now.value seconds = .ok current ∧
        (current = true ↔ OpenWindow issued expires now.value seconds) := isCurrent_ok hoverflow
    exact hopen.mp (Except.ok.inj (hcurrent.symm.trans h))

omit [Codecs] in
/-- What a valid decision says. -/
theorem validate_ok {reply configuration context : Json}
    (h : python.validate_decision reply configuration context call.nonce call.now.value = .ok ()) :
    Permits reply call ∧ (∃ text, reply.item "policy_sha256" = .str text) ∧
      ∃ text, python.digest context = .ok text := by
  simp only [Interpreter.validate_decision, Except.bind_eq_ok, Except.require_eq_ok,
    Except.forM_eq_ok, exists_const] at h
  obtain ⟨_, hscope, current, hcurrent, rfl, hkeys, hentries⟩ := h
  simp only [Interpreter.scope, Except.bind_eq_ok, Except.require_eq_ok, exists_const] at hscope
  obtain ⟨_, _, ⟨_, hnonce, _⟩, text, htext, _, _, _, _, _, _, _, _, _, hpolicy, _⟩ := hscope
  refine ⟨⟨hnonce, window_of_current hcurrent, hkeys, fun entry hentry => ?_⟩,
    isDigest_text hpolicy, text, htext⟩
  have hguaranteed := hentries entry hentry
  simp only [guaranteed, Except.bind_eq_ok, Except.require_eq_ok] at hguaranteed
  obtain ⟨_, _, henforced, hverified, _⟩ := hguaranteed
  exact ⟨henforced, hverified⟩

/-- An attempt that succeeds is permitted, and pins what it carries. -/
theorem attempt_ok {pins' : Pins} (h : session.attempt python pins call = .ok pins') :
    ∃ pin, Permitted python call pin ∧ pins'.Hold python pin ∧ pins'.Shallow python ∧
      ∀ other, pins.Hold python other → pin = other := by
  simp only [VerificationSession.attempt, Except.bind_eq_ok, Except.require_eq_ok,
    Except.pure_eq_ok, exists_const, Prod.exists, Interpreter.deepcopy_eq_ok] at h
  obtain ⟨context, hcontext, _, hsame, reply, writer, htransfer, _, hvalid, ⟨hwriter, hpolicy⟩, _,
    ⟨hcopy, rfl⟩, rfl⟩ := h
  obtain ⟨value, rfl, hreceived⟩ := transfer_ok htransfer
  obtain ⟨hpermits, ⟨text, htext⟩, sha, hsha⟩ := validate_ok hvalid
  obtain rfl := context_of_process hcontext
  refine ⟨⟨sha, value, reply.item "policy_sha256"⟩, ⟨hsha, reply, hreceived, rfl, hpermits⟩,
    ⟨⟨_, rfl, hsha⟩, rfl, rfl⟩, ?_, fun other hother => ?_⟩
  · rintro _ ⟨⟩
    exact hcopy.trans python.copy_le_encode
  · obtain ⟨⟨pinned, hpinned, hdigest⟩, hfirst, hsecond⟩ := hother
    obtain ⟨context_sha256, other, policy_sha256⟩ := other
    simp only [VerificationSession.same_context, hpinned, Except.bind_eq_ok, Except.require_eq_ok,
      Interpreter.same, Except.pure_eq_ok] at hsame
    obtain ⟨_, ⟨own, hown, expected, hexpected, rfl⟩, hequal⟩ := hsame
    obtain rfl : context_sha256 = own := Except.ok.inj (hdigest.symm.trans hown)
    obtain rfl : sha = expected := Except.ok.inj (hsha.symm.trans hexpected)
    obtain rfl : context_sha256 = sha := of_decide_eq_true hequal
    obtain rfl : other = value := Option.some.inj (hwriter other hfirst)
    have hpolicies := hpolicy policy_sha256 hsecond
    rw [htext, Json.equal_str] at hpolicies
    rw [hpolicies, htext]

/-- A check that succeeds has succeeded in its attempt. -/
theorem check_ok {pins' : Pins} (h : session.check python pins call = (.ok (), pins')) :
    session.attempt python pins call = .ok pins' := by
  unfold VerificationSession.check at h
  split at h
  · cases h
  · split at h
    · cases h
    · cases h
    · cases h
    · split at h
      · next hattempt _ =>
        obtain ⟨_, rfl⟩ := Prod.mk.inj h
        exact hattempt
      · cases h
      · cases h
      · cases h

/-- The socket of an attempt that succeeds can be closed. -/
theorem attempt_closes {pins' : Pins} (hfollows : session.Follows python call)
    (h : session.attempt python pins call = .ok pins') : call.close = .ok () := by
  simp only [VerificationSession.attempt, Except.bind_eq_ok, Prod.exists] at h
  obtain ⟨context, hcontext, _, _, reply, writer, htransfer, _, hvalid, _⟩ := h
  exact hfollows.close context reply writer hcontext htransfer hvalid

/-- A check that the code follows and that does not succeed raises the one refusal, and
    leaves what was pinned. -/
theorem check_refused (hfollows : session.Follows python call) (hpins : pins.Shallow python)
    (h : (session.check python pins call).1 ≠ .ok ()) :
    session.check python pins call = (.error unverified, pins) := by
  have hraised : ∀ {failure : Failure}, Caught failure →
      raised failure = .error unverified := fun hcaught =>
    congrArg Except.error (if_pos hcaught)
  unfold VerificationSession.check at h ⊢
  by_cases hdescriptor : isDescriptor session.descriptor = false
  · rw [if_pos hdescriptor, hraised rfl]
  rw [if_neg hdescriptor] at h ⊢
  cases hdup : call.dup with
  | error fault =>
    exact congrArg (·, pins) (hraised (returned_caught (.error fault : Syscall Unit) _ rfl))
  | ok _ =>
    cases hsocket : call.socket with
    | error fault =>
      have hclose := hfollows.close_duplicate hdup (by rw [hsocket]; nofun)
      rw [hclose]
      exact congrArg (·, pins) (hraised (returned_caught (.error fault : Syscall Unit) _ rfl))
    | ok _ =>
      cases hattempt : session.attempt python pins call with
      | error failure =>
        have hcaught := attempt_caught hfollows hpins failure hattempt
        cases hclose : call.close with
        | ok _ => exact congrArg (·, pins) (hraised hcaught)
        | error fault =>
          exact congrArg (·, pins) (hraised (returned_caught (.error fault : Syscall Unit) _ rfl))
      | ok pins' =>
        rw [hdup, hsocket, hattempt, attempt_closes hfollows hattempt] at h
        exact absurd rfl h

omit [Codecs] in
theorem hold_unique {pin other : Pin} (h : pins.Hold python pin) (h' : pins.Hold python other) :
    pin = other := by
  obtain ⟨context, writer, policy⟩ := pin
  obtain ⟨context', writer', policy'⟩ := other
  obtain ⟨⟨pinned, hpinned, hdigest⟩, hwriter, hpolicy⟩ := h
  obtain ⟨⟨pinned', hpinned', hdigest'⟩, hwriter', hpolicy'⟩ := h'
  obtain rfl := Option.some.inj (hpinned.symm.trans hpinned')
  obtain rfl : context = context' := Except.ok.inj (hdigest.symm.trans hdigest')
  obtain rfl : writer = writer' := Option.some.inj (hwriter.symm.trans hwriter')
  obtain rfl : policy = policy' := Option.some.inj (hpolicy.symm.trans hpolicy')
  rfl

end Checks

/-! ### Sessions -/

/-- One call of `check` in a session. -/
structure Step where
  before : Pins
  call : Surroundings
  result : Except Failure Unit
  after : Pins

/-- The calls of a session, one after the other. -/
def VerificationSession.steps [Codecs] (session : VerificationSession) (python : Interpreter) :
    Pins → List Surroundings → List Step
  | _, [] => []
  | pins, call :: rest =>
    let (result, after) := session.check python pins call
    ⟨pins, call, result, after⟩ :: session.steps python after rest

/-- The law of a session: an unsuccessful check raises the one refusal and leaves what was
    pinned, and all successful ones carry the same pin. -/
structure Pinned [Codecs] (python : Interpreter) (steps : List Step) : Prop where
  refused : ∀ step ∈ steps, step.result ≠ .ok () → step.result = .error unverified ∧
    step.after = step.before
  permitted : ∃ pin, ∀ step ∈ steps, step.result = .ok () → Permitted python step.call pin

section Sessions

variable [Codecs] {session : VerificationSession} {python : Interpreter}

/-- From any pins, the checks that succeed carry those pins, or all the same new ones. -/
theorem steps_pinned {calls : List Surroundings} (h : ∀ call ∈ calls, session.Follows python call) :
    ∀ {pins : Pins}, pins.Shallow python →
      (∀ step ∈ session.steps python pins calls, step.result ≠ .ok () →
        step.result = .error unverified ∧ step.after = step.before) ∧
      ∃ pin, (∀ other, pins.Hold python other → pin = other) ∧
        ∀ step ∈ session.steps python pins calls, step.result = .ok () →
        Permitted python step.call pin := by
  induction calls with
  | nil =>
    intro pins _
    refine ⟨List.forall_mem_nil _, ?_⟩
    by_cases hhold : ∃ pin, pins.Hold python pin
    · obtain ⟨pin, hpin⟩ := hhold
      exact ⟨pin, fun other hother => hold_unique hpin hother, List.forall_mem_nil _⟩
    · exact ⟨⟨"", ⟨0, 0, 0⟩, .null⟩, fun other hother => absurd ⟨other, hother⟩ hhold,
        List.forall_mem_nil _⟩
  | cons call rest ih =>
    intro pins hpins
    obtain ⟨hcall, hrest⟩ := List.forall_mem_cons.mp h
    rw [VerificationSession.steps]
    cases hcheck : session.check python pins call with
    | mk result after =>
      dsimp only
      by_cases hok : result = .ok ()
      · subst hok
        obtain ⟨pin, hpermitted, hhold, hshallow, hsame⟩ := attempt_ok (check_ok hcheck)
        obtain ⟨hrefused, other, hother, hothers⟩ := ih hrest hshallow
        obtain rfl := hother pin hhold
        refine ⟨List.forall_mem_cons.mpr ⟨fun hne => absurd rfl hne, hrefused⟩, other, hsame, ?_⟩
        exact List.forall_mem_cons.mpr ⟨fun _ => hpermitted, hothers⟩
      · have hfirst : (session.check python pins call).1 ≠ .ok () := by
          rw [hcheck]
          exact hok
        obtain ⟨rfl, rfl⟩ := Prod.mk.inj (hcheck.symm.trans (check_refused hcall hpins hfirst))
        obtain ⟨hrefused, pin, hpin, hothers⟩ := ih hrest hpins
        refine ⟨List.forall_mem_cons.mpr ⟨fun _ => ⟨rfl, rfl⟩, hrefused⟩, pin, hpin, ?_⟩
        exact List.forall_mem_cons.mpr ⟨fun heq => absurd heq hok, hothers⟩

/-- Every sequence of checks that the code follows to their end keeps to one pin. -/
theorem session_pinned (session : VerificationSession) (python : Interpreter)
    (calls : List Surroundings) (h : ∀ call ∈ calls, session.Follows python call) :
    Pinned python (session.steps python .start calls) := by
  have hstart : Pins.start.Shallow python := nofun
  obtain ⟨hrefused, pin, _, hpermitted⟩ := steps_pinned h hstart
  exact ⟨hrefused, pin, hpermitted⟩

end Sessions

/-- A configuration of a worker that runs as user 1001. -/
def cpu_configuration : Json :=
  .obj [("backend_url", .str "http://127.0.0.1:8765"), ("capabilities", .arr [.str CPU_DIGEST]),
    ("limits", .obj [("input_bytes", integer 16000), ("output_bytes", integer 65536),
      ("seconds", integer 30), ("tasks", integer 1)]),
    ("os_profile", .obj [("backend_uid", integer 1000), ("expected_gid", integer 1001),
      ("expected_uid", integer 1001), ("schema", .str CPU_PROFILE)]),
    ("schema", .str CONFIG_SCHEMA), ("tools", .arr []),
      ("worker_id", .str "n_00000000000000000000000000000000")]

theorem cpu_configuration_distinct : cpu_configuration.WellFormed := by
  have hordered : Json.ordered cpu_configuration = cpu_configuration := by rfl
  exact hordered ▸ Json.ordered_wellFormed cpu_configuration

def cpu_session : VerificationSession :=
  ⟨⟨cpu_configuration, by rfl, cpu_configuration_distinct⟩, some 3⟩

/-- The process of the worker, without groups and capabilities. -/
def worker_process : Json :=
  .obj [("pid", integer 42),
    ("status", .obj [("CapAmb", integer 0), ("CapBnd", integer 0), ("CapEff", integer 0),
      ("CapInh", integer 0), ("CapPrm", integer 0), ("Gid", four (integer 1001)),
        ("NoNewPrivs", integer 1),
      ("Uid", four (integer 1001))])]

def sha_of (data : Json) : String := sha256 (encode (canonical data))

def worker_observations : Json :=
  .obj [("configuration_sha256", .str (sha_of cpu_configuration)), ("process", worker_process),
    ("stable", .bool true), ("synthetic", .bool false), ("unavailable", .arr [])]

/-- A decision for the process, issued at some time. -/
def decision (issued expires : Int) (guarantees : Json) : Json :=
  .obj [("configuration_sha256", .str (sha_of cpu_configuration)),
    ("context_sha256", .str (sha_of worker_process)), ("decision", .str "permit"),
      ("expires_monotonic", integer expires), ("guarantees", guarantees),
    ("issued_monotonic", integer issued), ("nonce", .str "00"),
      ("policy_sha256", .str (String.ofList (List.replicate 64 'b'))),
    ("profile", .str CPU_PROFILE), ("receipt_sha256", .str (String.ofList (List.replicate 64 'c'))),
      ("schema", .str REPLY)]

def controller : Credentials := ⟨12, 0, 0⟩

/-- A call of the controller's socket, on which a process answers with a reply. -/
def answered_by (writer : Credentials) (reply : Json) : Surroundings where
  dup := .ok ()
  socket := .ok ()
  unix := true
  stream := true
  peercred := .ok controller
  uid_map := .ok "0 0 4294967295".toList
  pid := 42
  uid := 1001
  euid := 1001
  gid := 1001
  egid := 1001
  observations := worker_observations
  nonce := "00"
  peer := ⟨2, .ok (), .ok (), frame 1 writer (encode (canonical reply))⟩
  now := ⟨.int 101, finite_reading⟩
  close := .ok ()
  close_duplicate := .ok ()

/-- A call that the controller itself answers. -/
def answered (reply : Json) : Surroundings := answered_by controller reply

theorem digest_sha {data : Json}
    (h : Json.traverse Failure.recursion_error .value_error cpython.encode_depth data = .ok ()) :
    cpython.digest data = .ok (sha_of data) := by
  rw [Interpreter.digest, h]
  rfl

/-- What the session sends. -/
def cpu_request : Json :=
  .obj [("configuration", cpu_configuration), ("context", worker_process), ("nonce", .str "00"),
    ("schema", .str REQUEST)]

theorem cpu_request_traverse :
    Json.traverse Failure.recursion_error .value_error cpython.encode_depth
      cpu_configuration = .ok () ∧ Json.traverse Failure.recursion_error .value_error
        cpython.encode_depth worker_process = .ok () ∧ Json.traverse Failure.recursion_error
          .value_error cpython.encode_depth cpu_request = .ok () := by
  decide +kernel

theorem cpu_configuration_digest :
    cpython.digest cpu_configuration = .ok (sha_of cpu_configuration) :=
  digest_sha cpu_request_traverse.1

theorem worker_process_digest : cpython.digest worker_process = .ok (sha_of worker_process) :=
  digest_sha cpu_request_traverse.2.1

theorem answered_matching (writer : Credentials) (reply : Json) :
    cpu_session.matching cpython (answered_by writer reply) worker_process = .ok true := by
  have hprofile : subscript cpu_configuration "os_profile" =
      .ok (cpu_configuration.item "os_profile") := by rfl
  have hreads : reads worker_observations "configuration_sha256"
    (do return .str (← cpython.digest cpu_configuration)) =
      .ok true := by
    have hitem : get worker_observations "configuration_sha256" =
        .ok (.str (sha_of cpu_configuration)) := rfl
    rw [reads, hitem, cpu_configuration_digest]
    exact congrArg Except.ok (Json.equal_refl _)
  have hstatus : get worker_process "status" = .ok (worker_process.item "status") := rfl
  rw [VerificationSession.matching, show cpu_session.configuration.data =
    cpu_configuration from rfl, hprofile, Except.ok_bind, hstatus, Except.ok_bind]
  dsimp only
  refine Except.every_eq_ok_true.mpr (List.forall_mem_append.mpr ⟨?_, List.forall_mem_map.mpr ?_⟩)
  · simp only [List.forall_mem_cons]
    refine ⟨?_, ?_, ?_, ?_, ?_, ?_, hreads, ?_, ?_, ?_, List.forall_mem_nil _⟩ <;> rfl
  · decide

theorem answered_context (writer : Credentials) (reply : Json) :
    cpu_session.context_of cpython (answered_by writer reply) = .ok worker_process := by
  have hroot : 0 < controller.pid ∧ controller.uid = 0 ∧ controller.gid = 0 := by decide
  have hmap : Words.words Lines.isWhite "0 0 4294967295".toList =
      [['0'], ['0'], "4294967295".toList] := by rfl
  have hprocess : subscript worker_observations "process" = .ok worker_process := rfl
  have hpart : ∀ key, get worker_observations key = .ok (worker_observations.item key) :=
    fun _ => rfl
  have hflags : worker_observations.item "synthetic" = .bool false ∧
    worker_observations.item "stable" = .bool true ∧
      truthy (worker_observations.item "unavailable") = false := ⟨rfl, rfl, rfl⟩
  simp only [VerificationSession.context_of, Except.bind_eq_ok, Except.require_eq_ok, exists_const]
  exact ⟨⟨rfl, rfl⟩, controller, rfl, hroot, _, rfl, hmap, _, hpart _, hflags.1, _, hpart _,
    hflags.2.1, _, hpart _, hflags.2.2, _, hprocess, _, answered_matching writer reply, rfl, rfl⟩

/-- Guarantees that hold, each with its own evidence. -/
def guarantees : Json :=
  .ordered (.obj (CHECKS.map fun name => (name, .obj
    [("enforced", .bool true), ("evidence_sha256", .str (String.ofList (List.replicate 64 'a'))),
      ("verified", .bool true)])))

theorem decision_wellFormed {issued expires : Int} {guarantees : Json} (h : guarantees.WellFormed) :
    (decision issued expires guarantees).WellFormed := by
  have hkeys : ((decision 0 0 .null).entries.map Prod.fst).Pairwise (· < ·) := by decide
  refine ⟨hkeys, Json.wellFormedFields_iff.mpr ?_⟩
  simp only [List.forall_mem_cons]
  exact ⟨trivial, trivial, trivial, trivial, h, trivial, trivial, trivial, trivial, trivial,
    trivial, List.forall_mem_nil _⟩

/-- The text of a decision is no longer than its window and its guarantees make it. -/
theorem decision_length {issued expires : Int} {guarantees : Json} (room : Nat) (hroom : 66 ≤ room)
    (hissued : Json.utf8_length (Json.render (integer issued)) ≤ room)
    (hexpires : Json.utf8_length (Json.render (integer expires)) ≤ room)
    (h : Json.utf8_length (Json.render guarantees) ≤ room) :
    (encode (canonical (decision issued expires guarantees))).length ≤ 11 * (room + 32) + 2 := by
  have hsha : ∀ data, Json.utf8_length (Json.render (.str (sha_of data))) ≤ room := fun data => by
    rw [sha_of, Json.utf8_length_hex fun c hc => Sha256.sha256_isHex hc, Sha256.sha256_length]
    exact hroom
  rw [encode_canonical_length]
  refine (Json.utf8_length_obj_le 30 room ?_).trans
    (by simp only [List.length_cons, List.length_nil]; omega)
  simp only [List.forall_mem_cons]
  have hsmall : ∀ {n : Nat}, n ≤ 66 → n ≤ room := fun h => h.trans hroom
  refine ⟨⟨?_, hsha _⟩, ⟨?_, hsha _⟩, ⟨?_, hsmall ?_⟩, ⟨?_, hexpires⟩, ⟨?_, h⟩, ⟨?_, hissued⟩,
    ⟨?_, hsmall ?_⟩, ⟨?_, hsmall ?_⟩, ⟨?_, hsmall ?_⟩, ⟨?_, hsmall ?_⟩, ⟨?_, hsmall ?_⟩,
      List.forall_mem_nil _⟩ <;> decide

theorem guarantees_length : Json.utf8_length (Json.render guarantees) ≤ 7000 := by
  have hentries : ∀ entry ∈ guarantees.entries, Json.utf8_length (Json.renderString entry.1) ≤ 24 ∧
      Json.utf8_length (Json.render entry.2) ≤ 200 := by
    decide +kernel
  exact (Json.utf8_length_obj_le 24 200 hentries).trans (by decide)

section Replies

variable [Codecs] {issued expires : Int} {guarantees : Json}

omit [Codecs] in
theorem decision_scope : cpython.scope (decision issued expires guarantees) cpu_configuration
    worker_process "00" = .ok () := by
  have hfields : fields (decision issued expires guarantees) REPLY_FIELDS = .ok () := by
    have hkeys : (decision 0 0 .null).HasKeys REPLY_FIELDS := by decide
    exact Except.require_eq_ok.mpr hkeys
  have hprofile : subscript cpu_configuration "os_profile" =
      .ok (cpu_configuration.item "os_profile") := rfl
  have hschema : subscript (cpu_configuration.item "os_profile") "schema" =
      .ok (.str CPU_PROFILE) := by rfl
  have hdigests : isDigest (.str (String.ofList (List.replicate 64 'b'))) = true ∧
      isDigest (.str (String.ofList (List.replicate 64 'c'))) = true := by decide
  have hcontext : (decision issued expires guarantees).item "context_sha256" =
      .str (sha_of worker_process) := rfl
  have hconfiguration : (decision issued expires guarantees).item "configuration_sha256" =
      .str (sha_of cpu_configuration) := rfl
  have hlabels : (decision issued expires guarantees).item "schema" = .str REPLY ∧
      (decision issued expires guarantees).item "nonce" = .str "00" ∧
        (decision issued expires guarantees).item "decision" = .str "permit" := ⟨rfl, rfl, rfl⟩
  have hequal : ((decision issued expires guarantees).item "profile").equal (.str CPU_PROFILE) =
      true := Json.equal_refl _
  simp only [Interpreter.scope, Except.bind_eq_ok, Except.require_eq_ok, exists_const]
  exact ⟨(), hfields, hlabels, _, worker_process_digest, hcontext, _, cpu_configuration_digest,
    hconfiguration, _, hprofile, _, hschema, hequal, hdigests⟩

omit [Codecs] in
theorem answered_request (writer : Credentials) (reply : Json) :
    cpu_session.request (answered_by writer reply) worker_process = cpu_request := by
  have hsorted :
    Json.dict [("schema", .str REQUEST), ("nonce", .str "00"), ("configuration", cpu_configuration),
      ("context", worker_process)] = cpu_request := by rfl
  exact hsorted

omit [Codecs] in
theorem cpu_request_length : (encode (canonical cpu_request)).length ≤ MAX_FRAME := by
  rw [encode_canonical_length]
  refine (Json.utf8_length_obj_le 16 2000 ?_).trans (by decide)
  simp only [List.forall_mem_cons]
  refine ⟨⟨?_, ?_⟩, ⟨?_, ?_⟩, ⟨?_, ?_⟩, ⟨?_, ?_⟩, List.forall_mem_nil _⟩ <;> decide +kernel

/-- The reply of a process of root is received as it sent it. -/
theorem decision_transfer {writer : Credentials} (hwriter : writer.Root)
    (hguarantees : guarantees.WellFormed)
    (hdecoded : decoded (decision issued expires guarantees) = .ok ())
    (hlength : (encode (canonical (decision issued expires guarantees))).length ≤ MAX_FRAME) :
    cpython.transfer (answered_by writer (decision issued expires guarantees)).peer
        (cpu_session.request (answered_by writer (decision issued expires guarantees))
          worker_process) =
      .ok (decision issued expires guarantees, some writer) := by
  have hpos : 0 < (encode (canonical (decision issued expires guarantees))).length := by
    have hbrace : ('{' : Char).utf8Size = 1 := rfl
    rw [encode_canonical_length, decision, Json.render, Json.utf8_length_append,
      Json.utf8_length_cons, hbrace]
    omega
  rw [answered_request]
  exact transfer_frame (by decide) cpu_request_traverse.2.2 cpu_request_length hwriter
    (decode_encode (decision_wellFormed hguarantees) hdecoded) hpos hlength

omit [Codecs] in
theorem controller_root : controller.Root := by decide

/-- A window with a time beyond the floats ends a check with OverflowError. -/
theorem endless_attempt (hguarantees : guarantees.WellFormed)
    (hdecoded : decoded (decision issued expires guarantees) = .ok ())
    (hlength : (encode (canonical (decision issued expires guarantees))).length ≤ MAX_FRAME)
    (hoverflow : Overflowing (integer issued) (integer expires)) :
    cpu_session.attempt cpython .start (answered (decision issued expires guarantees)) =
      .error .overflow_error := by
  have hsame : VerificationSession.same_context cpython .start worker_process = .ok () := rfl
  have hwindow : ∀ now : Reading,
    isCurrent ((decision issued expires guarantees).item "issued_monotonic")
      ((decision issued expires guarantees).item "expires_monotonic") now.value 2 =
        .error .overflow_error := fun _ =>
    isCurrent_overflow hoverflow
  have hvalid : ∀ now : Reading, cpython.validate_decision
    (decision issued expires guarantees) cpu_configuration worker_process "00"
      now.value = .error .overflow_error := fun now => by
    rw [Interpreter.validate_decision, decision_scope, Except.ok_bind, hwindow]
    rfl
  rw [answered, VerificationSession.attempt, answered_context, Except.ok_bind,
    hsame, Except.ok_bind, decision_transfer controller_root hguarantees hdecoded hlength,
      Except.ok_bind]
  exact congrArg (· >>= _) (hvalid _)

theorem endless_check (hguarantees : guarantees.WellFormed)
    (hdecoded : decoded (decision issued expires guarantees) = .ok ())
    (hlength : (encode (canonical (decision issued expires guarantees))).length ≤ MAX_FRAME)
    (hoverflow : Overflowing (integer issued) (integer expires)) :
    cpu_session.check cpython .start (answered (decision issued expires guarantees)) =
      (.error .overflow_error, .start) := by
  have hdescriptor : ¬ isDescriptor cpu_session.descriptor = false := by decide
  unfold VerificationSession.check
  rw [if_neg hdescriptor, endless_attempt hguarantees hdecoded hlength hoverflow]
  rfl

end Replies

/-- The other encodings of JSON, of which these samples have none. -/
abbrev utf8_only : Codecs := ⟨fun _ => none, 990⟩

/-- A decision issued at 10^400, which no float reaches. -/
def endless_decision : Json := decision (10 ^ 400) 120 (.obj [])

theorem endless_overflows_session [Codecs] (hdecoded : decoded endless_decision = .ok ()) :
    ¬ Pinned cpython (cpu_session.steps cpython .start [answered endless_decision]) := by
  intro hpinned
  have hlength : (encode (canonical endless_decision)).length ≤ MAX_FRAME := by
    refine (decision_length 7000 ?_ ?_ ?_ ?_).trans ?_ <;> decide +kernel
  have hoverflow : Overflowing (integer (10 ^ 400)) (integer 120) :=
    .inl ⟨_, rfl, by decide +kernel⟩
  have hcheck : cpu_session.check cpython .start (answered endless_decision) =
      (.error .overflow_error, .start) :=
    endless_check ⟨.nil, trivial⟩ hdecoded hlength hoverflow
  have hstep : ⟨.start, answered endless_decision, .error .overflow_error, .start⟩ ∈
      cpu_session.steps cpython .start [answered endless_decision] := by
    rw [VerificationSession.steps, hcheck]
    exact List.mem_cons_self
  obtain ⟨hrefused, _⟩ := hpinned.refused _ hstep nofun
  cases hrefused

/-- A decision that is open for two seconds. -/
def lease : Json := decision 100 102 guarantees

theorem decisions_decoded : letI := utf8_only
    decoded endless_decision = .ok () ∧ decoded lease = .ok () := by
  decide +kernel

/-- Such a decision is not turned into the refusal of a check. -/
theorem endless_not_pinned : letI := utf8_only
    ¬ Pinned cpython (cpu_session.steps cpython .start [answered endless_decision]) :=
  @endless_overflows_session utf8_only decisions_decoded.1

theorem lease_length : (encode (canonical lease)).length ≤ MAX_FRAME := by
  refine (decision_length 7000 (by decide) ?_ ?_ guarantees_length).trans (by decide) <;> decide

section Leases

variable [Codecs] {writer : Credentials} {pins : Pins}

theorem lease_transfer (hwriter : writer.Root) (hdecoded : decoded lease = .ok ()) :
    cpython.transfer (answered_by writer lease).peer
      (cpu_session.request (answered_by writer lease) worker_process) =
      .ok (lease, some writer) :=
  decision_transfer hwriter (Json.ordered_wellFormed _) hdecoded lease_length

omit [Codecs] in
theorem lease_valid :
    cpython.validate_decision lease cpu_configuration worker_process "00" (.int 101) = .ok () := by
  have hcurrent : isCurrent (lease.item "issued_monotonic") (lease.item "expires_monotonic")
      (.int 101) 2 = .ok true := by
    decide
  have hentries : ∀ entry ∈ (lease.item "guarantees").entries, guaranteed entry.2 = .ok () := by
    decide
  have hchecks : (lease.item "guarantees").HasKeys CHECKS := by decide
  rw [Interpreter.validate_decision, lease, decision_scope, Except.ok_bind, ← lease, hcurrent]
  simp only [Except.bind_eq_ok, Except.require_eq_ok, Except.forM_eq_ok,
    exists_const, Except.ok_bind]
  exact ⟨trivial, hchecks, hentries⟩

/-- The code follows a call that a process of root answers with the decision. -/
theorem lease_follows (hwriter : writer.Root) (hdecoded : decoded lease = .ok ()) :
    cpu_session.Follows cpython (answered_by writer lease) where
  close_duplicate := fun _ hsocket => absurd rfl hsocket
  close := fun _ _ _ _ _ _ => rfl
  shallow := by
    intro context hcontext
    obtain rfl : worker_process = context :=
      Except.ok.inj ((answered_context _ _).symm.trans hcontext)
    decide
  window := by
    intro context reply other hcontext htransfer _
    obtain rfl : worker_process = context :=
      Except.ok.inj ((answered_context _ _).symm.trans hcontext)
    obtain ⟨rfl, _⟩ :=
      Prod.mk.inj (Except.ok.inj ((lease_transfer hwriter hdecoded).symm.trans htransfer))
    have hbounded : Binary64.ofValue (100 : Int) ≠ none ∧
        Binary64.ofValue (102 : Int) ≠ none := by decide
    have hwindow : ¬ Overflowing (integer 100) (integer 102) := by
      rintro (⟨_, ⟨⟩, hnone⟩ | ⟨_, _, ⟨⟩, hnone⟩)
      · exact hbounded.1 hnone
      · exact hbounded.2 hnone
    exact hwindow

/-- What a check with the decision pins. -/
def leased (writer : Credentials) : Pins :=
  ⟨some worker_process, some writer, some (lease.item "policy_sha256")⟩

/-- Only the pins decide on such a check. -/
theorem lease_attempt (hwriter : writer.Root) (hdecoded : decoded lease = .ok ())
    (hsame : VerificationSession.same_context cpython pins worker_process = .ok ()) :
    cpu_session.attempt cpython pins (answered_by writer lease) = (do
      Except.require ((∀ pinned ∈ pins.writer, some pinned = some writer) ∧
        ∀ pinned ∈ pins.policy_sha256, pinned.equal (lease.item "policy_sha256") = true) unverified
      return leased writer) := by
  have hcopy : cpython.deepcopy worker_process = .ok worker_process :=
    Interpreter.deepcopy_self (by decide)
  have hvalid : cpython.validate_decision lease cpu_session.configuration.data worker_process
      (answered_by writer lease).nonce (answered_by writer lease).now.value = .ok () := lease_valid
  rw [VerificationSession.attempt, answered_context, Except.ok_bind, hsame, Except.ok_bind,
    lease_transfer hwriter hdecoded, Except.ok_bind]
  dsimp only
  rw [hvalid, Except.ok_bind]
  simp only [hcopy, Except.ok_bind, leased]

omit [Codecs] in
theorem leased_same :
    VerificationSession.same_context cpython (leased writer) worker_process = .ok () := by
  have hsame : cpython.same worker_process worker_process = .ok true := by
    simp only [Interpreter.same, worker_process_digest, Except.ok_bind, decide_true]
    rfl
  simp only [VerificationSession.same_context, leased, hsame, Except.ok_bind]
  exact Except.require_eq_ok.mpr trivial

theorem lease_check (hwriter : writer.Root) (hdecoded : decoded lease = .ok ())
    (hpins : pins = .start ∨ pins = leased writer) :
    cpu_session.check cpython pins (answered_by writer lease) = (.ok (), leased writer) := by
  have hattempt : cpu_session.attempt cpython pins (answered_by writer lease) =
      .ok (leased writer) := by
    rcases hpins with rfl | rfl
    · rw [lease_attempt hwriter hdecoded rfl]
      have hfirst : Except.require ((∀ pinned ∈ Pins.start.writer, some pinned = some writer) ∧
          ∀ pinned ∈ Pins.start.policy_sha256, pinned.equal (lease.item "policy_sha256") = true)
        unverified = .ok () :=
        Except.require_eq_ok.mpr ⟨nofun, nofun⟩
      rw [hfirst, Except.ok_bind]
      exact Except.pure_eq_ok.mpr rfl
    · rw [lease_attempt hwriter hdecoded leased_same]
      have hagain : Except.require ((∀ pinned ∈ (leased writer).writer, some pinned = some writer) ∧
          ∀ pinned ∈ (leased writer).policy_sha256, pinned.equal (lease.item "policy_sha256") =
            true) unverified =
            .ok () := by
        refine Except.require_eq_ok.mpr ⟨fun _ h => h.symm, ?_⟩
        rintro _ ⟨⟩
        exact Json.equal_refl _
      rw [hagain, Except.ok_bind]
      exact Except.pure_eq_ok.mpr rfl
  have hdescriptor : ¬ isDescriptor cpu_session.descriptor = false := by decide
  unfold VerificationSession.check
  rw [if_neg hdescriptor, hattempt]
  rfl

/-- Another process of root is refused by a session that has pinned the first one. -/
theorem lease_refused {other : Credentials} (hother : other.Root) (hne : writer ≠ other)
    (hdecoded : decoded lease = .ok ()) :
    cpu_session.check cpython (leased writer) (answered_by other lease) =
      (.error unverified, leased writer) := by
  have hattempt : cpu_session.attempt cpython (leased writer) (answered_by other lease) =
      .error unverified := by
    have hrefused : Except.require ((∀ pinned ∈ (leased writer).writer, some pinned = some other) ∧
        ∀ pinned ∈ (leased writer).policy_sha256, pinned.equal (lease.item "policy_sha256") =
          true) unverified =
          .error unverified :=
      if_neg fun h => hne (Option.some.inj (h.1 writer rfl))
    rw [lease_attempt hother hdecoded leased_same, hrefused]
    rfl
  have hdescriptor : ¬ isDescriptor cpu_session.descriptor = false := by decide
  unfold VerificationSession.check
  rw [if_neg hdescriptor, hattempt]
  rfl

end Leases

def intruder : Credentials := ⟨13, 0, 0⟩

/-- A session whose first two checks are answered by the controller, and the third by another
    process. -/
def leased_calls : List Surroundings := [answered lease, answered lease, answered_by intruder lease]

theorem leased_results [Codecs] (hdecoded : decoded lease = .ok ()) :
    (cpu_session.steps cpython .start leased_calls).map Step.result =
      [.ok (), .ok (), .error unverified] := by
  have hfirst : cpu_session.check cpython .start (answered lease) = (.ok (), leased controller) :=
    lease_check controller_root hdecoded (.inl rfl)
  have hsecond : cpu_session.check cpython (leased controller) (answered lease) =
      (.ok (), leased controller) :=
    lease_check controller_root hdecoded (.inr rfl)
  have hthird : cpu_session.check cpython (leased controller) (answered_by intruder lease) =
      (.error unverified, leased controller) :=
    lease_refused (by decide) (by decide) hdecoded
  rw [leased_calls, VerificationSession.steps, hfirst]
  dsimp only
  rw [VerificationSession.steps, hsecond]
  dsimp only
  rw [VerificationSession.steps, hthird]
  rfl

theorem leased_follows [Codecs] (hdecoded : decoded lease = .ok ()) :
    ∀ call ∈ leased_calls, cpu_session.Follows cpython call := by
  have hcontroller : cpu_session.Follows cpython (answered lease) :=
    lease_follows controller_root hdecoded
  have hintruder : cpu_session.Follows cpython (answered_by intruder lease) :=
    lease_follows (by decide) hdecoded
  exact List.forall_mem_cons.mpr ⟨hcontroller, List.forall_mem_cons.mpr ⟨hcontroller,
    List.forall_mem_singleton.mpr hintruder⟩⟩

/-- Two checks carry the same pin, and a third one is refused. -/
theorem session_pinned_leased : letI := utf8_only
    Pinned cpython (cpu_session.steps cpython .start leased_calls) ∧
      (cpu_session.steps cpython .start leased_calls).map Step.result =
        [.ok (), .ok (), .error unverified] :=
  ⟨@session_pinned utf8_only cpu_session cpython leased_calls
    (@leased_follows utf8_only decisions_decoded.2), @leased_results utf8_only decisions_decoded.2⟩

end pepeuch_worker
