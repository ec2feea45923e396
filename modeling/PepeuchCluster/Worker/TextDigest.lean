import PepeuchCluster.ControlPlane.Workspace
import PepeuchCluster.Worker.Recovery

namespace pepeuch_worker

open control_plane (Capability ExecutionResult State canonical)

/-- The limits of the executor, within their bounds. -/
structure DigestLimits where
  input_bytes : Nat
  output_bytes : Nat
  seconds : Nat
  tasks : Nat
  bounded : (1 ≤ input_bytes ∧ input_bytes ≤ 16000) ∧ (1 ≤ output_bytes ∧ output_bytes ≤ 65536) ∧
    (1 ≤ seconds ∧ seconds ≤ 30) ∧ tasks = 1

/-- What the executor sees when it looks whether it is to stop: the event and its two clocks. -/
structure Lookout where
  started : ℚ
  stop : Nat → Bool
  wall : Nat → ℚ
  monotonic : Nat → ℚ

namespace CPUTextDigest

/-- The look `n`. -/
def interrupted (limits : DigestLimits) (lookout : Lookout) (deadline : ℚ) (n : Nat) :
    Option String :=
  if lookout.stop n = true then some "cpu_interrupted"
  else if deadline ≤ lookout.wall n ∨ limits.seconds ≤ lookout.monotonic n - lookout.started then
    some "cpu_deadline_exceeded"
  else none

/-- The loop over the chunks of 512 bytes: the looks so far, and what has been hashed. -/
def update (looks : Nat → Option String) (n : Nat) (hashed raw : List UInt8) :
    Except String (Nat × List UInt8) :=
  if raw = [] then .ok (n, hashed)
  else
    match looks n with
    | some error_code => .error error_code
    | none => update looks (n + 1) (hashed ++ raw.take 512) (raw.drop 512)
termination_by raw.length
decreasing_by
  rename_i hraw
  have hpos := List.length_pos_of_ne_nil hraw
  rw [List.length_drop]
  omega

def document (request : Json) (raw hashed : List UInt8) : Json :=
  .dict [("schema", .str "pepeuch.worker/cpu-text-digest/v1"),
    ("capability", .str Capability.cpu_digest.text),
      ("mission_id", (request.item "mission").item "id"), ("attempt_id", request.item "attempt_id"),
    ("input_bytes", .number (.int raw.length)), ("input_sha256", .str (sha256 hashed)),
      ("encoding", .str "UTF-8"),
    ("ai_inference", .bool false)]

def report (document : Json) : List UInt8 :=
  control_plane.encode
    ("# Calcul CPU déterministe\n\nAucune inférence IA.\n\n```json\n" ++ canonical document ++
      "\n```\n")

def output (request : Json) (content : List UInt8) : Json :=
  .dict
    [("name", .str "resultat.md"), ("content_base64", .str (String.ofList (Base64.encode content))),
      ("size", .number (.int content.length)), ("sha256", .str (sha256 content)),
      ("expected_version", request.item "expected_version")]

def deadline_of : Json → ℚ
  | .number value => value.value
  | _ => 0

def raw_of (request : Json) : List UInt8 :=
  control_plane.encode ((request.item "mission").item "objective").text

/-- The digest of the objective, from the first look on. -/
def digested (limits : DigestLimits) (looks : Nat → Option String) (request : Json) :
    Except Failure ExecutionResult :=
  match update looks 0 [] (raw_of request) with
  | .error error_code => .ok (own_result request .interrupted (some error_code))
  | .ok (n, hashed) =>
    let content := report (document request (raw_of request) hashed)
    if limits.output_bytes < content.length then .error (Problem "cpu_output_limit")
    else
      match looks n with
      | some error_code => .ok (own_result request .interrupted (some error_code))
      | none => .ok { own_result request .completed none with outputs := [output request content] }

def execute [Datetime] (limits : DigestLimits) (lookout : Lookout) (mode : String)
    (request : Json) :
    Except Failure ExecutionResult := do
  validate_request request [.cpu_digest]
  Except.require (request.item "authorized_files" = .arr []) (Problem "unsupported_cpu_inputs")
  Except.require (mode ∈ ["success", "cancel"]) (Problem "unsupported_cpu_mode")
  if mode = "cancel" then return own_result request .cancelled none
  Except.require ((raw_of request).length ≤ limits.input_bytes) (Problem "cpu_input_limit")
  digested limits (interrupted limits lookout (deadline_of (request.item "deadline"))) request

/-- The looks that the loop takes, one for each chunk. -/
def chunks (raw : List UInt8) : Nat := (raw.length + 511) / 512

/-- No look before `n` has stopped the executor. -/
def Undisturbed (looks : Nat → Option String) (n : Nat) : Prop := ∀ k < n, looks k = none

section Digest

variable {looks : Nat → Option String} {n m : Nat} {hashed raw all : List UInt8}
  {error_code : String}

/-- A first chunk is one look. -/
theorem chunks_drop (h : raw ≠ []) : chunks raw = chunks (raw.drop 512) + 1 := by
  have hpos := List.length_pos_of_ne_nil h
  simp only [chunks, List.length_drop]
  omega

theorem undisturbed_succ (h : Undisturbed looks n) (hlook : looks n = none) :
    Undisturbed looks (n + 1) := by
  intro k hk
  rcases Nat.lt_succ_iff_lt_or_eq.mp hk with hlt | rfl
  · exact h k hlt
  · exact hlook

theorem update_ok (h : Undisturbed looks n) (hupdate : update looks n hashed raw = .ok (m, all)) :
    all = hashed ++ raw ∧ m = n + chunks raw ∧ Undisturbed looks m := by
  fun_induction update looks n hashed raw with
  | case1 n hashed =>
    obtain ⟨rfl, rfl⟩ := Prod.mk.inj (Except.ok.inj hupdate)
    exact ⟨(List.append_nil _).symm, rfl, h⟩
  | case2 n hashed raw hraw error_code hlook => cases hupdate
  | case3 n hashed raw hraw hlook ih =>
    obtain ⟨hall, hm, hlooks⟩ := ih (undisturbed_succ h hlook) hupdate
    refine ⟨?_, ?_, hlooks⟩
    · rw [hall, List.append_assoc, List.take_append_drop]
    · rw [hm, chunks_drop hraw]
      omega

theorem update_error (h : Undisturbed looks n)
    (hupdate : update looks n hashed raw = .error error_code) :
    ∃ m, m < n + chunks raw ∧ looks m = some error_code ∧ Undisturbed looks m := by
  fun_induction update looks n hashed raw with
  | case1 n hashed => cases hupdate
  | case2 n hashed raw hraw found hlook =>
    obtain rfl := Except.error.inj hupdate
    refine ⟨n, ?_, hlook, h⟩
    rw [chunks_drop hraw]
    omega
  | case3 n hashed raw hraw hlook ih =>
    obtain ⟨m, hm, hfound, hlooks⟩ := ih (undisturbed_succ h hlook) hupdate
    refine ⟨m, ?_, hfound, hlooks⟩
    rw [chunks_drop hraw]
    omega

end Digest

section Acceptance

variable {request : Json} {content : List UInt8}

theorem validate_request_version [Datetime] {capabilities : List Capability}
    (h : validate_request request capabilities = .ok ()) :
    request.item "expected_version" = .null ∨
      isIdentity (request.item "expected_version") = true := by
  simp only [validate_request, Except.bind_eq_ok] at h
  obtain ⟨_, _, _, _, _, _, _, _, _, _, _, _, h⟩ := h
  split at h
  · cases h
  · simp only [Except.bind_eq_ok] at h
    obtain ⟨_, _, _, _, h⟩ := h
    split at h
    · obtain ⟨_, hidentity, _⟩ := Except.bind_eq_ok.mp h
      exact .inr (Except.require_eq_ok.mp hidentity)
    · next hnull => exact .inl (not_not.mp hnull)

/-- The expected version of a validated request. -/
def version_of : Json → Option String
  | .str value => some value
  | _ => none

theorem optional_identifier_version {value : Json} (h : value = .null ∨ isIdentity value = true) :
    control_plane.optional_identifier value = .ok (version_of value) := by
  rcases h with rfl | h
  · rfl
  · cases value with
    | str value =>
      have hidentifier : control_plane.isIdentifier value = true := h
      simp only [control_plane.optional_identifier, control_plane.identifier, hidentifier,
        if_true, version_of]
      rfl
    | _ => cases h

theorem output_item (key : String) : (output request content).item key =
    (([("name", Json.str "resultat.md"),
      ("content_base64", .str (String.ofList (Base64.encode content))),
      ("size", .number (.int content.length)), ("sha256", .str (sha256 content)),
      ("expected_version", request.item "expected_version")].find? fun field => field.1 == key).map
    Prod.snd).getD .null :=
  Json.item_dict (by simp)

/-- The control plane reads the very bytes from an output within its limit. -/
theorem output_accepted {limit : Nat} (hsize : content.length ≤ limit)
    (hversion : request.item "expected_version" = .null ∨
      isIdentity (request.item "expected_version") = true) :
    control_plane.output_data (output request content) limit =
      .ok ⟨"resultat.md", content, version_of (request.item "expected_version")⟩ := by
  have hitem : ∀ key, control_plane.item (output request content) key =
      (output request content).item key :=
    fun key => rfl
  have hname : control_plane.file_name (.str "resultat.md") = .ok "resultat.md" := by
    rw [control_plane.file_name, if_pos (by decide)]
  have hencoded : (Base64.encode content).length ≤ (limit + 2) / 3 * 4 := by
    rw [Base64.encode_length]
    omega
  have hcontent : control_plane.file_content limit (.str (String.ofList (Base64.encode content))) =
      .ok content := by
    rw [control_plane.file_content, String.toList_ofList, if_pos hencoded, Base64.decode_encode]
  have hdigest : control_plane.file_digest (.str (sha256 content)) = .ok (sha256 content) := by
    have hhex : control_plane.isDigest (sha256 content) = true := by
      rw [control_plane.isDigest, Sha256.sha256_length, Bool.and_eq_true]
      exact ⟨rfl, List.all_eq_true.mpr fun _ => Sha256.sha256_isHex⟩
    rw [control_plane.file_digest, if_pos hhex]
  have hcount : control_plane.file_size (.number (.int content.length)) = .ok content.length := by
    rw [control_plane.file_size, if_pos (Int.natCast_nonneg _), Int.toNat_natCast]
  simp only [control_plane.output_data, Except.bind_eq_ok, Except.pure_eq_ok, Except.require_eq_ok,
    fields_eq_ok, hitem, output_item, List.find?, beq_self_eq_true, String.reduceBEq,
      Option.map_some, Option.getD_some]
  exact ⟨(), Json.hasKeys_dict _ rfl, _, hname, _, hcount, (), hsize, _,
    optional_identifier_version hversion, _, hdigest, _, hcontent, (), ⟨rfl, rfl⟩, rfl⟩

end Acceptance

section Outcomes

variable {limits : DigestLimits} {lookout : Lookout} {request : Json} {failure : Failure}
  {result : ExecutionResult}

/-- What the executor reports of a request: the digest of its whole objective. -/
def report_of (request : Json) : List UInt8 :=
  report (document request (raw_of request) (raw_of request))

theorem interrupted_code {deadline : ℚ} {n : Nat} {error_code : String}
    (h : interrupted limits lookout deadline n = some error_code) :
    error_code ∈ ExecutionResult.ERROR_CODES := by
  unfold interrupted at h
  split at h
  · obtain rfl := Option.some.inj h
    decide
  · split at h
    · obtain rfl := Option.some.inj h
      decide
    · cases h

theorem document_ok {request : Json} {raw hashed : List UInt8}
    (hmission : ((request.item "mission").item "id").WellFormed)
    (hattempt : (request.item "attempt_id").WellFormed) :
    (document request raw hashed).WellFormed := by
  refine Json.dict_wellFormed (by simp) ?_
  simp only [List.forall_mem_cons, List.not_mem_nil, false_implies, implies_true, and_true]
  exact ⟨trivial, trivial, hmission, hattempt, trivial, trivial, trivial, trivial⟩

/-- How a result came about: at the first look that stopped the executor, or after the last one. -/
inductive Reported (limits : DigestLimits) (looks : Nat → Option String) (request : Json)
    (result : ExecutionResult) :
    Prop where
  | stopped (n : Nat) (error_code : String) :
      result = own_result request .interrupted (some error_code) →
      looks n = some error_code → n ≤ chunks (raw_of request) → Undisturbed looks n →
      Reported limits looks request result
  | finished : result = { own_result request .completed none with
      outputs := [output request (report_of request)] } → (report_of request).length ≤
      limits.output_bytes → Undisturbed looks (chunks (raw_of request) + 1) →
      Reported limits looks request result

theorem digested_ok {looks : Nat → Option String} (h : digested limits looks request = .ok result) :
    Reported limits looks request result := by
  have hstart : Undisturbed looks 0 := fun k hk => absurd hk (Nat.not_lt_zero k)
  unfold digested at h
  split at h
  · next error_code hupdate =>
    obtain rfl := Except.ok.inj h
    obtain ⟨n, hn, hlook, hlooks⟩ := update_error hstart hupdate
    rw [Nat.zero_add] at hn
    exact .stopped n error_code rfl hlook hn.le hlooks
  · next n hashed hupdate =>
    obtain ⟨rfl, rfl, hlooks⟩ := update_ok hstart hupdate
    rw [Nat.zero_add] at h hlooks
    dsimp only at h
    split at h
    · cases h
    · next hsize =>
      split at h
      · next error_code hlook =>
        obtain rfl := Except.ok.inj h
        exact .stopped _ error_code rfl hlook (le_refl _) hlooks
      · next hlook =>
        obtain rfl := Except.ok.inj h
        exact .finished rfl (not_lt.mp hsize) (undisturbed_succ hlooks hlook)

theorem digested_error {looks : Nat → Option String}
    (h : digested limits looks request = .error failure) :
    failure = Problem "cpu_output_limit" ∧ limits.output_bytes < (report_of request).length ∧
      Undisturbed looks (chunks (raw_of request)) := by
  have hstart : Undisturbed looks 0 := fun k hk => absurd hk (Nat.not_lt_zero k)
  unfold digested at h
  split at h
  · cases h
  · next n hashed hupdate =>
    obtain ⟨rfl, rfl, hlooks⟩ := update_ok hstart hupdate
    rw [Nat.zero_add] at h hlooks
    dsimp only at h
    split at h
    · next hsize => exact ⟨(Except.error.inj h).symm, hsize, hlooks⟩
    · split at h
      · cases h
      · cases h

theorem identity_str {value : Json} (h : isIdentity value = true) : value = .str value.text := by
  cases value with
  | str value => rfl
  | _ => cases h

theorem validate_request_mission [Datetime] {capabilities : List Capability}
    (h : validate_request request capabilities = .ok ()) :
    isIdentity ((request.item "mission").item "id") = true := by
  simp only [validate_request, Except.bind_eq_ok, Except.forM_eq_ok] at h
  obtain ⟨_, _, _, _, _, _, _, hids, _⟩ := h
  have hmission := hids ((request.item "mission").item "id") (by simp)
  rwa [identifier, Except.require_eq_ok] at hmission

theorem Reported.publishable {deadline : ℚ}
    (hattempt : isIdentity (request.item "attempt_id") = true)
    (hgeneration : isIdentity (request.item "generation") = true)
    (h : Reported limits (interrupted limits lookout deadline) request result) :
    Publishable result ∧ result.attempt_id = attempt_of request ∧
      result.generation = (request.item "generation").text ∧ ∀ found ∈ result.outputs,
        found = output request (report_of request) ∧
          (report_of request).length ≤ limits.output_bytes := by
  cases h with
  | stopped n error_code hresult hlook _ _ =>
    rw [hresult]
    refine ⟨⟨isIdentity_text hattempt, isIdentity_text hgeneration, by simp [own_result],
      Nat.zero_le _, ?_⟩, rfl, rfl, List.forall_mem_nil _⟩
    intro code hcode
    obtain rfl := Option.some.inj hcode
    exact interrupted_code hlook
  | finished hresult hsize _ =>
    rw [hresult]
    refine ⟨⟨isIdentity_text hattempt, isIdentity_text hgeneration, by simp [own_result], le_refl _,
      ?_⟩, rfl, rfl, ?_⟩
    · intro code hcode
      cases hcode
    · intro found hfound
      exact ⟨List.mem_singleton.mp hfound, hsize⟩

/-- Whatever the executor returns, the control plane accepts: a cancelled result where that was
    asked for, an interrupted one for the first look that stopped it, or the report on the whole
    objective, which is read back byte for byte. What it raises names the limit that was passed. -/
theorem text_digest_accepted [Datetime] (limits : DigestLimits) (lookout : Lookout) (mode : String)
    (request : Json) :
    match execute limits lookout mode request with
    | .error failure => validate_request request [.cpu_digest] = .error failure ∨
        failure = Problem "unsupported_cpu_inputs" ∧ request.item "authorized_files" ≠ .arr [] ∨
        failure = Problem "unsupported_cpu_mode" ∧ mode ∉ ["success", "cancel"] ∨
        failure = Problem "cpu_input_limit" ∧ limits.input_bytes < (raw_of request).length ∨
        failure = Problem "cpu_output_limit" ∧ limits.output_bytes < (report_of request).length
    | .ok result => ExecutionResult.from_dict result.to_dict = .ok result ∧
        request.item "attempt_id" = .str result.attempt_id ∧
        request.item "generation" = .str result.generation ∧
        (mode = "cancel" ∧ result = own_result request .cancelled none ∨ mode = "success" ∧
          Reported limits (interrupted limits lookout (deadline_of (request.item "deadline")))
            request result) ∧
        ∀ found ∈ result.outputs, ∀ limit, limits.output_bytes ≤ limit →
          control_plane.output_data found limit =
            .ok ⟨"resultat.md", report_of request, version_of (request.item "expected_version")⟩ ∧
          let reported := document request (raw_of request) (raw_of request)
          report_of request = report reported ∧
          control_plane.decode_json (canonical reported) = .ok reported ∧
            reported.item "input_sha256" = .str (sha256 (raw_of request)) := by
  cases hvalid : validate_request request [.cpu_digest] with
  | error failure =>
    rw [execute, hvalid]
    exact .inl rfl
  | ok _ =>
    obtain ⟨hattempt, hgeneration, _, _⟩ := validate_request_ok hvalid
    have hmission := validate_request_mission hvalid
    rw [execute, hvalid, Except.ok_bind]
    by_cases hfiles : request.item "authorized_files" = .arr []
    swap
    · rw [Except.require, if_neg hfiles]
      exact .inr (.inl ⟨rfl, hfiles⟩)
    rw [Except.require_holds hfiles, Except.ok_bind]
    by_cases hmode : mode ∈ ["success", "cancel"]
    swap
    · rw [Except.require, if_neg hmode]
      exact .inr (.inr (.inl ⟨rfl, hmode⟩))
    rw [Except.require_holds hmode, Except.ok_bind]
    by_cases hcancel : mode = "cancel"
    · rw [if_pos hcancel]
      refine ⟨?_, identity_str hattempt, identity_str hgeneration, .inl ⟨hcancel, rfl⟩,
        List.forall_mem_nil _⟩
      exact from_dict_eq_ok.mpr
        ⟨to_dict_keys _, fun _ _ => rfl, isIdentity_text hattempt, isIdentity_text hgeneration,
          by simp [own_result], Nat.zero_le _, by simp [own_result]⟩
    rw [if_neg hcancel]
    have hsuccess : mode = "success" := by simpa [hcancel] using hmode
    by_cases hinput : (raw_of request).length ≤ limits.input_bytes
    swap
    · rw [Except.require, if_neg hinput]
      exact .inr (.inr (.inr (.inl ⟨rfl, not_le.mp hinput⟩)))
    rw [Except.require_holds hinput, Except.ok_bind]
    cases hdigested : digested limits
      (interrupted limits lookout (deadline_of (request.item "deadline"))) request with
    | error failure =>
      obtain ⟨hfailure, hsize, _⟩ := digested_error hdigested
      exact .inr (.inr (.inr (.inr ⟨hfailure, hsize⟩)))
    | ok result =>
      have hreported := digested_ok hdigested
      obtain ⟨hpublishable, hsame, hsame', houtputs⟩ := hreported.publishable hattempt hgeneration
      refine ⟨from_dict_eq_ok.mpr ⟨to_dict_keys _, fun _ _ => rfl, hpublishable⟩, ?_, ?_,
        .inr ⟨hsuccess, hreported⟩, ?_⟩
      · rw [hsame]
        exact identity_str hattempt
      · rw [hsame']
        exact identity_str hgeneration
      · intro found hfound limit hlimit
        obtain ⟨rfl, hsize⟩ := houtputs found hfound
        refine ⟨output_accepted (hsize.trans hlimit) (validate_request_version hvalid), rfl, ?_, ?_⟩
        · refine control_plane.decode_canonical (document_ok ?_ ?_)
          · rw [identity_str hmission]
            trivial
          · rw [identity_str hattempt]
            trivial
        · rw [document, Json.item_dict (by simp)]
          rfl

end Outcomes

end CPUTextDigest

end pepeuch_worker
