import PepeuchCluster.Worker.Interpreter

namespace pepeuch_worker

/-- The failures that the assessment turns into a refusal. -/
def isRefusal : Failure → Bool
  | .problem _ _ | .type_error | .key_error | .value_error => true
  | _ => false

def RECEIPT_SCHEMA : String := "pepeuch.worker/isolation-receipt/v1"

def RECEIPT_FIELDS : List String :=
  ["schema", "binding", "issued_monotonic", "expires_monotonic", "tests"]

def NEGATIVE : List String :=
  ["secret", "sqlite", "workspace", "outside_write", "docker", "gpu", "backend_connect",
    "other_loopback", "controlled_peer", "ipv6", "child_stop", "expiration", "results_preserved"]

theorem fields_fails (data : Json) (required : List String) :
    Except.Fails (fun failure => isRefusal failure = true) (fields data required) :=
  .require rfl

namespace Interpreter

variable (python : Interpreter)

/-- The context of the process that a receipt is bound to. -/
def binding (observations requested : Json) : Except Failure Json := do
  let process ← subscript observations "process"
  let process ← python.deepcopy process
  let configuration_sha256 ← subscript observations "configuration_sha256"
  let policy_sha256 ← python.digest requested
  return .dict
    [("process", process), ("profile", requested.item "profile"), ("unit", requested.item "unit"),
      ("invocation_id", requested.item "invocation_id"),
        ("configuration_sha256", configuration_sha256),
      ("policy_sha256", .str policy_sha256)]

/-- The comparison of two digests. -/
def same (data other : Json) : Except Failure Bool := do
  let own ← python.digest data
  let expected ← python.digest other
  return decide (own = expected)

/-- One negative test of a receipt. -/
def proved (result : Json) : Except Failure Bool := do
  fields result ["outcome", "method", "evidence_sha256"]
  return decide (result.item "outcome" = .str "pass" ∧
    result.item "method" = .str "independent-os-probe/v1" ∧
    isHexText 64 (result.item "evidence_sha256") = true)

/-- The loop over the tests, up to the first that is not proved. -/
def unproved : List (String × Json) → Except Failure (List String)
  | [] => .ok []
  | (name, result) :: rest => do
    if ← proved result then unproved rest else return ["negative_test_not_proved:" ++ name]

/-- The schema of a receipt and the digest of what it is bound to. -/
def bound (receipt context : Json) : Except Failure Bool :=
  .every [.ok (decide (receipt.item "schema" = .str RECEIPT_SCHEMA)),
    python.same (receipt.item "binding") context]

/-- The body of `receipt_errors`. -/
def inspect (receipt context : Json) (now : Number) (max_age : Int) :
    Except Failure (List String) := do
  fields receipt RECEIPT_FIELDS
  if ← python.bound receipt context then
    if ← isCurrent (receipt.item "issued_monotonic")
      (receipt.item "expires_monotonic") now max_age then
      if (receipt.item "tests").HasKeys NEGATIVE then unproved (receipt.item "tests").entries
      else return ["negative_tests_incomplete"]
    else return ["receipt_expired_or_invalid_time"]
  else return ["receipt_binding_mismatch"]

def receipt_errors (receipt context : Json) (now : Number) (max_age : Int) :
    Except Failure (List String) :=
  if receipt = .null then .ok ["receipt_missing"]
  else match python.inspect receipt context now max_age with
    | .error failure => if isRefusal failure then .ok ["invalid_receipt"] else .error failure
    | .ok errors => .ok errors

/-- Two values with the same canonical digest. -/
def SameDigest (data other : Json) : Prop :=
  ∃ text, python.digest data = .ok text ∧ python.digest other = .ok text

/-- A negative test that an independent method passed, with its evidence. -/
structure Passed (result : Json) : Prop where
  keys : result.HasKeys ["outcome", "method", "evidence_sha256"]
  outcome : result.item "outcome" = .str "pass"
  method : result.item "method" = .str "independent-os-probe/v1"
  evidence : isHexText 64 (result.item "evidence_sha256") = true

/-- A document with the fields and the schema of a receipt, bound to the context. -/
structure Bound (receipt context : Json) : Prop where
  keys : receipt.HasKeys RECEIPT_FIELDS
  schema : receipt.item "schema" = .str RECEIPT_SCHEMA
  binding : python.SameDigest (receipt.item "binding") context

/-- A receipt without errors: bound to the context, in its window, with every negative
    test passed and no other. -/
structure Proven (receipt context : Json) (now : Number) (max_age : Int) :
    Prop extends python.Bound receipt context where
  window : OpenWindow (receipt.item "issued_monotonic")
    (receipt.item "expires_monotonic") now max_age
  tests : (receipt.item "tests").HasKeys NEGATIVE
  passed : ∀ entry ∈ (receipt.item "tests").entries, Passed entry.2

/-- A bound receipt whose window has an integer beyond the range of the floats. -/
def Overflows (receipt context : Json) : Prop :=
  python.Bound receipt context ∧
    Overflowing (receipt.item "issued_monotonic") (receipt.item "expires_monotonic")

variable {python} {receipt context data other : Json}

theorem proved_cases (result : Json) :
    (∃ failure, proved result = .error failure ∧ isRefusal failure = true ∧ ¬ Passed result) ∨
      ∃ passed, proved result = .ok passed ∧ (passed = true ↔ Passed result) := by
  unfold proved
  cases hfields : fields result ["outcome", "method", "evidence_sha256"] with
  | error failure =>
    refine .inl ⟨failure, rfl, fields_fails _ _ failure hfields, fun h => ?_⟩
    rw [fields, Except.require, if_pos h.keys] at hfields
    cases hfields
  | ok _ =>
    refine .inr ⟨_, rfl, ?_⟩
    rw [decide_eq_true_eq]
    exact ⟨fun h => ⟨Except.require_eq_ok.mp hfields, h.1, h.2.1, h.2.2⟩,
      fun h => ⟨h.outcome, h.method, h.evidence⟩⟩

/-- The loop raises only what is caught, and finds nothing when all tests passed. -/
theorem unproved_cases (tests : List (String × Json)) :
    (∃ failure, unproved tests = .error failure ∧ isRefusal failure = true ∧
        ¬ ∀ test ∈ tests, Passed test.2) ∨
      ∃ errors, unproved tests = .ok errors ∧ (errors = [] ↔ ∀ test ∈ tests, Passed test.2) := by
  induction tests with
  | nil => exact .inr ⟨[], rfl, by simp⟩
  | cons test rest ih =>
    obtain ⟨name, result⟩ := test
    rw [unproved, List.forall_mem_cons]
    obtain ⟨failure, hfailure, hrefusal, hnot⟩ | ⟨passed, hpassed, hiff⟩ := proved_cases result
    · rw [hfailure]
      exact .inl ⟨failure, rfl, hrefusal, fun h => hnot h.1⟩
    · rw [hpassed]
      cases passed with
      | false =>
        exact .inr ⟨_, rfl, iff_of_false (List.cons_ne_nil _ _)
          fun h => Bool.false_ne_true (hiff.mpr h.1)⟩
      | true =>
        have hresult : Passed result := hiff.mp rfl
        obtain ⟨failure, hfailure, hrefusal, hnot⟩ | ⟨errors, herrors, hrest⟩ := ih
        · exact .inl ⟨failure, hfailure, hrefusal, fun h => hnot h.2⟩
        · exact .inr ⟨errors, herrors, hrest.trans ⟨fun h => ⟨hresult, h⟩, fun h => h.2⟩⟩

/-- Values of a moderate depth are compared, or an integer in them is too long. -/
theorem same_cases (hdata : data.depth ≤ python.encode_depth)
    (hother : other.depth ≤ python.encode_depth) :
    (python.same data other = .error .value_error ∧ ¬ python.SameDigest data other) ∨
      ∃ same, python.same data other = .ok same ∧ (same = true ↔ python.SameDigest data other) := by
  unfold same SameDigest
  cases hown : python.digest data with
  | error failure =>
    obtain rfl := digest_fails hdata failure hown
    exact .inl ⟨rfl, nofun⟩
  | ok own =>
    cases hexpected : python.digest other with
    | error failure =>
      obtain rfl := digest_fails hother failure hexpected
      exact .inl ⟨rfl, nofun⟩
    | ok expected =>
      refine .inr ⟨_, rfl, decide_eq_true_iff.trans ?_⟩
      constructor
      · rintro rfl
        exact ⟨own, rfl, rfl⟩
      · rintro ⟨_, ⟨⟩, ⟨⟩⟩
        rfl

theorem bound_cases (hreceipt : receipt.depth ≤ python.encode_depth)
    (hcontext : context.depth ≤ python.encode_depth) :
    (python.bound receipt context = .error .value_error ∧ ¬ python.Bound receipt context) ∨
      ∃ bound, python.bound receipt context = .ok bound ∧ (receipt.HasKeys RECEIPT_FIELDS →
        (bound = true ↔ python.Bound receipt context)) := by
  have hbinding : (receipt.item "binding").depth ≤ python.encode_depth := by
    have hitem := Json.depth_item (j := receipt) "binding"
    omega
  unfold bound
  by_cases hschema : receipt.item "schema" = .str RECEIPT_SCHEMA
  · rw [Except.every_cons_true (congrArg Except.ok (decide_eq_true hschema))]
    obtain ⟨herror, hnot⟩ | ⟨same, hsame, hiff⟩ := same_cases hbinding hcontext
    · exact .inl ⟨Except.every_cons_error herror, fun h => hnot h.binding⟩
    · refine .inr
        ⟨same, ?_, fun hkeys => hiff.trans ⟨fun h => ⟨hkeys, hschema, h⟩, fun h => h.binding⟩⟩
      cases same with
      | false => exact Except.every_cons_false hsame
      | true => exact (Except.every_cons_true hsame)
  · exact .inr ⟨false, Except.every_cons_false (congrArg Except.ok (decide_eq_false hschema)),
      fun _ => iff_of_false Bool.false_ne_true fun h => hschema h.schema⟩

theorem bound_of_bound (h : python.Bound receipt context) :
    python.bound receipt context = .ok true := by
  obtain ⟨text, hown, hexpected⟩ := h.binding
  have hsame : python.same (receipt.item "binding") context = .ok true := by
    rw [same, hown, hexpected]
    exact congrArg Except.ok (decide_eq_true rfl)
  rw [bound, Except.every_cons_true (congrArg Except.ok (decide_eq_true h.schema)),
    Except.every_cons_true hsame]
  rfl

variable {now : Reading} {max_age : Int}

/-- An integer beyond the range of the floats escapes from `receipt_errors`. -/
theorem receipt_errors_overflow (h : python.Overflows receipt context) :
    python.receipt_errors receipt context now.value max_age = .error .overflow_error := by
  obtain ⟨hbound, hoverflow⟩ := h
  have hnull : receipt ≠ .null := by
    rintro rfl
    exact hbound.keys
  have hfields : fields receipt RECEIPT_FIELDS = .ok () := Except.require_eq_ok.mpr hbound.keys
  rw [receipt_errors, if_neg hnull, inspect, hfields, Except.ok_bind, bound_of_bound hbound,
    Except.ok_bind, if_pos rfl, isCurrent_overflow hoverflow]
  rfl

/-- What `receipt_errors` finds in the other receipts. -/
theorem receipt_errors_ok (hreceipt : receipt.depth ≤ python.encode_depth)
    (hcontext : context.depth ≤ python.encode_depth) (h : ¬ python.Overflows receipt context) :
    ∃ errors, python.receipt_errors receipt context now.value max_age = .ok errors ∧
      (errors = [] ↔ python.Proven receipt context now.value max_age) := by
  by_cases hkeys : receipt.HasKeys RECEIPT_FIELDS
  · have hnull : receipt ≠ .null := by
      rintro rfl
      exact hkeys
    have hfields : fields receipt RECEIPT_FIELDS = .ok () := Except.require_eq_ok.mpr hkeys
    rw [receipt_errors, if_neg hnull, inspect, hfields, Except.ok_bind]
    obtain ⟨herror, hnot⟩ | ⟨bound, hbound, hiff⟩ := bound_cases hreceipt hcontext
    · rw [herror]
      exact ⟨_, rfl, iff_of_false (List.cons_ne_nil _ _) fun h => hnot h.toBound⟩
    · rw [hbound, Except.ok_bind]
      cases bound with
      | false => exact ⟨_, rfl, iff_of_false (List.cons_ne_nil _ _) fun h =>
          Bool.false_ne_true ((hiff hkeys).mpr h.toBound)⟩
      | true =>
        have hbound : python.Bound receipt context := (hiff hkeys).mp rfl
        obtain ⟨current, hcurrent, hopen⟩ :
            ∃ current, isCurrent (receipt.item "issued_monotonic")
              (receipt.item "expires_monotonic") now.value max_age =
              .ok current ∧ (current = true ↔ OpenWindow (receipt.item "issued_monotonic")
                (receipt.item "expires_monotonic") now.value max_age) :=
          isCurrent_ok fun hoverflow => h ⟨hbound, hoverflow⟩
        rw [if_pos rfl, hcurrent, Except.ok_bind]
        cases current with
        | false => exact ⟨_, rfl,
            iff_of_false (List.cons_ne_nil _ _) fun h => Bool.false_ne_true (hopen.mpr h.window)⟩
        | true =>
          have hwindow := hopen.mp rfl
          rw [if_pos rfl]
          by_cases htests : (receipt.item "tests").HasKeys NEGATIVE
          · rw [if_pos htests]
            obtain ⟨failure, hfailure, hrefusal, hnot⟩ | ⟨errors, herrors, hpassed⟩ :=
              unproved_cases (receipt.item "tests").entries
            · rw [hfailure]
              exact ⟨_, if_pos hrefusal, iff_of_false (List.cons_ne_nil _ _) fun h => hnot h.passed⟩
            · rw [herrors]
              exact ⟨errors, rfl,
                hpassed.trans ⟨fun h => ⟨hbound, hwindow, htests, h⟩, fun h => h.passed⟩⟩
          · rw [if_neg htests]
            exact ⟨_, rfl, iff_of_false (List.cons_ne_nil _ _) fun h => htests h.tests⟩
  · have hfalse : ¬ python.Proven receipt context now.value max_age := fun h => hkeys h.keys
    by_cases hnull : receipt = .null
    · exact ⟨_, if_pos hnull, iff_of_false (List.cons_ne_nil _ _) hfalse⟩
    · have hfields : fields receipt RECEIPT_FIELDS = .error (Problem "invalid_fields") :=
        if_neg hkeys
      rw [receipt_errors, if_neg hnull, inspect, hfields]
      exact ⟨_, rfl, iff_of_false (List.cons_ne_nil _ _) hfalse⟩

end Interpreter

end pepeuch_worker
