import PepeuchCluster.ControlPlane.Requests
import PepeuchCluster.Worker.Runner

namespace pepeuch_worker

open control_plane (ExecutionResult State isIdentifier)

/-- What `ExecutionResult.from_dict` asks of a result. -/
structure Publishable (result : ExecutionResult) : Prop where
  attempt_id : isIdentifier result.attempt_id = true
  generation : isIdentifier result.generation = true
  status : result.status ∈ [State.completed, .failed, .interrupted, .cancelled]
  outputs : result.outputs.length ≤ 1
  error_code : ∀ code ∈ result.error_code, code ∈ ExecutionResult.ERROR_CODES

def RESULT_FIELDS : List String :=
  ["schema", "attempt_id", "generation", "status", "outputs", "error_code"]

theorem to_dict_keys (result : ExecutionResult) : result.to_dict.HasKeys RESULT_FIELDS :=
  Json.hasKeys_dict _ rfl

theorem to_dict_item (result : ExecutionResult) (key : String) : result.to_dict.item key =
    (([("schema", Json.str "pepeuch.control-plane/execution-result/v1"),
      ("attempt_id", .str result.attempt_id), ("generation", .str result.generation),
        ("status", .str result.status.text), ("outputs", .arr result.outputs),
      ("error_code", control_plane.optionText result.error_code)].find? fun field =>
    field.1 == key).map Prod.snd).getD .null :=
  Json.item_dict (by simp)

theorem fields_eq_ok {data : Json} {names : List String} {u : Unit} :
    control_plane.fields data names = .ok u ↔ data.HasKeys names := by
  cases data with
  | obj entries =>
    simp only [control_plane.fields, control_plane.keys, Except.require_eq_ok, Json.HasKeys,
      List.not_mem_nil, or_false]
    exact and_comm
  | _ => simp [control_plane.fields, control_plane.keys, Json.HasKeys]

theorem identifier_eq_ok {value : Json} {text : String} :
    control_plane.identifier value = .ok text ↔ value = .str text ∧ isIdentifier text = true := by
  cases value with
  | str s =>
    by_cases h : isIdentifier s = true
    · simp only [control_plane.identifier, h, if_true, Except.ok.injEq, Json.str.injEq]
      constructor
      · rintro rfl
        exact ⟨rfl, h⟩
      · exact fun h => h.1
    · simp only [control_plane.identifier, h, Bool.false_eq_true, if_false, reduceCtorEq,
        Json.str.injEq, false_iff]
      rintro ⟨rfl, h'⟩
      exact h h'
  | _ => simp [control_plane.identifier]

theorem status_of_eq_ok {value : Json} {status : State} :
    ExecutionResult.status_of value = .ok status ↔ value = .str status.text ∧
      status ∈ [State.completed, .failed, .interrupted, .cancelled] := by
  constructor
  · intro h
    refine ⟨?_, control_plane.status_of_ok h⟩
    unfold ExecutionResult.status_of at h
    split at h
    · split at h
      · next found hfound =>
        obtain rfl := Except.ok.inj h
        have htext := List.find?_some hfound
        rw [of_decide_eq_true htext]
      · cases h
    · cases h
  · rintro ⟨rfl, hstatus⟩
    simp only [List.mem_cons, List.not_mem_nil, or_false] at hstatus
    rcases hstatus with rfl | rfl | rfl | rfl <;> rfl

theorem outputs_of_eq_ok {value : Json} {outputs : List Json} :
    ExecutionResult.outputs_of value = .ok outputs ↔ value = .arr outputs ∧ outputs.length ≤ 1 := by
  cases value with
  | arr items =>
    by_cases h : items.length ≤ 1
    · simp only [ExecutionResult.outputs_of, h, if_true, Except.ok.injEq, Json.arr.injEq]
      constructor
      · rintro rfl
        exact ⟨rfl, h⟩
      · exact fun h => h.1
    · simp only [ExecutionResult.outputs_of, h, if_false, reduceCtorEq, Json.arr.injEq, false_iff]
      rintro ⟨rfl, h'⟩
      exact h h'
  | _ => simp [ExecutionResult.outputs_of]

theorem error_code_of_eq_ok {value : Json} {error_code : Option String} :
    ExecutionResult.error_code_of value = .ok error_code ↔
      value = control_plane.optionText error_code ∧ ∀ code ∈ error_code,
        code ∈ ExecutionResult.ERROR_CODES := by
  cases value with
  | null =>
    cases error_code with
    | none => simp [ExecutionResult.error_code_of, control_plane.optionText]
    | some code => simp [ExecutionResult.error_code_of, control_plane.optionText]
  | str s =>
    by_cases h : s ∈ ExecutionResult.ERROR_CODES
    · cases error_code with
      | none => simp [ExecutionResult.error_code_of, control_plane.optionText, h]
      | some code =>
        simp only [ExecutionResult.error_code_of, h, if_true, Except.ok.injEq, Option.some.injEq,
          control_plane.optionText, Json.str.injEq, Option.mem_some_iff, forall_eq']
        constructor
        · rintro rfl
          exact ⟨rfl, h⟩
        · exact fun h => h.1
    · cases error_code with
      | none => simp [ExecutionResult.error_code_of, control_plane.optionText, h]
      | some code =>
        simp only [ExecutionResult.error_code_of, h, if_false, reduceCtorEq,
          control_plane.optionText, Json.str.injEq, Option.mem_some_iff, forall_eq', false_iff]
        rintro ⟨rfl, h'⟩
        exact h h'
  | _ => cases error_code <;> simp [ExecutionResult.error_code_of, control_plane.optionText]

theorem from_dict_eq_ok {data : Json} {result : ExecutionResult} :
    ExecutionResult.from_dict data = .ok result ↔ data.HasKeys RESULT_FIELDS ∧
      (∀ name ∈ RESULT_FIELDS, data.item name = result.to_dict.item name) ∧ Publishable result := by
  have hitem : ∀ key, control_plane.item data key = data.item key := fun key => rfl
  simp only [ExecutionResult.from_dict, Except.bind_eq_ok, Except.pure_eq_ok, fields_eq_ok,
    identifier_eq_ok, status_of_eq_ok, outputs_of_eq_ok, error_code_of_eq_ok, Except.require_eq_ok,
      hitem, RESULT_FIELDS, List.forall_mem_cons, to_dict_item]
  have hschema : ∀ value : Json,
    ExecutionResult.is_text "pepeuch.control-plane/execution-result/v1" value = true ↔
      value = .str "pepeuch.control-plane/execution-result/v1" := by
    intro value
    cases value <;> simp [ExecutionResult.is_text]
  rw [hschema]
  constructor
  · rintro ⟨_, hkeys, _, hschema, attempt_id, ⟨hattempt, hattempt'⟩, generation,
      ⟨hgeneration, hgeneration'⟩, status, ⟨hstatus, hstatus'⟩, outputs, ⟨houtputs, houtputs'⟩,
        error_code, ⟨herror, herror'⟩, rfl⟩
    refine ⟨hkeys, ?_, hattempt', hgeneration', hstatus', houtputs', herror'⟩
    simpa using ⟨hschema, hattempt, hgeneration, hstatus, houtputs, herror⟩
  · rintro ⟨hkeys, hitems, hpublishable⟩
    simp only [List.not_mem_nil, false_implies, implies_true, and_true] at hitems
    obtain ⟨hschema, hattempt, hgeneration, hstatus, houtputs, herror⟩ := hitems
    exact ⟨(), hkeys, (), by simpa using hschema, _,
      ⟨by simpa using hattempt, hpublishable.attempt_id⟩, _, ⟨by simpa using hgeneration,
        hpublishable.generation⟩, _, ⟨by simpa using hstatus, hpublishable.status⟩, _,
      ⟨by simpa using houtputs, hpublishable.outputs⟩, _,
        ⟨by simpa using herror, hpublishable.error_code⟩, rfl⟩

/-- A result that may be published is read back from its document. -/
theorem from_dict_to_dict {result : ExecutionResult} (h : Publishable result) :
    ExecutionResult.from_dict result.to_dict = .ok result :=
  from_dict_eq_ok.mpr ⟨to_dict_keys result, fun _ _ => rfl, h⟩

theorem to_dict_wellFormed {result : ExecutionResult}
    (h : ∀ output ∈ result.outputs, output.WellFormed) :
    result.to_dict.WellFormed := by
  refine Json.dict_wellFormed (by simp) ?_
  simp only [List.forall_mem_cons, List.not_mem_nil, false_implies, implies_true, and_true]
  refine ⟨trivial, trivial, trivial, trivial, Json.arr_wellFormed h, ?_⟩
  cases result.error_code <;> trivial

/-- A document is that of the result that is read from it. -/
theorem to_dict_from_dict {data : Json} {result : ExecutionResult} (hdata : data.WellFormed)
    (h : ExecutionResult.from_dict data = .ok result) : result.to_dict = data := by
  obtain ⟨hkeys, hitems, _⟩ := from_dict_eq_ok.mp h
  have houtputs : ∀ output ∈ result.outputs, output.WellFormed := by
    have hitem := hdata.item "outputs"
    rw [hitems "outputs" (by simp [RESULT_FIELDS]), to_dict_item] at hitem
    have harr : (Json.arr result.outputs).WellFormed := by simpa using hitem
    exact Json.wellFormedItems_iff.mp harr
  refine (hkeys.ext (to_dict_keys result) hdata (to_dict_wellFormed houtputs)
    fun name hname => ?_).symm
  rw [hitems name hname]

end pepeuch_worker
