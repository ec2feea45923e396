import PepeuchCluster.ControlPlane.Contracts
import PepeuchCluster.Json.Nesting
import PepeuchCluster.Worker.Policy

namespace pepeuch_worker

open control_plane (canonical encode)

/-- What the interpreter leaves open: how deep the JSON encoder and `deepcopy` follow a value
    before they raise RecursionError, the digits of Unicode and the text of a container. -/
structure Interpreter where
  encode_depth : Nat
  copy_depth : Nat
  enough : 16 ≤ copy_depth
  copy_le_encode : copy_depth ≤ encode_depth
  isdigit : Char → Bool
  decimal : Char → Option (Fin 10)
  repr : Json → String

/-! ### Values -/

/-- `data[key]`. -/
def subscript (data : Json) (key : String) : Except Failure Json :=
  match data, data.lookup key with
  | .obj _, some value => .ok value
  | .obj _, none => .error .key_error
  | _, _ => .error .type_error

/-- `data.get(key)`. -/
def get (data : Json) (key : String) : Except Failure Json :=
  match data with
  | .obj _ => .ok (data.item key)
  | _ => .error .attribute_error

/-- `bool(data)`. -/
def truthy : Json → Bool
  | .null => false
  | .bool value => value
  | .number value => value.value ≠ 0
  | .str value => value ≠ ""
  | .arr items => !items.isEmpty
  | .obj fields => !fields.isEmpty

/-- `data or default`. -/
def either (data default : Json) : Json := if truthy data then data else default

/-- `data.get(key)` of what is a dictionary. -/
theorem get_ok {data : Json} (h : ∃ fields, data = .obj fields) (key : String) :
    get data key = .ok (data.item key) := by
  obtain ⟨fields, rfl⟩ := h
  rfl

theorem subscript_eq_ok {data value : Json} {key : String} (h : subscript data key = .ok value) :
    data.item key = value := by
  unfold subscript at h
  split at h
  · next hvalue => exact (congrArg (Option.getD · Json.null) hvalue).trans (Except.ok.inj h)
  · cases h
  · cases h

/-- What a subscript raises. -/
theorem subscript_fails (data : Json) (key : String) :
    Except.Fails (fun failure => failure = .type_error ∨ failure = .key_error)
      (subscript data key) := by
  unfold subscript
  split
  · exact .ok _
  · exact .error (.inr rfl)
  · exact .error (.inl rfl)

theorem subscript_null (key : String) : subscript .null key = .error .type_error := rfl

namespace Interpreter

variable (python : Interpreter)

def digest (data : Json) : Except Failure String := do
  Json.traverse .recursion_error .value_error python.encode_depth data
  return sha256 (encode (canonical data))

def deepcopy (data : Json) : Except Failure Json :=
  if data.depth ≤ python.copy_depth then .ok data else .error .recursion_error

/-- `text.isdigit()`. -/
def digits (text : List Char) : Bool := !text.isEmpty && text.all python.isdigit

/-- `int(text)`, of a text of digits: some digits are no decimals. -/
def int (text : List Char) : Except Failure Nat :=
  if text.length ≤ 4300 then
    match text.mapM python.decimal with
    | some digits => .ok (digits.foldl (fun value digit => 10 * value + digit.val) 0)
    | none => .error .value_error
  else .error .value_error

/-- `str(data)`. -/
def str (data : Json) : Except Failure String :=
  match data with
  | .null => .ok "None"
  | .bool true => .ok "True"
  | .bool false => .ok "False"
  | .number n => if Json.Printable (.number n) then .ok (.ofList (Json.renderNumber n))
      else .error .value_error
  | .str text => .ok text
  | _ => .ok (python.repr data)

variable {python} {data copy : Json}

theorem digest_fails (h : data.depth ≤ python.encode_depth) :
    Except.Fails (fun failure => failure = .value_error) (python.digest data) :=
  Except.Fails.bind (fun _ herror => Json.traverse_error data h herror) fun _ _ => .ok _

theorem deepcopy_eq_ok : python.deepcopy data = .ok copy ↔ data.depth ≤ python.copy_depth ∧
    copy = data := by
  unfold deepcopy
  split <;> simp_all [eq_comm]

theorem deepcopy_self (h : data.depth ≤ python.copy_depth) :
    python.deepcopy data = .ok data := if_pos h

theorem int_fails (text : List Char) :
    Except.Fails (fun failure => failure = .value_error) (python.int text) := by
  unfold int
  split
  · split
    · exact .ok _
    · exact .error rfl
  · exact .error rfl

theorem decimal_length {text : List Char} {digits : List (Fin 10)}
    (h : text.mapM python.decimal = some digits) :
    digits.length = text.length := by
  induction text generalizing digits with
  | nil =>
    obtain rfl := Option.some.inj h
    rfl
  | cons c text ih =>
    simp only [List.mapM_cons, Option.bind_eq_bind, Option.bind_eq_some_iff, Option.pure_def,
      Option.some.injEq] at h
    obtain ⟨digit, _, rest, hrest, rfl⟩ := h
    rw [List.length_cons, List.length_cons, ih hrest]

/-- A number has no more digits than its text. -/
theorem int_lt {text : List Char} {value : Nat} (h : python.int text = .ok value) :
    value < 10 ^ text.length := by
  have hfold : ∀ (digits : List (Fin 10)) (start : Nat),
      digits.foldl (fun value digit => 10 * value + digit.val) start <
        (start + 1) * 10 ^ digits.length := by
    intro digits
    induction digits with
    | nil => simp
    | cons digit rest ih =>
      intro start
      have hdigit : 10 * start + digit.val + 1 ≤ (start + 1) * 10 := by omega
      calc rest.foldl (fun value digit => 10 * value + digit.val) (10 * start + digit.val)
          < (10 * start + digit.val + 1) * 10 ^ rest.length := ih _
        _ ≤ (start + 1) * 10 * 10 ^ rest.length := Nat.mul_le_mul_right _ hdigit
        _ = (start + 1) * 10 ^ (digit :: rest).length := by rw [List.length_cons, pow_succ']; ring
  unfold int at h
  split at h
  · split at h
    · next digits hdigits =>
      obtain rfl := Except.ok.inj h
      simpa [decimal_length hdigits] using hfold digits 0
    · cases h
  · cases h

theorem str_fails (data : Json) :
    Except.Fails (fun failure => failure = .value_error) (python.str data) := by
  unfold str
  split
  · exact .ok _
  · exact .ok _
  · exact .ok _
  · split
    · exact .ok _
    · exact .error rfl
  · exact .ok _
  · exact .ok _

end Interpreter

/-! ### Time -/

/-- `math.isfinite(t)`: an integer is converted to a float. -/
def isfinite : Number → Except Failure Bool
  | .int z => if (Binary64.ofValue z).isSome then .ok true else .error .overflow_error
  | .float _ => .ok true

/-- `type(t) in (int, float) and math.isfinite(t)`. -/
def isTime : Json → Except Failure Bool
  | .number t => isfinite t
  | _ => .ok false

/-- `issued + seconds`, for a few seconds; infinite where there is none. -/
def limit (issued : Number) (seconds : Int) : Option ℚ :=
  match issued with
  | .int z => some (z + seconds : Int)
  | .float x => (Binary64.ofValue (x.value + seconds)).map Binary64.value

/-- `issued <= now < expires <= issued + seconds`. -/
def Current (issued expires now : Number) (seconds : Int) : Prop :=
  issued.value ≤ now.value ∧ now.value < expires.value ∧ ∀ last ∈ limit issued seconds,
    expires.value ≤ last

instance (issued expires now : Number) (seconds : Int) :
    Decidable (Current issued expires now seconds) := by
  unfold Current
  infer_instance

def isOpen (issued expires : Json) (now : Number) (seconds : Int) : Bool :=
  match issued, expires with
  | .number issued, .number expires => Current issued expires now seconds
  | _, _ => false

/-- The test of a window: three finite times, in their order. -/
def isCurrent (issued expires : Json) (now : Number) (seconds : Int) : Except Failure Bool :=
  .every [isTime issued, isTime expires, isfinite now, .ok (isOpen issued expires now seconds)]

/-- A reading of the clock, which is finite. -/
structure Reading where
  value : Number
  finite : isfinite value = .ok true

/-- An integer beyond the range of the floats. -/
def Unbounded (t : Json) : Prop := ∃ z : Int, t = .number (.int z) ∧ Binary64.ofValue z = none

/-- The times at which the test of a window raises OverflowError. -/
def Overflowing (issued expires : Json) : Prop := Unbounded issued ∨ (∃ t, issued = .number t) ∧
    Unbounded expires

/-- A window of two numbers that is open now. -/
def OpenWindow (issued expires : Json) (now : Number) (seconds : Int) : Prop :=
  ∃ first last, issued = .number first ∧ expires = .number last ∧ Current first last now seconds

theorem isTime_unbounded {t : Json} (h : Unbounded t) : isTime t = .error .overflow_error := by
  obtain ⟨z, rfl, hz⟩ := h
  rw [isTime, isfinite, hz]
  rfl

theorem isTime_number {t : Number} (h : ¬ Unbounded (.number t)) :
    isTime (.number t) = .ok true := by
  cases t with
  | float x => rfl
  | int z =>
    have hz : Binary64.ofValue z ≠ none := fun hnone => h ⟨z, rfl, hnone⟩
    rw [isTime, isfinite, if_pos (Option.isSome_iff_ne_none.mpr hz)]

theorem isTime_other {t : Json} (h : ¬ ∃ n, t = .number n) : isTime t = .ok false := by
  cases t with
  | number n => exact absurd ⟨n, rfl⟩ h
  | _ => rfl

variable {issued expires : Json} {now : Reading} {seconds : Int}

theorem isCurrent_overflow (h : Overflowing issued expires) :
    isCurrent issued expires now.value seconds = .error .overflow_error := by
  obtain h | ⟨⟨t, rfl⟩, h⟩ := h
  · exact Except.every_cons_error (isTime_unbounded h)
  · by_cases ht : Unbounded (.number t)
    · exact Except.every_cons_error (isTime_unbounded ht)
    · rw [isCurrent, Except.every_cons_true (isTime_number ht)]
      exact Except.every_cons_error (isTime_unbounded h)

/-- Other times are told apart without an error. -/
theorem isCurrent_ok (h : ¬ Overflowing issued expires) :
    ∃ current, isCurrent issued expires now.value seconds = .ok current ∧
      (current = true ↔ OpenWindow issued expires now.value seconds) := by
  by_cases hissued : ∃ t, issued = .number t
  · obtain ⟨first, rfl⟩ := hissued
    rw [isCurrent, Except.every_cons_true (isTime_number fun hfirst => h (.inl hfirst))]
    by_cases hexpires : ∃ t, expires = .number t
    · obtain ⟨last, rfl⟩ := hexpires
      have hlast : ¬ Unbounded (.number last) := fun hlast => h (.inr ⟨⟨first, rfl⟩, hlast⟩)
      rw [Except.every_cons_true (isTime_number hlast), Except.every_cons_true now.finite, isOpen]
      by_cases hcurrent : Current first last now.value seconds
      · rw [decide_eq_true hcurrent]
        exact ⟨true, rfl, iff_of_true rfl ⟨first, last, rfl, rfl, hcurrent⟩⟩
      · rw [decide_eq_false hcurrent]
        refine ⟨false, rfl, iff_of_false Bool.false_ne_true ?_⟩
        rintro ⟨_, _, ⟨⟩, ⟨⟩, hopen⟩
        exact hcurrent hopen
    · rw [Except.every_cons_false (isTime_other hexpires)]
      exact ⟨false, rfl, iff_of_false Bool.false_ne_true fun ⟨_, last, _, hlast, _⟩ =>
        hexpires ⟨last, hlast⟩⟩
  · rw [isCurrent, Except.every_cons_false (isTime_other hissued)]
    exact ⟨false, rfl, iff_of_false Bool.false_ne_true fun ⟨first, _, hfirst, _⟩ =>
      hissued ⟨first, hfirst⟩⟩

end pepeuch_worker
