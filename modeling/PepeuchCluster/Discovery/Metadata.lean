import PepeuchCluster.ControlPlane.Contracts
import PepeuchCluster.Effects.Effect
import PepeuchCluster.Json.Equality

/-- `str.casefold` and `str.isalnum`, character by character. -/
class Unicode where
  casefold : Char → List Char
  isalnum : Char → Bool
  casefold_ascii : ∀ c : Char, c.toNat < 128 → casefold c = [c.toLower]
  isalnum_ascii : ∀ c : Char, c.toNat < 128 → isalnum c = c.isAlphanum

namespace discovery

open control_plane (encode isSpace)

inductive Reason where
  | authentication | forbidden | target_unavailable | nim_tag_unavailable | quota | provider
  | http_error | redirect | cache_required | timeout | connection | invalid_json | invalid_schema
  | identity | selection | incomplete | request_budget | attempt_budget | time_budget
  | retry_after_budget | retry_after_extreme | delay_limit | wait_interrupted | runtime | unexpected
deriving DecidableEq

/-- What a call raises: an error of the language with its text, or an `ExecutionError`. -/
inductive Failure where
  | value_error (text : String)
  | type_error
  | key_error
  | overflow_error
  | os_error
  | file_not_found
  | killed
  | execution_error (reason : Reason)
deriving DecidableEq

/-- `raise ValueError(text)` unless the condition holds. -/
def demand (condition : Prop) [Decidable condition] (text : String) : Except Failure Unit :=
  Except.require condition (.value_error text)

theorem demand_eq_ok {condition : Prop} [Decidable condition] {text : String} {u : Unit} :
    demand condition text = .ok u ↔ condition :=
  Except.require_eq_ok

theorem demand_holds {condition : Prop} [Decidable condition] {text : String} (h : condition) :
    demand condition text = .ok () :=
  Except.require_holds h

def SECRET_KEYS : List String :=
  ["apikey", "xapikey", "apitoken", "accesstoken", "refreshtoken", "idtoken", "authorization",
    "proxyauthorization", "credentials", "password", "passwd", "secret", "clientsecret",
      "apisecret", "secretkey",
    "privatekey", "token", "sessiontoken", "bearertoken", "cookie", "setcookie"]

section Metadata

variable [Unicode]

/-- `"".join(c for c in key.casefold() if c.isalnum())`. -/
def folded (key : String) : String :=
  String.ofList ((key.toList.flatMap Unicode.casefold).filter Unicode.isalnum)

def assert_secret_free (value : Json) : Except Failure Unit :=
  demand (value.Spares (fun key => folded key ∈ SECRET_KEYS) = true)
    "Refusing credential-like metadata"

end Metadata

/-- The text of a value. Keys are sorted, and the blanks of the other separators
    are left out: no reader tells the difference. -/
def canonical_json (value : Json) : String := String.ofList value.render

def json_dumps (value : Json) : Except Failure String := do
  demand value.Printable "Exceeds the limit for integer string conversion"
  return canonical_json value

/-- Repeated keys and nonfinite numbers are refused, like any other text that is no value. -/
def strict_json_loads (payload : String) : Except Failure Json :=
  match Json.parse payload.toList with
  | some value => .ok value
  | none => .error (.value_error "Invalid JSON")

def copy_metadata [Unicode] (value : Json) : Except Failure Json := do
  assert_secret_free value
  let result ← strict_json_loads (← json_dumps value)
  assert_secret_free result
  return result

theorem strict_json_loads_canonical {value : Json} (h : value.WellFormed) :
    strict_json_loads (canonical_json value) = .ok value := by
  simp [strict_json_loads, canonical_json, Json.parse_render h]

/-- A value that the copy accepts. -/
structure Plain [Unicode] (value : Json) : Prop where
  secret_free : value.Spares (fun key => folded key ∈ SECRET_KEYS) = true
  printable : value.Printable

/-- The copy of a value is the value. -/
theorem copy_metadata_eq_ok [Unicode] {value result : Json} (h : value.WellFormed) :
    copy_metadata value = .ok result ↔ Plain value ∧ result = value := by
  simp only [copy_metadata, assert_secret_free, json_dumps, Except.bind_eq_ok,
    Except.pure_eq_ok, demand_eq_ok]
  constructor
  · rintro ⟨_, hfree, text, ⟨_, hprintable, rfl⟩, copied, hloads, _, _, rfl⟩
    rw [strict_json_loads_canonical h] at hloads
    exact ⟨⟨hfree, hprintable⟩, (Except.ok.inj hloads).symm⟩
  · rintro ⟨⟨hfree, hprintable⟩, rfl⟩
    exact ⟨(), hfree, _, ⟨(), hprintable, rfl⟩, _, strict_json_loads_canonical h, (), hfree, rfl⟩

section Parts

variable [Unicode] {value : Json} {items : List Json} {fields : List (String × Json)}

theorem plain_arr (h : ∀ item ∈ items, Plain item) : Plain (.arr items) :=
  ⟨Json.sparesItems_iff.mpr fun item hitem => (h item hitem).secret_free,
    Json.printableItems_iff.mpr fun item hitem => (h item hitem).printable⟩

theorem plain_dict (h : ∀ field ∈ fields, folded field.1 ∉ SECRET_KEYS ∧ Plain field.2) :
    Plain (.dict fields) := by
  have hmem : ∀ field ∈ Json.sortFields fields, folded field.1 ∉ SECRET_KEYS ∧ Plain field.2 :=
    fun field hfield => h field ((Json.sortFields_perm fields).mem_iff.mp hfield)
  exact ⟨Json.sparesFields_iff.mpr fun field hfield =>
      ⟨decide_eq_false (hmem field hfield).1, (hmem field hfield).2.secret_free⟩,
    Json.printableFields_iff.mpr fun field hfield => (hmem field hfield).2.printable⟩

theorem Plain.field (h : Plain value) {field : String × Json} (hfield : field ∈ value.entries) :
    folded field.1 ∉ SECRET_KEYS ∧ Plain field.2 := by
  cases value with
  | obj fields =>
    obtain ⟨hkey, hfree⟩ := Json.sparesFields_iff.mp h.secret_free field hfield
    exact ⟨of_decide_eq_false hkey, hfree, Json.printableFields_iff.mp h.printable field hfield⟩
  | _ => cases hfield

theorem Plain.item (h : Plain value) (key : String) : Plain (value.item key) := by
  rcases Json.item_mem with hnull | hmem
  · rw [hnull]
    exact ⟨rfl, trivial⟩
  · exact (h.field hmem).2

theorem Plain.element (h : Plain (.arr items)) {item : Json} (hitem : item ∈ items) : Plain item :=
  ⟨Json.sparesItems_iff.mp h.secret_free item hitem,
    Json.printableItems_iff.mp h.printable item hitem⟩

theorem plain_str (text : String) : Plain (.str text) := ⟨rfl, trivial⟩

end Parts

/-- `hashlib.sha256(canonical_json(value).encode("utf-8")).hexdigest()`. -/
@[irreducible] def digest (value : Json) : String := sha256 (encode (canonical_json value))

theorem canonical_json_injective {a b : Json} (ha : a.WellFormed) (hb : b.WellFormed)
    (h : canonical_json a = canonical_json b) : a = b :=
  Json.render_injective ha hb (String.ofList_injective h)

theorem canonical_json_eq_iff {a b : Json} (ha : a.WellFormed) (hb : b.WellFormed) :
    canonical_json a = canonical_json b ↔ a = b :=
  ⟨canonical_json_injective ha hb, congrArg canonical_json⟩

/-- A value of the language: its dictionaries list each key once, in key order. -/
structure Value where
  json : Json
  wellFormed : json.WellFormed

end discovery
