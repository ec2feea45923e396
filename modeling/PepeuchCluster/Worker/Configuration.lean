import PepeuchCluster.Json.Nesting
import PepeuchCluster.Worker.Policy

namespace pepeuch_worker

def CONFIG_SCHEMA : String := "pepeuch.worker/config/v1"

def CPU_DIGEST : String := "cpu.text.sha256.v1"

def CONFIG_FIELDS : List String :=
  ["schema", "worker_id", "backend_url", "capabilities", "tools", "limits", "os_profile"]

/-- `n_[0-9a-f]{32}`. -/
def isWorkerId : Json → Bool
  | .str value => value.toList.take 2 = ['n', '_'] && (value.toList.drop 2).length =
      32 && (value.toList.drop 2).all Sha256.isHex
  | _ => false

/-- `http://127.0.0.1:` and a port of one to five digits, neither zero nor too large. -/
def isLoopback : Json → Bool
  | .str value =>
    let port := value.toList.drop 17
    value.toList.take 17 = "http://127.0.0.1:".toList && 1 ≤ port.length && port.length ≤
      5 && port.all Char.isDigit &&
      (let number := port.foldl (fun number digit => 10 * number + (digit.toNat - 48)) 0
      0 < number && number ≤ 65535)
  | _ => false

/-- `integer(value, low, high)`. -/
def isInteger (low high : Int) : Json → Bool
  | .number (.int value) => low ≤ value && value ≤ high
  | _ => false

def LIMITS : List (String × Int) :=
  [("input_bytes", 16000), ("output_bytes", 65536), ("seconds", 30), ("tasks", 1)]

def PROFILE_IDS : List String := ["expected_uid", "expected_gid", "backend_uid"]

def configuration (data : Json) : Except Failure Json := do
  fields data CONFIG_FIELDS
  Except.require
    (data.item "schema" = .str CONFIG_SCHEMA ∧ isWorkerId (data.item "worker_id") = true)
    (Problem "invalid_worker_configuration")
  Except.require (isLoopback (data.item "backend_url") = true) (Problem "worker_loopback_only")
  Except.require (data.item "capabilities" = .arr [.str CPU_DIGEST] ∧ data.item "tools" = .arr [])
    (Problem "unsupported_worker_capabilities")
  fields (data.item "limits") (LIMITS.map Prod.fst)
  LIMITS.forM fun (name, high) =>
    Except.require (isInteger 1 high ((data.item "limits").item name) = true)
    (Problem "invalid_worker_policy")
  fields (data.item "os_profile") ("schema" :: PROFILE_IDS)
  Except.require ((data.item "os_profile").item "schema" = .str CPU_PROFILE)
    (Problem "unsupported_os_profile")
  PROFILE_IDS.forM fun name =>
    Except.require (isInteger 0 (2 ^ 31 - 1) ((data.item "os_profile").item name) = true)
    (Problem "invalid_worker_policy")
  return data

/-- A document that `configuration` accepts; its dictionaries list each key once. -/
structure Configuration where
  data : Json
  accepted : pepeuch_worker.configuration data = .ok data
  distinct : data.WellFormed

theorem isInteger_depth {low high : Int} {data : Json} (h : isInteger low high data = true) :
    data.depth = 0 := by
  cases data with
  | number _ => rfl
  | _ => cases h

namespace Configuration

variable (c : Configuration)

/-- An accepted configuration is a dictionary of values, of lists of values and of
    dictionaries of values. -/
theorem depth : c.data.depth ≤ 2 := by
  have haccepted := c.accepted
  simp only [pepeuch_worker.configuration, fields, Except.bind_eq_ok, Except.forM_eq_ok,
    Except.require_eq_ok, Except.pure_eq_ok, exists_const] at haccepted
  obtain ⟨hkeys, ⟨hschema, hworker⟩, hurl, ⟨hcapabilities, htools⟩, hlimits, hbounds, hprofile,
    hname, hids, _⟩ := haccepted
  have hdistinct := c.distinct
  have htext : ∀ {data : Json} {text : String}, data = .str text → data.depth ≤ 1 := by
    rintro _ _ rfl
    exact Nat.zero_le _
  have hid : (c.data.item "worker_id").depth ≤ 1 := by
    cases hvalue : c.data.item "worker_id" with
    | str _ => exact Nat.zero_le _
    | _ => simp [hvalue, isWorkerId] at hworker
  have hbackend : (c.data.item "backend_url").depth ≤ 1 := by
    cases hvalue : c.data.item "backend_url" with
    | str _ => exact Nat.zero_le _
    | _ => simp [hvalue, isLoopback] at hurl
  have hlimit : (c.data.item "limits").depth ≤ 1 := by
    refine hlimits.depth (hdistinct.item _) fun name hmem => ?_
    obtain ⟨bound, hbound, rfl⟩ := List.mem_map.mp hmem
    exact (isInteger_depth (hbounds bound hbound)).le
  have hos : (c.data.item "os_profile").depth ≤ 1 := by
    refine hprofile.depth (hdistinct.item _) (List.forall_mem_cons.mpr ⟨?_, fun name hmem => ?_⟩)
    · rw [hname]
      exact Nat.zero_le _
    · exact (isInteger_depth (hids name hmem)).le
  refine hkeys.depth hdistinct ?_
  simp only [CONFIG_FIELDS, List.forall_mem_cons]
  exact ⟨htext hschema, hid, hbackend, hcapabilities ▸ by decide, htools ▸ by decide, hlimit, hos,
    List.forall_mem_nil _⟩

end Configuration

end pepeuch_worker
