import PepeuchCluster.ControlPlane.Contracts
import PepeuchCluster.Effects.Effect
import PepeuchCluster.Json.Objects
import PepeuchCluster.Text.Paths

namespace pepeuch_worker

/-- What a call raises. -/
inductive Failure where
  | problem (code : String) (status : Nat)
  | type_error
  | value_error
  | key_error
  | attribute_error
  | overflow_error
  | recursion_error
  | os_error
  | struct_error
deriving DecidableEq

def Problem (code : String) (status : Nat := 400) : Failure := .problem code status

/-- A dictionary with exactly these keys. -/
def fields (data : Json) (required : List String) : Except Failure Unit :=
  Except.require (data.HasKeys required) (Problem "invalid_fields")

def POLICY_SCHEMA : String := "pepeuch.worker/isolation-policy/v1"

def CPU_PROFILE : String := "linux-systemd-cpu/v1"

def POLICY_FIELDS : List String :=
  ["schema", "profile", "configuration_sha256", "unit", "invocation_id", "cgroup",
    "allowed_groups", "code_root", "worker_root", "backend_root", "cpu_ratio", "memory_bytes",
      "pids", "max_age_seconds"]

/-- `re.fullmatch("[0-9a-f]{count}", value)`, of a string. -/
def isHexText (count : Nat) : Json → Bool
  | .str value => value.toList.length = count && value.toList.all Sha256.isHex
  | _ => false

/-- `[A-Za-z0-9_.@-]{1,128}\.service`. -/
def isUnit : Json → Bool
  | .str value =>
    let name := value.toList.take (value.toList.length - 8)
    value.toList.drop (value.toList.length - 8) = ".service".toList && 1 ≤
      name.length && name.length ≤ 128 &&
      name.all fun c => c.isAlphanum || c = '_' || c = '.' || c = '@' || c = '-'
  | _ => false

def isPath : Json → Bool
  | .str value =>
    value.toList.head? = some '/' && value.toList ≠ ['/'] && ['.', '.'] ∉
      (PurePosixPath.parse value.toList).parts &&
      (PurePosixPath.parse value.toList).str = value.toList && value.toList.all fun c =>
        33 ≤ c.toNat
  | _ => false

def areGroups : Json → Bool
  | .arr groups => groups.length ≤ 16 && groups.all (fun group =>
      match group with
      | .number (.int g) => 0 < g
      | _ => false) && groups.Nodup
  | _ => false

def isWithin (high : Int) : Json → Bool
  | .number (.int value) => 1 ≤ value && value ≤ high
  | _ => false

def isRatio : Json → Bool
  | .number value => 0 < value.value && value.value ≤ 1 / 2
  | _ => false

/-- One half of a processor. -/
def half : Binary64 := ⟨false, 2 ^ 52, -53, by decide⟩

theorem half_isRatio : isRatio (.number (.float half)) = true := by
  have hvalue : half.value = 1 / 2 := by
    rw [Binary64.value, Binary64.magnitude, Binary64.scale_eq_zpow (by decide)]
    norm_num [half]
  have hpositive : 0 < half.value := by
    rw [hvalue]
    norm_num
  exact Bool.and_eq_true_iff.mpr ⟨decide_eq_true hpositive, decide_eq_true hvalue.le⟩

def path_of (data : Json) (name : String) : PurePosixPath :=
  PurePosixPath.parse (data.item name).text.toList

def ROOTS : List String := ["code_root", "worker_root", "backend_root"]

def policy (data : Json) : Except Failure Json := do
  fields data POLICY_FIELDS
  Except.require (data.item "schema" = .str POLICY_SCHEMA ∧ data.item "profile" = .str CPU_PROFILE)
    (Problem "invalid_isolation_policy")
  Except.require (isHexText 64 (data.item "configuration_sha256") = true)
    (Problem "invalid_isolation_policy")
  Except.require (isHexText 32 (data.item "invocation_id") = true)
    (Problem "invalid_isolation_policy")
  Except.require (isUnit (data.item "unit") = true) (Problem "invalid_isolation_policy")
  (ROOTS ++ ["cgroup"]).forM fun name =>
    Except.require (isPath (data.item name) = true) (Problem "invalid_isolation_policy")
  Except.require ((ROOTS.map (path_of data)).Pairwise fun path other => ¬ path.Overlap other)
    (Problem "overlapping_isolation_paths")
  Except.require (areGroups (data.item "allowed_groups") = true)
    (Problem "invalid_isolation_policy")
  [("memory_bytes", 134217728), ("pids", 8), ("max_age_seconds", 55)].forM fun (key, high) =>
    Except.require (isWithin high (data.item key) = true) (Problem "invalid_isolation_policy")
  Except.require (isRatio (data.item "cpu_ratio") = true) (Problem "invalid_isolation_policy")
  return data

/-- What `policy` asks of a document. -/
structure Accepted (data : Json) : Prop where
  keys : data.HasKeys POLICY_FIELDS
  profile : data.item "schema" = .str POLICY_SCHEMA ∧ data.item "profile" = .str CPU_PROFILE
  configuration_sha256 : isHexText 64 (data.item "configuration_sha256") = true
  invocation_id : isHexText 32 (data.item "invocation_id") = true
  unit : isUnit (data.item "unit") = true
  paths : ∀ name ∈ ROOTS ++ ["cgroup"], isPath (data.item name) = true
  disjoint : (ROOTS.map (path_of data)).Pairwise fun path other => ¬ path.Overlap other
  allowed_groups : areGroups (data.item "allowed_groups") = true
  bounds : ∀ bound ∈ [("memory_bytes", 134217728), ("pids", 8), ("max_age_seconds", 55)],
    isWithin bound.2 (data.item bound.1) = true
  cpu_ratio : isRatio (data.item "cpu_ratio") = true

theorem policy_ok {data result : Json} : policy data = .ok result ↔
    Accepted data ∧ result = data := by
  simp only [policy, fields, Except.bind_eq_ok, Except.forM_eq_ok, Except.require_eq_ok,
    Except.pure_eq_ok, exists_const]
  constructor
  · rintro ⟨hkeys, hprofile, hsha, hinvocation, hunit, hpaths, hdisjoint, hgroups,
      hbounds, hratio, rfl⟩
    exact ⟨⟨hkeys, hprofile, hsha, hinvocation, hunit, hpaths, hdisjoint, hgroups, hbounds, hratio⟩,
      rfl⟩
  · rintro ⟨⟨hkeys, hprofile, hsha, hinvocation, hunit, hpaths, hdisjoint, hgroups,
      hbounds, hratio⟩, rfl⟩
    exact ⟨hkeys, hprofile, hsha, hinvocation, hunit, hpaths, hdisjoint, hgroups,
      hbounds, hratio, rfl⟩

/-- A document that `policy` accepts. -/
structure Policy where
  data : Json
  accepted : policy data = .ok data

namespace Policy

variable (p : Policy)

theorem conditions : Accepted p.data := (policy_ok.mp p.accepted).1

/-- The text of a root. -/
def root (name : String) : List Char := (p.data.item name).text.toList

/-- Each root is an absolute path that is its own text. -/
theorem root_path {name : String} (h : name ∈ ROOTS) :
    (p.root name).head? = some '/' ∧ p.root name ≠ ['/'] ∧
      ['.', '.'] ∉ (PurePosixPath.parse (p.root name)).parts ∧
      (PurePosixPath.parse (p.root name)).str = p.root name := by
  have hpath := p.conditions.paths name (List.mem_append_left _ h)
  unfold root
  cases hvalue : p.data.item name with
  | str value =>
    simp only [hvalue, isPath, Bool.and_eq_true, decide_eq_true_eq] at hpath
    obtain ⟨⟨⟨⟨hhead, hne⟩, hdots⟩, htext⟩, _⟩ := hpath
    exact ⟨hhead, hne, hdots, htext⟩
  | _ => simp [hvalue, isPath] at hpath

end Policy

end pepeuch_worker
