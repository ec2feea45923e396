import PepeuchCluster.Effects.Triple
import PepeuchCluster.Text.Lines
import PepeuchCluster.Worker.Verification

namespace pepeuch_worker

open Lines Words

def ASSESSMENT_SCHEMA : String := "pepeuch.worker/isolation-assessment/v1"

def CHECKS : List String :=
  ["identity", "groups", "privileges", "cgroup", "cpu", "memory", "swap", "pids", "code_readonly",
    "filesystem", "devices", "network_ipv4", "network_ipv6", "backend_only_port",
      "account_exclusive", "group_stop", "runtime", "backend_identity",
    "inherited_sockets", "unit_binding", "code_integrity"]

structure Check where
  declared : Bool
  enforced : Option Bool
  verified : Bool
  reason : String

/-- The checks and the errors of an assessment under way. -/
structure Board where
  checks : List (String × Check)
  errors : List String

def Board.start : Board :=
  ⟨CHECKS.map fun name => (name, ⟨true, none, false, "independent_evidence_missing"⟩), []⟩

def Board.update (board : Board) (name : String) (condition : Bool) : Board :=
  { board with
    checks := board.checks.map fun (other, check) =>
      if other = name then
        (other, ⟨check.declared, some condition, check.verified, if condition then "observed_match"
          else "observed_mismatch"⟩)
      else (other, check) }

abbrev Assessing := Effect Failure Board

def check (name : String) (condition : Except Failure Bool) : Assessing Unit := do
  let condition ← .ofExcept condition
  fun board => (.ok (), board.update name condition)

def note (errors : List String) : Assessing Unit :=
  fun board => (.ok (), { board with errors := board.errors ++ errors })

/-! ### The conditions -/

def integer (z : Int) : Json := .number (.int z)

/-- `[value] * 4`. -/
def four (value : Json) : Json := .arr (List.replicate 4 value)

def value_of : Json → ℚ
  | .number n => n.value
  | _ => 0

/-- `data.get(key) == expected`. -/
def reads (data : Json) (key : String) (expected : Except Failure Json) : Except Failure Bool := do
  let value ← get data key
  return value.equal (← expected)

def identity (profile status : Json) : Except Failure Bool :=
  .every [
    reads status "Uid" (four <$> subscript profile "expected_uid"),
    do return !(← subscript profile "expected_uid").equal (integer 0),
    reads status "Gid" (four <$> subscript profile "expected_gid"),
    do return !(← subscript profile "expected_gid").equal (integer 0),
    do return !(← subscript profile "expected_uid").equal (← subscript profile "backend_uid")]

/-- `sorted(groups)`, of numbers. -/
def ascending : Json → Json
  | .arr groups => .arr (groups.insertionSort fun group other => value_of group ≤ value_of other)
  | other => other

def groups (requested status : Json) : Except Failure Bool :=
  reads status "Groups" (.ok (ascending (requested.item "allowed_groups")))

def CAPABILITY_SETS : List String := ["CapInh", "CapPrm", "CapEff", "CapBnd", "CapAmb"]

def privileges (status : Json) : Except Failure Bool :=
  .every ([reads status "NoNewPrivs" (.ok (integer 1)), reads status "Seccomp" (.ok (integer 2))] ++
    CAPABILITY_SETS.map fun key => reads status key (.ok (integer 0)))

def isHashable : Json → Bool
  | .arr _ | .obj _ => false
  | _ => true

/-- `set(data)`. -/
def set_of : Json → Except Failure (List Json)
  | .arr items => if items.all isHashable then .ok items else .error .type_error
  | .str text => .ok (text.toList.map fun c => .str (.singleton c))
  | .obj fields => .ok (fields.map fun field => .str field.1)
  | _ => .error .type_error

def cgroup (requested process applied : Json) : Except Failure Bool :=
  .every [
    reads process "cgroup" (.ok (requested.item "cgroup")),
    do return truthy (← get process "cgroup_inode"),
    do
      let controllers ← set_of (either (← get applied "controllers") (.arr []))
      return ["cpu", "memory", "pids"].all fun name => decide (Json.str name ∈ controllers)]

/-- `PurePosixPath(mount["mountpoint"])` needs a text. -/
def mountpoint_of (mount : Json) : Except Failure String := do
  match ← subscript mount "mountpoint" with
  | .str text => return text
  | _ => .error .type_error

/-- The items of a list; what is not a list has no mount point among its items. -/
def mounts_of (applied : Json) : Except Failure (List Json) := do
  match either (← get applied "mounts") (.arr []) with
  | .arr mounts => return mounts
  | _ => .error .type_error

/-- The mount is at the path or above it. -/
def isCovering (code : PurePosixPath) (mountpoint : String) : Bool :=
  PurePosixPath.parse mountpoint.toList = code ∨ (PurePosixPath.parse mountpoint.toList).Above code

/-- `text in container`. -/
def contains (text : String) : Json → Except Failure Bool
  | .arr items => .ok (items.any fun item => item.equal (.str text))
  | .str other => .ok (decide (text.toList <:+: other.toList))
  | .obj fields => .ok (fields.any fun field => field.1 == text)
  | _ => .error .type_error

/-- The mounts that cover the code, the deepest only. -/
def deepest (code : PurePosixPath) (mounts : List (Json × String)) : List (Json × String) :=
  let covering := mounts.filter fun mount => isCovering code mount.2
  let longest := (covering.map fun mount => mount.2.toList.length).foldl max 0
  covering.filter fun mount => mount.2.toList.length = longest

/-- All deepest mount entries must be read-only; stacked ambiguity is not accepted. -/
def code_readonly (selected : List (Json × String)) : Except Failure Bool :=
  match selected with
  | [(mount, _)] => do contains "ro" (← subscript mount "options")
  | _ => .ok false

def incomplete (observations : Json) : Except Failure Bool := do
  if (← get observations "stable") ≠ .bool true then return true
    else return truthy (← get observations "unavailable")

/-- The start of the assessment, up to the check of the identity: the process that is
    observed and what is applied to it. -/
def opening (configuration observations : Json) : Assessing (Json × Json × Json) := do
  let process ← .ofExcept (subscript observations "process")
  let status ← .ofExcept (subscript process "status")
  let status := either status (.obj [])
  let applied ← .ofExcept (subscript observations "applied")
  let profile ← .ofExcept (subscript configuration "os_profile")
  check "identity" (identity profile status)
  return (process, status, applied)

namespace Interpreter

variable (python : Interpreter)

/-- `int(quota) / int(period)`. -/
def quotient (quota period : Nat) : Except Failure ℚ :=
  match Binary64.ofValue (quota / period) with
  | some ratio => .ok ratio.value
  | none => .error .overflow_error

def cpu (requested applied : Json) : Except Failure Bool := do
  match either (← get applied "cpu.max") (.str "") with
  | .str text =>
    match words isWhite text.toList with
    | [quota, period] => .every [
        .ok (python.digits quota && python.digits period),
        do return decide (0 < (← python.int period)),
        do
          let quota ← python.int quota
          let period ← python.int period
          let ratio ← quotient quota period
          return decide (0 < ratio ∧ ratio ≤ value_of (requested.item "cpu_ratio"))]
    | _ => return false
  | _ => .error .attribute_error

def bounded_by (applied : Json) (file : String) (maximum : Json) : Except Failure Bool := do
  match ← get applied file with
  | .str text => .every [
      .ok (python.digits text.toList),
      do
        let value ← python.int text.toList
        return decide (0 < value ∧ (value : ℚ) ≤ value_of maximum)]
  | _ => return false

def unit_binding (requested process unit : Json) : Except Failure Bool :=
  .every [
    reads unit "Id" (.ok (requested.item "unit")),
    reads unit "InvocationID" (.ok (requested.item "invocation_id")),
    reads unit "MainPID" (do return .str (← python.str (← subscript process "pid"))),
    reads unit "ControlGroup" (.ok (requested.item "cgroup")),
    do return (requested.item "cgroup").equal (← subscript process "cgroup")]

def changed (configuration requested observations : Json) : Except Failure Bool := do
  let configured ← get observations "configuration_sha256"
  let own ← python.digest configuration
  return decide (configured ≠ .str own ∨ requested.item "configuration_sha256" ≠ .str own)

/-- The checks that read what is applied. -/
def limits (requested process applied : Json) : Assessing Unit := do
  check "cgroup" (cgroup requested process applied)
  check "cpu" (python.cpu requested applied)
  check "memory" (python.bounded_by applied "memory.max" (requested.item "memory_bytes"))
  check "pids" (python.bounded_by applied "pids.max" (requested.item "pids"))
  check "swap" (reads applied "memory.swap.max" (.ok (.str "0")))
  let unit ← .ofExcept (get applied "systemd")
  match unit with
  | .obj _ => check "unit_binding" (python.unit_binding requested process unit)
  | _ => pure ()
  let mounts ← .ofExcept (mounts_of applied)
  let points ← .ofExcept (mounts.mapM mountpoint_of)
  let selected := deepest (path_of requested "code_root") (mounts.zip points)
  if selected ≠ [] then check "code_readonly" (code_readonly selected)

/-- The body of the assessment. -/
def examine (configuration requested observations receipt : Json) (now : Number) :
    Assessing Unit := do
  let (process, status, applied) ← opening configuration observations
  check "groups" (groups requested status)
  check "privileges" (privileges status)
  python.limits requested process applied
  if ← .ofExcept (incomplete observations) then note ["incomplete_or_unstable_observations"]
  if ← .ofExcept (python.changed configuration requested observations) then
    note ["configuration_changed"]
  let context ← .ofExcept (python.binding observations requested)
  let max_age := (value_of (requested.item "max_age_seconds")).num
  let errors ← .ofExcept (python.receipt_errors receipt context now max_age)
  note errors

end Interpreter

structure Report where
  schema : String
  status : String
  configuration_requested : Json
  policy_requested : Json
  observations : Json
  negative_tests : Json
  guarantees : List (String × Check)
  errors : List String

/-- The errors after the `except` clause. -/
def Board.closed (board : Board) : Except Failure Unit → Except Failure (List String)
  | .ok _ => .ok board.errors
  | .error failure => if isRefusal failure then .ok (board.errors ++ ["invalid_observations"])
      else .error failure

/-- A caller-supplied dictionary is not authority. -/
def Interpreter.assess (python : Interpreter) (configuration requested observations receipt : Json)
    (now : Number) :
    Except Failure Report := do
  let requested ← policy requested
  let (result, board) := python.examine configuration requested observations receipt now .start
  let errors ← board.closed result
  let configuration_requested ← python.deepcopy configuration
  let observations ← python.deepcopy observations
  let negative_tests ← python.deepcopy receipt
  return ⟨ASSESSMENT_SCHEMA, "NOT VERIFIED", configuration_requested, requested, observations,
    negative_tests, board.checks,
      ((errors ++ ["independent_authority_not_authenticated"]).dedup).insertionSort (· ≤ ·)⟩

end pepeuch_worker
