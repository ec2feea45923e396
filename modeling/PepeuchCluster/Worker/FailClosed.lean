import PepeuchCluster.Numbers.Rounding
import PepeuchCluster.Worker.Assessment

namespace pepeuch_worker

open Lines Words

def Nullable (data : Json) : Prop := data = .null ∨ ∃ fields, data = .obj fields

/-- The shape of a report of the observer: dictionaries that may be missing, and a file
    that is read up to 256 bytes. -/
structure Collected (observations : Json) : Prop where
  report : ∃ fields, observations = .obj fields
  shallow : observations.depth ≤ 5
  process : Nullable (observations.item "process")
  status : Nullable ((observations.item "process").item "status")
  applied : Nullable (observations.item "applied")
  cpu_max : (observations.item "applied").item "cpu.max" = .null ∨
    ∃ text, (observations.item "applied").item "cpu.max" = .str text ∧ text.toList.length ≤ 256

/-- What an assessment is made of. -/
structure Inputs where
  configuration : Json
  policy : Policy
  distinct : policy.data.WellFormed
  observations : Json
  collected : Collected observations
  receipt : Json
  now : Reading

/-- The check of the identity can be evaluated: the process is observed, and the
    configuration names what the check compares. -/
def Opened (configuration observations : Json) : Prop :=
  ∃ process status applied profile holds, subscript observations "process" = .ok process ∧
    subscript process "status" = .ok status ∧ subscript observations "applied" = .ok applied ∧
      subscript configuration "os_profile" = .ok profile ∧
      identity profile (either status (.obj [])) = .ok holds

def Unverified (board : Board) : Prop := ∀ entry ∈ board.checks, entry.2.verified = false

/-! ### What the conditions raise -/

/-- A failure that the assessment turns into a refusal. -/
abbrev Refusal (failure : Failure) : Prop := isRefusal failure = true

theorem subscript_refusal (data : Json) (key : String) :
    Except.Fails Refusal (subscript data key) := by
  refine (subscript_fails data key).weaken ?_
  rintro _ (rfl | rfl) <;> rfl

section Conditions

variable {data process status applied requested profile : Json}

/-- A dictionary. -/
def IsDict (data : Json) : Prop := ∃ fields, data = .obj fields

theorem get_fails {P : Failure → Prop} (h : IsDict data) (key : String) :
    Except.Fails P (get data key) := by
  rw [get_ok h]
  exact .ok _

theorem reads_fails {P : Failure → Prop} {expected : Except Failure Json}
    (h : IsDict data) (key : String) (hexpected : Except.Fails P expected) :
    Except.Fails P (reads data key expected) :=
  (get_fails h key).bind fun _ _ => hexpected.bind fun _ _ => .ok _

theorem either_isDict (h : Nullable data) : IsDict (either data (.obj [])) := by
  unfold either
  split
  · next htruthy =>
    obtain rfl | h := h
    · cases htruthy
    · exact h
  · exact ⟨[], rfl⟩

theorem four_fails (data : Json) (key : String) :
    Except.Fails Refusal (four <$> subscript data key) := by
  cases hvalue : subscript data key with
  | ok value => exact .ok _
  | error failure => exact .error (subscript_refusal data key failure hvalue)

theorem identity_fails (h : IsDict status) : Except.Fails Refusal (identity profile status) := by
  have hsubscript : ∀ key, Except.Fails Refusal (subscript profile key) := subscript_refusal profile
  refine .every ?_
  simp only [List.forall_mem_cons]
  refine ⟨reads_fails h _ (four_fails _ _), (hsubscript _).bind fun _ _ => .ok _,
    reads_fails h _ (four_fails _ _), (hsubscript _).bind fun _ _ =>
      .ok _, (hsubscript _).bind fun _ _ => (hsubscript _).bind fun _ _ => .ok _,
    List.forall_mem_nil _⟩

theorem privileges_fails {P : Failure → Prop} (h : IsDict status) :
    Except.Fails P (privileges status) := by
  refine .every (List.forall_mem_append.mpr
    ⟨?_, List.forall_mem_map.mpr fun key _ => reads_fails h key (.ok _)⟩)
  simp only [List.forall_mem_cons]
  exact ⟨reads_fails h _ (.ok _), reads_fails h _ (.ok _), List.forall_mem_nil _⟩

theorem set_of_fails (data : Json) : Except.Fails Refusal (set_of data) := by
  unfold set_of
  split
  · split
    · exact .ok _
    · exact .error rfl
  · exact .ok _
  · exact .ok _
  · exact .error rfl

theorem cgroup_fails (hprocess : IsDict process) (happlied : IsDict applied) :
    Except.Fails Refusal (cgroup requested process applied) := by
  refine .every ?_
  simp only [List.forall_mem_cons]
  exact ⟨reads_fails hprocess _ (.ok _), (get_fails hprocess _).bind fun _ _ => .ok _,
    (get_fails happlied _).bind fun _ _ => (set_of_fails _).bind fun _ _ =>
      .ok _, List.forall_mem_nil _⟩

theorem mountpoint_fails (mount : Json) : Except.Fails Refusal (mountpoint_of mount) := by
  refine (subscript_refusal mount "mountpoint").bind fun value _ => ?_
  split
  · exact .ok _
  · exact .error rfl

theorem mounts_fails (h : IsDict applied) : Except.Fails Refusal (mounts_of applied) := by
  refine (get_fails h "mounts").bind fun value _ => ?_
  split
  · exact .ok _
  · exact .error rfl

theorem contains_fails (text : String) (data : Json) :
    Except.Fails Refusal (contains text data) := by
  unfold contains
  split
  · exact .ok _
  · exact .ok _
  · exact .ok _
  · exact .error rfl

theorem code_readonly_fails (selected : List (Json × String)) :
    Except.Fails Refusal (code_readonly selected) := by
  unfold code_readonly
  split
  · exact (subscript_refusal _ _).bind fun _ _ => contains_fails _ _
  · exact .ok _

theorem incomplete_fails (h : IsDict data) : Except.Fails Refusal (incomplete data) := by
  refine (get_fails h "stable").bind fun value _ => ?_
  split
  · exact .ok _
  · exact (get_fails h "unavailable").bind fun _ _ => .ok _

namespace Interpreter

variable {python : Interpreter}

/-- A quotient of numbers that are read from a short file is no overflow. -/
theorem quotient_fails {quota : Nat} (h : quota < 10 ^ 256) (period : Nat) :
    Except.Fails Refusal (quotient quota period) := by
  have hdiv : (quota : ℚ) / period ≤ quota := by
    by_cases hperiod : period = 0
    · rw [hperiod, Nat.cast_zero, div_zero]
      exact Nat.cast_nonneg _
    · exact div_le_self (Nat.cast_nonneg _) (by exact_mod_cast Nat.one_le_iff_ne_zero.mpr hperiod)
  have hquota : (quota : ℚ) < (2 ^ 1023 : Nat) := by
    have hpow : ∀ n, (10 : Nat) ^ (2 * n) ≤ 2 ^ (7 * n) := fun n => by
      rw [pow_mul, pow_mul]
      exact Nat.pow_le_pow_left (by decide) n
    have hbits : ∀ {m n : Nat}, m ≤ n → (2 : Nat) ^ m ≤ 2 ^ n := Nat.pow_le_pow_right (by decide)
    exact Nat.cast_lt.mpr (lt_of_lt_of_le h ((hpow 128).trans (hbits (by decide))))
  have hnonneg : (0 : ℚ) ≤ quota / period := div_nonneg (Nat.cast_nonneg _) (Nat.cast_nonneg _)
  obtain ⟨ratio, hratio⟩ : ∃ ratio, Binary64.ofValue (quota / period) = some ratio := by
    apply Binary64.ofValue_of_lt
    rw [abs_of_nonneg hnonneg]
    rw [Nat.cast_pow] at hquota
    exact lt_of_le_of_lt hdiv hquota
  rw [quotient, hratio]
  exact .ok _

theorem int_refusal (text : List Char) : Except.Fails Refusal (python.int text) :=
  (int_fails text).weaken fun _ h => h ▸ rfl

theorem cpu_fails (h : IsDict applied) (hmax : applied.item "cpu.max" = .null ∨
    ∃ text, applied.item "cpu.max" = .str text ∧ text.toList.length ≤ 256) :
    Except.Fails Refusal (python.cpu requested applied) := by
  obtain ⟨text, htext, hlength⟩ :
      ∃ text : String, either (applied.item "cpu.max") (.str "") = .str text ∧
        text.toList.length ≤ 256 := by
    obtain hnull | ⟨text, htext, hlength⟩ := hmax
    · rw [hnull]
      exact ⟨"", rfl, by decide⟩
    · rw [htext, either]
      split
      · exact ⟨text, rfl, hlength⟩
      · exact ⟨"", rfl, by decide⟩
  unfold cpu
  rw [get_ok h, Except.ok_bind, htext]
  dsimp only
  split
  · next quota period hwords =>
    refine .every ?_
    simp only [List.forall_mem_cons]
    refine ⟨.ok _, (int_refusal _).bind fun _ _ => .ok _, ?_, List.forall_mem_nil _⟩
    have hquota : quota.length ≤ 256 := by
      have hmem : quota ∈ words isWhite text.toList := hwords ▸ List.mem_cons_self
      exact (length_le_of_mem_splitOnP (List.mem_filter.mp hmem).1).trans hlength
    refine (int_refusal _).bind fun value hvalue => (int_refusal _).bind fun _ _ => ?_
    have hvalue : value < 10 ^ 256 :=
      lt_of_lt_of_le (int_lt hvalue) (Nat.pow_le_pow_right (by decide) hquota)
    exact (quotient_fails hvalue _).bind fun _ _ => .ok _
  · exact .ok _

theorem bounded_by_fails (h : IsDict applied) (file : String) (maximum : Json) :
    Except.Fails Refusal (python.bounded_by applied file maximum) := by
  refine (get_fails h file).bind fun value _ => ?_
  split
  · refine .every ?_
    simp only [List.forall_mem_cons]
    exact ⟨.ok _, (int_refusal _).bind fun _ _ => .ok _, List.forall_mem_nil _⟩
  · exact .ok _

theorem unit_binding_fails {unit : Json} (h : IsDict unit) :
    Except.Fails Refusal (python.unit_binding requested process unit) := by
  have hpid :
      Except.Fails Refusal (do return Json.str (← python.str (← subscript process "pid"))) :=
    (subscript_refusal _ _).bind fun _ _ =>
      ((str_fails _).weaken fun _ h => h ▸ rfl).bind fun _ _ => .ok _
  refine .every ?_
  simp only [List.forall_mem_cons]
  exact ⟨reads_fails h _ (.ok _), reads_fails h _ (.ok _), reads_fails h _ hpid,
    reads_fails h _ (.ok _), (subscript_refusal _ _).bind fun _ _ => .ok _, List.forall_mem_nil _⟩

theorem digest_refusal (h : data.depth ≤ python.encode_depth) :
    Except.Fails Refusal (python.digest data) :=
  (digest_fails h).weaken fun _ h => h ▸ rfl

theorem changed_fails {configuration : Json} (h : IsDict data)
    (hconfiguration : configuration.depth ≤ python.encode_depth) :
    Except.Fails Refusal (python.changed configuration requested data) :=
  (get_fails h _).bind fun _ _ => (digest_refusal hconfiguration).bind fun _ _ => .ok _

theorem binding_fails (h : data.depth ≤ python.copy_depth)
    (hrequested : requested.depth ≤ python.encode_depth) :
    Except.Fails Refusal (python.binding data requested) := by
  refine (subscript_refusal _ _).bind fun process hprocess => ?_
  have hdepth : process.depth ≤ python.copy_depth := by
    have hitem := Json.depth_item (j := data) "process"
    rw [subscript_eq_ok hprocess] at hitem
    omega
  rw [deepcopy_self hdepth]
  exact (subscript_refusal _ _).bind fun _ _ => (digest_refusal hrequested).bind fun _ _ => .ok _

/-- The context of a process is no deeper than the report about it. -/
theorem binding_depth {context : Json} {room : Nat} (hreport : IsDict data)
    (hroom : data.depth ≤ room) (hrequested : ∀ key, (requested.item key).depth ≤ room - 1)
    (h : python.binding data requested = .ok context) :
    context.depth ≤ room := by
  have hpos : 1 ≤ data.depth := by
    obtain ⟨fields, rfl⟩ := hreport
    exact Nat.succ_pos _
  have hitem : ∀ {key value}, subscript data key = .ok value → value.depth ≤ room - 1 := by
    intro key value hvalue
    have hitem := Json.depth_item (j := data) key
    rw [subscript_eq_ok hvalue] at hitem
    omega
  simp only [binding, Except.bind_eq_ok, deepcopy_eq_ok, Except.pure_eq_ok] at h
  obtain ⟨process, hprocess, _, ⟨_, rfl⟩, sha, hsha, text, _, rfl⟩ := h
  obtain ⟨less, rfl⟩ : ∃ less, room = less + 1 := ⟨room - 1, by omega⟩
  refine Json.depth_dict ?_
  simp only [List.forall_mem_cons]
  exact ⟨hitem hprocess, hrequested _, hrequested _, hrequested _, hitem hsha, Nat.zero_le _,
    List.forall_mem_nil _⟩

end Interpreter

end Conditions

/-! ### The assessment -/

section Assessment

variable {python : Interpreter} {name : String} {condition : Except Failure Bool}
  {process status applied requested : Json}

/-- The failures and the states in which the assessment may end. -/
abbrev Ending (P : Failure → Prop) (failure : Failure) (board : Board) : Prop :=
  P failure ∧ Unverified board

abbrev Refusing : Failure → Board → Prop := Ending Refusal

theorem unverified_update {board : Board} (h : Unverified board) (name : String)
    (condition : Bool) :
    Unverified (board.update name condition) := by
  refine List.forall_mem_map.mpr fun entry hentry => ?_
  obtain ⟨other, check⟩ := entry
  have hcheck : check.verified = false := h _ hentry
  dsimp only
  split
  · exact hcheck
  · exact hcheck

section Steps

variable {α : Type} {P : Failure → Prop} {f : Unit → Assessing α} {Q : α → Board → Prop}

theorem lift_bind {β : Type} {result : Except Failure β} {g : β → Assessing α}
    (h : Except.Fails P result)
    (hg : ∀ b, result = .ok b → Effect.Triple Unverified (g b) Q (Ending P)) :
    Effect.Triple Unverified (.ofExcept result >>= g) Q (Ending P) := by
  intro board hboard
  cases hresult : result with
  | error failure => exact Effect.Triple.fails rfl ⟨h failure hresult, hboard⟩
  | ok b => exact hg b hresult board hboard

theorem check_bind (h : Except.Fails P condition)
    (hf : ∀ holds, condition = .ok holds → Effect.Triple Unverified (f ()) Q (Ending P)) :
    Effect.Triple Unverified (check name condition >>= f) Q (Ending P) := by
  intro board hboard
  cases hcondition : condition with
  | error failure => exact Effect.Triple.fails rfl ⟨h failure hcondition, hboard⟩
  | ok holds => exact hf holds hcondition _ (unverified_update hboard name holds)

theorem check_triple (h : Except.Fails P condition) :
    Effect.Triple Unverified (check name condition) (fun _ => Unverified) (Ending P) := by
  intro board hboard
  cases hcondition : condition with
  | error failure => exact Effect.Triple.fails rfl ⟨h failure hcondition, hboard⟩
  | ok holds => exact Effect.Triple.returns rfl (unverified_update hboard name holds)

theorem note_triple (errors : List String) :
    Effect.Triple Unverified (note errors) (fun _ => Unverified) (Ending P) :=
  fun _ hboard => Effect.Triple.returns rfl hboard

end Steps

/-- What the opening raises comes from one of its subscripts, or from the check of the
    identity. -/
structure OpeningFails (P : Failure → Prop) (configuration observations : Json) : Prop where
  process : Except.Fails P (subscript observations "process")
  status : ∀ process, subscript observations "process" = .ok process →
    Except.Fails P (subscript process "status")
  applied : Except.Fails P (subscript observations "applied")
  profile : Except.Fails P (subscript configuration "os_profile")
  identity : ∀ process status profile, subscript observations "process" = .ok process →
    subscript process "status" = .ok status → subscript configuration "os_profile" = .ok profile →
      IsDict (either status (.obj [])) →
      Except.Fails P (pepeuch_worker.identity profile (either status (.obj [])))

/-- The opening leaves the parts of the report, of which the process is a dictionary. -/
theorem opening_triple {P : Failure → Prop} {configuration observations : Json}
    (h : Collected observations) (hfails : OpeningFails P configuration observations) :
    Effect.Triple Unverified (opening configuration observations)
      (fun parts board => Unverified board ∧ IsDict parts.1 ∧ IsDict parts.2.1 ∧
        parts.2.2 = observations.item "applied" ∧ Opened configuration observations)
      (Ending P) := by
  unfold opening
  refine lift_bind hfails.process fun process hprocess =>
    lift_bind (hfails.status process hprocess) fun status hstatus => ?_
  have hdict : IsDict process := by
    obtain hnull | hdict := h.process
    · rw [subscript_eq_ok hprocess] at hnull
      rw [hnull, subscript_null] at hstatus
      cases hstatus
    · rwa [subscript_eq_ok hprocess] at hdict
  have hread : IsDict (either status (.obj [])) := by
    have hnullable := h.status
    rw [subscript_eq_ok hprocess, subscript_eq_ok hstatus] at hnullable
    exact either_isDict hnullable
  refine lift_bind hfails.applied fun applied happlied =>
    lift_bind hfails.profile fun profile hprofile => ?_
  refine check_bind (hfails.identity process status profile hprocess hstatus hprofile hread)
    fun holds hidentity => ?_
  exact .pure fun board hboard =>
    ⟨hboard, hdict, hread, (subscript_eq_ok happlied).symm, process, status, applied, profile,
      holds, hprocess, hstatus, happlied, hprofile, hidentity⟩

theorem opening_refusal (configuration observations : Json) :
    OpeningFails Refusal configuration observations where
  process := subscript_refusal _ _
  status := fun _ _ => subscript_refusal _ _
  applied := subscript_refusal _ _
  profile := subscript_refusal _ _
  identity := fun _ _ _ _ _ _ hread => identity_fails hread

theorem opening_ok {P : Failure → Prop} {configuration observations : Json}
    (h : Opened configuration observations) :
    OpeningFails P configuration observations := by
  obtain ⟨process, status, applied, profile, holds, hprocess, hstatus, happlied,
    hprofile, hidentity⟩ := h
  refine ⟨hprocess ▸ .ok _, fun process' hprocess' => ?_, happlied ▸ .ok _, hprofile ▸ .ok _,
    fun process' status' profile' hprocess' hstatus' hprofile' _ => ?_⟩
  · obtain rfl := Except.ok.inj (hprocess.symm.trans hprocess')
    exact hstatus ▸ .ok _
  · obtain rfl := Except.ok.inj (hprocess.symm.trans hprocess')
    obtain rfl := Except.ok.inj (hstatus.symm.trans hstatus')
    obtain rfl := Except.ok.inj (hprofile.symm.trans hprofile')
    exact hidentity ▸ .ok _

namespace Interpreter

theorem limits_triple (hprocess : IsDict process) (happlied : IsDict applied)
    (hmax : applied.item "cpu.max" = .null ∨ ∃ text, applied.item "cpu.max" = .str text ∧
      text.toList.length ≤ 256) :
    Effect.Triple Unverified (python.limits requested process applied)
      (fun _ => Unverified) Refusing := by
  unfold limits
  refine check_bind (cgroup_fails hprocess happlied) fun _ _ =>
    check_bind (cpu_fails happlied hmax) fun _ _ => ?_
  refine check_bind (bounded_by_fails happlied _ _) fun _ _ =>
    check_bind (bounded_by_fails happlied _ _) fun _ _ => ?_
  refine check_bind (reads_fails happlied _ (.ok _)) fun _ _ =>
    lift_bind (get_fails happlied _) fun unit _ => ?_
  have hmounts : Effect.Triple Unverified (do
      let mounts ← .ofExcept (mounts_of applied)
      let points ← .ofExcept (mounts.mapM mountpoint_of)
      let selected := deepest (path_of requested "code_root") (mounts.zip points)
      if selected ≠ [] then check "code_readonly" (code_readonly selected))
    (fun _ => Unverified) Refusing := by
    refine lift_bind (mounts_fails happlied) fun mounts _ =>
      lift_bind (.mapM fun mount _ => mountpoint_fails mount) fun _ _ => ?_
    dsimp only
    split
    · exact check_triple (code_readonly_fails _)
    · exact .pure fun _ h => h
  split
  · exact check_bind (unit_binding_fails ⟨_, rfl⟩) fun _ _ => hmounts
  · exact hmounts

/-- Without what is applied the limits cannot be read. -/
theorem limits_null (hprocess : IsDict process) :
    Effect.Triple Unverified (python.limits requested process .null)
    (fun _ _ => False) (Ending (· = .attribute_error)) := by
  have hcgroup : Except.Fails (· = .attribute_error) (cgroup requested process .null) := by
    refine .every ?_
    simp only [List.forall_mem_cons]
    exact ⟨reads_fails hprocess _ (.ok _), (get_fails hprocess _).bind fun _ _ => .ok _,
      .bind (.error rfl) nofun, List.forall_mem_nil _⟩
  exact check_bind hcgroup fun _ _ => check_bind (.error rfl) nofun

/-- Where the check of the identity is evaluated and nothing is applied, the body raises
    AttributeError. -/
theorem examine_null {configuration observations receipt : Json} {now : Number}
    (hcollected : Collected observations) (hnull : observations.item "applied" = .null)
    (hopened : Opened configuration observations) :
    Effect.Triple Unverified (python.examine configuration requested observations receipt now)
      (fun _ _ => False)
      (Ending (· = .attribute_error)) := by
  unfold examine
  refine .bind (opening_triple hcollected (opening_ok hopened))
    fun parts board ⟨hboard, hprocess, hstatus, happlied, _⟩ => ?_
  obtain ⟨process, status, applied⟩ := parts
  obtain rfl : applied = .null := happlied.trans hnull
  refine (?_ : Effect.Triple Unverified _ (fun _ _ => False) (Ending (· = .attribute_error)))
    board hboard
  refine check_bind (reads_fails hstatus _ (.ok _)) fun _ _ =>
    check_bind (privileges_fails hstatus) fun _ _ => ?_
  exact .bind (limits_null hprocess) fun _ _ hfalse => hfalse.elim

end Interpreter

end Assessment

/-! ### Accepted policies -/

section Policies

variable {data : Json}

/-- What passes a check that no container passes. -/
theorem flat_depth {check : Json → Bool} (h : check data = true)
    (harray : ∀ items, check (.arr items) = false)
    (hobject : ∀ fields, check (.obj fields) = false) : data.depth ≤ 1 := by
  cases data with
  | arr items => rw [harray] at h; cases h
  | obj fields => rw [hobject] at h; cases h
  | _ => exact Nat.zero_le _

theorem areGroups_depth (h : areGroups data = true) : data.depth ≤ 1 := by
  cases data with
  | arr groups =>
    simp only [areGroups, Bool.and_eq_true, List.all_eq_true] at h
    refine Nat.succ_le_succ (Json.depthItems_le fun group hgroup => ?_)
    have hnumber := h.1.2 group hgroup
    cases group with
    | number _ => exact Nat.zero_le _
    | _ => cases hnumber
  | _ => cases h

namespace Policy

variable (p : Policy)

theorem item_depth (key : String) : (p.data.item key).depth ≤ 1 := by
  have hconditions := p.conditions
  have hpath : ∀ name ∈ ROOTS ++ ["cgroup"], (p.data.item name).depth ≤ 1 := fun name hname =>
    flat_depth (hconditions.paths name hname) (fun _ => rfl) fun _ => rfl
  have hbound := hconditions.bounds
  simp only [ROOTS, List.cons_append, List.nil_append, List.forall_mem_cons] at hpath hbound
  have htext : ∀ {name text : String}, p.data.item name = .str text →
      (p.data.item name).depth ≤ 1 := by
    intro name text heq
    rw [heq]
    exact Nat.zero_le _
  have hfields : ∀ name ∈ POLICY_FIELDS, (p.data.item name).depth ≤ 1 := by
    simp only [POLICY_FIELDS, List.forall_mem_cons]
    refine ⟨htext hconditions.profile.1, htext hconditions.profile.2,
      flat_depth hconditions.configuration_sha256 ?_ ?_, flat_depth hconditions.unit ?_ ?_,
      flat_depth hconditions.invocation_id ?_ ?_, hpath.2.2.2.1,
      areGroups_depth hconditions.allowed_groups, hpath.1, hpath.2.1, hpath.2.2.1,
      flat_depth hconditions.cpu_ratio ?_ ?_, flat_depth hbound.1 ?_ ?_,
      flat_depth hbound.2.1 ?_ ?_, flat_depth hbound.2.2.1 ?_ ?_, List.forall_mem_nil _⟩ <;>
      exact fun _ => rfl
  by_cases hkey : key ∈ POLICY_FIELDS
  · exact hfields key hkey
  · rw [Json.item, hconditions.keys.lookup, if_neg hkey]
    exact Nat.zero_le _

/-- An accepted policy is a dictionary of values and of one list. -/
theorem depth (h : p.data.WellFormed) : p.data.depth ≤ 2 :=
  p.conditions.keys.depth h fun name _ => p.item_depth name

end Policy

end Policies

/-! ### Fail-closed -/

namespace Inputs

variable (python : Interpreter) (inputs : Inputs)

def assess : Except Failure Report :=
  python.assess inputs.configuration inputs.policy.data inputs.observations inputs.receipt
    inputs.now.value

/-- The context of the process that is observed. -/
def context : Except Failure Json := python.binding inputs.observations inputs.policy.data

def max_age : Int := (value_of (inputs.policy.data.item "max_age_seconds")).num

/-- The law of the assessment: a report that verifies nothing, and no error from a receipt,
    whose list of errors is empty when it is proven for the context. -/
structure FailClosed : Prop where
  assessed : ∃ report, inputs.assess python = .ok report ∧ report.status = "NOT VERIFIED" ∧
    report.errors ≠ [] ∧ ∀ entry ∈ report.guarantees, entry.2.verified = false
  receipts : ∀ context, inputs.context python = .ok context →
    ∃ errors,
      python.receipt_errors inputs.receipt context inputs.now.value inputs.max_age = .ok errors ∧
      (errors = [] ↔ python.Proven inputs.receipt context inputs.now.value inputs.max_age)

/-- The inputs that the code follows to their end: nothing too deep to be copied, no
    report without what is applied where the first check is evaluated, no bound receipt
    whose window is beyond the floats. -/
structure Bounded : Prop where
  configuration : inputs.configuration.depth ≤ python.copy_depth
  receipt : inputs.receipt.depth ≤ python.copy_depth
  applied : inputs.observations.item "applied" = .null →
    ¬ Opened inputs.configuration inputs.observations
  window : ∀ context, inputs.context python = .ok context →
    ¬ python.Overflows inputs.receipt context

variable {python} {inputs}

theorem receipts_ok {context : Json} (hreceipt : inputs.receipt.depth ≤ python.encode_depth)
    (hcontext : context.depth ≤ python.encode_depth)
    (h : ¬ python.Overflows inputs.receipt context) :
    ∃ errors,
      python.receipt_errors inputs.receipt context inputs.now.value inputs.max_age = .ok errors ∧
      (errors = [] ↔ python.Proven inputs.receipt context inputs.now.value inputs.max_age) :=
  Interpreter.receipt_errors_ok hreceipt hcontext h

/-- Where the inputs are bounded, the body ends, or raises only what is caught. -/
theorem examine_triple (h : inputs.Bounded python) :
    Effect.Triple Unverified
      (python.examine inputs.configuration inputs.policy.data inputs.observations inputs.receipt
        inputs.now.value) (fun _ => Unverified) Refusing := by
  have hcollected := inputs.collected
  have hcopy := python.enough
  have hencode := python.copy_le_encode
  have hshallow := hcollected.shallow
  have hpolicy := inputs.policy.depth inputs.distinct
  have hconfiguration := h.configuration
  have hreceipt := h.receipt
  unfold Interpreter.examine
  refine .bind (opening_triple hcollected (opening_refusal _ _))
    fun parts board ⟨hboard, hprocess, hstatus, happlied, hopened⟩ => ?_
  obtain ⟨process, status, applied⟩ := parts
  have hdict : IsDict applied := by
    have hnullable := hcollected.applied
    rw [← happlied] at hnullable
    exact hnullable.resolve_left fun hnull => h.applied (happlied ▸ hnull) hopened
  have hmax := hcollected.cpu_max
  rw [← happlied] at hmax
  refine (?_ : Effect.Triple Unverified _ (fun _ => Unverified) Refusing) board hboard
  refine check_bind (reads_fails hstatus _ (.ok _)) fun _ _ =>
    check_bind (privileges_fails hstatus) fun _ _ => ?_
  refine .bind (Interpreter.limits_triple hprocess hdict hmax) fun _ => ?_
  have hreceipts : Effect.Triple Unverified (do
      let context ← .ofExcept (python.binding inputs.observations inputs.policy.data)
      let max_age := (value_of (inputs.policy.data.item "max_age_seconds")).num
      let errors ← .ofExcept (python.receipt_errors inputs.receipt context inputs.now.value max_age)
      note errors) (fun _ => Unverified) Refusing := by
    refine lift_bind (Interpreter.binding_fails (by omega) (by omega)) fun context hcontext => ?_
    have hdepth : context.depth ≤ 5 :=
      Interpreter.binding_depth hcollected.report hshallow
        (fun key => (inputs.policy.item_depth key).trans (by decide)) hcontext
    obtain ⟨errors, herrors, _⟩ := receipts_ok (by omega) (by omega) (h.window context hcontext)
    dsimp only
    rw [show (value_of (inputs.policy.data.item "max_age_seconds")).num =
      inputs.max_age from rfl, herrors]
    exact lift_bind (.ok _) fun _ _ => note_triple _
  have hchanged : Effect.Triple Unverified (do
      if ←
        .ofExcept (python.changed inputs.configuration inputs.policy.data inputs.observations) then
        note ["configuration_changed"]
      let context ← .ofExcept (python.binding inputs.observations inputs.policy.data)
      let max_age := (value_of (inputs.policy.data.item "max_age_seconds")).num
      let errors ← .ofExcept (python.receipt_errors inputs.receipt context inputs.now.value max_age)
      note errors) (fun _ => Unverified) Refusing := by
    refine lift_bind (Interpreter.changed_fails hcollected.report (by omega)) fun changed _ => ?_
    split
    · exact .bind (note_triple _) fun _ => hreceipts
    · exact hreceipts
  refine lift_bind (incomplete_fails hcollected.report) fun incomplete _ => ?_
  split
  · exact .bind (note_triple _) fun _ => hchanged
  · exact hchanged

theorem insertionSort_ne_nil {errors : List String} {error : String} (h : error ∈ errors) :
    errors.dedup.insertionSort (· ≤ ·) ≠ [] := by
  have hmem : error ∈ errors.dedup.insertionSort (· ≤ ·) :=
    (List.perm_insertionSort _ _).mem_iff.mpr (List.mem_dedup.mpr h)
  exact List.ne_nil_of_mem hmem

theorem unverified_start : Unverified .start := List.forall_mem_map.mpr fun _ _ => rfl

/-- Bounded inputs are assessed, and verify nothing. -/
theorem fail_closed (h : inputs.Bounded python) : inputs.FailClosed python := by
  have hpolicy := inputs.policy.depth inputs.distinct
  have hshallow := inputs.collected.shallow
  have hcopy := python.enough
  have hencode := python.copy_le_encode
  have hreceipt := h.receipt
  obtain ⟨hvalue, hfail⟩ := examine_triple h .start unverified_start
  refine ⟨?_, fun context hcontext => ?_⟩
  · unfold Inputs.assess Interpreter.assess
    rw [inputs.policy.accepted, Except.ok_bind]
    cases hexamine :
      python.examine inputs.configuration inputs.policy.data inputs.observations inputs.receipt
        inputs.now.value .start with
    | mk result board =>
      have hobservations : python.deepcopy inputs.observations = .ok inputs.observations :=
        Interpreter.deepcopy_self (by omega)
      dsimp only
      rw [Interpreter.deepcopy_self h.configuration, hobservations,
        Interpreter.deepcopy_self h.receipt]
      cases result with
      | ok _ => exact ⟨_, rfl, rfl,
          insertionSort_ne_nil (List.mem_append_right _ List.mem_cons_self), hvalue _ _ hexamine⟩
      | error failure =>
        obtain ⟨hrefusal, hboard⟩ := hfail _ _ hexamine
        rw [Board.closed, if_pos hrefusal]
        exact ⟨_, rfl, rfl,
          insertionSort_ne_nil (List.mem_append_right _ List.mem_cons_self), hboard⟩
  · have hdepth : context.depth ≤ 5 := Interpreter.binding_depth inputs.collected.report hshallow
      (fun key => (inputs.policy.item_depth key).trans (by decide)) hcontext
    exact receipts_ok (by omega) (by omega) (h.window context hcontext)

/-- What is assessed is bounded. -/
theorem bounded (h : inputs.FailClosed python) : inputs.Bounded python := by
  obtain ⟨⟨report, hreport, _⟩, hreceipts⟩ := h
  unfold Inputs.assess Interpreter.assess at hreport
  rw [inputs.policy.accepted, Except.ok_bind] at hreport
  cases hexamine :
    python.examine inputs.configuration inputs.policy.data inputs.observations inputs.receipt
      inputs.now.value .start with
  | mk result board =>
    rw [hexamine] at hreport
    simp only [Except.bind_eq_ok, Interpreter.deepcopy_eq_ok] at hreport
    obtain ⟨errors, herrors, _, ⟨hconfiguration, _⟩, _, _, _, ⟨hreceipt, _⟩, _⟩ := hreport
    refine ⟨hconfiguration, hreceipt, fun hnull hopened => ?_, fun context hcontext hoverflow => ?_⟩
    · obtain ⟨hvalue, hfail⟩ :=
        Interpreter.examine_null inputs.collected hnull hopened .start unverified_start
      cases result with
      | ok _ => exact hvalue _ _ hexamine
      | error failure =>
        obtain ⟨rfl, _⟩ := hfail _ _ hexamine
        cases herrors
    · obtain ⟨errors, herrors, _⟩ := hreceipts context hcontext
      rw [Interpreter.receipt_errors_overflow hoverflow] at herrors
      cases herrors

/-- The assessment is fail-closed exactly on bounded inputs. -/
theorem assess_fail_closed (python : Interpreter) (inputs : Inputs) : inputs.FailClosed python ↔
    inputs.Bounded python :=
  ⟨bounded, fail_closed⟩

end Inputs

def cpython : Interpreter where
  encode_depth := 990
  copy_depth := 490
  enough := by decide
  copy_le_encode := by decide
  isdigit := Char.isDigit
  decimal := fun c => if c.isDigit then some (Fin.ofNat 10 (c.toNat - 48)) else none
  repr := control_plane.canonical

def cpu_policy : Json :=
  .obj [("allowed_groups", .arr [integer 1001]), ("backend_root", .str "/var/lib/backend"),
    ("cgroup", .str "/system.slice/pepeuch-test.service"), ("code_root", .str "/opt/code"),
    ("configuration_sha256", .str (String.ofList (List.replicate 64 'b'))),
    ("cpu_ratio", .number (.float half)),
    ("invocation_id", .str (String.ofList (List.replicate 32 'a'))),
    ("max_age_seconds", integer 30), ("memory_bytes", integer 134217728), ("pids", integer 8),
    ("profile", .str CPU_PROFILE), ("schema", .str POLICY_SCHEMA),
    ("unit", .str "pepeuch-test.service"), ("worker_root", .str "/var/lib/worker")]

theorem cpu_policy_accepted : policy cpu_policy = .ok cpu_policy :=
  policy_ok.mpr ⟨⟨by decide, by decide, by decide, by decide, by decide, by decide, by decide,
    by decide, by decide, half_isRatio⟩, rfl⟩

/-- A process of which only the identifier and the start could be read. -/
def bare_process : Json :=
  .obj [("boot_id", .null), ("cgroup", .null), ("kernel", .null), ("namespaces", .obj []),
    ("pid", integer 42), ("start_ticks", integer 1234), ("status", .null), ("unit_hint", .null)]

def bare_observations : Json :=
  .obj [("applied", .obj [("descriptor_inventory", .null), ("mounts", .null)]),
    ("configuration_sha256", .str (String.ofList (List.replicate 64 'b'))),
      ("observed_monotonic", integer 100),
    ("observer_uid", integer 1001), ("origin", .str "readonly-observer"), ("process", bare_process),
    ("schema", .str "pepeuch.worker/linux-observations/v1"), ("stable", .bool true),
    ("synthetic", .bool false), ("unavailable", .arr [.str "process_status"])]

/-- The context that a receipt for them is bound to. -/
def bare_context : Json :=
  .dict [("process", bare_process), ("profile", .str CPU_PROFILE),
    ("unit", .str "pepeuch-test.service"),
      ("invocation_id", .str (String.ofList (List.replicate 32 'a'))),
    ("configuration_sha256", .str (String.ofList (List.replicate 64 'b'))),
    ("policy_sha256", .str (sha256 (control_plane.encode (control_plane.canonical cpu_policy))))]

/-- A receipt of the context that is issued at 10^400 seconds. -/
def endless_receipt : Json :=
  .dict [("schema", .str RECEIPT_SCHEMA), ("binding", bare_context),
    ("issued_monotonic", integer (10 ^ 400)), ("expires_monotonic", integer 120),
      ("tests", .dict [])]

theorem bare_collected : Collected bare_observations where
  report := ⟨_, rfl⟩
  shallow := by decide
  process := .inr ⟨_, (by decide : bare_observations.item "process" = bare_process)⟩
  status := .inl (by decide)
  applied := .inr ⟨_, (by decide : bare_observations.item "applied" =
    .obj [("descriptor_inventory", .null), ("mounts", .null)])⟩
  cpu_max := .inl (by decide)

theorem finite_reading : isfinite (.int 101) = .ok true := by decide

def endless : Inputs where
  configuration :=
    .dict [("os_profile", .dict [("expected_uid", integer 1001), ("expected_gid", integer 1001),
      ("backend_uid", integer 1000)])]
  policy := ⟨cpu_policy, cpu_policy_accepted⟩
  distinct :=
    ⟨by decide, by simp [Json.WellFormedFields, Json.WellFormed, Json.WellFormedItems, integer]⟩
  observations := bare_observations
  collected := bare_collected
  receipt := endless_receipt
  now := ⟨.int 101, finite_reading⟩

theorem bare_traverse :
    Json.traverse Failure.recursion_error .value_error cpython.encode_depth cpu_policy = .ok () ∧
      Json.traverse Failure.recursion_error .value_error cpython.encode_depth bare_context =
        .ok () := by
  decide +kernel

theorem endless_context : endless.context cpython = .ok bare_context := by
  have hprocess : subscript bare_observations "process" = .ok bare_process := by decide
  have hsha : subscript bare_observations "configuration_sha256" =
      .ok (.str (String.ofList (List.replicate 64 'b'))) := by
    decide
  have hpolicy : cpython.digest cpu_policy =
      .ok (sha256 (control_plane.encode (control_plane.canonical cpu_policy))) := by
    rw [Interpreter.digest, bare_traverse.1]
    rfl
  have hitems : cpu_policy.item "profile" = .str CPU_PROFILE ∧
    cpu_policy.item "unit" = .str "pepeuch-test.service" ∧
      cpu_policy.item "invocation_id" = .str (String.ofList (List.replicate 32 'a')) := by decide
  rw [Inputs.context, show endless.observations = bare_observations from rfl,
    show endless.policy.data = cpu_policy from rfl, Interpreter.binding, hprocess, hsha, hpolicy,
      hitems.1, hitems.2.1, hitems.2.2, Except.ok_bind,
    Interpreter.deepcopy_self (by decide)]
  rfl

theorem endless_overflows : cpython.Overflows endless_receipt bare_context := by
  have hitem : ∀ key,
    endless_receipt.item key = (([("schema", .str RECEIPT_SCHEMA), ("binding", bare_context),
      ("issued_monotonic", integer (10 ^ 400)), ("expires_monotonic", integer 120),
        ("tests", .dict [])].find? fun field => field.1 == key).map Prod.snd).getD .null :=
    fun key => Json.item_dict (by decide)
  have hdigest : cpython.digest bare_context =
      .ok (sha256 (control_plane.encode (control_plane.canonical bare_context))) := by
    rw [Interpreter.digest, bare_traverse.2]
    rfl
  have hbinding : endless_receipt.item "binding" = bare_context := hitem "binding"
  refine ⟨⟨Json.hasKeys_dict _ rfl, hitem "schema", _, hbinding ▸ hdigest, hdigest⟩,
    .inl ⟨10 ^ 400, hitem _, ?_⟩⟩
  decide +kernel

theorem endless_not_fail_closed : ¬ endless.FailClosed cpython := by
  intro h
  obtain ⟨errors, herrors, _⟩ := h.receipts bare_context endless_context
  have hraises : cpython.receipt_errors endless.receipt bare_context endless.now.value
      endless.max_age = .error .overflow_error :=
    Interpreter.receipt_errors_overflow endless_overflows
  rw [hraises] at herrors
  cases herrors

end pepeuch_worker
