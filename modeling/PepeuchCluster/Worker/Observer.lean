import Mathlib.Data.List.Sort
import PepeuchCluster.Json.Size
import PepeuchCluster.Text.Numerals
import PepeuchCluster.Worker.Assessment

namespace pepeuch_worker

open Words (words)
open Lines (isBoundary isWhite splitlines join partition)

/-! ### What the observer reads -/

/-- `raw.find`, of one character. -/
def find (c : Char) (raw : List Char) : Int :=
  match raw.findIdx? (· = c) with
  | some index => index
  | none => -1

/-- `raw.rfind`, of one character. -/
def rfind (c : Char) (raw : List Char) : Int :=
  match raw.reverse.findIdx? (· = c) with
  | some index => raw.length - 1 - index
  | none => -1

/-- `re.match(r"[1-9][0-9]* \(", raw)`. -/
def isNumbered : List Char → Bool
  | c :: rest => c.isDigit && c ≠ '0' && [' ', '('].isPrefixOf (rest.dropWhile Char.isDigit)
  | [] => false

/-- The keys of `process_status`. -/
def REQUIRED : List String :=
  ["Uid", "Gid", "Groups", "NoNewPrivs", "CapInh", "CapPrm", "CapEff", "CapBnd",
    "CapAmb", "Seccomp"]

/-- The key and the value of a line that is required. -/
def field (line : List Char) : Option (String × List Char) :=
  match partition [':'] line with
  | some (key, value) =>
    if String.ofList key ∈ REQUIRED then some (String.ofList key, value) else none
  | none => none

namespace Interpreter

variable (python : Interpreter)

/-- `int(text, base)`. -/
def parse_int (base : Nat) (text : List Char) : Except Failure Int :=
  match Numerals.int python.decimal base text with
  | some value => .ok value
  | none => .error .value_error

/-- `text.isdigit()`: beyond ASCII the interpreter has a table. -/
def is_digits (text : List Char) : Bool :=
  !text.isEmpty && text.all fun c => if c.toNat < 128 then c.isDigit else python.isdigit c

def process_start (raw : List Char) : Except Failure Int := do
  Except.require (isNumbered raw = true ∧ find '(' raw ≤ rfind ')' raw)
    (Problem "invalid_process_observation")
  let tail := words isWhite (raw.drop (rfind ')' raw + 2).toNat)
  match tail[19]? with
  | some field => do
    Except.require (python.is_digits field = true) (Problem "invalid_process_observation")
    python.parse_int 10 field
  | none => .error (Problem "invalid_process_observation")

/-- The value that a key is given. -/
def observation (key : String) (value : List Char) : Except Failure Json :=
  if key = "Uid" ∨ key = "Gid" then do
    Except.require ((words isWhite value).length = 4) (Problem "invalid_process_observation")
    return .arr ((← (words isWhite value).mapM (python.parse_int 10)).map integer)
  else if key = "Groups" then do
    return .arr
      (((← (words isWhite value).mapM (python.parse_int 10)).insertionSort (· ≤ ·)).map integer)
  else do
    return integer (← python.parse_int (if ['C', 'a', 'p'].isPrefixOf key.toList then 16 else 10)
      (Numerals.strip isWhite value))

/-- The body of the loop over the lines, for one that is required. -/
def record (result : List (String × Json)) (field : String × List Char) :
    Except Failure (List (String × Json)) := do
  Except.require (field.1 ∉ result.map Prod.fst) (Problem "duplicate_kernel_observation")
  return result ++ [(field.1, ← python.observation field.1 field.2)]

def process_status (raw : List Char) : Except Failure Json := do
  let result ← ((splitlines raw).filterMap field).foldlM python.record []
  Except.require
    ((∀ key ∈ result.map Prod.fst, key ∈ REQUIRED) ∧ ∀ key ∈ REQUIRED, key ∈ result.map Prod.fst)
    (Problem "missing_process_observation")
  return .dict result

end Interpreter

/-- `bounded`, of a file that holds a text. -/
def bounded (maximum : Nat) (text : List Char) : Except Failure (List Char) :=
  if Json.utf8_length text ≤ maximum then .ok text
    else .error (Problem "oversized_kernel_observation")

/-- `observe`: a refusal leaves no value. -/
def observe {α : Type} (result : Except Failure α) : Except Failure (Option α) :=
  match result with
  | .ok value => .ok (some value)
  | .error (.problem _ _) | .error .value_error | .error .os_error => .ok none
  | .error failure => .error failure

/-- `start is not None and start == end`. -/
def isStable (start finish : Option Int) : Bool := start.isSome && start = finish

/-- The start time that `collect` observes. -/
def Interpreter.started (python : Interpreter) (raw : List Char) : Except Failure (Option Int) :=
  observe (do python.process_start (← bounded 4096 raw))

/-! ### What the kernel writes -/

def numeral (z : Int) : List Char := if z < 0 then '-' :: Nat.toDigits 10 z.natAbs
    else Nat.toDigits 10 z.natAbs

/-- A number that `int` reads in base ten. -/
abbrev Decimal := {n : Nat // (Nat.toDigits 10 n).length ≤ 4300}

/-- The line of a process in `stat`. The name is written as it is. -/
structure Stat where
  pid : Nat
  pid_pos : 1 ≤ pid
  name : List Char
  state : Char
  letter : state.isAlpha = true
  before : List Int
  before_length : before.length = 18
  start : Decimal
  after : List Int

namespace Stat

def fields (stat : Stat) : List (List Char) :=
  [stat.state] :: stat.before.map numeral ++ Nat.toDigits 10 stat.start.val ::
    stat.after.map numeral

def text (stat : Stat) : List Char :=
  Nat.toDigits 10 stat.pid ++ ' ' :: '(' :: stat.name ++ ')' :: ' ' :: join stat.fields ++ ['\n']

end Stat

/-- What the kernel knows of the rights of a process. -/
structure Rights where
  uid : List Decimal
  gid : List Decimal
  four : uid.length = 4 ∧ gid.length = 4
  groups : List Decimal
  no_new_privs : Decimal
  capabilities : Fin 5 → BitVec 64
  seccomp : Decimal

namespace Rights

/-- The text after a key and its colon. -/
def text (rights : Rights) : String → List Char
  | "Uid" => rights.uid.flatMap fun id => '\t' :: Nat.toDigits 10 id.val
  | "Gid" => rights.gid.flatMap fun id => '\t' :: Nat.toDigits 10 id.val
  | "Groups" => '\t' :: join (rights.groups.map fun id => Nat.toDigits 10 id.val) ++ [' ']
  | "NoNewPrivs" => '\t' :: Nat.toDigits 10 rights.no_new_privs.val
  | "CapInh" => '\t' :: Sha256.hex 16 (rights.capabilities 0).toNat
  | "CapPrm" => '\t' :: Sha256.hex 16 (rights.capabilities 1).toNat
  | "CapEff" => '\t' :: Sha256.hex 16 (rights.capabilities 2).toNat
  | "CapBnd" => '\t' :: Sha256.hex 16 (rights.capabilities 3).toNat
  | "CapAmb" => '\t' :: Sha256.hex 16 (rights.capabilities 4).toNat
  | _ => '\t' :: Nat.toDigits 10 rights.seccomp.val

/-- The value of a key. -/
def value (rights : Rights) : String → Json
  | "Uid" => .arr (rights.uid.map fun id => integer id.val)
  | "Gid" => .arr (rights.gid.map fun id => integer id.val)
  | "Groups" =>
    .arr (((rights.groups.map fun id => (id.val : Int)).insertionSort (· ≤ ·)).map integer)
  | "NoNewPrivs" => integer rights.no_new_privs.val
  | "CapInh" => integer (rights.capabilities 0).toNat
  | "CapPrm" => integer (rights.capabilities 1).toNat
  | "CapEff" => integer (rights.capabilities 2).toNat
  | "CapBnd" => integer (rights.capabilities 3).toNat
  | "CapAmb" => integer (rights.capabilities 4).toNat
  | _ => integer rights.seccomp.val

def fields (rights : Rights) : List (String × List Char) :=
  REQUIRED.map fun key => (key, rights.text key)

def status (rights : Rights) : Json := .dict (REQUIRED.map fun key => (key, rights.value key))

end Rights

/-- Newlines and backslashes of a name are escaped in `status`. -/
def escape_name (name : List Char) : List Char :=
  name.flatMap fun c => if c = '\n' then ['\\', 'n'] else if c = '\\' then ['\\', '\\'] else [c]

/-- The lines with a required key. -/
def required (lines : List (String × List Char)) : List (String × List Char) :=
  lines.filter fun line => line.1 ∈ REQUIRED

/-- The file `status` of a process: its name, and lines with a key and a value among which each
    required key stands once. -/
structure StatusFile where
  name : List Char
  rights : Rights
  lines : List (String × List Char)
  plain : ∀ line ∈ lines, (∀ c ∈ line.1.toList, c ≠ ':' ∧ isBoundary c = false) ∧
    ∀ c ∈ line.2, isBoundary c = false
  once : (required lines).Perm rights.fields

namespace StatusFile

def heading (file : StatusFile) : List Char :=
  ['N', 'a', 'm', 'e', ':', '\t'] ++ escape_name file.name

def text (file : StatusFile) : List Char :=
  file.heading ++ '\n' :: file.lines.flatMap fun line => line.1.toList ++ ':' :: line.2 ++ ['\n']

/-- No line of the name looks like a required one. -/
def Unspoofed (file : StatusFile) : Prop :=
  ∀ line ∈ splitlines (file.heading ++ ['\n']), field line = none

end StatusFile

/-! ### The start time -/

theorem find_append {c : Char} {before : List Char} (h : c ∉ before) (after : List Char) :
    find c (before ++ c :: after) = before.length := by
  have hbefore : before.findIdx? (· = c) = none := by
    rw [List.findIdx?_eq_none_iff]
    intro d hd
    simp only [decide_eq_false_iff_not]
    rintro rfl
    exact h hd
  rw [find, List.findIdx?_append, hbefore, List.findIdx?_cons]
  simp

theorem rfind_append {c : Char} {after : List Char} (h : c ∉ after) (before : List Char) :
    rfind c (before ++ c :: after) = before.length := by
  have hafter : after.reverse.findIdx? (· = c) = none := by
    rw [List.findIdx?_eq_none_iff]
    intro d hd
    simp only [decide_eq_false_iff_not]
    rintro rfl
    exact h (List.mem_reverse.mp hd)
  have hreverse : (before ++ c :: after).reverse = after.reverse ++ c :: before.reverse := by simp
  rw [rfind, hreverse, List.findIdx?_append, hafter, List.findIdx?_cons]
  simp
  omega

theorem isNumbered_append {n : Nat} (hn : 1 ≤ n) (rest : List Char) :
    isNumbered (Nat.toDigits 10 n ++ ' ' :: '(' :: rest) = true := by
  have hdigits : ∀ c ∈ Nat.toDigits 10 n, c.isDigit = true := Binary64.digit_of_mem_toDigits
  have hzero := Binary64.toDigits_head_ne_zero (Nat.ne_of_gt hn)
  cases htext : Nat.toDigits 10 n with
  | nil => exact absurd htext Nat.toDigits_ne_nil
  | cons c digits =>
    rw [htext] at hdigits hzero
    obtain ⟨hc, hrest⟩ := List.forall_mem_cons.mp hdigits
    have hdrop : (digits ++ ' ' :: '(' :: rest).dropWhile Char.isDigit = ' ' :: '(' :: rest := by
      rw [List.dropWhile_append_of_pos hrest, List.dropWhile_cons_of_neg (by decide)]
    have hne : c ≠ '0' := fun heq => hzero (congrArg some heq)
    rw [List.cons_append, isNumbered, hdrop, hc, decide_eq_true hne]
    rfl

/-- Fields with a blank between them, and one after the last. -/
theorem words_joined {fields : List (List Char)} {c : Char} (hc : isWhite c = true)
    (h : ∀ field ∈ fields, field ≠ [] ∧ ∀ d ∈ field, isWhite d = false) :
    words isWhite (join fields ++ [c]) = fields := by
  rw [Words.words_append_cons hc, Words.words_nil, List.append_nil, Lines.words_join]
  induction fields with
  | nil => rfl
  | cons field fields ih =>
    obtain ⟨⟨hne, hfield⟩, hfields⟩ := List.forall_mem_cons.mp h
    rw [List.flatMap_cons, Words.words_of_forall hne hfield, ih hfields]
    rfl

namespace Stat

theorem digit_plain {c : Char} (h : c.isDigit = true) : isWhite c = false ∧ c ≠ ')' := by
  have hrange := Numerals.digit_range h
  refine ⟨Lines.isWhite_of_ascii (by omega), ?_⟩
  rintro rfl
  exact absurd h (by decide)

theorem letter_plain {c : Char} (h : c.isAlpha = true) : isWhite c = false ∧ c ≠ ')' := by
  have hrange : (65 ≤ c.toNat ∧ c.toNat ≤ 90) ∨ (97 ≤ c.toNat ∧ c.toNat ≤ 122) := by
    delta Char.isAlpha Char.isUpper Char.isLower at h
    simp only [Bool.or_eq_true, Bool.and_eq_true, decide_eq_true_eq] at h
    exact h
  refine ⟨Lines.isWhite_of_ascii (by omega), ?_⟩
  rintro rfl
  exact absurd h (by decide)

theorem numeral_plain (z : Int) : ∀ c ∈ numeral z, isWhite c = false ∧ c ≠ ')' := by
  have hdigits : ∀ c ∈ Nat.toDigits 10 z.natAbs, isWhite c = false ∧ c ≠ ')' :=
    fun c hc => digit_plain (Binary64.digit_of_mem_toDigits c hc)
  unfold numeral
  split
  · exact List.forall_mem_cons.mpr ⟨by decide, hdigits⟩
  · exact hdigits

theorem numeral_ne_nil (z : Int) : numeral z ≠ [] := by
  unfold numeral
  split
  · exact List.cons_ne_nil _ _
  · exact Nat.toDigits_ne_nil

variable {stat : Stat}

theorem fields_plain :
    ∀ field ∈ stat.fields, field ≠ [] ∧ ∀ c ∈ field, isWhite c = false ∧ c ≠ ')' := by
  have hnumerals : ∀ numbers : List Int, ∀ field ∈ numbers.map numeral, field ≠ [] ∧
      ∀ c ∈ field, isWhite c = false ∧ c ≠ ')' :=
    fun numbers => List.forall_mem_map.mpr fun z _ => ⟨numeral_ne_nil z, numeral_plain z⟩
  have hstart : ∀ c ∈ Nat.toDigits 10 stat.start.val, isWhite c = false ∧ c ≠ ')' :=
    fun c hc => digit_plain (Binary64.digit_of_mem_toDigits c hc)
  have hstate : ∀ c ∈ [stat.state], isWhite c = false ∧ c ≠ ')' :=
    List.forall_mem_singleton.mpr (letter_plain stat.letter)
  refine List.forall_mem_cons.mpr
    ⟨⟨List.cons_ne_nil _ _, hstate⟩, List.forall_mem_append.mpr ⟨hnumerals _, ?_⟩⟩
  exact List.forall_mem_cons.mpr ⟨⟨Nat.toDigits_ne_nil, hstart⟩, hnumerals _⟩

/-- The name does not reach beyond its last parenthesis: the fields follow it. -/
theorem words_fields : words isWhite (join stat.fields ++ ['\n']) = stat.fields :=
  words_joined (by decide) fun field hfield =>
    ⟨(fields_plain field hfield).1, fun c hc => ((fields_plain field hfield).2 c hc).1⟩

theorem parenthesis_last : ')' ∉ ' ' :: join stat.fields ++ ['\n'] := by
  have hjoin : ∀ fields : List (List Char),
    (∀ field ∈ fields, field ≠ [] ∧ ∀ c ∈ field, isWhite c = false ∧ c ≠ ')') →
      ')' ∉ join fields := by
    intro fields h
    induction fields with
    | nil => exact List.not_mem_nil
    | cons field fields ih =>
      obtain ⟨⟨_, hfield⟩, hfields⟩ := List.forall_mem_cons.mp h
      have hfirst : ')' ∉ field := fun hmem => (hfield _ hmem).2 rfl
      cases fields with
      | nil => exact hfirst
      | cons next fields =>
        rw [Lines.join_cons (List.cons_ne_nil _ _), List.mem_append, List.mem_cons]
        rintro (hmem | hmem | hmem)
        · exact hfirst hmem
        · exact absurd hmem (by decide)
        · exact ih hfields hmem
  rw [List.cons_append, List.mem_cons, List.mem_append, List.mem_singleton]
  rintro (hmem | hmem | hmem)
  · exact absurd hmem (by decide)
  · exact hjoin _ fields_plain hmem
  · exact absurd hmem (by decide)

theorem start_field : stat.fields[19]? = some (Nat.toDigits 10 stat.start.val) := by
  have hlength : ([stat.state] :: stat.before.map numeral).length = 19 := by
    simp [stat.before_length]
  have hfields : stat.fields = ([stat.state] :: stat.before.map numeral) ++
      Nat.toDigits 10 stat.start.val :: stat.after.map numeral :=
    rfl
  rw [hfields, List.getElem?_append_right hlength.le, hlength]
  rfl

end Stat

section Readings

variable {python : Interpreter}

theorem parse_int_toDigits (number : Decimal) :
    python.parse_int 10 (Nat.toDigits 10 number.val) = .ok (number.val : Int) := by
  rw [Interpreter.parse_int, Numerals.int_toDigits number.property]

/-- The start time is read whatever the name is. -/
theorem process_start_text (python : Interpreter) (stat : Stat) :
    python.process_start stat.text = .ok (stat.start.val : Int) := by
  have htext : stat.text = (Nat.toDigits 10 stat.pid ++ ' ' :: '(' :: stat.name) ++ ')' ::
      (' ' :: join stat.fields ++ ['\n']) := by
    simp [Stat.text]
  have hopen : stat.text = (Nat.toDigits 10 stat.pid ++ [' ']) ++ '(' ::
      (stat.name ++ ')' :: ' ' :: join stat.fields ++ ['\n']) := by
    simp [Stat.text]
  have hbefore : '(' ∉ Nat.toDigits 10 stat.pid ++ [' '] := by
    rw [List.mem_append, List.mem_singleton]
    rintro (hmem | hmem)
    · exact absurd (Binary64.digit_of_mem_toDigits _ hmem) (by decide)
    · exact absurd hmem (by decide)
  have hfind : find '(' stat.text = (Nat.toDigits 10 stat.pid).length + 1 := by
    rw [hopen, find_append hbefore, List.length_append]
    rfl
  have hrfind : rfind ')' stat.text =
      (Nat.toDigits 10 stat.pid ++ ' ' :: '(' :: stat.name).length := by
    rw [htext, rfind_append Stat.parenthesis_last]
  have horder : find '(' stat.text ≤ rfind ')' stat.text := by
    rw [hfind, hrfind]
    simp
    omega
  have hdrop : stat.text.drop (rfind ')' stat.text + 2).toNat = join stat.fields ++ ['\n'] := by
    have hcount : (rfind ')' stat.text + 2).toNat =
        (Nat.toDigits 10 stat.pid ++ ' ' :: '(' :: stat.name).length + 2 := by
      rw [hrfind]
      rfl
    rw [hcount, htext, List.drop_append]
    simp
  have hnumbered : isNumbered stat.text = true := by
    rw [hopen, List.append_assoc]
    exact isNumbered_append stat.pid_pos _
  have hdigits : python.is_digits (Nat.toDigits 10 stat.start.val) = true := by
    have hdigits : ∀ c ∈ Nat.toDigits 10 stat.start.val,
        (if c.toNat < 128 then c.isDigit else python.isdigit c) = true := by
      intro c hc
      have hdigit := Binary64.digit_of_mem_toDigits c hc
      have hrange := Numerals.digit_range hdigit
      rw [if_pos (by omega)]
      exact hdigit
    rw [Interpreter.is_digits, List.all_eq_true.mpr hdigits,
      List.isEmpty_eq_false_iff.mpr Nat.toDigits_ne_nil]
    rfl
  rw [Interpreter.process_start, Except.require_eq_ok (u := ()) |>.mpr ⟨hnumbered, horder⟩,
    Except.ok_bind, hdrop, Stat.words_fields]
  dsimp only
  rw [Stat.start_field]
  dsimp only
  rw [Except.require_holds hdigits, Except.ok_bind, parse_int_toDigits]

/-! ### The status -/

theorem digits_white (n : Nat) : ∀ c ∈ Nat.toDigits 10 n, isWhite c = false :=
  fun c hc => (Stat.digit_plain (Binary64.digit_of_mem_toDigits c hc)).1

theorem mapM_parse_int (numbers : List Decimal) :
    (numbers.map fun number => Nat.toDigits 10 number.val).mapM (python.parse_int 10) =
      .ok (numbers.map fun number => (number.val : Int)) := by
  rw [Except.mapM_eq_ok, List.forall₂_map_left_iff, List.forall₂_map_right_iff]
  exact List.forall₂_same.mpr fun number _ => parse_int_toDigits number

/-- Numbers after tabs. -/
theorem words_tabs (numbers : List Decimal) :
    words isWhite (numbers.flatMap fun number => '\t' :: Nat.toDigits 10 number.val) =
      numbers.map fun number => Nat.toDigits 10 number.val := by
  induction numbers with
  | nil => simp
  | cons number numbers ih =>
    have hnumber : words isWhite (Nat.toDigits 10 number.val) = [Nat.toDigits 10 number.val] :=
      Words.words_of_forall Nat.toDigits_ne_nil (digits_white _)
    rw [List.map_cons, ← ih, List.flatMap_cons, List.cons_append, Words.words_cons (by decide)]
    cases numbers with
    | nil => rw [List.flatMap_nil, List.append_nil, hnumber, Words.words_nil]
    | cons next numbers =>
      rw [List.flatMap_cons, List.cons_append, Words.words_append_cons (by decide),
        Words.words_cons (by decide), hnumber]
      rfl

theorem digit_hexDigit : ∀ n < 16, Numerals.digit (Sha256.hexDigit n) = n := by decide

theorem value_hex (n : Nat) : ∀ k init : Nat,
    (Sha256.hex k n).foldl (fun value c => 16 * value + Numerals.digit c) init =
      16 ^ k * init + n % 16 ^ k := by
  intro k
  induction k with
  | zero => simp [Sha256.hex, Nat.mod_one]
  | succ k ih =>
    intro init
    rw [Sha256.hex, List.foldl_cons, digit_hexDigit _ (Nat.mod_lt _ (by decide)), ih,
      pow_succ, Nat.mod_mul]
    ring

theorem hex_plain {k n : Nat} : ∀ c ∈ Sha256.hex k n, Numerals.digit c < 16 ∧
    isWhite c = false := by
  intro c hc
  have hrange : (48 ≤ c.toNat ∧ c.toNat ≤ 57) ∨ (97 ≤ c.toNat ∧ c.toNat ≤ 102) := by
    obtain h | h := Bool.or_eq_true_iff.mp (Sha256.isHex_of_mem_hex hc)
    · exact .inl (Numerals.digit_range h)
    · simp only [Bool.and_eq_true, decide_eq_true_eq] at h
      exact .inr h
  refine ⟨?_, Lines.isWhite_of_ascii (by omega)⟩
  unfold Numerals.digit
  split
  · omega
  · rw [if_pos (by omega)]
    omega

theorem parse_int_hex (word : BitVec 64) :
    python.parse_int 16 (Sha256.hex 16 word.toNat) = .ok (word.toNat : Int) := by
  have hdigits : ∀ c ∈ Sha256.hex 16 word.toNat, Numerals.digit c < 16 :=
    fun c hc => (hex_plain c hc).1
  have hne : Sha256.hex 16 word.toNat ≠ [] := List.cons_ne_nil _ _
  have hvalue : Numerals.value 16 (Sha256.hex 16 word.toNat) = word.toNat := by
    rw [Numerals.value, value_hex, Nat.mul_zero, Nat.zero_add, Nat.mod_eq_of_lt]
    exact word.isLt
  have hdecimal : 16 ≠ 10 := by decide
  rw [Interpreter.parse_int,
    Numerals.int_digits (le_refl 16) hne hdigits fun h => absurd h hdecimal, hvalue]

theorem strip_tab {text : List Char} (h : ∀ c ∈ text, isWhite c = false) :
    Numerals.strip isWhite ('\t' :: text) = text := by
  rw [Numerals.strip_cons (by decide), Numerals.strip_of_forall h]

/-- One number after a tab. -/
theorem observation_number {key : String} {base : Nat} {text : List Char} {z : Int}
    (hids : ¬ (key = "Uid" ∨ key = "Gid")) (hgroups : key ≠ "Groups")
    (hbase : (if ['C', 'a', 'p'].isPrefixOf key.toList then 16 else 10) = base)
    (htext : ∀ c ∈ text, isWhite c = false) (hparse : python.parse_int base text = .ok z) :
    python.observation key ('\t' :: text) = .ok (integer z) := by
  rw [Interpreter.observation, if_neg hids, if_neg hgroups, hbase, strip_tab htext, hparse]
  rfl

theorem observation_ids {key : String} (hkey : key = "Uid" ∨ key = "Gid") {ids : List Decimal}
    (h : ids.length = 4) :
    python.observation key (ids.flatMap fun id => '\t' :: Nat.toDigits 10 id.val) =
      .ok (.arr (ids.map fun id => integer id.val)) := by
  have hlength : (ids.map fun id => Nat.toDigits 10 id.val).length = 4 := by rw [List.length_map, h]
  rw [Interpreter.observation, if_pos hkey, words_tabs, Except.require_holds hlength,
    Except.ok_bind, mapM_parse_int, Except.ok_bind, List.map_map]
  rfl

theorem observation_groups (groups : List Decimal) :
    python.observation "Groups"
      ('\t' :: join (groups.map fun id => Nat.toDigits 10 id.val) ++ [' ']) =
      .ok (.arr (((groups.map fun id => (id.val : Int)).insertionSort (· ≤ ·)).map integer)) := by
  have hdigits : ∀ field ∈ groups.map fun id => Nat.toDigits 10 id.val, field ≠ [] ∧
      ∀ c ∈ field, isWhite c = false :=
    List.forall_mem_map.mpr fun id _ => ⟨Nat.toDigits_ne_nil, digits_white _⟩
  rw [Interpreter.observation, if_neg (by decide), if_pos rfl, List.cons_append,
    Words.words_cons (by decide), words_joined (by decide) hdigits, mapM_parse_int]
  rfl

/-- The texts of the kernel are read as its values. -/
theorem observation_text (rights : Rights) {key : String} (h : key ∈ REQUIRED) :
    python.observation key (rights.text key) = .ok (rights.value key) := by
  simp only [REQUIRED, List.mem_cons, List.not_mem_nil, or_false] at h
  rcases h with rfl | rfl | rfl | rfl | rfl | rfl | rfl | rfl | rfl | rfl
  · exact observation_ids (.inl rfl) rights.four.1
  · exact observation_ids (.inr rfl) rights.four.2
  · exact observation_groups rights.groups
  · exact observation_number (by decide) (by decide) rfl (digits_white _) (parse_int_toDigits _)
  · exact observation_number (by decide) (by decide) rfl (fun c hc => (hex_plain c hc).2)
      (parse_int_hex _)
  · exact observation_number (by decide) (by decide) rfl (fun c hc => (hex_plain c hc).2)
      (parse_int_hex _)
  · exact observation_number (by decide) (by decide) rfl (fun c hc => (hex_plain c hc).2)
      (parse_int_hex _)
  · exact observation_number (by decide) (by decide) rfl (fun c hc => (hex_plain c hc).2)
      (parse_int_hex _)
  · exact observation_number (by decide) (by decide) rfl (fun c hc => (hex_plain c hc).2)
      (parse_int_hex _)
  · exact observation_number (by decide) (by decide) rfl (digits_white _) (parse_int_toDigits _)

/-- The keys stay in the order of their lines, and none comes twice. -/
theorem record_keys {fields : List (String × List Char)} :
    ∀ {result result' : List (String × Json)}, fields.foldlM python.record result = .ok result' →
      (result.map Prod.fst).Nodup → result'.map Prod.fst =
        result.map Prod.fst ++ fields.map Prod.fst ∧ (result'.map Prod.fst).Nodup := by
  induction fields with
  | nil =>
    intro result result' h hnodup
    obtain rfl := Except.pure_eq_ok.mp h
    exact ⟨(List.append_nil _).symm, hnodup⟩
  | cons field fields ih =>
    intro result result' h hnodup
    rw [List.foldlM_cons, Except.bind_eq_ok] at h
    obtain ⟨next, hnext, hrest⟩ := h
    simp only [Interpreter.record, Except.bind_eq_ok, Except.require_eq_ok,
      Except.pure_eq_ok] at hnext
    obtain ⟨_, hnew, value, _, rfl⟩ := hnext
    have hnodup' : ((result ++ [(field.1, value)]).map Prod.fst).Nodup := by
      rw [List.map_append, List.nodup_append']
      refine ⟨hnodup, List.nodup_singleton _, ?_⟩
      simpa using hnew
    obtain ⟨hkeys, hdistinct⟩ := ih hrest hnodup'
    refine ⟨?_, hdistinct⟩
    rw [hkeys, List.map_append, List.append_assoc]
    rfl

/-- Fields with distinct keys that are read are all recorded. -/
theorem record_values {value : String → Json} {fields : List (String × List Char)} :
    ∀ {result : List (String × Json)},
      (∀ field ∈ fields, python.observation field.1 field.2 = .ok (value field.1)) →
      (result.map Prod.fst ++ fields.map Prod.fst).Nodup →
        fields.foldlM python.record result =
          .ok (result ++ fields.map fun field => (field.1, value field.1)) := by
  induction fields with
  | nil => exact fun _ _ => congrArg Except.ok (List.append_nil _).symm
  | cons field fields ih =>
    intro result h hnodup
    obtain ⟨hfield, hfields⟩ := List.forall_mem_cons.mp h
    have hnew : field.1 ∉ result.map Prod.fst := fun hmem =>
      (List.nodup_append'.mp hnodup).2.2 hmem (List.mem_cons_self)
    have hnext : python.record result field = .ok (result ++ [(field.1, value field.1)]) := by
      rw [Interpreter.record, Except.require_holds hnew, Except.ok_bind, hfield]
      rfl
    have hnodup' :
        ((result ++ [(field.1, value field.1)]).map Prod.fst ++ fields.map Prod.fst).Nodup := by
      rw [List.map_append, List.append_assoc]
      exact hnodup
    rw [List.foldlM_cons, hnext, Except.ok_bind, ih hfields hnodup', List.append_assoc]
    rfl

theorem field_line {key : String} (hkey : ':' ∉ key.toList) (value : List Char) :
    field (key.toList ++ ':' :: value) = if key ∈ REQUIRED then some (key, value) else none := by
  rw [field, Lines.partition_append hkey]
  dsimp only
  rw [String.ofList_toList]

theorem field_required {line : List Char} {found : String × List Char}
    (h : field line = some found) : found.1 ∈ REQUIRED := by
  unfold field at h
  split at h
  · next key value _ =>
    by_cases hkey : String.ofList key ∈ REQUIRED
    · rw [if_pos hkey] at h
      exact Option.some.inj h ▸ hkey
    · rw [if_neg hkey] at h
      cases h
  · cases h

namespace StatusFile

variable {file : StatusFile}

theorem line_plain {line : String × List Char} (h : line ∈ file.lines) :
    ∀ c ∈ line.1.toList ++ ':' :: line.2, isBoundary c = false := by
  obtain ⟨hkey, hvalue⟩ := file.plain line h
  refine List.forall_mem_append.mpr
    ⟨fun c hc => (hkey c hc).2, List.forall_mem_cons.mpr ⟨by decide, hvalue⟩⟩

/-- The fields of the file are those that the name imitates, and the kernel's. -/
theorem filterMap_field : (splitlines file.text).filterMap field =
    (splitlines (file.heading ++ ['\n'])).filterMap field ++ required file.lines := by
  obtain ⟨first, others, hheading⟩ := Lines.splitlines_append file.heading
  have hempty : splitlines (file.heading ++ ['\n']) = first :: others := by
    rw [hheading]
    exact List.append_nil _
  have hlines : (file.lines.flatMap fun line => line.1.toList ++ ':' :: line.2 ++ ['\n']) =
      (file.lines.map fun line => line.1.toList ++ ':' :: line.2).flatMap fun line =>
        line ++ ['\n'] := by
    rw [List.flatMap_map]
  have hrest : splitlines ((file.lines.map fun line => line.1.toList ++ ':' :: line.2).flatMap
    fun line => line ++ ['\n']) =
      file.lines.map fun line => line.1.toList ++ ':' :: line.2 :=
    Lines.splitlines_flatMap (List.forall_mem_map.mpr fun line hline => line_plain hline)
  have hfields : ∀ line ∈ file.lines, field (line.1.toList ++ ':' :: line.2) = if line.1 ∈
      REQUIRED then some line else none :=
    fun line hline => field_line (fun hmem => ((file.plain line hline).1 _ hmem).1 rfl) line.2
  rw [text, hlines, hheading, hempty, hrest, List.filterMap_append, List.filterMap_map]
  congr 1
  rw [required, ← List.filterMap_eq_filter]
  refine List.filterMap_congr fun line hline => (hfields line hline).trans ?_
  simp [Option.guard]

theorem required_perm : ((required file.lines).map Prod.fst).Perm REQUIRED := by
  have hfields : file.rights.fields.map Prod.fst = REQUIRED := by
    rw [Rights.fields, List.map_map]
    exact List.map_id' REQUIRED
  exact hfields ▸ file.once.map Prod.fst

/-- Without a spoofed line, the status is what the kernel wrote. -/
theorem process_status_unspoofed (h : file.Unspoofed) :
    python.process_status file.text = .ok file.rights.status := by
  have hnodup : (required file.lines).map Prod.fst |>.Nodup :=
    required_perm.nodup_iff.mpr (by decide)
  have hread : ∀ line ∈ required file.lines,
      python.observation line.1 line.2 = .ok (file.rights.value line.1) := by
    intro line hline
    obtain ⟨key, hkey, rfl⟩ := List.mem_map.mp (file.once.mem_iff.mp hline)
    exact observation_text file.rights hkey
  have hrecorded := @record_values python file.rights.value (required file.lines) [] hread hnodup
  have hkeys :
    ((required file.lines).map fun line => (line.1, file.rights.value line.1)).map Prod.fst =
      (required file.lines).map Prod.fst := List.map_map
  have hall : (∀ key ∈ ((required file.lines).map
        fun line => (line.1, file.rights.value line.1)).map Prod.fst, key ∈ REQUIRED) ∧
      ∀ key ∈ REQUIRED, key ∈ ((required file.lines).map
        fun line => (line.1, file.rights.value line.1)).map Prod.fst := by
    rw [hkeys]
    exact ⟨fun key => required_perm.mem_iff.mp, fun key => required_perm.mem_iff.mpr⟩
  have hperm : ((required file.lines).map fun line => (line.1, file.rights.value line.1)).Perm
      (REQUIRED.map fun key => (key, file.rights.value key)) := by
    have hmap := (@required_perm file).map fun key => (key, file.rights.value key)
    rwa [List.map_map] at hmap
  rw [Interpreter.process_status, filterMap_field, List.filterMap_eq_nil_iff.mpr h, List.nil_append,
    hrecorded, Except.ok_bind, List.nil_append, Except.require_holds hall, Except.ok_bind]
  exact congrArg (Except.ok ∘ Json.obj) (Json.sortFields_congr (hkeys ▸ hnodup) hperm)

/-- A spoofed line meets the kernel's line with its key, or is not read at all. -/
theorem unspoofed_of_ok {status : Json}
    (h : python.process_status file.text = .ok status) : file.Unspoofed := by
  simp only [Interpreter.process_status, Except.bind_eq_ok] at h
  obtain ⟨result, hresult, _⟩ := h
  rw [filterMap_field] at hresult
  obtain ⟨hkeys, hnodup⟩ := record_keys hresult List.nodup_nil
  rw [hkeys, List.map_nil, List.nil_append, List.map_append, List.nodup_append'] at hnodup
  intro line hline
  cases hfield : field line with
  | none => rfl
  | some spoofed =>
    have hspoofed : spoofed.1 ∈
        ((splitlines (file.heading ++ ['\n'])).filterMap field).map Prod.fst :=
      List.mem_map_of_mem (List.mem_filterMap.mpr ⟨line, hline, hfield⟩)
    exact absurd (required_perm.mem_iff.mpr (field_required hfield)) (hnodup.2.2 hspoofed)

end StatusFile

theorem process_status_text (python : Interpreter) (file : StatusFile) (status : Json) :
    python.process_status file.text = .ok status ↔
      file.Unspoofed ∧ status = file.rights.status := by
  constructor
  · intro h
    have hunspoofed := StatusFile.unspoofed_of_ok h
    exact ⟨hunspoofed,
      Except.ok.inj (h.symm.trans (StatusFile.process_status_unspoofed hunspoofed))⟩
  · rintro ⟨hunspoofed, rfl⟩
    exact StatusFile.process_status_unspoofed hunspoofed

/-- A name without line boundaries of its own imitates nothing. -/
theorem StatusFile.unspoofed_of_name {file : StatusFile}
    (h : ∀ c ∈ file.name, isBoundary c = true → c = '\n') : file.Unspoofed := by
  have hescape : ∀ c ∈ escape_name file.name, isBoundary c = false := by
    have hnewline : ∀ d ∈ ['\\', 'n'], isBoundary d = false := by simp [isBoundary]
    have hbackslash : ∀ d ∈ ['\\', '\\'], isBoundary d = false := by simp [isBoundary]
    intro d hd
    obtain ⟨c, hc, hd⟩ := List.mem_flatMap.mp hd
    split at hd
    · exact hnewline d hd
    · split at hd
      · exact hbackslash d hd
      · next hne _ =>
        obtain rfl := List.mem_singleton.mp hd
        exact Bool.eq_false_iff.mpr fun hboundary => hne (h d hc hboundary)
  have hheading : ∀ c ∈ file.heading, isBoundary c = false :=
    List.forall_mem_append.mpr ⟨by simp [isBoundary], hescape⟩
  have hsplit : splitlines (file.heading ++ ['\n']) = [file.heading] :=
    Lines.splitlines_first hheading (Lines.splitlines_newline [])
  have hkey : ':' ∉ "Name".toList := by decide
  rw [Unspoofed, hsplit, List.forall_mem_singleton]
  exact (field_line hkey ('\t' :: escape_name file.name)).trans (if_neg (by decide))

namespace Sample

def rights : Rights where
  uid := List.replicate 4 ⟨1000, by decide⟩
  gid := List.replicate 4 ⟨1000, by decide⟩
  four := ⟨rfl, rfl⟩
  groups := []
  no_new_privs := ⟨1, by decide⟩
  capabilities _ := 0
  seccomp := ⟨0, by decide⟩

theorem required_fields : required rights.fields = rights.fields :=
  List.filter_eq_self.mpr (List.forall_mem_map.mpr fun _ hkey => decide_eq_true hkey)

theorem plain_fields : ∀ line ∈ rights.fields,
    (∀ c ∈ line.1.toList, c ≠ ':' ∧ isBoundary c = false) ∧ ∀ c ∈ line.2, isBoundary c = false := by
  refine List.forall_mem_map.mpr fun key hkey => ?_
  simp only [REQUIRED, List.mem_cons, List.not_mem_nil, or_false] at hkey
  rcases hkey with rfl | rfl | rfl | rfl | rfl | rfl | rfl | rfl | rfl | rfl
  all_goals exact ⟨Words.forall_mem_of_all (by decide), Words.forall_mem_of_all (by decide)⟩

/-- The process of a name. -/
def process (name : String) : StatusFile where
  name := name.toList
  rights := rights
  lines := rights.fields
  plain := plain_fields
  once := .of_eq required_fields

end Sample

/-- A carriage return is no newline for the kernel, and a line boundary for `splitlines`. -/
example (python : Interpreter) (status : Json) :
    python.process_status (Sample.process "a\rSeccomp:\t2").text ≠ .ok status := by
  intro h
  have hline := ((process_status_text python _ status).mp h).1 "Seccomp:\t2".toList (by decide)
  exact absurd hline (by decide)

example : (Sample.process "a\nSeccomp:\t2").Unspoofed :=
  StatusFile.unspoofed_of_name (by simp [Sample.process, isBoundary])

/-- A file that `bounded` reads whole. -/
def Stat.Fits (stat : Stat) : Prop := Json.utf8_length stat.text ≤ 4096

theorem started_text (python : Interpreter) (stat : Stat) [Decidable stat.Fits] :
    python.started stat.text = .ok (if stat.Fits then some (stat.start.val : Int) else none) := by
  rw [Interpreter.started, bounded]
  by_cases hfits : stat.Fits
  · have hlength : Json.utf8_length stat.text ≤ 4096 := hfits
    rw [if_pos hlength, if_pos hfits, Except.ok_bind, process_start_text]
    rfl
  · have hlength : ¬ Json.utf8_length stat.text ≤ 4096 := hfits
    rw [if_neg hlength, if_neg hfits]
    rfl

/-- What `collect` finds stable has one start time. -/
theorem isStable_started (python : Interpreter) (first last : Stat) : ∃ start finish,
    python.started first.text = .ok start ∧ python.started last.text = .ok finish ∧
      (isStable start finish = true ↔ first.Fits ∧ last.Fits ∧ first.start = last.start) := by
  classical
  refine ⟨_, _, started_text python first, started_text python last, ?_⟩
  by_cases hfirst : first.Fits
  · by_cases hlast : last.Fits
    · simp [isStable, hfirst, hlast, Subtype.ext_iff]
    · simp [isStable, hfirst, hlast]
  · simp [isStable, hfirst]

/-- No name of a process changes what is observed of its start and of its rights: the status is
    the kernel's unless a line of the name makes it a duplicate. -/
theorem process_observed (python : Interpreter) :
    (∀ (file : StatusFile) (status : Json),
      python.process_status file.text = .ok status ↔ file.Unspoofed ∧ status = file.rights.status) ∧
    (∀ stat : Stat, python.process_start stat.text = .ok (stat.start.val : Int)) ∧
    ∀ first last : Stat, ∃ start finish, python.started first.text = .ok start ∧
    python.started last.text = .ok finish ∧
      (isStable start finish = true ↔ first.Fits ∧ last.Fits ∧ first.start = last.start) :=
  ⟨process_status_text python, process_start_text python, isStable_started python⟩

end Readings

end pepeuch_worker
