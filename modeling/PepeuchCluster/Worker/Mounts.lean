import Mathlib.Data.List.Sort
import Mathlib.Data.List.TakeWhile
import PepeuchCluster.Text.Lines
import PepeuchCluster.Worker.Policy

namespace pepeuch_worker

open Lines Words

def isOctal (c : Char) : Bool := '0' ≤ c && c ≤ '7'

def octal (c : Char) : Nat := c.toNat - '0'.toNat

/-- `re.sub(r"\\([0-7]{3})", …)` with the character of each code. -/
def unescape : List Char → List Char
  | '\\' :: a :: b :: c :: rest =>
    if isOctal a && isOctal b && isOctal c then
      Char.ofNat (64 * octal a + 8 * octal b + octal c) :: unescape rest
    else '\\' :: unescape (a :: b :: c :: rest)
  | c :: rest => c :: unescape rest
  | [] => []

def MOUNT_FLAGS : List String := ["ro", "rw", "nosuid", "nodev", "noexec"]

/-- `sorted(flags & set(options))`. -/
def known (options : List String) : List String :=
  (MOUNT_FLAGS.filter (· ∈ options)).insertionSort (· ≤ ·)

structure Mount where
  root : String
  mountpoint : String
  options : List String
  type : String
  super_options : List String
  deriving DecidableEq, Repr

/-- `options.split(",")`. -/
def listed (options : List Char) : List String := (options.splitOn ',').map String.ofList

/-- The mount that the fields around the separator tell. -/
def observed (left right : List (List Char)) : Except Failure Mount :=
  match left, right with
  | _ :: _ :: _ :: root :: mountpoint :: options :: _, type :: _ :: super_options :: _ =>
    .ok
      ⟨.ofList (unescape root), .ofList (unescape mountpoint), known (listed options), .ofList type,
        known (listed super_options)⟩
  | _, _ => .error (Problem "invalid_mount_observation")

/-- One line of `mountinfo`. -/
def mount (line : List Char) : Except Failure Mount :=
  match partition " - ".toList line with
  | none => .error (Problem "invalid_mount_observation")
  | some (before, after) => observed (words isWhite before) (words isWhite after)

/-- The characters that the kernel escapes in a path. -/
def escaped (c : Char) : Bool := c = ' ' || c = '\t' || c = '\n' || c = '\\' || c = '#'

def octal_digit (n : Nat) : Char := Char.ofNat ('0'.toNat + n % 8)

def mangle (c : Char) : List Char :=
  if escaped c then
    ['\\', octal_digit (c.toNat / 64), octal_digit (c.toNat / 8), octal_digit c.toNat] else [c]

def escape (path : List Char) : List Char := path.flatMap mangle

/-- A field without white space. -/
structure Word where
  text : List Char
  nonempty : text ≠ []
  plain : ∀ c ∈ text, isWhite c = false

/-- A field that the kernel prints as it is. -/
structure Token extends Word where
  unescaped : ∀ c ∈ text, c ≠ '\\'
  named : text ≠ ['-']

/-- The options of a mount or of a file system. -/
structure Options where
  names : List (List Char)
  listed : names ≠ []
  plain : ∀ name ∈ names, ∀ c ∈ name, isWhite c = false ∧ c ≠ '\\' ∧ c ≠ ','
  nonempty : names ≠ [[]]
  named : names ≠ [['-']]

structure Entry where
  id : Token
  parent : Token
  device : Token
  root : String
  mountpoint : String
  options : Options
  optional : List Token
  type : Token
  source : Word
  super_options : Options

def Options.text (options : Options) : List Char := [','].intercalate options.names

def Entry.fields (entry : Entry) : List (List Char) :=
  [entry.id.text, entry.parent.text, entry.device.text, escape entry.root.toList,
    escape entry.mountpoint.toList, entry.options.text] ++ entry.optional.map (·.text) ++
    ['-'] :: [entry.type.text, entry.source.text, entry.super_options.text]

def Entry.line (entry : Entry) : List Char := join entry.fields

def render (entries : List Entry) : List Char := entries.flatMap fun entry => entry.line ++ ['\n']

/-- What an observer should report of an entry. -/
def Entry.mount (entry : Entry) : Mount :=
  ⟨entry.root, entry.mountpoint, known (entry.options.names.map String.ofList),
    .ofList entry.type.text, known (entry.super_options.names.map String.ofList)⟩

/-- White space that the kernel does not escape. -/
def isWide (c : Char) : Bool := isWhite c && !escaped c

/-- What the observer takes for fields within a path. -/
def pieces (path : String) : List (List Char) := words isWide path.toList

/-- A path that the observer reads as one field. -/
def PlainPath (path : String) : Prop := path ≠ "" ∧ ∀ c ∈ path.toList, isWide c = false

/-- A path with the end of a line in it. -/
def Broken (path : String) : Prop := ∃ c ∈ path.toList, isBoundary c = true ∧ escaped c = false

/-- The entries that the observer refuses: an unescaped end of a line, a path that is
    taken for the separator, too few fields. -/
def Entry.Refused (entry : Entry) : Prop :=
  Broken entry.root ∨ Broken entry.mountpoint ∨ entry.root = "-" ∨
    entry.mountpoint = "-" ∧ (pieces entry.root).length < 3 ∨
    (pieces entry.root).length + (pieces entry.mountpoint).length + entry.optional.length < 2

section Escapes

theorem escaped_cases {c : Char} (h : escaped c = true) : c ∈ [' ', '\t', '\n', '\\', '#'] := by
  simpa [escaped, or_assoc] using h

theorem mangle_escaped {c : Char} (h : escaped c = true) :
    ∃ x y z, mangle c = ['\\', x, y, z] ∧ (∀ d ∈ ['\\', x, y, z], isWhite d = false) ∧
      ∀ rest, unescape (mangle c ++ rest) = c :: unescape rest := by
  have hcases := escaped_cases h
  simp only [List.mem_cons, List.not_mem_nil, or_false] at hcases
  rcases hcases with rfl | rfl | rfl | rfl | rfl
  · exact ⟨'0', '4', '0', rfl, forall_mem_of_all (by decide), fun _ => rfl⟩
  · exact ⟨'0', '1', '1', rfl, forall_mem_of_all (by decide), fun _ => rfl⟩
  · exact ⟨'0', '1', '2', rfl, forall_mem_of_all (by decide), fun _ => rfl⟩
  · exact ⟨'1', '3', '4', rfl, forall_mem_of_all (by decide), fun _ => rfl⟩
  · exact ⟨'0', '4', '3', rfl, forall_mem_of_all (by decide), fun _ => rfl⟩

theorem mangle_plain {c : Char} (h : escaped c = false) : mangle c = [c] := by
  rw [mangle, if_neg (by simp [h])]

theorem mangle_ne_nil (c : Char) : mangle c ≠ [] := by
  unfold mangle
  split <;> simp

theorem unescape_cons {c : Char} (h : c ≠ '\\') (rest : List Char) :
    unescape (c :: rest) = c :: unescape rest := by
  rw [unescape]
  rintro _ _ _ _ rfl
  exact absurd rfl h

theorem unescape_escape (path : List Char) : unescape (escape path) = path := by
  induction path with
  | nil => rfl
  | cons c path ih =>
    rw [escape, List.flatMap_cons, ← escape]
    by_cases hc : escaped c = true
    · obtain ⟨x, y, z, _, _, hunescape⟩ := mangle_escaped hc
      rw [hunescape, ih]
    · rw [mangle_plain (by simpa using hc), List.singleton_append, unescape_cons, ih]
      rintro rfl
      exact hc rfl

/-- The fields that an escaped path is read as. -/
theorem words_escape (path : List Char) :
    words isWhite (escape path) = (words isWide path).map escape := by
  refine words_flatMap (fun c hc => ?_) (fun c hc d hd => ?_) mangle_ne_nil path
  · simp only [isWide, Bool.and_eq_true, Bool.not_eq_true'] at hc
    exact ⟨c, mangle_plain hc.2, hc.1⟩
  · by_cases hescaped : escaped c = true
    · obtain ⟨x, y, z, hmangle, hwhite, _⟩ := mangle_escaped hescaped
      exact hwhite d (hmangle ▸ hd)
    · rw [mangle_plain (by simpa using hescaped), List.mem_singleton] at hd
      subst hd
      simpa [isWide, hescaped] using hc

theorem not_mem_escape {path : List Char} {c : Char} (hc : isWhite c = true)
    (h : ∀ d ∈ path, d = c → escaped d = true) : c ∉ escape path := by
  intro hmem
  obtain ⟨d, hd, hmangle⟩ := List.mem_flatMap.mp hmem
  by_cases hescaped : escaped d = true
  · obtain ⟨x, y, z, hsame, hwhite, _⟩ := mangle_escaped hescaped
    have hfalse := hwhite c (hsame ▸ hmangle)
    rw [hc] at hfalse
    cases hfalse
  · rw [mangle_plain (by simpa using hescaped), List.mem_singleton] at hmangle
    exact hescaped (h d hd hmangle.symm)

theorem space_not_mem_escape (path : List Char) : ' ' ∉ escape path :=
  not_mem_escape (by decide) fun d _ hd => hd ▸ rfl

theorem escape_eq_dash {path : List Char} : escape path = ['-'] ↔ path = ['-'] := by
  constructor
  · intro h
    rw [← unescape_escape path, h]
    rfl
  · rintro rfl
    rfl

end Escapes

section Fields

theorem Options.splitOn (options : Options) : options.text.splitOn ',' = options.names :=
  List.splitOn_intercalate ','
    (fun name hname hc => (options.plain name hname ',' hc).2.2 rfl) options.listed

theorem mem_intercalate {names : List (List Char)} {separator c : Char}
    (h : c ∈ [separator].intercalate names) :
    c = separator ∨ ∃ name ∈ names, c ∈ name := by
  induction names with
  | nil => simp at h
  | cons name names ih =>
    cases names with
    | nil => exact .inr ⟨name, by simp, by simpa using h⟩
    | cons second names =>
      rw [List.intercalate_cons_cons, List.append_assoc, List.mem_append, List.singleton_append,
        List.mem_cons] at h
      rcases h with h | h | h
      · exact .inr ⟨name, List.mem_cons_self, h⟩
      · exact .inl h
      · exact (ih h).imp_right fun ⟨other, hother, hmem⟩ =>
          ⟨other, List.mem_cons_of_mem _ hother, hmem⟩

theorem Options.mem_text {options : Options} {c : Char} (h : c ∈ options.text) :
    isWhite c = false ∧ c ≠ '\\' := by
  by_cases hc : c = ','
  · subst hc
    decide
  · obtain ⟨name, hname, hmem⟩ := (mem_intercalate h).resolve_left hc
    exact ⟨(options.plain name hname c hmem).1, (options.plain name hname c hmem).2.1⟩

/-- The options as the kernel prints them. -/
def Options.token (options : Options) : Token where
  text := options.text
  nonempty h := options.nonempty (by rw [← options.splitOn, h]; rfl)
  plain _ h := (mem_text h).1
  unescaped _ h := (mem_text h).2
  named h := options.named (by rw [← options.splitOn, h]; rfl)

theorem Word.words (word : Word) : words isWhite word.text = [word.text] :=
  words_of_forall word.nonempty word.plain

theorem Token.flatMap_words (tokens : List Token) :
    (tokens.map (·.text)).flatMap (Words.words isWhite) = tokens.map (·.text) := by
  induction tokens with
  | nil => rfl
  | cons token tokens ih =>
    rw [List.map_cons, List.flatMap_cons, token.words, ih, List.singleton_append]

theorem Word.space_not_mem (word : Word) : ' ' ∉ word.text :=
  fun h => absurd (word.plain ' ' h) (by decide)

theorem PlainPath.pieces {path : String} (h : PlainPath path) : pieces path = [path.toList] :=
  words_of_forall (by simpa using h.1) h.2

variable {entry : Entry}

theorem Entry.space_not_mem : ∀ field ∈ entry.fields, ' ' ∉ field := by
  have hoptional : ∀ field ∈ entry.optional.map (·.text), ' ' ∉ field :=
    List.forall_mem_map.mpr fun token _ => token.space_not_mem
  simp only [fields, List.cons_append, List.nil_append, List.forall_mem_cons,
    List.forall_mem_append]
  exact ⟨entry.id.space_not_mem, entry.parent.space_not_mem, entry.device.space_not_mem,
    space_not_mem_escape _, space_not_mem_escape _, entry.options.token.space_not_mem, hoptional, by
      decide, entry.type.space_not_mem,
    entry.source.space_not_mem, entry.super_options.token.space_not_mem, List.forall_mem_nil _⟩

/-- A line of fields is read at its cut. -/
theorem mount_join {fields : List (List Char)} (h : ∀ field ∈ fields, ' ' ∉ field) :
    mount (join fields) = match cut fields with
      | none => .error (Problem "invalid_mount_observation")
      | some (before, after) =>
        observed (before.flatMap (words isWhite)) (after.flatMap (words isWhite)) := by
  have hpartition := partition_join h
  rw [mount]
  change (match partition [' ', '-', ' '] (join fields) with
    | none => _
    | some (before, after) => _) = _
  rw [hpartition]
  cases cut fields with
  | none => rfl
  | some parts =>
    simp only [Option.map_some, words_join]

theorem words_path (path : String) :
    words isWhite (escape path.toList) = (pieces path).map escape :=
  words_escape path.toList

theorem words_dash : words isWhite ['-'] = [['-']] := by decide

theorem escape_dash {path : String} : escape path.toList = ['-'] ↔ path = "-" := by
  rw [escape_eq_dash, ← String.toList_inj]
  rfl

/-- What stands after the dash of an entry. -/
def Entry.rest (entry : Entry) : List (List Char) :=
  [entry.type.text, entry.source.text, entry.super_options.text]

theorem Entry.words_rest : entry.rest.flatMap (words isWhite) = entry.rest := by
  simp only [rest, List.flatMap_cons, List.flatMap_nil, Word.words, List.singleton_append]
  rw [show words isWhite entry.super_options.text =
    [entry.super_options.text] from entry.super_options.token.words, List.singleton_append]

theorem Entry.words_options : words isWhite entry.options.text = [entry.options.text] :=
  entry.options.token.words

/-- A root that looks like the separator leaves too few fields. -/
theorem Entry.line_root (h : entry.root = "-") :
    pepeuch_worker.mount entry.line = .error (Problem "invalid_mount_observation") := by
  have hcut := cut_append [entry.id.text, entry.parent.text, entry.device.text]
    ([escape entry.mountpoint.toList, entry.options.text] ++ entry.optional.map (·.text) ++
      ['-'] :: entry.rest)
    (by simp) (by simpa using ⟨Ne.symm entry.parent.named, Ne.symm entry.device.named⟩) (by simp)
  have hfields : entry.fields = [entry.id.text, entry.parent.text, entry.device.text] ++ ['-'] ::
      ([escape entry.mountpoint.toList, entry.options.text] ++ entry.optional.map (·.text) ++
        ['-'] :: entry.rest) := by
    rw [fields, escape_dash.mpr h]
    rfl
  rw [Entry.line, mount_join entry.space_not_mem, hfields, hcut]
  simp only [List.flatMap_cons, List.flatMap_nil, Word.words, List.singleton_append, observed]

/-- So does a mountpoint, unless the root is read as several fields. -/
theorem Entry.line_mountpoint (hroot : entry.root ≠ "-") (h : entry.mountpoint = "-") :
    pepeuch_worker.mount entry.line =
      observed
        ([entry.id.text, entry.parent.text, entry.device.text] ++ (pieces entry.root).map escape)
        (entry.options.text :: entry.optional.map (·.text) ++ ['-'] :: entry.rest) := by
  have hcut := cut_append
    [entry.id.text, entry.parent.text, entry.device.text, escape entry.root.toList]
    (entry.options.text :: entry.optional.map (·.text) ++ ['-'] :: entry.rest) (by simp)
    (by
      simpa [escape_dash] using ⟨Ne.symm entry.parent.named, Ne.symm entry.device.named,
        fun heq => hroot (escape_dash.mp heq.symm)⟩)
    (by simp)
  have hfields : entry.fields =
    [entry.id.text, entry.parent.text, entry.device.text, escape entry.root.toList] ++ ['-'] ::
      (entry.options.text :: entry.optional.map (·.text) ++ ['-'] :: entry.rest) := by
    rw [fields, escape_dash.mpr h]
    rfl
  rw [Entry.line, mount_join entry.space_not_mem, hfields, hcut]
  simp only [List.cons_append, List.flatMap_cons, List.flatMap_nil, List.flatMap_append,
    Word.words, words_path, Entry.words_options, Token.flatMap_words, words_dash, Entry.words_rest,
      List.append_nil, List.nil_append]

/-- Any other entry is read at its own separator. -/
theorem Entry.line_plain (hroot : entry.root ≠ "-") (hmountpoint : entry.mountpoint ≠ "-") :
    pepeuch_worker.mount entry.line =
      observed
        ([entry.id.text, entry.parent.text, entry.device.text] ++ ((pieces entry.root).map escape ++
          (pieces entry.mountpoint).map escape ++ entry.options.text ::
            entry.optional.map (·.text))) entry.rest := by
  have hoptional : ['-'] ∉ entry.optional.map (·.text) := by
    rintro hmem
    obtain ⟨token, _, heq⟩ := List.mem_map.mp hmem
    exact token.named heq
  have hcut :=
    cut_append ([entry.id.text, entry.parent.text, entry.device.text, escape entry.root.toList,
      escape entry.mountpoint.toList, entry.options.text] ++ entry.optional.map (·.text))
    entry.rest (by simp)
    (by
      simp only [List.cons_append, List.tail_cons, List.nil_append, List.mem_cons, not_or]
      exact ⟨Ne.symm entry.parent.named, Ne.symm entry.device.named,
        fun heq => hroot (escape_dash.mp heq.symm), fun heq =>
        hmountpoint (escape_dash.mp heq.symm), Ne.symm entry.options.token.named, hoptional⟩)
    (by simp [Entry.rest])
  have hfields : entry.fields =
    [entry.id.text, entry.parent.text, entry.device.text, escape entry.root.toList,
      escape entry.mountpoint.toList, entry.options.text] ++ entry.optional.map (·.text) ++ ['-'] ::
    entry.rest := rfl
  rw [Entry.line, mount_join entry.space_not_mem, hfields, hcut]
  simp only [List.cons_append, List.flatMap_cons, Word.words, words_path, Entry.words_options,
    Token.flatMap_words, Entry.words_rest, List.nil_append, List.append_assoc]

end Fields

section Lines

/-- Fields are refused unless there are enough of them on both sides. -/
theorem observed_isOk {left right : List (List Char)} :
    (∃ mount, observed left right = .ok mount) ↔ 6 ≤ left.length ∧ 3 ≤ right.length := by
  unfold observed
  split
  · exact ⟨fun _ => ⟨by simp, by simp⟩, fun _ => ⟨_, rfl⟩⟩
  · next hnot =>
    constructor
    · rintro ⟨_, h⟩
      cases h
    · rintro ⟨hleft, hright⟩
      match left, right, hleft, hright with
      | a :: b :: c :: root :: mountpoint :: options :: left,
          type :: source :: super_options :: right, _, _ =>
        exact absurd rfl
          (hnot a b c root mountpoint options left type source super_options right rfl)

variable {entry : Entry}

theorem Entry.accepted (hbroken : ¬ Broken entry.root ∧ ¬ Broken entry.mountpoint) :
    (∃ mount, pepeuch_worker.mount entry.line = .ok mount) ↔ ¬ entry.Refused := by
  by_cases hroot : entry.root = "-"
  · rw [line_root hroot]
    exact ⟨nofun, fun h => absurd (.inr (.inr (.inl hroot))) h⟩
  · have hrest : entry.rest.length = 3 := rfl
    by_cases hmountpoint : entry.mountpoint = "-"
    · rw [line_mountpoint hroot hmountpoint, observed_isOk]
      simp only [List.length_append, List.length_cons, List.length_nil, List.length_map, hrest]
      constructor
      · rintro ⟨hleft, _⟩ (h | h | h | ⟨_, h⟩ | h)
        · exact hbroken.1 h
        · exact hbroken.2 h
        · exact hroot h
        · omega
        · omega
      · intro h
        have hpieces : ¬ (pieces entry.root).length < 3 :=
          fun hlt => h (.inr (.inr (.inr (.inl ⟨hmountpoint, hlt⟩))))
        omega
    · rw [line_plain hroot hmountpoint, observed_isOk]
      simp only [List.length_append, List.length_cons, List.length_nil, List.length_map, hrest]
      constructor
      · rintro ⟨hleft, _⟩ (h | h | h | ⟨h, _⟩ | h)
        · exact hbroken.1 h
        · exact hbroken.2 h
        · exact hroot h
        · exact hmountpoint h
        · omega
      · intro h
        have hpieces : ¬ (pieces entry.root).length + (pieces entry.mountpoint).length +
            entry.optional.length < 2 :=
          fun hlt => h (.inr (.inr (.inr (.inr hlt))))
        omega

def Entry.Plain (entry : Entry) : Prop := PlainPath entry.root ∧ PlainPath entry.mountpoint

/-- The first end of a line within a broken path. -/
theorem Broken.split {path : String} (h : Broken path) :
    ∃ head c tail, escape path.toList = head ++ c :: tail ∧ (∀ d ∈ head, isBoundary d = false) ∧
      isBoundary c = true := by
  obtain ⟨c, hc, hboundary, hescaped⟩ := h
  have hmem : c ∈ escape path.toList :=
    List.mem_flatMap.mpr ⟨c, hc, by rw [mangle_plain hescaped]; exact List.mem_singleton_self c⟩
  have hsome : ((escape path.toList).dropWhile fun d => !isBoundary d) ≠ [] := by
    rw [Ne, List.dropWhile_eq_nil_iff]
    exact fun hall => absurd (hall c hmem) (by simp [hboundary])
  obtain ⟨first, tail, hdrop⟩ := List.exists_cons_of_ne_nil hsome
  refine ⟨(escape path.toList).takeWhile fun d => !isBoundary d, first, tail, ?_,
    fun d hd => ?_, ?_⟩
  · rw [← hdrop, List.takeWhile_append_dropWhile]
  · simpa using List.mem_takeWhile_imp hd
  · have hfirst := List.head?_dropWhile_not (fun d => !isBoundary d) (escape path.toList)
    rw [hdrop] at hfirst
    simpa using hfirst

end Lines

/-! ### A name that mounts read-only -/

end pepeuch_worker
