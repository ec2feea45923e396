import PepeuchCluster.Text.Words

namespace Lines

/-! ### Lines -/

/-- The characters that end a line, for `str.splitlines`. -/
def isBoundary (c : Char) : Bool :=
  c = '\n' || c = '\r' || c = '\u000b' || c = '\u000c' || c = '\u001c' || c = '\u001d' || c =
    '\u001e' || c = '\u0085' ||
    c = '\u2028' || c = '\u2029'

/-- `str.isspace` of one character. -/
def isWhite (c : Char) : Bool :=
  isBoundary c || c = ' ' || c = '\t' || c = '\u001f' || c = '\u00a0' || c = '\u1680' ||
    ('\u2000' ≤ c && c ≤ '\u200a') || c = '\u202f' || c = '\u205f' || c = '\u3000'

/-- The printable characters of ASCII are no whitespace. -/
theorem isWhite_of_ascii {c : Char} (h : 33 ≤ c.toNat ∧ c.toNat < 127) : isWhite c = false := by
  have hne : ∀ d ∈ ['\n', '\r', '\u000b', '\u000c', '\u001c', '\u001d', '\u001e', '\u0085',
      '\u2028', '\u2029', ' ', '\t', '\u001f', '\u00a0', '\u1680', '\u202f', '\u205f', '\u3000'],
      c ≠ d := by
    rintro d hd rfl
    have hrange : c.toNat < 33 ∨ 127 ≤ c.toNat :=
      @Words.forall_mem_of_all _ (fun d => d.toNat < 33 ∨ 127 ≤ d.toNat) _ _ (by decide) c hd
    omega
  have hwide : ¬ '\u2000' ≤ c := by
    intro hle
    have hnat : 8192 ≤ c.toNat := hle
    omega
  simp only [List.forall_mem_cons] at hne
  simp [isWhite, isBoundary, hne, hwide]

/-- `str.splitlines`. -/
def splitlines : List Char → List (List Char)
  | [] => []
  | '\r' :: '\n' :: rest => [] :: splitlines rest
  | c :: rest =>
    if isBoundary c then [] :: splitlines rest
    else match splitlines rest with
      | [] => [[c]]
      | line :: lines => (c :: line) :: lines

theorem splitlines_cons {c : Char} (hc : isBoundary c = false) (rest : List Char) :
    splitlines (c :: rest) = match splitlines rest with
      | [] => [[c]]
      | line :: lines => (c :: line) :: lines := by
  rw [splitlines, if_neg (by simp [hc])]
  rintro _ rfl
  simp [isBoundary] at hc

theorem splitlines_newline (rest : List Char) :
    splitlines ('\n' :: rest) = [] :: splitlines rest := by
  rw [splitlines, if_pos (by decide)]
  rintro _ h
  simp at h

/-- The first line of a text is what stands before its first boundary. -/
theorem splitlines_first {line : List Char} (hline : ∀ c ∈ line, isBoundary c = false)
    {rest : List Char} {lines : List (List Char)} (h : splitlines rest = [] :: lines) :
    splitlines (line ++ rest) = line :: lines := by
  induction line with
  | nil => exact h
  | cons c line ih =>
    obtain ⟨hc, hline⟩ := List.forall_mem_cons.mp hline
    rw [List.cons_append, splitlines_cons hc, ih hline]

/-- A boundary that is no return before a newline ends a line of its own. -/
theorem splitlines_lone {c : Char} (hc : isBoundary c = true) {rest : List Char}
    (h : c = '\r' → rest.head? ≠ some '\n') : splitlines (c :: rest) = [] :: splitlines rest := by
  rw [splitlines, if_pos hc]
  rintro tail rfl rfl
  exact h rfl rfl

/-- What stands before a newline is split on its own. -/
theorem splitlines_append (text : List Char) :
    ∃ line lines, ∀ rest, splitlines (text ++ '\n' :: rest) = line :: lines ++ splitlines rest := by
  induction text using splitlines.induct with
  | case1 => exact ⟨[], [], splitlines_newline⟩
  | case2 text ih =>
    obtain ⟨line, lines, hlines⟩ := ih
    refine ⟨[], line :: lines, fun rest => ?_⟩
    rw [List.cons_append, List.cons_append, splitlines, hlines]
    rfl
  | case3 c text hpair hc ih =>
    obtain ⟨line, lines, hlines⟩ := ih
    by_cases hlast : c = '\r' ∧ text = []
    · obtain ⟨rfl, rfl⟩ := hlast
      refine ⟨[], [], fun rest => ?_⟩
      rw [List.singleton_append, splitlines]
      rfl
    · refine ⟨[], line :: lines, fun rest => ?_⟩
      rw [List.cons_append, splitlines_lone hc, hlines]
      · rfl
      · intro hreturn hhead
        cases text with
        | nil => exact hlast ⟨hreturn, rfl⟩
        | cons d text => exact hpair text hreturn (congrArg (· :: text) (Option.some.inj hhead))
  | case4 c text _ hc _ ih | case5 c text _ hc _ _ _ ih =>
    obtain ⟨line, lines, hlines⟩ := ih
    refine ⟨c :: line, lines, fun rest => ?_⟩
    rw [List.cons_append, splitlines_cons (by simpa using hc), hlines]
    rfl

/-- Lines without boundaries, each ended by a newline. -/
theorem splitlines_flatMap {lines : List (List Char)}
    (h : ∀ line ∈ lines, ∀ c ∈ line, isBoundary c = false) :
    splitlines (lines.flatMap fun line => line ++ ['\n']) = lines := by
  induction lines with
  | nil => rfl
  | cons line lines ih =>
    obtain ⟨hline, hlines⟩ := List.forall_mem_cons.mp h
    rw [List.flatMap_cons, List.append_assoc, List.singleton_append]
    refine (splitlines_first hline (splitlines_newline _)).trans ?_
    rw [ih hlines]

/-! ### Fields -/

/-- `str.partition` at a separator that is not empty: what stands before and after
    its first occurrence. -/
def partition (separator : List Char) : List Char → Option (List Char × List Char)
  | [] => none
  | c :: rest =>
    if separator.isPrefixOf (c :: rest) then some ([], (c :: rest).drop separator.length)
    else (partition separator rest).map fun parts => (c :: parts.1, parts.2)

/-- A separator of one character is found where it first stands. -/
theorem partition_append {c : Char} {before : List Char} (h : c ∉ before) (after : List Char) :
    partition [c] (before ++ c :: after) = some (before, after) := by
  induction before with
  | nil => simp [partition]
  | cons d before ih =>
    rw [List.mem_cons, not_or] at h
    rw [List.cons_append, partition, if_neg (by simp [h.1]), ih h.2]
    rfl

/-- Fields with one space between them. -/
def join : List (List Char) → List Char
  | [] => []
  | [field] => field
  | field :: rest => field ++ ' ' :: join rest

theorem join_cons {field : List Char} {rest : List (List Char)} (h : rest ≠ []) :
    join (field :: rest) = field ++ ' ' :: join rest := by
  cases rest with
  | nil => exact absurd rfl h
  | cons _ _ => rfl

/-- The fields around the first dash that stands between two fields. -/
def cut : List (List Char) → Option (List (List Char) × List (List Char))
  | first :: second :: third :: rest =>
    if second = ['-'] then some ([first], third :: rest)
    else (cut (second :: third :: rest)).map fun parts => (first :: parts.1, parts.2)
  | _ => none

theorem cut_before {fields : List (List Char)} {parts : List (List Char) × List (List Char)}
    (h : cut fields = some parts) :
    parts.1 ≠ [] := by
  unfold cut at h
  split at h
  · split at h
    · obtain rfl := Option.some.inj h
      simp
    · obtain ⟨rest, _, rfl⟩ := Option.map_eq_some_iff.mp h
      simp
  · cases h

theorem partition_field {field : List Char} (h : ' ' ∉ field) (rest : List Char) :
    partition [' ', '-', ' '] (field ++ rest) =
      (partition [' ', '-', ' '] rest).map fun parts => (field ++ parts.1, parts.2) := by
  induction field with
  | nil => simp
  | cons c field ih =>
    rw [List.mem_cons, not_or] at h
    have hfirst : ([' ', '-', ' '].isPrefixOf (c :: (field ++ rest))) = false := by
      simp [List.isPrefixOf, h.1]
    rw [List.cons_append, partition, if_neg (by simp [hfirst]), ih h.2, Option.map_map]
    rfl

/-- At a space, the separator is there exactly when the next field is a dash and not the last. -/
theorem partition_space {second : List Char} (hsecond : ' ' ∉ second) {rest : List (List Char)} :
    partition [' ', '-', ' '] (' ' :: join (second :: rest)) =
      if second = ['-'] ∧ rest ≠ [] then some ([], join rest)
      else (partition [' ', '-', ' '] (join (second :: rest))).map fun parts =>
        (' ' :: parts.1, parts.2) := by
  rw [partition]
  by_cases hcut : second = ['-'] ∧ rest ≠ []
  · obtain ⟨rfl, hrest⟩ := hcut
    rw [if_pos (And.intro rfl hrest), join_cons hrest, if_pos (by simp)]
    simp
  · rw [if_neg hcut, if_neg]
    intro hpre
    apply hcut
    cases second with
    | nil =>
      cases rest with
      | nil => simp [join, List.isPrefixOf] at hpre
      | cons third rest => simp [join_cons, List.isPrefixOf] at hpre
    | cons c second =>
      cases rest with
      | nil =>
        rw [join] at hpre
        simp only [List.isPrefixOf, beq_self_eq_true, Bool.true_and, Bool.and_eq_true,
          beq_iff_eq] at hpre
        cases second with
        | nil => simp [List.isPrefixOf] at hpre
        | cons d second =>
          simp only [List.isPrefixOf, Bool.and_true, beq_iff_eq] at hpre
          simp [← hpre.2] at hsecond
      | cons third rest =>
        rw [join_cons (by simp)] at hpre
        cases second with
        | nil =>
          simp only [List.cons_append, List.nil_append, List.isPrefixOf, beq_self_eq_true,
            Bool.true_and, Bool.and_true, beq_iff_eq] at hpre
          exact ⟨by rw [hpre], by simp⟩
        | cons d second =>
          simp only [List.cons_append, List.isPrefixOf, beq_self_eq_true, Bool.true_and,
            Bool.and_true, Bool.and_eq_true, beq_iff_eq] at hpre
          simp [← hpre.2] at hsecond

/-- A line of fields is cut at the dash between two of them. -/
theorem partition_join {fields : List (List Char)} (h : ∀ field ∈ fields, ' ' ∉ field) :
    partition [' ', '-', ' '] (join fields) = (cut fields).map fun parts =>
      (join parts.1, join parts.2) := by
  have hlone : ∀ {field : List Char}, ' ' ∉ field → partition [' ', '-', ' '] field = none := by
    intro field hfield
    have hpartition := partition_field hfield []
    simpa [partition] using hpartition
  induction fields with
  | nil => rfl
  | cons first fields ih =>
    obtain ⟨hfirst, hrest⟩ := List.forall_mem_cons.mp h
    cases fields with
    | nil => exact hlone hfirst
    | cons second fields =>
      rw [join_cons (by simp), partition_field hfirst,
        partition_space (hrest second List.mem_cons_self), ih hrest]
      cases fields with
      | nil => simp [cut]
      | cons third rest =>
        by_cases hsecond : second = ['-']
        · subst hsecond
          simp [cut, join]
        · rw [if_neg (fun hboth => hsecond hboth.1), cut, if_neg hsecond, Option.map_map,
            Option.map_map, Option.map_map]
          refine Option.map_congr fun parts hparts => ?_
          rw [Function.comp_apply, Function.comp_apply, Function.comp_apply,
            join_cons (cut_before hparts)]

/-- A dash after fields that are none, the first apart, is where a line is cut. -/
theorem cut_append (before after : List (List Char)) (hbefore : before ≠ [])
    (hdash : ['-'] ∉ before.tail) (hafter : after ≠ []) :
    cut (before ++ ['-'] :: after) = some (before, after) := by
  induction before with
  | nil => exact absurd rfl hbefore
  | cons first before ih =>
    cases before with
    | nil =>
      cases after with
      | nil => exact absurd rfl hafter
      | cons third after => simp [cut]
    | cons second before =>
      rw [List.tail_cons, List.mem_cons, not_or] at hdash
      have hrest := ih (by simp) hdash.2
      cases before with
      | nil =>
        rw [List.singleton_append] at hrest
        rw [List.cons_append, List.singleton_append, cut, if_neg (Ne.symm hdash.1), hrest]
        rfl
      | cons third before =>
        rw [List.cons_append, List.cons_append] at hrest
        rw [List.cons_append, List.cons_append, List.cons_append, cut,
          if_neg (Ne.symm hdash.1), hrest]
        rfl

/-- The words of a line are those of its fields. -/
theorem words_join (fields : List (List Char)) :
    Words.words isWhite (join fields) = fields.flatMap (Words.words isWhite) := by
  induction fields with
  | nil => simp [join]
  | cons first fields ih =>
    cases fields with
    | nil => simp [join]
    | cons second fields =>
      rw [join_cons (by simp), Words.words_append_cons (by decide), ih]
      rfl

end Lines
