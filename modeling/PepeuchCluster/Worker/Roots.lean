import PepeuchCluster.Worker.Policy

namespace pepeuch_worker

/-- As the kernel reads them, the roots are apart from each other, none of them is the root
    of the file system, and none leads upwards. -/
structure Apart (p : Policy) : Prop where
  disjoint : (ROOTS.map p.root).Pairwise fun path other => ¬ LinuxOverlap path other
  proper : ∀ name ∈ ROOTS, linux_components (p.root name) ≠ []
  downwards : ∀ name ∈ ROOTS, ['.', '.'] ∉ linux_components (p.root name)

/-- Two slashes at the start, which are not one for `PurePosixPath`. -/
def doubled : List Char → Bool
  | '/' :: '/' :: _ => true
  | _ => false

/-- The path with one slash at the start. -/
def folded : List Char → List Char
  | '/' :: '/' :: rest => '/' :: rest
  | path => path

/-- No root is two slashes, and none that starts with two overlaps one that does not. -/
structure Unambiguous (p : Policy) : Prop where
  proper : ∀ name ∈ ROOTS, p.root name ≠ ['/', '/']
  apart : (ROOTS.map p.root).Pairwise fun path other => doubled path ≠ doubled other →
    ¬ (PurePosixPath.parse (folded path)).Overlap (PurePosixPath.parse (folded other))

open PurePosixPath (parse)

theorem intercalate_head {parts : List (List Char)} (h : ∀ part ∈ parts, '/' ∉ part ∧ part ≠ []) :
    (List.intercalate ['/'] parts).head? ≠ some '/' := by
  cases parts with
  | nil => simp
  | cons part parts =>
    obtain ⟨hslash, hne⟩ := h part List.mem_cons_self
    obtain ⟨c, rest, rfl⟩ := List.exists_cons_of_ne_nil hne
    have hc : c ≠ '/' := fun hc => hslash (hc ▸ List.mem_cons_self)
    cases parts with
    | nil => simpa using hc
    | cons next parts => simpa using hc

theorem slashes (rest : List Char) : (∃ tail, rest = '/' :: '/' :: tail) ∨
    (∃ tail, rest = '/' :: tail ∧ tail.head? ≠ some '/') ∨ rest.head? ≠ some '/' := by
  cases rest with
  | nil => simp
  | cons c tail =>
    by_cases hc : c = '/'
    · subst hc
      cases tail with
      | nil => simp
      | cons d tail =>
        by_cases hd : d = '/'
        · exact .inl ⟨tail, by rw [hd]⟩
        · exact .inr (.inl ⟨d :: tail, rfl, by simpa using hd⟩)
    · exact .inr (.inr (by simpa using hc))

/-- A path that is its own text: its root is one slash or two, and folding it keeps its parts. -/
theorem parse_folded {path : List Char} (hhead : path.head? = some '/')
    (htext : (parse path).str = path) :
    (parse path).root = (if doubled path then 2 else 1) ∧
      parse (folded path) = ⟨1, (parse path).parts⟩ := by
  obtain ⟨rest, rfl⟩ : ∃ rest, path = '/' :: rest := by
    cases path with
    | nil => simp at hhead
    | cons c rest => exact ⟨rest, by simpa using hhead⟩
  obtain ⟨tail, rfl⟩ | ⟨tail, rfl, htail⟩ | hrest := slashes rest
  · -- three slashes are folded into one, so the text is another
    have hinner : ['/'].intercalate (parse ('/' :: '/' :: '/' :: tail)).parts =
        '/' :: '/' :: tail := (List.cons.inj htext).2
    have hslash : (List.intercalate ['/'] (parse ('/' :: '/' :: '/' :: tail)).parts).head? ≠
        some '/' :=
      intercalate_head fun _ => PurePosixPath.mem_parts
    rw [hinner] at hslash
    exact absurd rfl hslash
  · have hsplit := PurePosixPath.splitroot_two htail
    have hfold := PurePosixPath.splitroot_one htail
    exact ⟨by simp [parse, hsplit, doubled], by simp [parse, folded, hsplit, hfold]⟩
  · have hsplit := PurePosixPath.splitroot_one hrest
    have hsame : doubled ('/' :: rest) = false ∧ folded ('/' :: rest) = '/' :: rest := by
      unfold doubled folded
      split <;> simp_all
    exact ⟨by simp [parse, hsplit, hsame.1], by simp [parse, hsame.2, hsplit]⟩

theorem linux_overlap_iff {path other : List Char}
    (hpath : linux_components path = (parse path).parts)
    (hother : linux_components other = (parse other).parts) : LinuxOverlap path other ↔
      (parse path).parts <+: (parse other).parts ∨ (parse other).parts <+: (parse path).parts := by
  rw [LinuxOverlap, hpath, hother]

section Roots

variable (p : Policy)

theorem root_components {name : String} (h : name ∈ ROOTS) :
    linux_components (p.root name) = (parse (p.root name)).parts := by
  obtain ⟨hhead, _, _, htext⟩ := p.root_path h
  exact PurePosixPath.components_of_str htext (PurePosixPath.root_ne_zero hhead)

/-- What separates two roots, and what the policy has checked of them. -/
theorem root_overlap_iff {name other : String} (hname : name ∈ ROOTS) (hother : other ∈ ROOTS)
    (hchecked : ¬ (path_of p.data name).Overlap (path_of p.data other)) :
    LinuxOverlap (p.root name) (p.root other) ↔ doubled (p.root name) ≠ doubled (p.root other) ∧
      (parse (folded (p.root name))).Overlap (parse (folded (p.root other))) := by
  obtain ⟨hhead, _, _, htext⟩ := p.root_path hname
  obtain ⟨hhead', _, _, htext'⟩ := p.root_path hother
  obtain ⟨hroot, hfold⟩ := parse_folded hhead htext
  obtain ⟨hroot', hfold'⟩ := parse_folded hhead' htext'
  have hchecked : ¬ (parse (p.root name)).Overlap (parse (p.root other)) := hchecked
  rw [PurePosixPath.overlap_iff, hroot, hroot'] at hchecked
  rw [linux_overlap_iff (root_components p hname) (root_components p hother), hfold, hfold',
    PurePosixPath.overlap_iff]
  constructor
  · intro h
    refine ⟨fun hsame => hchecked ⟨by rw [hsame], h⟩, rfl, h⟩
  · exact fun h => h.2.2

end Roots

/-- The roots of an accepted policy are apart exactly when none is two slashes and none
    that starts with two slashes overlaps one that starts with one. -/
theorem roots_apart (p : Policy) : Apart p ↔ Unambiguous p := by
  have hpairs : (ROOTS.map p.root).Pairwise (fun path other => ¬ LinuxOverlap path other) ↔
      (ROOTS.map p.root).Pairwise fun path other => doubled path ≠ doubled other →
        ¬ (parse (folded path)).Overlap (parse (folded other)) := by
    have hchecked := p.conditions.disjoint
    simp only [List.pairwise_map] at hchecked ⊢
    have hiff : ∀ name ∈ ROOTS, ∀ other ∈ ROOTS,
      ¬ (path_of p.data name).Overlap (path_of p.data other) →
        (¬ LinuxOverlap (p.root name) (p.root other) ↔
          (doubled (p.root name) ≠ doubled (p.root other) →
            ¬ (parse (folded (p.root name))).Overlap (parse (folded (p.root other))))) := by
      intro name hname other hother hpair
      rw [root_overlap_iff p hname hother hpair, not_and]
    exact ⟨fun h => (h.and hchecked).imp_of_mem fun hname hother hpair =>
      (hiff _ hname _ hother hpair.2).mp hpair.1, fun h => (h.and hchecked).imp_of_mem
        fun hname hother hpair => (hiff _ hname _ hother hpair.2).mpr hpair.1⟩
  constructor
  · intro h
    refine ⟨fun name hname hroot => h.proper name hname ?_, hpairs.mp h.disjoint⟩
    rw [hroot]
    decide
  · intro h
    refine ⟨hpairs.mpr h.apart, fun name hname hnil => ?_, fun name hname => ?_⟩
    · obtain ⟨hhead, hne, _, htext⟩ := p.root_path hname
      obtain ⟨hroot, _⟩ := parse_folded hhead htext
      rw [root_components p hname] at hnil
      -- without components the text is its slashes alone
      by_cases hdouble : doubled (p.root name) = true
      · rw [PurePosixPath.str, hroot, hnil, if_pos hdouble] at htext
        exact h.proper name hname htext.symm
      · rw [PurePosixPath.str, hroot, hnil, if_neg hdouble] at htext
        exact hne htext.symm
    · rw [root_components p hname]
      exact (p.root_path hname).2.2.1

/-- A worker root inside the code root, with two slashes at its start. -/
def nested_policy : Json :=
  .dict [("schema", .str POLICY_SCHEMA), ("profile", .str CPU_PROFILE),
    ("configuration_sha256", .str (String.ofList (List.replicate 64 'b'))),
      ("unit", .str "pepeuch-test.service"),
    ("invocation_id", .str (String.ofList (List.replicate 32 'a'))),
      ("cgroup", .str "/system.slice/pepeuch-test.service"),
    ("allowed_groups", .arr [.number (.int 1001)]), ("code_root", .str "/opt/code"),
      ("worker_root", .str "//opt/code/worker"),
    ("backend_root", .str "/var/lib/backend"), ("cpu_ratio", .number (.float half)),
    ("memory_bytes", .number (.int 134217728)), ("pids", .number (.int 8)),
    ("max_age_seconds", .number (.int 30))]

theorem nested_accepted : policy nested_policy = .ok nested_policy :=
  policy_ok.mpr ⟨⟨by decide, by decide, by decide, by decide, by decide, by decide, by decide,
    by decide, by decide, half_isRatio⟩, rfl⟩

theorem nested_not_apart :
    policy nested_policy = .ok nested_policy ∧ ¬ Apart ⟨nested_policy, nested_accepted⟩ := by
  refine ⟨nested_accepted, fun h => ?_⟩
  have hpair := List.pairwise_cons.mp (List.pairwise_map.mp h.disjoint)
  exact hpair.1 "worker_root" (by decide) (.inl (by decide))

end pepeuch_worker
