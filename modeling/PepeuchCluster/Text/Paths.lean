import Mathlib.Data.List.Infix
import PepeuchCluster.Text.Words

/-- `PurePosixPath`: how many slashes its root has, and its parts. -/
structure PurePosixPath where
  root : Nat
  parts : List (List Char)
deriving DecidableEq

namespace PurePosixPath

/-- Two slashes at the start stay two, three or more become one. -/
def splitroot : List Char → Nat × List Char
  | '/' :: '/' :: '/' :: rest => (1, '/' :: '/' :: rest)
  | '/' :: '/' :: rest => (2, rest)
  | '/' :: rest => (1, rest)
  | text => (0, text)

/-- Empty parts and single dots are left out. -/
def parse (text : List Char) : PurePosixPath :=
  ⟨(splitroot text).1, ((splitroot text).2.splitOn '/').filter fun part => part ≠ [] ∧ part ≠ ['.']⟩

theorem splitroot_one {rest : List Char} (h : rest.head? ≠ some '/') :
    splitroot ('/' :: rest) = (1, rest) := by
  cases rest with
  | nil => rfl
  | cons c tail =>
    have hc : c ≠ '/' := by simpa using h
    simp [splitroot, hc]

theorem splitroot_two {rest : List Char} (h : rest.head? ≠ some '/') :
    splitroot ('/' :: '/' :: rest) = (2, rest) := by
  cases rest with
  | nil => rfl
  | cons c tail =>
    have hc : c ≠ '/' := by simpa using h
    simp [splitroot, hc]

def str (path : PurePosixPath) : List Char :=
  if path.root = 0 ∧ path.parts = [] then ['.']
  else List.replicate path.root '/' ++ List.intercalate ['/'] path.parts

/-- `self in other.parents`. -/
def Above (path other : PurePosixPath) : Prop :=
  path.root = other.root ∧ path.parts <+: other.parts ∧ path.parts ≠ other.parts

instance (path other : PurePosixPath) : Decidable (path.Above other) := by
  unfold Above
  infer_instance

/-- One is the other, or is inside it. -/
def Overlap (path other : PurePosixPath) : Prop :=
  path = other ∨ path.Above other ∨ other.Above path

instance (path other : PurePosixPath) : Decidable (path.Overlap other) := by
  unfold Overlap
  infer_instance

end PurePosixPath

/-- The components of a path as the kernel reads it, where any run of slashes is one. -/
def linux_components (text : List Char) : List (List Char) :=
  (text.splitOn '/').filter fun part => part ≠ []

/-- As the kernel reads them, one path is the other or leads to it. -/
def LinuxOverlap (text other : List Char) : Prop :=
  linux_components text <+: linux_components other ∨
    linux_components other <+: linux_components text

namespace PurePosixPath

theorem overlap_iff {path other : PurePosixPath} : path.Overlap other ↔
    path.root = other.root ∧ (path.parts <+: other.parts ∨ other.parts <+: path.parts) := by
  obtain ⟨root, parts⟩ := path
  obtain ⟨root', parts'⟩ := other
  unfold Overlap Above
  dsimp only
  by_cases hparts : parts = parts'
  · subst hparts
    simp
  · constructor
    · rintro (h | ⟨hroot, hle, _⟩ | ⟨hroot, hle, _⟩)
      · exact absurd (PurePosixPath.mk.inj h).2 hparts
      · exact ⟨hroot, .inl hle⟩
      · exact ⟨hroot.symm, .inr hle⟩
    · rintro ⟨hroot, hle | hle⟩
      · exact .inr (.inl ⟨hroot, hle, hparts⟩)
      · exact .inr (.inr ⟨hroot.symm, hle, Ne.symm hparts⟩)

theorem components_slash (text : List Char) :
    linux_components ('/' :: text) = linux_components text := by
  have hsplit : ('/' :: text).splitOn '/' = [] :: text.splitOn '/' := by
    simpa using List.splitOn_append_cons_self (a := '/') [] text
  simp [linux_components, hsplit]

theorem components_replicate (count : Nat) (text : List Char) :
    linux_components (List.replicate count '/' ++ text) = linux_components text := by
  induction count with
  | zero => rfl
  | succ count ih => rw [List.replicate_succ, List.cons_append, components_slash, ih]

/-- Parts that are joined by slashes are the components. -/
theorem components_intercalate {parts : List (List Char)} (hslash : ∀ part ∈ parts, '/' ∉ part)
    (hne : ∀ part ∈ parts, part ≠ []) :
    linux_components (List.intercalate ['/'] parts) = parts := by
  by_cases hparts : parts = []
  · subst hparts
    rfl
  · rw [linux_components, List.splitOn_intercalate '/' hslash hparts, List.filter_eq_self]
    exact fun part hpart => decide_eq_true (hne part hpart)

theorem mem_parts {text part : List Char} (h : part ∈ (parse text).parts) :
    '/' ∉ part ∧ part ≠ [] := by
  obtain ⟨hpart, hkept⟩ := List.mem_filter.mp h
  exact ⟨Words.not_mem_of_mem_splitOn hpart, (of_decide_eq_true hkept).1⟩

/-- The components of a path that is its own text are its parts. -/
theorem components_of_str {text : List Char} (h : (parse text).str = text)
    (hroot : (parse text).root ≠ 0) :
    linux_components text = (parse text).parts := by
  rw [str, if_neg fun hzero => hroot hzero.1] at h
  have hcomponents : linux_components (['/'].intercalate (parse text).parts) = (parse text).parts :=
    components_intercalate (fun part hpart => (mem_parts hpart).1) fun part hpart =>
      (mem_parts hpart).2
  rw [← components_replicate (parse text).root, h] at hcomponents
  exact hcomponents

theorem root_ne_zero {text : List Char} (h : text.head? = some '/') : (parse text).root ≠ 0 := by
  obtain ⟨rest, rfl⟩ : ∃ rest, text = '/' :: rest := by
    cases text with
    | nil => simp at h
    | cons c rest => exact ⟨rest, by simpa using h⟩
  rw [parse]
  dsimp only
  unfold splitroot
  split
  · exact Nat.one_ne_zero
  · exact Nat.succ_ne_zero 1
  · exact Nat.one_ne_zero
  · next hnot => exact absurd rfl (hnot rest)

end PurePosixPath
