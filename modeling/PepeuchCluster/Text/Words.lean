import Mathlib.Data.List.Basic

namespace Words

variable {α : Type} {p : α → Bool}

/-- What is decided of the members of a list one after the other. -/
theorem forall_mem_of_all {holds : α → Prop} [DecidablePred holds] {text : List α}
    (h : text.all (fun c => decide (holds c)) = true) : ∀ c ∈ text, holds c := by
  simpa using h

instance lawfulBEq : LawfulBEq (List Char) := inferInstance

/-- The nonempty pieces between separators. -/
def words (p : α → Bool) (text : List α) : List (List α) :=
  (text.splitOnP p).filter fun word => !word.isEmpty

theorem not_of_mem_splitOnP {text word : List α} (h : word ∈ text.splitOnP p) :
    ∀ c ∈ word, p c = false := by
  induction text generalizing word with
  | nil =>
    obtain rfl := List.mem_singleton.mp (List.splitOnP_nil (p := p) ▸ h)
    simp
  | cons c text ih =>
    rw [List.splitOnP_cons_eq_if_modifyHead] at h
    by_cases hc : p c = true
    · rw [if_pos hc] at h
      obtain rfl | h := List.mem_cons.mp h
      · simp
      · exact ih h
    · rw [if_neg hc] at h
      obtain ⟨first, rest, hsplit⟩ := List.exists_cons_of_ne_nil (List.splitOnP_ne_nil p text)
      rw [hsplit, List.modifyHead_cons] at h
      obtain rfl | h := List.mem_cons.mp h
      · intro d hd
        obtain rfl | hd := List.mem_cons.mp hd
        · simpa using hc
        · exact ih (hsplit ▸ List.mem_cons_self) d hd
      · exact ih (hsplit ▸ List.mem_cons_of_mem _ h)

theorem not_mem_of_mem_splitOn [DecidableEq α] {a : α} {text word : List α}
    (h : word ∈ text.splitOn a) : a ∉ word := by
  rw [List.splitOn_eq_splitOnP] at h
  intro ha
  simpa using not_of_mem_splitOnP h a ha

theorem length_le_of_mem_splitOnP {text word : List α} (h : word ∈ text.splitOnP p) :
    word.length ≤ text.length := by
  induction text generalizing word with
  | nil =>
    obtain rfl := List.mem_singleton.mp (List.splitOnP_nil (p := p) ▸ h)
    exact Nat.le_refl _
  | cons c text ih =>
    rw [List.splitOnP_cons_eq_if_modifyHead] at h
    by_cases hc : p c = true
    · rw [if_pos hc] at h
      obtain rfl | h := List.mem_cons.mp h
      · exact Nat.zero_le _
      · exact Nat.le_trans (ih h) (Nat.le_succ _)
    · rw [if_neg hc] at h
      obtain ⟨first, rest, hsplit⟩ := List.exists_cons_of_ne_nil (List.splitOnP_ne_nil p text)
      rw [hsplit, List.modifyHead_cons] at h
      obtain rfl | h := List.mem_cons.mp h
      · exact Nat.succ_le_succ (ih (hsplit ▸ List.mem_cons_self))
      · exact Nat.le_trans (ih (hsplit ▸ List.mem_cons_of_mem _ h)) (Nat.le_succ _)

@[simp] theorem words_nil : words p [] = [] := by simp [words, List.splitOnP_nil]

/-- Words are split at a separator. -/
theorem words_append_cons {c : α} (hc : p c = true) (text rest : List α) :
    words p (text ++ c :: rest) = words p text ++ words p rest := by
  rw [words, List.splitOnP_append_cons text rest hc, List.filter_append]
  rfl

theorem words_cons {c : α} (hc : p c = true) (text : List α) :
    words p (c :: text) = words p text := by
  simpa using words_append_cons hc [] text

/-- A text without separators is one word. -/
theorem words_of_forall {text : List α} (hne : text ≠ []) (h : ∀ c ∈ text, p c = false) :
    words p text = [text] := by
  rw [words, List.splitOnP_eq_singleton h]
  simp [hne]

theorem splitOnP_append_left {text : List α} (h : ∀ c ∈ text, p c = false) (rest : List α) :
    (text ++ rest).splitOnP p = (rest.splitOnP p).modifyHead (text ++ ·) := by
  induction text with
  | nil =>
    obtain ⟨first, more, hsplit⟩ := List.exists_cons_of_ne_nil (List.splitOnP_ne_nil p rest)
    rw [List.nil_append, hsplit]
    rfl
  | cons c text ih =>
    obtain ⟨hc, htext⟩ := List.forall_mem_cons.mp h
    rw [List.cons_append, List.splitOnP_cons_eq_if_modifyHead, if_neg (by simp [hc]), ih htext,
      List.modifyHead_modifyHead]
    rfl

section Images

variable {β : Type} {q : β → Bool} {f : α → List β}

/-- An image in which separators stay and nothing else becomes one is split where the text is. -/
theorem splitOnP_flatMap (hkept : ∀ c, p c = true → ∃ d, f c = [d] ∧ q d = true)
    (hplain : ∀ c, p c = false → ∀ d ∈ f c, q d = false) (text : List α) :
    (text.flatMap f).splitOnP q = (text.splitOnP p).map (List.flatMap f) := by
  induction text with
  | nil => rfl
  | cons c text ih =>
    rw [List.flatMap_cons, List.splitOnP_cons_eq_if_modifyHead]
    by_cases hc : p c = true
    · obtain ⟨d, hd, hq⟩ := hkept c hc
      rw [if_pos hc, hd, List.singleton_append, List.splitOnP_cons_eq_if_modifyHead, if_pos hq, ih]
      rfl
    · rw [if_neg hc, splitOnP_append_left (hplain c (by simpa using hc)), ih]
      obtain ⟨first, more, hsplit⟩ := List.exists_cons_of_ne_nil (List.splitOnP_ne_nil p text)
      rw [hsplit]
      simp

theorem words_flatMap (hkept : ∀ c, p c = true → ∃ d, f c = [d] ∧ q d = true)
    (hplain : ∀ c, p c = false → ∀ d ∈ f c, q d = false) (hne : ∀ c, f c ≠ []) (text : List α) :
    words q (text.flatMap f) = (words p text).map (List.flatMap f) := by
  rw [words, splitOnP_flatMap hkept hplain, List.filter_map, words]
  congr 2
  funext word
  cases word with
  | nil => rfl
  | cons c word => simp [hne c]

end Images

end Words
