import PepeuchCluster.Digest.Sha256
import PepeuchCluster.Json.Canonical

/-! ### The length of a canonical text in bytes -/

namespace Json

/-- How many bytes characters take. -/
def utf8_length (text : List Char) : Nat := (text.flatMap String.utf8EncodeChar).length

theorem utf8_length_append (text other : List Char) :
    utf8_length (text ++ other) = utf8_length text + utf8_length other := by
  rw [utf8_length, List.flatMap_append, List.length_append, utf8_length, utf8_length]

theorem utf8_length_cons (c : Char) (text : List Char) :
    utf8_length (c :: text) = c.utf8Size + utf8_length text := by
  rw [utf8_length, List.flatMap_cons, List.length_append, String.length_utf8EncodeChar, utf8_length]

theorem utf8_length_joinItems_le {items : List (List Char)} {room : Nat}
    (h : ∀ item ∈ items, utf8_length item ≤ room) :
    utf8_length (joinItems items) ≤ items.length * (room + 1) := by
  induction items with
  | nil => exact Nat.zero_le _
  | cons item rest ih =>
    obtain ⟨hitem, hrest⟩ := List.forall_mem_cons.mp h
    cases rest with
    | nil =>
      rw [joinItems, List.length_singleton]
      omega
    | cons other rest =>
      have hjoin := ih hrest
      have hcomma : (',' : Char).utf8Size = 1 := rfl
      rw [joinItems, utf8_length_append, utf8_length_cons, List.length_cons, Nat.succ_mul, hcomma]
      · omega
      · exact List.cons_ne_nil _ _

theorem mem_renderFields {fields : List (String × Json)} {field : String × List Char}
    (h : field ∈ renderFields fields) :
    ∃ value, (field.1, value) ∈ fields ∧ field.2 = render value := by
  induction fields with
  | nil => cases h
  | cons first rest ih =>
    obtain ⟨key, value⟩ := first
    rw [renderFields] at h
    obtain rfl | h := List.mem_cons.mp h
    · exact ⟨value, List.mem_cons_self, rfl⟩
    · obtain ⟨value, hvalue, hrender⟩ := ih h
      exact ⟨value, List.mem_cons_of_mem _ hvalue, hrender⟩

/-- A dictionary takes no more than its fields. -/
theorem utf8_length_obj_le (key room : Nat) {fields : List (String × Json)}
    (h : ∀ field ∈ fields, utf8_length (renderString field.1) ≤ key ∧
      utf8_length (render field.2) ≤ room) :
    utf8_length (render (.obj fields)) ≤ fields.length * (key + room + 2) + 2 := by
  have hitems : ∀ item ∈ (sortFields (renderFields fields)).map renderField,
      utf8_length item ≤ key + room + 1 := by
    refine List.forall_mem_map.mpr fun field hfield => ?_
    obtain ⟨value, hvalue, hrender⟩ := mem_renderFields (mem_sortFields.mp hfield)
    obtain ⟨hkey, hroom⟩ := h _ hvalue
    have hcolon : (':' : Char).utf8Size = 1 := rfl
    rw [renderField, utf8_length_append, utf8_length_cons, hrender, hcolon]
    dsimp only at hkey hroom
    omega
  have hlength : ((sortFields (renderFields fields)).map renderField).length = fields.length := by
    rw [List.length_map, (sortFields_perm _).length_eq, ← List.length_map (f := Prod.fst),
      renderFields_map_fst, List.length_map]
  have hjoin := utf8_length_joinItems_le hitems
  have hbraces : ('{' : Char).utf8Size = 1 ∧ utf8_length ['}'] = 1 := ⟨rfl, rfl⟩
  rw [hlength] at hjoin
  rw [render, utf8_length_append, utf8_length_cons, hbraces.1, hbraces.2]
  have hsplit : key + room + 1 + 1 = key + room + 2 := rfl
  rw [hsplit] at hjoin
  omega

theorem hex_range {c : Char} (h : Sha256.isHex c = true) :
    48 ≤ c.toNat ∧ c.toNat ≤ 102 ∧ c.toNat ≠ 92 := by
  simp only [Sha256.isHex, Char.isDigit, Bool.or_eq_true, Bool.and_eq_true, decide_eq_true_eq] at h
  obtain ⟨hlow, hhigh⟩ | ⟨hlow, hhigh⟩ := h
  · have hlow : 48 ≤ c.toNat := hlow
    have hhigh : c.toNat ≤ 57 := hhigh
    omega
  · have hlow : 97 ≤ c.toNat := hlow
    have hhigh : c.toNat ≤ 102 := hhigh
    omega

theorem escape_hex {c : Char} (h : Sha256.isHex c = true) : escape c = [c] := by
  obtain ⟨hlow, hhigh, hslash⟩ := hex_range h
  have hne : ∀ {d : Char}, d.toNat < 48 ∨ d.toNat = 92 → c ≠ d := by
    rintro d hd rfl
    omega
  rw [escape, if_neg (hne (.inl (by decide))), if_neg (hne (.inr (by decide))),
    if_neg (hne (.inl (by decide))), if_neg (hne (.inl (by decide))),
      if_neg (hne (.inl (by decide))), if_neg (by omega), if_neg (by omega), if_neg (by omega)]

/-- Hexadecimal digits take a byte each. -/
theorem utf8_length_digits {digits : List Char} (h : ∀ c ∈ digits, Sha256.isHex c = true) :
    utf8_length digits = digits.length := by
  induction digits with
  | nil => rfl
  | cons c rest ih =>
    obtain ⟨hc, hrest⟩ := List.forall_mem_cons.mp h
    have hsize : c.utf8Size = 1 := by
      obtain ⟨_, hhigh, _⟩ := hex_range hc
      exact Char.utf8Size_eq_one_iff.mpr
        (by rw [UInt32.le_iff_toNat_le]; exact hhigh.trans (by decide))
    rw [utf8_length_cons, ih hrest, hsize, List.length_cons, Nat.add_comm]

theorem flatMap_escape_hex {digits : List Char} (h : ∀ c ∈ digits, Sha256.isHex c = true) :
    digits.flatMap escape = digits := by
  induction digits with
  | nil => rfl
  | cons c rest ih =>
    obtain ⟨hc, hrest⟩ := List.forall_mem_cons.mp h
    rw [List.flatMap_cons, escape_hex hc, ih hrest, List.singleton_append]

/-- A text of hexadecimal digits takes a byte a digit, and its quotes. -/
theorem utf8_length_hex {text : String} (h : ∀ c ∈ text.toList, Sha256.isHex c = true) :
    utf8_length (render (.str text)) = text.toList.length + 2 := by
  have hquote : ('"' : Char).utf8Size = 1 ∧ utf8_length ['"'] = 1 := ⟨rfl, rfl⟩
  rw [render, renderString, utf8_length_append, utf8_length_cons, flatMap_escape_hex h,
    utf8_length_digits h, hquote.1, hquote.2]
  omega

theorem isHex_toDigits {n : Nat} {c : Char} (h : c ∈ Nat.toDigits 10 n) :
    Sha256.isHex c = true := by
  rw [Sha256.isHex, Nat.isDigit_of_mem_toDigits (by decide) (by decide) h, Bool.true_or]

/-- A natural number takes a byte a digit. -/
theorem utf8_length_natural (n : Nat) :
    utf8_length (render (.number (.int n))) = (Nat.toDigits 10 n).length := by
  have hsign : decide ((n : Int) < 0) = false := decide_eq_false (by omega)
  rw [render, renderNumber, hsign, Int.natAbs_natCast]
  exact utf8_length_digits fun _ => isHex_toDigits

/-- A dictionary display takes no more than its fields. -/
theorem utf8_length_dict_le (key room : Nat) {fields : List (String × Json)}
    (h : ∀ field ∈ fields, utf8_length (renderString field.1) ≤ key ∧
      utf8_length (render field.2) ≤ room) :
    utf8_length (render (.dict fields)) ≤ fields.length * (key + room + 2) + 2 := by
  have hlength : (sortFields fields).length = fields.length := (sortFields_perm fields).length_eq
  rw [dict, ← hlength]
  exact utf8_length_obj_le key room fun field hfield => h field (mem_sortFields.mp hfield)

end Json
