import PepeuchCluster.Json.RoundTrip

/-! ### The bytes of a canonical text -/

namespace Json

/-- A text without the NUL character. -/
def NoNul (text : List Char) : Prop := ∀ c ∈ text, c.toNat ≠ 0

instance (text : List Char) : Decidable (NoNul text) :=
  inferInstanceAs (Decidable (∀ c ∈ text, c.toNat ≠ 0))

/-- The bytes of a text are read as the text. -/
theorem fromUTF8_flatMap (text : String) :
    String.fromUTF8? (text.toList.flatMap String.utf8EncodeChar).toByteArray = some text := by
  have hbytes : (text.toList.flatMap String.utf8EncodeChar).toByteArray = text.toByteArray := by
    rw [← String.utf8Encode_toList, List.utf8Encode]
  rw [hbytes, String.fromUTF8?, dif_pos text.isValidUTF8]
  rfl

section Texts

variable {text other : List Char}

theorem NoNul.append (h : NoNul text) (h' : NoNul other) : NoNul (text ++ other) :=
  List.forall_mem_append.mpr ⟨h, h'⟩

theorem NoNul.cons {c : Char} (hc : c.toNat ≠ 0) (h : NoNul text) : NoNul (c :: text) :=
  List.forall_mem_cons.mpr ⟨hc, h⟩

theorem noNul_nil : NoNul [] := List.forall_mem_nil _

theorem noNul_singleton {c : Char} (hc : c.toNat ≠ 0) : NoNul [c] := .cons hc noNul_nil

theorem noNul_digits (h : ∀ c ∈ text, c.isDigit = true) : NoNul text := by
  intro c hc hzero
  have hdigit := h c hc
  have hnul : c = Char.ofNat 0 := by rw [← hzero, Char.ofNat_toNat]
  rw [hnul] at hdigit
  cases hdigit

theorem noNul_escape (c : Char) : NoNul (escape c) := by
  have hshort : ∀ {d : Char}, d.toNat ≠ 0 → NoNul ['\\', d] :=
    fun hd => .cons (by decide) (noNul_singleton hd)
  have hhex : ∀ {n : Nat}, n < 16 → (hexDigit n).toNat ≠ 0 := by
    intro n hn
    revert n
    decide
  unfold escape
  split_ifs with _ _ _ _ _ _ _ hcontrol
  · exact hshort (by decide)
  · exact hshort (by decide)
  · exact hshort (by decide)
  · exact hshort (by decide)
  · exact hshort (by decide)
  · exact hshort (by decide)
  · exact hshort (by decide)
  · exact .cons (by decide) (.cons (by decide) (.cons (by decide) (.cons (by decide)
      (.cons (hhex (by omega)) (noNul_singleton (hhex (by omega)))))))
  · exact noNul_singleton (by omega)

theorem noNul_renderString (s : String) : NoNul (renderString s) := by
  have htext : NoNul (s.toList.flatMap escape) := by
    intro c hc
    obtain ⟨d, _, hescape⟩ := List.mem_flatMap.mp hc
    exact noNul_escape d c hescape
  exact (NoNul.cons (by decide) htext).append (noNul_singleton (by decide))

theorem noNul_renderNumber (n : Number) : NoNul (renderNumber n) := by
  have hsign : ∀ negative, NoNul (renderSign negative) := by
    rintro (_ | _)
    · exact noNul_nil
    · exact noNul_singleton (by decide)
  cases n with
  | int z => exact (hsign _).append (noNul_digits fun _ => Binary64.digit_of_mem_toDigits _)
  | float x =>
    obtain ⟨hwhole, _, _, hfraction, hexponent⟩ := x.literal_wellFormed
    refine (((hsign _).append (noNul_digits hwhole)).append ?_).append ?_
    · unfold renderFraction
      split
      · exact noNul_nil
      · exact .cons (by decide) (noNul_digits hfraction)
    · cases hcase : x.literal.exponent with
      | none => exact noNul_nil
      | some exponent =>
        obtain ⟨negative, digits⟩ := exponent
        have hdigits := noNul_digits (hexponent negative digits hcase).2
        refine .cons (by decide) (.cons ?_ hdigits)
        cases negative <;> decide

theorem noNul_joinItems {items : List (List Char)} (h : ∀ item ∈ items, NoNul item) :
    NoNul (joinItems items) := by
  induction items with
  | nil => exact noNul_nil
  | cons item rest ih =>
    obtain ⟨hitem, hrest⟩ := List.forall_mem_cons.mp h
    cases rest with
    | nil => exact hitem
    | cons other rest => exact hitem.append (.cons (by decide) (ih hrest))

end Texts

mutual

/-- A canonical text has no NUL: control characters are escaped. -/
theorem noNul_render : ∀ j : Json, NoNul (render j)
  | .null => by
    rw [render, NoNul]
    simp
  | .bool true => by
    rw [render, NoNul]
    simp
  | .bool false => by
    rw [render, NoNul]
    simp
  | .number n => by
    rw [render]
    exact noNul_renderNumber n
  | .str s => by
    rw [render]
    exact noNul_renderString s
  | .arr items => by
    rw [render]
    exact (NoNul.cons (by decide) (noNul_joinItems (noNul_renderItems items))).append
      (noNul_singleton (by decide))
  | .obj fields => by
    have hfields : ∀ item ∈ (sortFields (renderFields fields)).map renderField, NoNul item :=
      List.forall_mem_map.mpr fun field hfield =>
        (noNul_renderString field.1).append
          (.cons (by decide) (noNul_renderFields fields field (mem_sortFields.mp hfield)))
    rw [render]
    exact (NoNul.cons (by decide) (noNul_joinItems hfields)).append (noNul_singleton (by decide))

theorem noNul_renderItems : ∀ items : List Json, ∀ text ∈ renderItems items, NoNul text
  | [] => List.forall_mem_nil _
  | item :: rest => by
    rw [renderItems]
    exact List.forall_mem_cons.mpr ⟨noNul_render item, noNul_renderItems rest⟩

theorem noNul_renderFields :
    ∀ fields : List (String × Json), ∀ field ∈ renderFields fields, NoNul field.2
  | [] => List.forall_mem_nil _
  | (_, value) :: rest => by
    rw [renderFields]
    exact List.forall_mem_cons.mpr ⟨noNul_render value, noNul_renderFields rest⟩

end

/-- A canonical text begins with a character of ASCII. -/
theorem StartsValue.ascii {c : Char} (h : StartsValue c) : c.toNat < 128 := by
  obtain rfl | rfl | rfl | rfl | rfl | rfl | rfl | h := h
  · decide
  · decide
  · decide
  · decide
  · decide
  · decide
  · decide
  · have hlast : c.toNat ≤ 57 := by
      simp only [Char.isDigit, Bool.and_eq_true, decide_eq_true_eq] at h
      exact h.2
    omega

/-- A character that is not NUL takes no zero byte. -/
theorem utf8EncodeChar_ne_zero {c : Char} (h : c.toNat ≠ 0) :
    ∀ byte ∈ String.utf8EncodeChar c, byte ≠ 0 := by
  have hvalue : c.val.toNat ≠ 0 := h
  have hbyte : ∀ {n : Nat}, n % 256 ≠ 0 → UInt8.ofNat n ≠ 0 := by
    intro n hn hzero
    have hnat := congrArg UInt8.toNat hzero
    rw [UInt8.toNat_ofNat'] at hnat
    exact hn hnat
  unfold String.utf8EncodeChar
  dsimp only
  split_ifs with hone htwo hthree
  · exact List.forall_mem_singleton.mpr (hbyte (by omega))
  · simp only [List.forall_mem_cons]
    exact ⟨hbyte (by omega), hbyte (by omega), List.forall_mem_nil _⟩
  · simp only [List.forall_mem_cons]
    exact ⟨hbyte (by omega), hbyte (by omega), hbyte (by omega), List.forall_mem_nil _⟩
  · simp only [List.forall_mem_cons]
    exact ⟨hbyte (by omega), hbyte (by omega), hbyte (by omega), hbyte (by omega),
      List.forall_mem_nil _⟩

end Json
