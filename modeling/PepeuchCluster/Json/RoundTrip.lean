import PepeuchCluster.Json.Decode

namespace Json

/-- What can follow a value inside a canonical text: its end, or a delimiter. -/
def Delimited (rest : List Char) : Prop :=
  rest = [] ∨ ∃ c tail, rest = c :: tail ∧ (c = ',' ∨ c = ']' ∨ c = '}')

theorem delimited_cons {c : Char} (tail : List Char) (h : c = ',' ∨ c = ']' ∨ c = '}') :
    Delimited (c :: tail) :=
  Or.inr ⟨c, tail, rfl, h⟩

theorem hexQuad_low {n : Nat} (h : n < 32) :
    hexQuad '0' '0' (hexDigit (n / 16)) (hexDigit (n % 16)) = some n := by
  revert n
  decide

theorem parseString_quad_none {e f g h : Char} (rest : List Char) (hquad : hexQuad e f g h = none) :
    parseString ('\\' :: 'u' :: e :: f :: g :: h :: rest) = none := by
  unfold parseString
  split
  · simp_all
  · simp_all
  · simp_all
  · simp_all
  · next hshort heq =>
    simp only [List.cons.injEq, true_and] at heq
    obtain ⟨rfl, rfl⟩ := heq
    exact absurd rfl (hshort _ _ _ _ _ rfl)
  · next hescape heq =>
    simp only [List.cons.injEq] at heq
    obtain ⟨rfl, rfl⟩ := heq
    exact absurd rfl (hescape _ _ rfl)

/-- A Unicode escape outside the surrogates is one character, whatever follows. -/
theorem parseString_quad {a b c d : Char} {code : Nat} (hquad : hexQuad a b c d = some code)
    (hplain : code < 0xd800) (tail : List Char) :
    parseString ('\\' :: 'u' :: a :: b :: c :: d :: tail) =
      (parseString tail).map fun (text, rest) => (Char.ofNat code :: text, rest) := by
  have hhigh : ¬ (0xd800 ≤ code) := by omega
  conv_lhs => unfold parseString
  split
  · simp_all
  · simp_all
  · next heq =>
    simp only [List.cons.injEq, true_and] at heq
    obtain ⟨rfl, rfl, rfl, rfl, rfl⟩ := heq
    rw [hquad]
    split
    · next hhigh hlow =>
      obtain rfl := Option.some.inj hhigh
      rw [if_neg (by omega), if_neg (by omega)]
    · next e f g h rest _ _ hnone =>
      have hlow : hexQuad e f g h = none := by
        cases hlow : hexQuad e f g h with
        | none => rfl
        | some low => exact absurd hlow (hnone code low rfl)
      rw [parseString_quad_none rest hlow]
      rfl
  · next heq =>
    simp only [List.cons.injEq, true_and] at heq
    obtain ⟨rfl, rfl, rfl, rfl, rfl⟩ := heq
    simp [hquad, hhigh]
  · next hshort heq =>
    simp only [List.cons.injEq, true_and] at heq
    obtain ⟨rfl, rfl⟩ := heq
    exact absurd rfl (hshort _ _ _ _ _ rfl)
  · next hescape heq =>
    simp only [List.cons.injEq] at heq
    obtain ⟨rfl, rfl⟩ := heq
    exact absurd rfl (hescape _ _ rfl)

theorem parseString_plain {c : Char} (hquote : c ≠ '"') (hslash : c ≠ '\\')
    (hcontrol : ¬ c.toNat < 32) (tail : List Char) :
    parseString (c :: tail) = (parseString tail).map fun (text, rest) => (c :: text, rest) := by
  conv_lhs => unfold parseString
  split <;> simp_all

theorem parseString_short {c plain : Char} (hshort : shortEscape c = some plain) (hu : c ≠ 'u')
    (tail : List Char) :
    parseString ('\\' :: c :: tail) = (parseString tail).map fun (text, rest) =>
      (plain :: text, rest) := by
  conv_lhs => unfold parseString
  split
  · simp_all
  · simp_all
  · simp_all
  · simp_all
  · simp_all
  · next hescape heq =>
    simp only [List.cons.injEq] at heq
    obtain ⟨rfl, rfl⟩ := heq
    exact absurd rfl (hescape _ _ rfl)

theorem parseString_escape (c : Char) (tail : List Char) :
    parseString (escape c ++ tail) = (parseString tail).map fun (text, rest) =>
      (c :: text, rest) := by
  unfold escape
  split_ifs with h1 h2 h3 h4 h5 h6 h7 h8
  · subst h1; exact parseString_short rfl (by decide) tail
  · subst h2; exact parseString_short rfl (by decide) tail
  · subst h3; exact parseString_short rfl (by decide) tail
  · subst h4; exact parseString_short rfl (by decide) tail
  · subst h5; exact parseString_short rfl (by decide) tail
  · have hc : Char.ofNat 8 = c := by rw [← h6, Char.ofNat_toNat]
    rw [← hc]
    exact parseString_short rfl (by decide) tail
  · have hc : Char.ofNat 12 = c := by rw [← h7, Char.ofNat_toNat]
    rw [← hc]
    exact parseString_short rfl (by decide) tail
  · have h := parseString_quad (hexQuad_low h8) (by omega) tail
    rw [Char.ofNat_toNat] at h
    exact h
  · exact parseString_plain h1 h2 h8 tail

theorem parseString_render (s : List Char) (rest : List Char) :
    parseString (s.flatMap escape ++ '"' :: rest) = some (s, rest) := by
  induction s with
  | nil => rfl
  | cons c s ih => simp [List.flatMap_cons, List.append_assoc, parseString_escape, ih]

theorem spanDigits_append {digits rest : List Char} (hdigits : ∀ c ∈ digits, c.isDigit = true)
    (hrest : ∀ c tail, rest = c :: tail → c.isDigit = false) :
    spanDigits (digits ++ rest) = (digits, rest) := by
  have htake : (digits ++ rest).takeWhile Char.isDigit = digits := by
    rw [List.takeWhile_append_of_pos hdigits]
    cases rest with
    | nil => simp
    | cons c tail => simp [hrest c tail rfl]
  have hdrop : (digits ++ rest).dropWhile Char.isDigit = rest := by
    rw [List.dropWhile_append_of_pos hdigits]
    cases rest with
    | nil => rfl
    | cons c tail => simp [hrest c tail rfl]
  rw [spanDigits, List.span_eq_takeWhile_dropWhile, htake, hdrop]

theorem parseWhole_append {whole rest : List Char} (hdigits : ∀ c ∈ whole, c.isDigit = true)
    (hne : whole ≠ []) (hzero : whole.head? = some '0' → whole = ['0'])
    (hrest : ∀ c tail, rest = c :: tail → c.isDigit = false) :
    parseWhole (whole ++ rest) = some (whole, rest) := by
  by_cases h : whole.head? = some '0'
  · rw [hzero h]
    rfl
  · have hspan := spanDigits_append hdigits hrest
    cases whole with
    | nil => exact absurd rfl hne
    | cons c whole =>
      have hc : c ≠ '0' := by simpa using h
      unfold parseWhole
      split
      · simp_all
      · rw [hspan]
        simp

theorem parseFraction_append {fraction rest : List Char}
    (hdigits : ∀ c ∈ fraction, c.isDigit = true)
    (hrest : ∀ c tail, rest = c :: tail → c.isDigit = false ∧ c ≠ '.') :
    parseFraction (renderFraction fraction ++ rest) = (fraction, rest) := by
  unfold renderFraction
  by_cases h : fraction = []
  · subst h
    cases rest with
    | nil => rfl
    | cons c tail =>
      have hc := (hrest c tail rfl).2
      unfold parseFraction
      split <;> simp_all
  · have hspan := spanDigits_append hdigits fun c tail heq => (hrest c tail heq).1
    simp only [if_neg h, List.cons_append, parseFraction, hspan]

theorem parseExponent_append {negative : Bool} {digits rest : List Char}
    (hdigits : ∀ c ∈ digits, c.isDigit = true) (hne : digits ≠ [])
    (hrest : ∀ c tail, rest = c :: tail → c.isDigit = false) :
    parseExponent (renderExponent (some (negative, digits)) ++ rest) =
      (some (negative, digits), rest) := by
  have hspan := spanDigits_append hdigits hrest
  cases negative <;> simp [parseExponent, renderExponent, hspan, hne]

theorem parseExponent_none {rest : List Char}
    (hrest : ∀ c tail, rest = c :: tail → c ≠ 'e' ∧ c ≠ 'E') :
    parseExponent rest = (none, rest) := by
  cases rest with
  | nil => rfl
  | cons c tail =>
    obtain ⟨h1, h2⟩ := hrest c tail rfl
    simp [parseExponent, h1, h2]

/-- The characters that end a number inside a canonical text. -/
theorem Delimited.not_numeric {rest : List Char} (h : Delimited rest) {c : Char} {tail : List Char}
    (heq : rest = c :: tail) : c.isDigit = false ∧ c ≠ '.' ∧ c ≠ 'e' ∧ c ≠ 'E' := by
  rcases h with h | ⟨d, u, h, hd⟩
  · simp [h] at heq
  · obtain ⟨rfl, rfl⟩ := List.cons.inj (h.symm.trans heq)
    rcases hd with rfl | rfl | rfl <;> decide

theorem parseSign_append (negative : Bool) {body : List Char} (hbody : body.head? ≠ some '-') :
    parseSign (renderSign negative ++ body) = (negative, body) := by
  cases negative with
  | true => rfl
  | false =>
    cases body with
    | nil => rfl
    | cons c tail =>
      have hc : c ≠ '-' := by simpa using hbody
      simp only [renderSign, Bool.false_eq_true, if_false, List.nil_append]
      unfold parseSign
      split <;> simp_all

theorem head_ne_of_digit {whole rest : List Char} {c : Char}
    (hdigits : ∀ d ∈ whole, d.isDigit = true) (hne : whole ≠ []) (hc : c.isDigit = false) :
    (whole ++ rest).head? ≠ some c := by
  cases whole with
  | nil => exact absurd rfl hne
  | cons d whole =>
    have hd := hdigits d (by simp)
    simp only [List.cons_append, List.head?_cons, ne_eq, Option.some.injEq]
    rintro rfl
    simp [hd] at hc

theorem parseNumber_int (z : Int) {rest : List Char} (hrest : Delimited rest) :
    parseNumber (renderNumber (.int z) ++ rest) = some (.number (.int z), rest) := by
  have hdigits : ∀ c ∈ Nat.toDigits 10 z.natAbs, c.isDigit = true := Binary64.digit_of_mem_toDigits
  have hhead : (Nat.toDigits 10 z.natAbs ++ rest).head? ≠ some '-' :=
    head_ne_of_digit hdigits Nat.toDigits_ne_nil (by decide)
  have hsign := parseSign_append (decide (z < 0)) hhead
  have hwhole := parseWhole_append hdigits Nat.toDigits_ne_nil
    (fun h => by
      by_cases hz : z.natAbs = 0
      · rw [hz]; rfl
      · exact absurd h (Binary64.toDigits_head_ne_zero hz))
    (fun c tail heq => (hrest.not_numeric heq).1)
  have hfraction : parseFraction rest = ([], rest) :=
    parseFraction_append (List.forall_mem_nil _)
      (fun c tail heq => ⟨(hrest.not_numeric heq).1, (hrest.not_numeric heq).2.1⟩)
  have hexponent : parseExponent rest = (none, rest) :=
    parseExponent_none fun c tail heq => (hrest.not_numeric heq).2.2
  unfold parseNumber renderNumber
  simp only [List.append_assoc, hsign, hwhole, hfraction, hexponent, Option.bind_eq_bind,
    Option.bind_some, Nat.ofDigitChars_ten_toDigits, and_self, if_true, Option.pure_def]
  by_cases hz : z < 0
  · simp only [hz, decide_true, if_true]
    congr 4
    omega
  · simp only [hz, decide_false, Bool.false_eq_true, if_false]
    congr 4
    omega

theorem parseNumber_literal {literal : Literal} (hwell : literal.WellFormed) {x : Binary64}
    (hvalue : literal.toFloat = some x) (hfloat : literal.fraction ≠ [] ∨ literal.exponent ≠ none)
    {rest : List Char} (hrest : Delimited rest) :
    parseNumber (renderLiteral literal ++ rest) = some (.number (.float x), rest) := by
  obtain ⟨negative, whole, fraction, exponent⟩ := literal
  obtain ⟨hdigits, hne, hzero, hfraction, hexponent⟩ := hwell
  dsimp only at hdigits hne hzero hfraction hexponent hfloat
  have htail : parseExponent (renderExponent exponent ++ rest) = (exponent, rest) := by
    cases exponent with
    | none => exact parseExponent_none fun c tail heq => (hrest.not_numeric heq).2.2
    | some pair =>
      obtain ⟨hdne, hd⟩ := hexponent pair.1 pair.2 rfl
      exact parseExponent_append hd hdne fun c tail heq => (hrest.not_numeric heq).1
  have hfollow : ∀ c tail, renderExponent exponent ++ rest = c :: tail →
      c.isDigit = false ∧ c ≠ '.' := by
    intro c tail heq
    cases exponent with
    | none => exact ⟨(hrest.not_numeric heq).1, (hrest.not_numeric heq).2.1⟩
    | some pair =>
      obtain ⟨rfl, _⟩ := List.cons.inj heq
      decide
  have hpoint : ∀ c tail, renderFraction fraction ++ (renderExponent exponent ++ rest) = c :: tail →
      c.isDigit = false := by
    intro c tail heq
    unfold renderFraction at heq
    by_cases hf : fraction = []
    · rw [if_pos hf, List.nil_append] at heq
      exact (hfollow c tail heq).1
    · rw [if_neg hf] at heq
      obtain ⟨rfl, _⟩ := List.cons.inj heq
      decide
  have hhead : (whole ++ (renderFraction fraction ++ (renderExponent exponent ++ rest))).head? ≠
      some '-' :=
    head_ne_of_digit hdigits hne (by decide)
  have hsign := parseSign_append negative hhead
  unfold parseNumber renderLiteral
  dsimp only
  simp only [List.append_assoc]
  rw [hsign]
  simp only [parseWhole_append hdigits hne hzero hpoint,
    parseFraction_append hfraction hfollow, htail, Option.bind_eq_bind, Option.bind_some, hvalue,
      Option.pure_def]
  rw [if_neg]
  rintro ⟨rfl, rfl⟩
  simp at hfloat

theorem parseNumber_render (n : Number) {rest : List Char} (hrest : Delimited rest) :
    parseNumber (renderNumber n ++ rest) = some (.number n, rest) := by
  cases n with
  | int z => exact parseNumber_int z hrest
  | float x =>
    exact parseNumber_literal x.literal_wellFormed x.literal_toFloat
      (Binary64.layout_isFloat _ _ _) hrest

/-- The characters a canonical value can begin with. -/
def StartsValue (c : Char) : Prop :=
  c = 'n' ∨ c = 't' ∨ c = 'f' ∨ c = '"' ∨ c = '[' ∨ c = '{' ∨ c = '-' ∨ c.isDigit = true

theorem StartsValue.ne {c d : Char} (h : StartsValue c)
    (hd : d = ']' ∨ d = '}' ∨ isBlank d = true) : c ≠ d := by
  rintro rfl
  rcases h with rfl | rfl | rfl | rfl | rfl | rfl | rfl | h
  all_goals rcases hd with hd | hd | hd
  all_goals first
    | (revert hd; decide)
    | (subst hd; revert h; decide)
    | skip
  simp only [isBlank, Bool.or_eq_true, decide_eq_true_eq] at hd
  rcases hd with ((rfl | rfl) | rfl) | rfl <;> exact absurd h (by decide)

theorem renderSign_head (negative : Bool) {body : List Char}
    (hdigits : ∀ c ∈ body, c.isDigit = true) (hne : body ≠ []) (rest : List Char) :
    ∃ c tail, renderSign negative ++ (body ++ rest) = c :: tail ∧ (c = '-' ∨ c.isDigit = true) := by
  cases negative with
  | true => exact ⟨'-', _, rfl, Or.inl rfl⟩
  | false =>
    cases body with
    | nil => exact absurd rfl hne
    | cons c tail => exact ⟨c, tail ++ rest, rfl, Or.inr (hdigits c (by simp))⟩

theorem renderNumber_head (n : Number) :
    ∃ c tail, renderNumber n = c :: tail ∧ (c = '-' ∨ c.isDigit = true) := by
  cases n with
  | int z =>
    simpa [renderNumber] using renderSign_head (decide (z < 0)) Binary64.digit_of_mem_toDigits
      Nat.toDigits_ne_nil []
  | float x =>
    obtain ⟨hdigits, hne, _, _, _⟩ := x.literal_wellFormed
    simpa only [renderNumber, renderLiteral, List.append_assoc] using
      renderSign_head x.literal.negative hdigits hne _

theorem render_head (j : Json) : ∃ c tail, render j = c :: tail ∧ StartsValue c := by
  cases j with
  | null => exact ⟨'n', _, rfl, by simp [StartsValue]⟩
  | bool value => cases value <;> exact ⟨_, _, rfl, by simp [StartsValue]⟩
  | number n =>
    obtain ⟨c, tail, h, hc⟩ := renderNumber_head n
    refine ⟨c, tail, by rw [render]; exact h, ?_⟩
    rcases hc with hc | hc <;> simp [StartsValue, hc]
  | str s => exact ⟨'"', _, by rw [render, renderString]; rfl, by simp [StartsValue]⟩
  | arr items => exact ⟨'[', _, by rw [render]; rfl, by simp [StartsValue]⟩
  | obj fields => exact ⟨'{', _, by rw [render]; rfl, by simp [StartsValue]⟩

theorem skipBlanks_cons {c : Char} (h : isBlank c = false) (tail : List Char) :
    skipBlanks (c :: tail) = c :: tail := by
  simp [skipBlanks, h]

theorem skipBlanks_render (j : Json) (rest : List Char) :
    skipBlanks (render j ++ rest) = render j ++ rest := by
  obtain ⟨c, tail, h, hc⟩ := render_head j
  rw [h, List.cons_append]
  apply skipBlanks_cons
  by_contra hblank
  exact hc.ne (Or.inr (Or.inr (by simpa using hblank))) rfl

theorem parseValue_number {c : Char} (h : c = '-' ∨ c.isDigit = true) (fuel : Nat)
    (tail : List Char) :
    parseValue (fuel + 1) (c :: tail) = parseNumber (c :: tail) := by
  have hne : ∀ d, d ≠ '-' → d.isDigit = false → c ≠ d := by
    rintro d hd hdigit rfl
    rcases h with h | h
    · exact hd h
    · rw [h] at hdigit
      cases hdigit
  rw [parseValue]
  all_goals
    intro rest heq
    exact hne _ (by decide) (by decide) (List.cons.inj heq).1

theorem joinItems_head {items : List Json} (hne : items ≠ []) (rest : List Char) :
    ∃ c tail, joinItems (renderItems items) ++ rest = c :: tail ∧ StartsValue c := by
  cases items with
  | nil => exact absurd rfl hne
  | cons item items =>
    obtain ⟨c, tail, h, hc⟩ := render_head item
    cases items with
    | nil => exact ⟨c, tail ++ rest, by simp [renderItems, joinItems, h], hc⟩
    | cons second items =>
      exact ⟨c, _, by simp only [renderItems, joinItems, h, List.cons_append]; rfl, hc⟩

theorem parseValue_str (s : String) (fuel : Nat) (rest : List Char) :
    parseValue (fuel + 1) (renderString s ++ rest) = some (.str s, rest) := by
  have h := parseString_render s.toList rest
  simp only [renderString, List.cons_append, List.append_assoc, List.nil_append]
  rw [parseValue, h]
  simp

theorem parseValue_arr {items : List Json} (hne : items ≠ []) {fuel : Nat} {rest : List Char}
    (h : parseItems fuel (joinItems (renderItems items) ++ ']' :: rest) = some (items, rest)) :
    parseValue (fuel + 1) (render (.arr items) ++ rest) = some (.arr items, rest) := by
  obtain ⟨c, tail, htext, hc⟩ := joinItems_head hne (']' :: rest)
  have hblank : isBlank c = false := by
    by_contra hblank
    exact hc.ne (Or.inr (Or.inr (by simpa using hblank))) rfl
  have hclose : c ≠ ']' := hc.ne (Or.inl rfl)
  rw [htext] at h
  simp only [render, List.cons_append, List.append_assoc, List.nil_append, htext]
  rw [parseValue, skipBlanks_cons hblank]
  split
  · simp_all
  · rw [h]
    rfl

theorem joinFields_head {fields : List (String × List Char)} (hne : fields ≠ []) :
    ∃ tail, joinItems (fields.map renderField) = '"' :: tail := by
  cases fields with
  | nil => exact absurd rfl hne
  | cons field fields =>
    cases fields with
    | nil => exact
        ⟨_, by simp only [List.map, joinItems, renderField, renderString, List.cons_append]; rfl⟩
    | cons second fields =>
      exact
        ⟨_, by simp only [List.map, joinItems, renderField, renderString, List.cons_append]; rfl⟩

theorem parseValue_obj {fields : List (String × Json)} (hne : fields ≠ [])
    (hkeys : (fields.map Prod.fst).Pairwise (· < ·)) {fuel : Nat} {rest : List Char}
    (h : parseFields fuel (joinItems ((renderFields fields).map renderField) ++ '}' :: rest) =
      some (fields, rest)) :
    parseValue (fuel + 1) (render (.obj fields) ++ rest) = some (.obj fields, rest) := by
  have hne' : renderFields fields ≠ [] := by
    cases fields with
    | nil => exact absurd rfl hne
    | cons field fields => simp [renderFields]
  obtain ⟨tail, htext⟩ := joinFields_head hne'
  have hnodup : (fields.map Prod.fst).Nodup := hkeys.imp fun hlt => hlt.ne
  rw [htext, List.cons_append] at h
  simp only [render, sortFields_renderFields hkeys, htext, List.cons_append, List.append_assoc,
    List.nil_append]
  rw [parseValue, skipBlanks_cons (by decide)]
  split
  · next heq => exact absurd (List.cons.inj heq).1 (by decide)
  · simp only [h, Option.bind_eq_bind, Option.bind_some, hnodup, if_true]

theorem delimited_close_arr (rest : List Char) : Delimited (']' :: rest) :=
  delimited_cons rest (by simp)

theorem delimited_close_obj (rest : List Char) : Delimited ('}' :: rest) :=
  delimited_cons rest (by simp)

theorem delimited_comma (rest : List Char) : Delimited (',' :: rest) :=
  delimited_cons rest (by simp)

mutual

/-- Decoding inverts the canonical text. The fuel only has to exceed the length
    of the text, which is what `parse` supplies. -/
theorem parseValue_render : ∀ (j : Json), j.WellFormed → ∀ (fuel : Nat) (rest : List Char),
    Delimited rest → (render j).length < fuel → parseValue fuel (render j ++ rest) = some (j, rest)
  | _, _, 0, _, _, hfuel => absurd hfuel (Nat.not_lt_zero _)
  | .null, _, fuel + 1, rest, _, _ => by simp [render, parseValue]
  | .bool true, _, fuel + 1, rest, _, _ => by simp [render, parseValue]
  | .bool false, _, fuel + 1, rest, _, _ => by simp [render, parseValue]
  | .number n, _, fuel + 1, rest, hrest, _ => by
    obtain ⟨c, tail, htext, hc⟩ := renderNumber_head n
    have h := parseNumber_render n hrest
    rw [htext, List.cons_append] at h
    rw [render, htext, List.cons_append, parseValue_number hc, h]
  | .str s, _, fuel + 1, rest, _, _ => by rw [render, parseValue_str]
  | .arr [], _, fuel + 1, rest, _, _ => by
    simp [render, renderItems, joinItems, parseValue, skipBlanks, isBlank]
  | .arr (item :: items), hwell, fuel + 1, rest, _, hfuel => by
    apply parseValue_arr (by simp)
    apply parseItems_render _ hwell (by simp)
    simp only [render, List.cons_append, List.length_cons, List.length_append,
      List.length_nil] at hfuel
    omega
  | .obj [], _, fuel + 1, rest, _, _ => by
    simp [render, renderFields, sortFields, joinItems, parseValue, skipBlanks, isBlank]
  | .obj (field :: fields), hwell, fuel + 1, rest, _, hfuel => by
    apply parseValue_obj (by simp) hwell.1
    apply parseFields_render _ hwell.2 (by simp)
    simp only [render, sortFields_renderFields hwell.1, List.cons_append, List.length_cons,
      List.length_append, List.length_nil] at hfuel
    omega

theorem parseItems_render : ∀ (items : List Json), WellFormedItems items → items ≠ [] →
    ∀ (fuel : Nat) (rest : List Char), (joinItems (renderItems items)).length + 1 < fuel →
    parseItems fuel (joinItems (renderItems items) ++ ']' :: rest) = some (items, rest)
  | [], _, hne, _, _, _ => absurd rfl hne
  | _, _, _, 0, _, hfuel => absurd hfuel (Nat.not_lt_zero _)
  | [item], hwell, _, fuel + 1, rest, hfuel => by
    simp only [renderItems, joinItems] at hfuel ⊢
    rw [parseItems, parseValue_render item hwell.1 fuel _ (delimited_close_arr rest) (by omega)]
    simp [skipBlanks, isBlank]
  | item :: second :: items, hwell, _, fuel + 1, rest, hfuel => by
    obtain ⟨c, tail, htext, hc⟩ := joinItems_head (List.cons_ne_nil second items) (']' :: rest)
    have hblank : isBlank c = false := by
      by_contra hblank
      exact hc.ne (Or.inr (Or.inr (by simpa using hblank))) rfl
    simp only [renderItems, joinItems, List.length_append, List.length_cons] at hfuel
    have hrest := parseItems_render (second :: items) hwell.2 (by simp) fuel rest (by
      simp only [renderItems]
      omega)
    have hitem := parseValue_render item hwell.1 fuel
      (',' :: (joinItems (renderItems (second :: items)) ++ ']' :: rest))
        (delimited_comma _) (by omega)
    rw [htext] at hrest hitem
    rw [show joinItems (renderItems (item :: second :: items)) ++ ']' :: rest =
        render item ++ ',' :: (c :: tail) by
      rw [← htext]
      simp [renderItems, joinItems]]
    rw [parseItems, hitem]
    simp only [Option.bind_eq_bind, Option.bind_some]
    rw [skipBlanks_cons (by decide)]
    simp only [skipBlanks_cons hblank, hrest, Option.map_some]

theorem parseFields_render :
    ∀ (fields : List (String × Json)), WellFormedFields fields → fields ≠ [] →
    ∀ (fuel : Nat) (rest : List Char),
    (joinItems ((renderFields fields).map renderField)).length + 1 < fuel →
    parseFields fuel (joinItems ((renderFields fields).map renderField) ++ '}' :: rest) =
      some (fields, rest)
  | [], _, hne, _, _, _ => absurd rfl hne
  | _, _, _, 0, _, hfuel => absurd hfuel (Nat.not_lt_zero _)
  | [(key, value)], hwell, _, fuel + 1, rest, hfuel => by
    simp only [renderFields, List.map, joinItems, renderField, renderString, List.cons_append,
      List.append_assoc, List.nil_append, List.length_append, List.length_cons] at hfuel ⊢
    rw [parseFields, parseString_render]
    simp only [Option.bind_eq_bind, Option.bind_some]
    rw [skipBlanks_cons (by decide)]
    simp only [skipBlanks_render]
    rw [parseValue_render value hwell.1 fuel _ (delimited_close_obj rest) (by omega)]
    simp [skipBlanks, isBlank]
  | (key, value) :: second :: fields, hwell, _, fuel + 1, rest, hfuel => by
    have hne : renderFields (second :: fields) ≠ [] := by simp [renderFields]
    obtain ⟨tail, htext⟩ := joinFields_head hne
    have hlength :
      (joinItems ((renderFields (second :: fields)).map renderField)).length + 1 < fuel ∧
        (render value).length < fuel := by
      simp only [renderFields, List.map, joinItems, renderField, renderString, List.length_append,
        List.length_cons] at hfuel ⊢
      omega
    have hrest := parseFields_render (second :: fields) hwell.2 (by simp) fuel rest hlength.1
    have hvalue := parseValue_render value hwell.1 fuel
      (',' :: (joinItems ((renderFields (second :: fields)).map renderField) ++ '}' :: rest))
      (delimited_comma _) hlength.2
    rw [htext, List.cons_append] at hrest hvalue
    have hjoin :
      joinItems ((renderFields ((key, value) :: second :: fields)).map renderField) ++ '}' :: rest =
        '"' :: (key.toList.flatMap escape ++ '"' :: ':' ::
          (render value ++ ',' ::
            (joinItems ((renderFields (second :: fields)).map renderField) ++ '}' :: rest))) := by
      simp [renderFields, joinItems, renderField, renderString]
    rw [htext, List.cons_append] at hjoin
    rw [hjoin]
    rw [parseFields, parseString_render]
    simp only [Option.bind_eq_bind, Option.bind_some]
    rw [skipBlanks_cons (by decide)]
    simp only [skipBlanks_render, hvalue, Option.bind_some]
    rw [skipBlanks_cons (by decide)]
    simp only [skipBlanks_cons (show isBlank '"' = false by decide), hrest, Option.map_some,
      String.ofList_toList]

end

/-- Every well-formed value survives its canonical text. -/
theorem parse_render {j : Json} (h : j.WellFormed) : parse (render j) = some j := by
  have hskip := skipBlanks_render j []
  have hvalue := parseValue_render j h ((render j).length + 1) [] (Or.inl rfl) (by omega)
  rw [List.append_nil] at hskip hvalue
  simp only [parse, hskip, hvalue, Option.bind_eq_bind, Option.bind_some]
  rfl

/-- Two well-formed values with one canonical text are equal. -/
theorem render_injective {j k : Json} (hj : j.WellFormed) (hk : k.WellFormed)
    (h : render j = render k) : j = k := by
  have hparse := parse_render hj
  rw [h, parse_render hk] at hparse
  exact (Option.some.inj hparse).symm

end Json
