import PepeuchCluster.Text.Lines

/-! ### The texts that `int` reads -/

namespace Numerals

open Lines (isWhite)

/-- The value of a digit in the bases up to 36; 37 for what is no digit. -/
def digit (c : Char) : Nat :=
  if 48 ≤ c.toNat ∧ c.toNat ≤ 57 then c.toNat - 48
  else if 97 ≤ c.toNat ∧ c.toNat ≤ 122 then c.toNat - 87
  else if 65 ≤ c.toNat ∧ c.toNat ≤ 90 then c.toNat - 55
  else 37

/-- The whitespace of ASCII, without its separators. -/
def isBlank (c : Char) : Bool := c = ' ' || (9 ≤ c.toNat && c.toNat ≤ 13)

def strip (p : Char → Bool) (text : List Char) : List Char :=
  ((text.dropWhile p).reverse.dropWhile p).reverse

def value (base : Nat) (digits : List Char) : Nat :=
  digits.foldl (fun value c => base * value + digit c) 0

/-- The sign of a numeral, and what follows it. -/
def signed : List Char → Bool × List Char
  | '-' :: rest => (true, rest)
  | '+' :: rest => (false, rest)
  | text => (false, text)

/-- What follows `0x`, and one underscore after it. -/
def unprefixed (base : Nat) (text : List Char) : List Char :=
  match text with
  | '0' :: c :: rest =>
    if base = 16 ∧ (c = 'x' ∨ c = 'X') then
      if rest.head? = some '_' then rest.tail else rest
    else text
  | _ => text

section Decimals

/-! The decimal digits of Unicode. -/

variable (decimal : Char → Option (Fin 10))

/-- A character as `int` reads it: other blanks are spaces, and other decimals those of ASCII. -/
def ascii (c : Char) : Char :=
  if c.toNat < 127 then c
  else if isWhite c then ' '
  else match decimal c with
    | some d => d.val.digitChar
    | none => '?'

/-- `int(text, base)`: groups of digits with one underscore between them, and in base ten not
    more than 4300 digits. -/
def int (base : Nat) (text : List Char) : Option Int :=
  let (negative, rest) := signed (strip isBlank (text.map (ascii decimal)))
  let groups := (unprefixed base rest).splitOn '_'
  if groups.all (fun group => !group.isEmpty && group.all fun c => digit c < base) = true ∧
      (base = 10 → groups.flatten.length ≤ 4300) then
    some
      (if negative then -(value base groups.flatten : Int) else (value base groups.flatten : Int))
  else none

end Decimals

/-- Digits are neither blanks nor signs, and none of them begins a prefix. -/
theorem digit_plain {c : Char} (h : digit c < 16) :
    c.toNat < 127 ∧ isBlank c = false ∧ c ∉ ['-', '+', '_', 'x', 'X'] := by
  have hrange : (48 ≤ c.toNat ∧ c.toNat ≤ 57) ∨ (97 ≤ c.toNat ∧ c.toNat ≤ 102) ∨
      (65 ≤ c.toNat ∧ c.toNat ≤ 70) := by
    unfold digit at h
    split at h
    · exact .inl ‹_›
    · split at h
      · omega
      · split at h <;> omega
  have hspace : c ≠ ' ' := by
    rintro rfl
    revert hrange
    decide
  refine ⟨by omega, ?_, ?_⟩
  · simp only [isBlank, hspace, decide_false, Bool.false_or, Bool.and_eq_false_iff,
      decide_eq_false_iff_not]
    omega
  · intro hmem
    simp only [List.mem_cons, List.not_mem_nil, or_false] at hmem
    rcases hmem with rfl | rfl | rfl | rfl | rfl <;> exact absurd hrange (by decide)

theorem strip_of_forall {p : Char → Bool} {text : List Char} (h : ∀ c ∈ text, p c = false) :
    strip p text = text := by
  have hdrop : ∀ {text : List Char}, (∀ c ∈ text, p c = false) → text.dropWhile p = text := by
    intro text htext
    cases text with
    | nil => rfl
    | cons c text => rw [List.dropWhile_cons_of_neg (by simp [htext c List.mem_cons_self])]
  rw [strip, hdrop h, hdrop (fun c hc => h c (List.mem_reverse.mp hc)), List.reverse_reverse]

/-- A blank before a text is stripped from it. -/
theorem strip_cons {p : Char → Bool} {c : Char} (hc : p c = true) (text : List Char) :
    strip p (c :: text) = strip p text := by
  rw [strip, List.dropWhile_cons_of_pos hc, strip]

section Digits

variable {decimal : Char → Option (Fin 10)} {base : Nat} {text : List Char}

/-- Digits alone are read as their value. -/
theorem int_digits (hbase : base ≤ 16) (hne : text ≠ []) (h : ∀ c ∈ text, digit c < base)
    (hlength : base = 10 → text.length ≤ 4300) :
    int decimal base text = some (value base text : Int) := by
  have hplain : ∀ c ∈ text, c.toNat < 127 ∧ isBlank c = false ∧ c ∉ ['-', '+', '_', 'x', 'X'] :=
    fun c hc => digit_plain (Nat.lt_of_lt_of_le (h c hc) hbase)
  have hascii : text.map (ascii decimal) = text :=
    (List.map_congr_left fun c hc => if_pos (hplain c hc).1).trans (List.map_id' text)
  have hsigned : signed text = (false, text) := by
    unfold signed
    split
    · exact absurd (by simp) (hplain '-' List.mem_cons_self).2.2
    · exact absurd (by simp) (hplain '+' List.mem_cons_self).2.2
    · rfl
  have hunprefixed : unprefixed base text = text := by
    unfold unprefixed
    split
    · next c rest =>
      refine if_neg fun hx => (hplain c (by simp)).2.2 ?_
      rcases hx.2 with rfl | rfl <;> simp
    · rfl
  have hgroups : text.splitOn '_' = [text] := by
    rw [List.splitOn_eq_splitOnP]
    refine List.splitOnP_eq_singleton fun c hc => ?_
    have hc := (hplain c hc).2.2
    simp only [List.mem_cons, not_or] at hc
    simpa using hc.2.2.1
  have hall : [text].all
      (fun group => !group.isEmpty && group.all fun c => decide (digit c < base)) = true := by
    simpa [hne] using h
  rw [int, hascii, strip_of_forall fun c hc => (hplain c hc).2.1, hsigned]
  dsimp only
  rw [hunprefixed, hgroups, List.flatten_singleton, if_pos ⟨hall, hlength⟩]
  rfl

theorem digit_range {c : Char} (h : c.isDigit = true) : 48 ≤ c.toNat ∧ c.toNat ≤ 57 := by
  simp only [Char.isDigit, Bool.and_eq_true, decide_eq_true_eq] at h
  exact h

theorem digit_of_isDigit {c : Char} (h : c.isDigit = true) :
    digit c = c.toNat - 48 ∧ digit c < 10 := by
  have hrange := digit_range h
  rw [digit, if_pos hrange]
  omega

/-- The value of decimal digits. -/
theorem value_ten {init : Nat} (h : ∀ c ∈ text, c.isDigit = true) :
    text.foldl (fun value c => 10 * value + digit c) init = Nat.ofDigitChars 10 text init := by
  induction text generalizing init with
  | nil => simp
  | cons c text ih =>
    obtain ⟨hc, htext⟩ := List.forall_mem_cons.mp h
    rw [List.foldl_cons, (digit_of_isDigit hc).1, ih htext, Nat.ofDigitChars_cons]
    rfl

/-- A numeral of a natural number that is not too long is read back. -/
theorem int_toDigits {n : Nat} (h : (Nat.toDigits 10 n).length ≤ 4300) :
    int decimal 10 (Nat.toDigits 10 n) = some (n : Int) := by
  have hdigits : ∀ c ∈ Nat.toDigits 10 n, c.isDigit = true :=
    fun c hc => Nat.isDigit_of_mem_toDigits (by decide) (by decide) hc
  rw [int_digits (by decide) Nat.toDigits_ne_nil (fun c hc => (digit_of_isDigit (hdigits c hc)).2)
    fun _ => h, value, value_ten hdigits, Nat.ofDigitChars_ten_toDigits]

end Digits

end Numerals
