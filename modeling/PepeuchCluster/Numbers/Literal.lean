import PepeuchCluster.Numbers.Binary64

open Binary64

/-- A decimal literal: digits before and after the point, and the exponent's
    sign and digits. An empty fraction has no point. -/
structure Literal where
  negative : Bool
  whole : List Char
  fraction : List Char
  exponent : Option (Bool × List Char)
deriving DecidableEq

namespace Literal

def exponentValue (literal : Literal) : Int :=
  match literal.exponent with
  | none => 0
  | some (true, digits) => -(Nat.ofDigitChars 10 digits 0 : Int)
  | some (false, digits) => (Nat.ofDigitChars 10 digits 0 : Int)

/-- The float a literal denotes; `none` when it rounds to an infinity. -/
def toFloat (literal : Literal) : Option Binary64 :=
  ofDecimal literal.negative (Nat.ofDigitChars 10 (literal.whole ++ literal.fraction) 0)
    (literal.exponentValue - literal.fraction.length)

/-- The number grammar: no leading zero, digits everywhere, a nonempty exponent. -/
structure WellFormed (literal : Literal) : Prop where
  whole_digits : ∀ c ∈ literal.whole, c.isDigit = true
  whole_ne_nil : literal.whole ≠ []
  whole_zero : literal.whole.head? = some '0' → literal.whole = ['0']
  fraction_digits : ∀ c ∈ literal.fraction, c.isDigit = true
  exponent_digits : ∀ negative digits, literal.exponent = some (negative, digits) →
    digits ≠ [] ∧ ∀ c ∈ digits, c.isDigit = true

end Literal

namespace Binary64

def digitCount (n : Nat) : Nat := if n = 0 then 0 else (Nat.toDigits 10 n).length

def floorLog10 (n d : Nat) : Int :=
  if d ≤ n then (digitCount (n / d) : Int) - 1 else -(digitCount ((d - 1) / n) : Int)

/-- The decimal with `places + 1` significant digits nearest to `x`. -/
def candidate (x : Binary64) (places : Nat) : Nat × Int :=
  let n := x.magnitude.num.natAbs
  let d := x.magnitude.den
  let exponent := floorLog10 n d - places
  (roundHalfEven (n * 10 ^ (-exponent).toNat) (d * 10 ^ exponent.toNat), exponent)

/-- The full decimal expansion of `x`. -/
def exact (x : Binary64) : Nat × Int :=
  if 0 ≤ x.exponent then (x.mantissa * 2 ^ x.exponent.toNat, 0)
  else (x.mantissa * 5 ^ (-x.exponent).toNat, x.exponent)

/-- The shortest decimal that reads back as `x`. Seventeen digits always do. -/
def shortest (x : Binary64) : Nat × Int :=
  match (List.range 17).find? fun places =>
      ofDecimal x.negative (x.candidate places).1 (x.candidate places).2 = some x with
  | some places => x.candidate places
  | none => x.exact

def stripZeros : Nat → Nat → Int → Nat × Int
  | 0, digits, exponent => (digits, exponent)
  | fuel + 1, digits, exponent =>
    if digits ≠ 0 ∧ digits % 10 = 0 then stripZeros fuel (digits / 10) (exponent + 1)
    else (digits, exponent)

def padded (n : Nat) : List Char :=
  if n < 10 then '0' :: Nat.toDigits 10 n else Nat.toDigits 10 n

/-- The layout of `float.__repr__`: positional between `1e-4` and `1e16`,
    scientific with at least two exponent digits elsewhere. -/
def layout (negative : Bool) (digits : Nat) (exponent : Int) : Literal :=
  let text := Nat.toDigits 10 digits
  let point : Int := text.length + exponent
  if -4 < point ∧ point ≤ 16 then
    if point ≤ 0 then
      ⟨negative, ['0'], List.replicate (-point).toNat '0' ++ text, none⟩
    else if (text.length : Int) ≤ point then
      ⟨negative, text ++ List.replicate exponent.toNat '0', ['0'], none⟩
    else ⟨negative, text.take point.toNat, text.drop point.toNat, none⟩
  else
    ⟨negative, text.take 1, text.drop 1, some (decide (point - 1 < 0), padded (point - 1).natAbs)⟩

def literal (x : Binary64) : Literal :=
  let decimal := if x.mantissa = 0 then (0, 0) else stripZeros 400 x.shortest.1 x.shortest.2
  layout x.negative decimal.1 decimal.2

theorem ofDecimal_congr {negative : Bool} {a b : Nat} {i j : Int}
    (h : (a : ℚ) * scale 10 i = b * scale 10 j) :
    ofDecimal negative a i = ofDecimal negative b j := by
  simp only [ofDecimal, h]

theorem exact_magnitude (x : Binary64) : (x.exact.1 : ℚ) * scale 10 x.exact.2 = x.magnitude := by
  unfold exact magnitude
  split
  · next h =>
    have hneg : (-x.exponent).toNat = 0 := by omega
    simp [scale, hneg]
  · next h =>
    have hpos : x.exponent.toNat = 0 := by omega
    have hfive : ((5 ^ (-x.exponent).toNat : Nat) : ℚ) ≠ 0 := by positivity
    have htwo : ((2 ^ (-x.exponent).toNat : Nat) : ℚ) ≠ 0 := by positivity
    have hten : ((10 ^ (-x.exponent).toNat : Nat) : ℚ) =
        ((5 ^ (-x.exponent).toNat : Nat) : ℚ) * ((2 ^ (-x.exponent).toNat : Nat) : ℚ) := by
      rw [← Nat.cast_mul, ← Nat.mul_pow]
    simp only [scale, hpos, Nat.pow_zero, Nat.cast_one, Nat.cast_mul, hten]
    field_simp

theorem ofDecimal_shortest (x : Binary64) :
    ofDecimal x.negative x.shortest.1 x.shortest.2 = some x := by
  unfold shortest
  split
  · next places hfound => simpa using List.find?_some hfound
  · rw [ofDecimal, exact_magnitude, ofRat_magnitude]

theorem stripZeros_value (fuel digits : Nat) (exponent : Int) :
    ((stripZeros fuel digits exponent).1 : ℚ) * scale 10 (stripZeros fuel digits exponent).2 =
      digits * scale 10 exponent := by
  induction fuel generalizing digits exponent with
  | zero => rfl
  | succ fuel ih =>
    unfold stripZeros
    split
    · next h =>
      rw [ih, scale_eq_zpow (by decide), scale_eq_zpow (by decide)]
      have hdigits : (digits : ℚ) = ((digits / 10 : Nat) : ℚ) * 10 := by
        have : digits = digits / 10 * 10 := by omega
        exact_mod_cast this
      rw [hdigits, zpow_add_one₀ (by norm_num)]
      push_cast
      ring
    · rfl

theorem digits_replicate_append (k : Nat) (text : List Char) :
    Nat.ofDigitChars 10 (List.replicate k '0' ++ text) 0 = Nat.ofDigitChars 10 text 0 := by
  rw [Nat.ofDigitChars_append, Nat.ofDigitChars_replicate_zero, Nat.mul_zero]

theorem ofDigitChars_padded (n : Nat) : Nat.ofDigitChars 10 (padded n) 0 = n := by
  unfold padded
  split
  · simp [Nat.ofDigitChars_cons]
  · exact Nat.ofDigitChars_ten_toDigits

theorem ofDigitChars_zero_cons (text : List Char) :
    Nat.ofDigitChars 10 ('0' :: text) 0 = Nat.ofDigitChars 10 text 0 :=
  digits_replicate_append 1 text

/-- Every layout denotes the decimal it was made from. -/
theorem layout_value (negative : Bool) (digits : Nat) (exponent : Int) :
    (layout negative digits exponent).toFloat = ofDecimal negative digits exponent := by
  have hdigits : Nat.ofDigitChars 10 (Nat.toDigits 10 digits) 0 = digits :=
    Nat.ofDigitChars_ten_toDigits
  have hlength : 0 < (Nat.toDigits 10 digits).length := Nat.length_toDigits_pos
  unfold layout
  dsimp only
  split_ifs with hpositional hsmall hlarge
  · simp only [Literal.toFloat, Literal.exponentValue, List.cons_append, List.nil_append,
      List.length_append, List.length_replicate, ofDigitChars_zero_cons,
        digits_replicate_append, hdigits]
    congr 1
    omega
  · simp only [Literal.toFloat, Literal.exponentValue, List.length_cons, List.length_nil,
      List.append_assoc]
    rw [Nat.ofDigitChars_append, hdigits, ← List.replicate_succ', Nat.ofDigitChars_replicate_zero]
    apply ofDecimal_congr
    have hexponent : exponent = ((exponent.toNat : Nat) : Int) := by omega
    rw [scale_eq_zpow (by decide), scale_eq_zpow (by decide)]
    conv_rhs => rw [hexponent]
    rw [zpow_natCast, pow_succ]
    norm_num
    ring
  · simp only [Literal.toFloat, Literal.exponentValue, List.take_append_drop, hdigits,
      List.length_drop]
    congr 1
    omega
  · simp only [Literal.toFloat, List.take_append_drop, hdigits, List.length_drop]
    congr 1
    by_cases hsign : (Nat.toDigits 10 digits).length + exponent - 1 < 0
    · simp only [Literal.exponentValue, hsign, decide_true, ofDigitChars_padded]
      omega
    · simp only [Literal.exponentValue, hsign, decide_false, ofDigitChars_padded]
      omega

/-- Reading the printed form of a float gives the float back. -/
theorem literal_toFloat (x : Binary64) : x.literal.toFloat = some x := by
  unfold literal
  rw [layout_value]
  split
  · next hzero =>
    have hzeroMagnitude : x.magnitude = 0 := by simp [magnitude, hzero]
    have h := ofRat_magnitude x
    rw [hzeroMagnitude] at h
    simpa [ofDecimal] using h
  · rw [ofDecimal_congr (stripZeros_value 400 x.shortest.1 x.shortest.2), ofDecimal_shortest]

theorem toDigits_head_ne_zero {n : Nat} (hn : n ≠ 0) : (Nat.toDigits 10 n).head? ≠ some '0' := by
  induction n using Nat.strongRecOn with
  | ind n ih =>
    by_cases hsmall : n < 10
    · rw [Nat.toDigits_of_lt_base hsmall, List.head?_cons]
      intro h
      have hvalue := Nat.toNat_digitChar_sub_48_of_lt_ten hsmall
      rw [Option.some.inj h] at hvalue
      exact hn (by simpa using hvalue.symm)
    · rw [Nat.toDigits_of_base_le (by decide) (by omega), List.head?_append]
      have h := ih (n / 10) (by omega) (by omega)
      cases htext : (Nat.toDigits 10 (n / 10)).head? with
      | none => simp at htext
      | some c => simpa [htext] using h

theorem digit_of_mem_toDigits {n : Nat} : ∀ c ∈ Nat.toDigits 10 n, c.isDigit = true :=
  fun _ h => Nat.isDigit_of_mem_toDigits (by decide) (by decide) h

theorem digit_of_mem_zeros {n : Nat} : ∀ c ∈ List.replicate n '0', c.isDigit = true := by
  intro c h
  rw [List.eq_of_mem_replicate h]
  decide

theorem padded_digits (n : Nat) : padded n ≠ [] ∧ ∀ c ∈ padded n, c.isDigit = true := by
  unfold padded
  split
  · refine ⟨by simp, ?_⟩
    intro c hc
    rcases List.mem_cons.mp hc with rfl | h
    · decide
    · exact digit_of_mem_toDigits c h
  · exact ⟨Nat.toDigits_ne_nil, digit_of_mem_toDigits⟩

/-- A nonzero decimal is laid out without leading zeros, and so is plain zero. -/
theorem layout_wellFormed (negative : Bool) {digits : Nat} {exponent : Int}
    (h : digits ≠ 0 ∨ exponent = 0) : (layout negative digits exponent).WellFormed := by
  have hlength : 0 < (Nat.toDigits 10 digits).length := Nat.length_toDigits_pos
  have hhead : ∀ suffix, ((Nat.toDigits 10 digits).take suffix).head? = some '0' → digits = 0 := by
    intro suffix hsome
    by_contra hne
    apply toDigits_head_ne_zero hne
    cases htext : Nat.toDigits 10 digits with
    | nil => simp at htext
    | cons c rest =>
      cases suffix with
      | zero => simp [htext] at hsome
      | succ suffix => simpa [htext] using hsome
  have hdigits : ∀ c ∈ Nat.toDigits 10 digits, c.isDigit = true := digit_of_mem_toDigits
  unfold layout
  dsimp only
  split_ifs with hpositional hsmall hlarge
  · constructor <;>
      simp only [List.mem_singleton, List.mem_append, reduceCtorEq, false_implies, implies_true,
        ne_eq, not_false_eq_true, List.cons_ne_self, List.head?_cons]
    · rintro c rfl; decide
    · rintro c (hc | hc)
      · exact digit_of_mem_zeros c hc
      · exact hdigits c hc
  · constructor <;>
      simp only [List.mem_singleton, List.mem_append, reduceCtorEq, false_implies, implies_true,
        ne_eq, List.append_eq_nil_iff, Nat.toDigits_ne_nil, false_and, not_false_eq_true]
    · rintro c (hc | hc)
      · exact hdigits c hc
      · exact digit_of_mem_zeros c hc
    · intro hzero
      have hd : digits = 0 := by
        apply hhead (Nat.toDigits 10 digits).length
        rw [List.take_length]
        cases htext : Nat.toDigits 10 digits with
        | nil => simp at htext
        | cons c rest => simpa [htext] using hzero
      subst hd
      simp [h.resolve_left (by simp)]
    · rintro c rfl; decide
  · have hpoint : 0 < ((Nat.toDigits 10 digits).length + exponent).toNat := by omega
    constructor <;> simp only [reduceCtorEq, false_implies, implies_true]
    · exact fun c hc => hdigits c (List.mem_of_mem_take hc)
    · intro hnil
      have := congrArg List.length hnil
      simp only [List.length_take, List.length_nil] at this
      omega
    · intro hzero
      have hd := hhead _ hzero
      have he := h.resolve_left (by simp [hd])
      omega
    · exact fun c hc => hdigits c (List.mem_of_mem_drop hc)
  · constructor <;> simp only [Option.some.injEq, Prod.mk.injEq, and_imp]
    · exact fun c hc => hdigits c (List.mem_of_mem_take hc)
    · intro hnil
      have := congrArg List.length hnil
      simp only [List.length_take, List.length_nil] at this
      omega
    · intro hzero
      have hd := hhead _ hzero
      have he := h.resolve_left (by simp [hd])
      subst hd he
      simp at hpositional
    · exact fun c hc => hdigits c (List.mem_of_mem_drop hc)
    · rintro _ _ _ rfl
      exact padded_digits _

/-- The printed form of a float never looks like an integer. -/
theorem layout_isFloat (negative : Bool) (digits : Nat) (exponent : Int) :
    (layout negative digits exponent).fraction ≠ [] ∨
      (layout negative digits exponent).exponent ≠ none := by
  unfold layout
  dsimp only
  split_ifs with hpositional hsmall hlarge
  · left
    simp
  · left
    simp
  · left
    intro hnil
    have := congrArg List.length hnil
    simp only [List.length_drop, List.length_nil] at this
    omega
  · right
    simp

theorem stripZeros_ne_zero (fuel : Nat) {digits : Nat} (exponent : Int) (h : digits ≠ 0) :
    (stripZeros fuel digits exponent).1 ≠ 0 := by
  induction fuel generalizing digits exponent with
  | zero => exact h
  | succ fuel ih =>
    unfold stripZeros
    split
    · exact ih _ (by omega)
    · exact h

theorem shortest_ne_zero {x : Binary64} (hx : x.mantissa ≠ 0) : x.shortest.1 ≠ 0 := by
  intro hzero
  have h := ofDecimal_shortest x
  rw [hzero] at h
  simp only [ofDecimal, ofRat, Nat.cast_zero, zero_mul, Rat.num_zero, Int.natAbs_zero, if_pos,
    Option.some.injEq] at h
  apply hx
  rw [← h]
  rfl

theorem literal_wellFormed (x : Binary64) : x.literal.WellFormed := by
  unfold literal
  split
  · exact layout_wellFormed _ (Or.inr rfl)
  · next hx => exact layout_wellFormed _ (Or.inl (stripZeros_ne_zero _ _ (shortest_ne_zero hx)))

end Binary64
