import PepeuchCluster.Numbers.Binary64

namespace Binary64

/-- The value that a sum, a difference, a double or a half is rounded to; nothing where it is too
    large. -/
def round (q : ℚ) : Option ℚ := (ofValue q).map value

/-- The exponent of the number that is nearest to `q`, before a carry. -/
def exponentOf (q : ℚ) : Int := max (-1074) (floorLog2 q.num.natAbs q.den - 52)

/-- Its mantissa, which is `2 ^ 53` where it carries. -/
def significand (q : ℚ) : Nat :=
  roundHalfEven (q.num.natAbs * 2 ^ (-exponentOf q).toNat) (q.den * 2 ^ (exponentOf q).toNat)

theorem magnitude_eq (x : Binary64) : x.magnitude = x.mantissa * 2 ^ x.exponent := by
  rw [magnitude, scale_eq_zpow (by decide)]
  norm_cast

theorem abs_value (x : Binary64) : |x.value| = x.magnitude := by
  unfold value
  split
  · rw [abs_neg, abs_of_nonneg x.magnitude_nonneg]
  · exact abs_of_nonneg x.magnitude_nonneg

/-! ### The nearest natural -/

/-- The nearest natural is not more than a half away, and even where it is just that. -/
theorem roundHalfEven_near {n d : Nat} (hd : 0 < d) :
    2 * (roundHalfEven n d * d) ≤ 2 * n + d ∧ 2 * n ≤ 2 * (roundHalfEven n d * d) + d ∧
      (2 * (roundHalfEven n d * d) = 2 * n + d ∨ 2 * n = 2 * (roundHalfEven n d * d) + d →
        roundHalfEven n d % 2 = 0) := by
  have hsplit := Nat.div_add_mod n d
  have hmod := Nat.mod_lt n hd
  rw [mul_comm] at hsplit
  unfold roundHalfEven
  split
  · omega
  · split
    · rw [Nat.add_mul]
      omega
    · rcases Nat.mod_two_eq_zero_or_one (n / d) with heven | hodd
      · rw [heven, Nat.add_zero]
        omega
      · rw [hodd, Nat.add_mul]
        omega

theorem roundHalfEven_near_div {n d : Nat} (hd : 0 < d) :
    |(roundHalfEven n d : ℚ) - n / d| ≤ 1 / 2 := by
  obtain ⟨hbelow, habove, -⟩ := roundHalfEven_near (n := n) hd
  have hdq : (0 : ℚ) < d := by exact_mod_cast hd
  have hbelow' : 2 * ((roundHalfEven n d : ℚ) * d) ≤ 2 * n + d := by exact_mod_cast hbelow
  have habove' : 2 * (n : ℚ) ≤ 2 * (roundHalfEven n d * d) + d := by exact_mod_cast habove
  have hquotient : (n : ℚ) / d * d = n := div_mul_cancel₀ _ hdq.ne'
  rw [abs_sub_le_iff]
  constructor
  · refine le_of_mul_le_mul_right ?_ hdq
    rw [sub_mul, hquotient]
    linarith
  · refine le_of_mul_le_mul_right ?_ hdq
    rw [sub_mul, hquotient]
    linarith

theorem roundHalfEven_mono {n d n' d' : Nat} (hd : 0 < d) (hd' : 0 < d') (h : n * d' ≤ n' * d) :
    roundHalfEven n d ≤ roundHalfEven n' d' := by
  obtain ⟨hbelow, -, htie⟩ := roundHalfEven_near (n := n) hd
  obtain ⟨-, habove, htie'⟩ := roundHalfEven_near (n := n') hd'
  generalize roundHalfEven n d = m at hbelow htie
  generalize roundHalfEven n' d' = k at habove htie'
  by_contra hlt
  have hleft := Nat.mul_le_mul_right d' hbelow
  have hright := Nat.mul_le_mul_right d habove
  have hpositive : 0 < d * d' := Nat.mul_pos hd hd'
  -- Both halves are met exactly, so that both neighbours would be even.
  have hnext : (k + 1) * (d * d') ≤ m * (d * d') := Nat.mul_le_mul_right _ (by omega)
  have hsame : m = k + 1 := by
    apply le_antisymm _ (by omega)
    refine Nat.le_of_mul_le_mul_right ?_ hpositive
    nlinarith
  subst hsame
  have hties : (2 * ((k + 1) * d)) * d' = (2 * n + d) * d' ∧
      (2 * n') * d = (2 * (k * d') + d') * d := by
    constructor <;> nlinarith
  have heven := htie (.inl (Nat.eq_of_mul_eq_mul_right hd' hties.1))
  have heven' := htie' (.inr (Nat.eq_of_mul_eq_mul_right hd hties.2))
  omega

/-! ### The nearest number -/

theorem exponentOf_least (q : ℚ) : -1074 ≤ exponentOf q := le_max_left _ _

variable {p q : ℚ}

theorem num_div_den (hq : 0 ≤ q) : ((q.num.natAbs : Nat) : ℚ) / q.den = q := by
  rw [Nat.cast_natAbs, abs_of_nonneg (Rat.num_nonneg.mpr hq), Rat.num_div_den]

theorem natAbs_ne_zero (hq : 0 < q) : q.num.natAbs ≠ 0 := by
  have := Rat.num_pos.mpr hq
  omega

/-- The exponent is that of a grid with `2 ^ 53` points up to the next power of two. -/
theorem exponentOf_bounds (hq : 0 < q) : q < 2 ^ (exponentOf q + 53) ∧
    (exponentOf q = -1074 ∨ (2 : ℚ) ^ (exponentOf q + 52) ≤ q) := by
  obtain ⟨hlow, hhigh⟩ := floorLog2_bounds (natAbs_ne_zero hq) q.den_nz
  rw [num_div_den hq.le] at hlow hhigh
  constructor
  · refine hhigh.trans_le (zpow_le_zpow_right₀ one_le_two ?_)
    unfold exponentOf
    omega
  · rcases max_choice (-1074) (floorLog2 q.num.natAbs q.den - 52) with hleast | hlog
    · exact .inl hleast
    · right
      rw [exponentOf, hlog, Int.sub_add_cancel]
      exact hlow

/-- An exponent is that of a number, if the number lies in its range. -/
theorem exponentOf_le {exponent : Int} (hq : 0 < q) (hleast : -1074 ≤ exponent)
    (hlt : q < 2 ^ (exponent + 53)) :
    exponentOf q ≤ exponent := by
  rcases (exponentOf_bounds hq).2 with hsmall | hlow
  · omega
  · have := (zpow_lt_zpow_iff_right₀ (one_lt_two (α := ℚ))).mp (hlow.trans_lt hlt)
    omega

theorem exponentOf_mono (hp : 0 < p) (h : p ≤ q) : exponentOf p ≤ exponentOf q :=
  exponentOf_le hp (exponentOf_least q) (h.trans_lt (exponentOf_bounds (hp.trans_le h)).1)

theorem scaled_pos (q : ℚ) (exponent : Int) : 0 < q.den * 2 ^ exponent.toNat :=
  Nat.mul_pos q.den_pos (Nat.two_pow_pos _)

/-- The quotient of naturals that is rounded. -/
theorem scaled_div (hq : 0 ≤ q) (exponent : Int) :
    ((q.num.natAbs * 2 ^ (-exponent).toNat : Nat) : ℚ) / (q.den * 2 ^ exponent.toNat : Nat) =
      q / 2 ^ exponent := by
  have hscale : (2 : ℚ) ^ exponent = scale 2 exponent := by
    rw [scale_eq_zpow (by decide)]
    norm_cast
  have hden : (q.den : ℚ) ≠ 0 := by exact_mod_cast q.den_nz
  have hnum : (q.num.natAbs : ℚ) = q * q.den := by rw [← div_eq_iff hden, num_div_den hq]
  rw [hscale, scale]
  push_cast
  rw [hnum]
  field_simp

/-- The nearest point of the grid is not more than half a step away. -/
theorem significand_near (hq : 0 ≤ q) :
    |significand q * 2 ^ exponentOf q - q| ≤ 2 ^ exponentOf q / 2 := by
  have hgrid : (0 : ℚ) < 2 ^ exponentOf q := by positivity
  have hnear := roundHalfEven_near_div (n := q.num.natAbs * 2 ^ (-exponentOf q).toNat)
    (scaled_pos q (exponentOf q))
  rw [scaled_div hq] at hnear
  change |(significand q : ℚ) - _| ≤ 1 / 2 at hnear
  calc |significand q * 2 ^ exponentOf q - q|
      = |(significand q : ℚ) - q / 2 ^ exponentOf q| * 2 ^ exponentOf q := by
        rw [← abs_of_pos hgrid, ← abs_mul, abs_of_pos hgrid, sub_mul, div_mul_cancel₀ _ hgrid.ne']
    _ ≤ 1 / 2 * 2 ^ exponentOf q := mul_le_mul_of_nonneg_right hnear hgrid.le
    _ = 2 ^ exponentOf q / 2 := by ring

theorem significand_mono (hp : 0 ≤ p) (h : p ≤ q) (hexponent : exponentOf p = exponentOf q) :
    significand p ≤ significand q := by
  have hgrid : (0 : ℚ) < 2 ^ exponentOf q := by positivity
  have hpos (r : ℚ) : (0 : ℚ) < (r.den * 2 ^ (exponentOf q).toNat : Nat) := by
    exact_mod_cast scaled_pos r (exponentOf q)
  unfold significand
  rw [hexponent]
  apply roundHalfEven_mono (scaled_pos p _) (scaled_pos q _)
  rw [← Nat.cast_le (α := ℚ), Nat.cast_mul _ (q.den * _), Nat.cast_mul _ (p.den * _),
    ← div_le_div_iff₀ (hpos p) (hpos q), scaled_div hp, scaled_div (hp.trans h)]
  exact div_le_div_of_nonneg_right h hgrid.le

/-- What is on one side of a point of the grid is not rounded to the other. -/
theorem le_significand {m : Nat} (hq : 0 ≤ q) (h : m * 2 ^ exponentOf q ≤ q) :
    m ≤ significand q := by
  apply le_roundHalfEven (scaled_pos q _)
  have hpos : (0 : ℚ) < (q.den * 2 ^ (exponentOf q).toNat : Nat) := by
    exact_mod_cast scaled_pos q (exponentOf q)
  have hgrid : (0 : ℚ) < 2 ^ exponentOf q := by positivity
  rw [← Nat.cast_le (α := ℚ), Nat.cast_mul m, ← le_div_iff₀ hpos, scaled_div hq, le_div_iff₀ hgrid]
  exact h

theorem significand_le {m : Nat} (hq : 0 ≤ q) (h : q ≤ m * 2 ^ exponentOf q) :
    significand q ≤ m := by
  apply roundHalfEven_le (scaled_pos q _)
  have hpos : (0 : ℚ) < (q.den * 2 ^ (exponentOf q).toNat : Nat) := by
    exact_mod_cast scaled_pos q (exponentOf q)
  have hgrid : (0 : ℚ) < 2 ^ exponentOf q := by positivity
  rw [← Nat.cast_le (α := ℚ), Nat.cast_mul m, ← div_le_iff₀ hpos, scaled_div hq, div_le_iff₀ hgrid]
  exact h

theorem significand_bounds (hq : 0 < q) : significand q ≤ 2 ^ 53 ∧
    (exponentOf q = -1074 ∨ 2 ^ 52 ≤ significand q) := by
  have hsplit (bits : Nat) : ((2 ^ bits : Nat) : ℚ) * 2 ^ exponentOf q =
      2 ^ (exponentOf q + bits) := by
    rw [zpow_add₀ two_ne_zero, zpow_natCast, mul_comm]
    norm_cast
  obtain ⟨hhigh, hlow⟩ := exponentOf_bounds hq
  constructor
  · apply significand_le hq.le
    rw [hsplit]
    exact_mod_cast hhigh.le
  · refine hlow.imp_right fun hlow => le_significand hq.le ?_
    rw [hsplit]
    exact_mod_cast hlow

/-- The nearest point of the grid as a mantissa and an exponent. -/
def carried (q : ℚ) : Nat × Int :=
  if significand q = 2 ^ 53 then (2 ^ 52, exponentOf q + 1) else (significand q, exponentOf q)

theorem ofRat_eq (negative : Bool) (hq : 0 < q) : ofRat negative q =
    if h : Representable (carried q).1 (carried q).2 then
      some ⟨negative, (carried q).1, (carried q).2, h⟩ else none := by
  unfold ofRat
  dsimp only
  rw [if_neg (natAbs_ne_zero hq)]
  rfl

theorem carried_value (q : ℚ) :
    ((carried q).1 : ℚ) * 2 ^ (carried q).2 = significand q * 2 ^ exponentOf q := by
  unfold carried
  split
  · next hcarry =>
    rw [hcarry, zpow_add_one₀ two_ne_zero]
    push_cast
    ring
  · rfl

/-- The nearest point is a number up to the largest one. -/
theorem carried_representable (hq : 0 < q) : Representable (carried q).1 (carried q).2 ↔
    exponentOf q < 971 ∨ exponentOf q = 971 ∧ significand q < 2 ^ 53 := by
  have hleast := exponentOf_least q
  obtain ⟨hupper, hlower⟩ := significand_bounds hq
  unfold carried Representable
  split
  · dsimp only
    omega
  · dsimp only
    omega

/-- What a positive number is rounded to. -/
def nearest (q : ℚ) : Option ℚ :=
  if exponentOf q < 971 ∨ exponentOf q = 971 ∧
    significand q < 2 ^ 53 then some (significand q * 2 ^ exponentOf q)
  else none

theorem ofRat_value (negative : Bool) (hq : 0 < q) :
    (ofRat negative q).map value = (nearest q).map fun m => if negative then -m else m := by
  rw [ofRat_eq negative hq, nearest]
  by_cases h : Representable (carried q).1 (carried q).2
  · rw [dif_pos h, if_pos ((carried_representable hq).mp h)]
    simp [value, magnitude_eq, carried_value]
  · rw [dif_neg h, if_neg (mt (carried_representable hq).mpr h)]
    rfl

/-- Nothing below the last power of two overflows. -/
theorem ofRat_of_lt (negative : Bool) (hq : 0 ≤ q) (hlt : q < 2 ^ 1023) :
    ∃ x, ofRat negative q = some x := by
  rcases hq.eq_or_lt with rfl | hpositive
  · exact ⟨zero negative, rfl⟩
  · have hexponent : exponentOf q ≤ 970 :=
      exponentOf_le hpositive (by decide) (hlt.trans_eq (zpow_natCast 2 1023).symm)
    rw [ofRat_eq negative hpositive]
    exact ⟨_, dif_pos ((carried_representable hpositive).mpr (by omega))⟩

theorem ofValue_of_lt (h : |q| < 2 ^ 1023) : ∃ x, ofValue q = some x :=
  ofRat_of_lt _ (abs_nonneg q) h

/-- The grid of a larger number is not finer, and its nearest point not smaller. -/
theorem nearest_mono (hp : 0 < p) (h : p ≤ q) :
    (significand p : ℚ) * 2 ^ exponentOf p ≤ significand q * 2 ^ exponentOf q := by
  have hq : 0 < q := hp.trans_le h
  rcases (exponentOf_mono hp h).eq_or_lt with hsame | hless
  · rw [hsame]
    have hmantissa : (significand p : ℚ) ≤ significand q := by
      exact_mod_cast significand_mono hp.le h hsame
    exact mul_le_mul_of_nonneg_right hmantissa (by positivity)
  · -- A power of two lies between the two.
    have hleast := exponentOf_least p
    have hpower : (2 ^ 53 : ℚ) * 2 ^ exponentOf p ≤ 2 ^ 52 * 2 ^ exponentOf q := by
      rw [← zpow_natCast, ← zpow_natCast, ← zpow_add₀ two_ne_zero, ← zpow_add₀ two_ne_zero]
      exact zpow_le_zpow_right₀ one_le_two (by push_cast; omega)
    have hbelow : (significand p : ℚ) ≤ 2 ^ 53 := by exact_mod_cast (significand_bounds hp).1
    have habove : (2 ^ 52 : ℚ) ≤ significand q := by
      exact_mod_cast (significand_bounds hq).2.resolve_left (by omega)
    calc (significand p : ℚ) * 2 ^ exponentOf p
        ≤ 2 ^ 53 * 2 ^ exponentOf p := mul_le_mul_of_nonneg_right hbelow (by positivity)
      _ ≤ 2 ^ 52 * 2 ^ exponentOf q := hpower
      _ ≤ significand q * 2 ^ exponentOf q := mul_le_mul_of_nonneg_right habove (by positivity)

/-- What is not larger than a number that can be rounded can be rounded. -/
theorem nearest_finite {b : ℚ} (hp : 0 < p) (h : p ≤ q) (hq : nearest q = some b) :
    ∃ a, nearest p = some a ∧ a ≤ b := by
  have hmono := nearest_mono hp h
  have hexponent := exponentOf_mono hp h
  unfold nearest at hq
  split at hq
  · next hfits =>
    obtain rfl := Option.some.inj hq
    refine ⟨_, if_pos ?_, hmono⟩
    rcases hexponent.eq_or_lt with hsame | hless
    · have := significand_mono hp.le h hsame
      omega
    · omega
  · cases hq

/-! ### Rounding -/

theorem round_zero : round 0 = some 0 := by
  change some (zero (decide ((0 : ℚ) < 0))).value = some 0
  rw [decide_eq_false (lt_irrefl 0)]
  simp [value, magnitude, zero]

theorem round_of_pos (hq : 0 < q) : round q = nearest q := by
  unfold round ofValue
  rw [decide_eq_false hq.le.not_gt, abs_of_pos hq, ofRat_value false hq]
  simp

theorem round_neg (q : ℚ) : round (-q) = (round q).map Neg.neg := by
  have hopposite {q : ℚ} (hq : 0 < q) : round (-q) = (round q).map Neg.neg := by
    rw [round_of_pos hq]
    unfold round ofValue
    rw [decide_eq_true (neg_neg_of_pos hq), abs_neg, abs_of_pos hq, ofRat_value true hq]
    rfl
  rcases lt_trichotomy q 0 with hq | rfl | hq
  · have h := hopposite (neg_pos.mpr hq)
    rw [neg_neg] at h
    rw [h, Option.map_map]
    simp
  · rw [neg_zero, round_zero]
    rfl
  · exact hopposite hq

/-- A number needs no rounding. -/
theorem round_value (x : Binary64) : round x.value = some x.value := by
  have hexact : round x.magnitude = some x.magnitude := by
    rcases x.magnitude_nonneg.eq_or_lt with hzero | hpositive
    · rw [← hzero, round_zero]
    · have h := ofRat_value x.negative hpositive
      rw [ofRat_magnitude, Option.map_some, eq_comm, Option.map_eq_some_iff] at h
      obtain ⟨m, hm, hvalue⟩ := h
      rw [round_of_pos hpositive, hm]
      unfold value at hvalue
      split at hvalue
      · exact congrArg some (neg_injective hvalue)
      · exact congrArg some hvalue
  unfold value
  split
  · rw [round_neg, hexact]
    rfl
  · exact hexact

theorem round_nonneg {b : ℚ} (hq : 0 ≤ q) (h : round q = some b) : 0 ≤ b := by
  rcases hq.eq_or_lt with rfl | hpositive
  · rw [round_zero] at h
    exact (Option.some.inj h).le
  · rw [round_of_pos hpositive, nearest] at h
    split at h
    · rw [← Option.some.inj h]
      positivity
    · cases h

theorem round_nonpos {b : ℚ} (hq : q ≤ 0) (h : round q = some b) : b ≤ 0 := by
  have hopposite : round (-q) = some (-b) := by
    rw [round_neg, h]
    rfl
  exact neg_nonneg.mp (round_nonneg (neg_nonneg.mpr hq) hopposite)

private theorem round_mono_nonneg {a b : ℚ} (hnonneg : 0 ≤ p) (h : p ≤ q) (hp : round p = some a)
    (hq : round q = some b) : a ≤ b := by
  rcases hnonneg.eq_or_lt with rfl | hpositive
  · rw [round_zero] at hp
    rw [← Option.some.inj hp]
    exact round_nonneg h hq
  · rw [round_of_pos (hpositive.trans_le h)] at hq
    obtain ⟨other, hother, hle⟩ := nearest_finite hpositive h hq
    rw [round_of_pos hpositive, hother] at hp
    rwa [← Option.some.inj hp]

/-- A larger number is not rounded to a smaller one. -/
theorem round_mono {a b : ℚ} (h : p ≤ q) (hp : round p = some a)
    (hq : round q = some b) : a ≤ b := by
  rcases le_or_gt 0 p with hnonneg | hnegative
  · exact round_mono_nonneg hnonneg h hp hq
  rcases le_or_gt 0 q with hpositive | hbelow
  · exact (round_nonpos hnegative.le hp).trans (round_nonneg hpositive hq)
  · have hp' : round (-p) = some (-a) := by rw [round_neg, hp, Option.map_some]
    have hq' : round (-q) = some (-b) := by rw [round_neg, hq, Option.map_some]
    exact neg_le_neg_iff.mp (round_mono_nonneg (neg_nonneg.mpr hbelow.le) (neg_le_neg h) hq' hp')

/-- A number bounds what is rounded on either side of it. -/
theorem round_le {a : ℚ} (x : Binary64) (h : p ≤ x.value) (hp : round p = some a) : a ≤ x.value :=
  round_mono h hp (round_value x)

theorem le_round {a : ℚ} (x : Binary64) (h : x.value ≤ p) (hp : round p = some a) : x.value ≤ a :=
  round_mono h (round_value x) hp

theorem round_finite {b : ℚ} (hnonneg : 0 ≤ p) (h : p ≤ q) (hq : round q = some b) :
    ∃ a, round p = some a := by
  rcases hnonneg.eq_or_lt with rfl | hpositive
  · exact ⟨0, round_zero⟩
  · rw [round_of_pos (hpositive.trans_le h)] at hq
    obtain ⟨a, ha, -⟩ := nearest_finite hpositive h hq
    exact ⟨a, (round_of_pos hpositive).trans ha⟩

theorem value_of_nonneg {x : Binary64} (h : 0 ≤ x.value) :
    x.value = x.mantissa * 2 ^ x.exponent := by
  rw [← magnitude_eq, ← abs_value, abs_of_nonneg h]

/-- The double of a number is a number, or too large. -/
theorem round_double {x : Binary64} (hx : 0 ≤ x.value) {b : ℚ} (h : round (x.value * 2) = some b) :
    b = x.value * 2 := by
  obtain ⟨hmantissa, hleast, hmost, hnormal⟩ := x.representable
  have hvalue := value_of_nonneg hx
  by_cases hsmall : x.mantissa < 2 ^ 52
  · have hdouble :
      (⟨false, 2 * x.mantissa, x.exponent, by omega, hleast, hmost, by omega⟩ : Binary64).value =
        x.value * 2 := by
      rw [hvalue, value, if_neg Bool.false_ne_true, magnitude_eq]
      push_cast
      ring
    rw [← hdouble, round_value] at h
    rw [← Option.some.inj h, hdouble]
  by_cases hroom : x.exponent < 971
  · have hdouble : (⟨false, x.mantissa, x.exponent + 1, hmantissa, by omega, by omega, by omega⟩ :
      Binary64).value =
        x.value * 2 := by
      rw [hvalue, value, if_neg Bool.false_ne_true, magnitude_eq, zpow_add_one₀ two_ne_zero]
      ring
    rw [← hdouble, round_value] at h
    rw [← Option.some.inj h, hdouble]
  · -- From `2 ^ 1024` on there is no number.
    exfalso
    have hexponent : x.exponent = 971 := by omega
    have hlarge : (2 : ℚ) ^ (1024 : Int) ≤ x.value * 2 := by
      have hbit : (2 ^ 52 : ℚ) ≤ x.mantissa := by exact_mod_cast not_lt.mp hsmall
      rw [hvalue, hexponent]
      calc (2 : ℚ) ^ (1024 : Int) = 2 ^ 52 * 2 ^ (971 : Int) * 2 := by
            rw [← zpow_natCast, ← zpow_add₀ two_ne_zero, ← zpow_add_one₀ two_ne_zero]
            rfl
        _ ≤ x.mantissa * 2 ^ (971 : Int) * 2 := by gcongr
    have hpositive : 0 < x.value * 2 := lt_of_lt_of_le (by positivity) hlarge
    have hhigh := (zpow_lt_zpow_iff_right₀ (one_lt_two (α := ℚ))).mp
      (hlarge.trans_lt (exponentOf_bounds hpositive).1)
    rw [round_of_pos hpositive, nearest, if_neg (by omega)] at h
    cases h

/-- The next number is a step of the grid away, at least. -/
theorem add_step_le {x y : Binary64} (hy : 0 ≤ y.value) (h : y.value < x.value) :
    y.value + 2 ^ y.exponent ≤ x.value := by
  have hx := hy.trans h.le
  rw [value_of_nonneg hy, value_of_nonneg hx] at h ⊢
  have hgrid : (0 : ℚ) < 2 ^ y.exponent := by positivity
  rcases le_or_gt y.exponent x.exponent with hle | hgt
  · obtain ⟨k, hk⟩ := Int.le.dest hle
    have hshift : (x.mantissa : ℚ) * 2 ^ x.exponent =
        (x.mantissa * 2 ^ k : Nat) * 2 ^ y.exponent := by
      rw [← hk, zpow_add₀ two_ne_zero, zpow_natCast]
      push_cast
      ring
    rw [hshift] at h ⊢
    have hless : y.mantissa + 1 ≤ x.mantissa * 2 ^ k := by
      exact_mod_cast lt_of_mul_lt_mul_right h hgrid.le
    calc (y.mantissa : ℚ) * 2 ^ y.exponent + 2 ^ y.exponent =
      (y.mantissa + 1 : Nat) * 2 ^ y.exponent := by
          push_cast
          ring
      _ ≤ (x.mantissa * 2 ^ k : Nat) * 2 ^ y.exponent :=
          mul_le_mul_of_nonneg_right (by exact_mod_cast hless) hgrid.le
  · -- A number with a smaller exponent is not larger.
    exfalso
    have hleast := x.representable.2.1
    have hmantissa : (x.mantissa : ℚ) ≤ 2 ^ 53 := by exact_mod_cast x.representable.1.le
    have hbit : (2 ^ 52 : ℚ) ≤ y.mantissa := by
      exact_mod_cast y.representable.2.2.2.resolve_right (by omega)
    have hpower : (2 ^ 53 : ℚ) * 2 ^ x.exponent ≤ 2 ^ 52 * 2 ^ y.exponent := by
      rw [← zpow_natCast, ← zpow_natCast, ← zpow_add₀ two_ne_zero, ← zpow_add₀ two_ne_zero]
      exact zpow_le_zpow_right₀ one_le_two (by push_cast; omega)
    have hbelow := mul_le_mul_of_nonneg_right hmantissa (by positivity : (0 : ℚ) ≤ 2 ^ x.exponent)
    have habove := mul_le_mul_of_nonneg_right hbit hgrid.le
    linarith

theorem value_lt_power {x : Binary64} (hx : 0 ≤ x.value) : x.value < 2 ^ (x.exponent + 53) := by
  have hmantissa : (x.mantissa : ℚ) < 2 ^ 53 := by exact_mod_cast x.representable.1
  rw [value_of_nonneg hx, add_comm, zpow_add₀ two_ne_zero]
  exact mul_lt_mul_of_pos_right (by exact_mod_cast hmantissa) (by positivity)

/-- The rest up to a limit, added again, is not more than the next number above the limit. -/
theorem add_rest_le {base limit x : Binary64} {rest part : ℚ} (hbase : 0 ≤ base.value)
    (hlimit : base.value ≤ limit.value) (hx : limit.value < x.value)
    (hrest : round (limit.value - base.value) = some rest) (hpart : part ≤ rest) :
    base.value + part ≤ x.value := by
  refine (add_le_add_right hpart _).trans ?_
  rcases hlimit.eq_or_lt with hsame | hless
  · rw [hsame, sub_self, round_zero] at hrest
    rw [hsame, ← Option.some.inj hrest, add_zero]
    exact hx.le
  have hdiff : 0 < limit.value - base.value := sub_pos.mpr hless
  have hpositive : 0 < limit.value := hbase.trans_lt hless
  rw [round_of_pos hdiff, nearest] at hrest
  split at hrest
  · obtain rfl := Option.some.inj hrest
    have hnear := (abs_sub_le_iff.mp (significand_near hdiff.le)).1
    -- The grid of the rest is not coarser than that of the limit.
    have hstep : (2 : ℚ) ^ exponentOf (limit.value - base.value) ≤ 2 ^ limit.exponent := by
      refine zpow_le_zpow_right₀ one_le_two (exponentOf_le hdiff limit.representable.2.1 ?_)
      exact (sub_le_self _ hbase).trans_lt (value_lt_power hpositive.le)
    have hgap := add_step_le hpositive.le hx
    have hhalf : (0 : ℚ) < 2 ^ exponentOf (limit.value - base.value) := by positivity
    linarith
  · cases hrest

/-- `0.3 + (0.9 - 0.3)` is the number after `0.9`. -/
example : (do
    let rest ← round (8106479329266893 / 9007199254740992 - 5404319552844595 / 18014398509481984)
    round (5404319552844595 / 18014398509481984 + rest)) =
    some (8106479329266894 / 9007199254740992) := by
  decide +kernel

end Binary64
