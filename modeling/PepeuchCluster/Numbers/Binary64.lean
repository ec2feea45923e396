import Mathlib.Algebra.Order.Field.Power
import Mathlib.Algebra.Order.Field.Rat
import Mathlib.Data.Nat.Log
import Mathlib.Tactic.FieldSimp
import Mathlib.Tactic.Linarith
import Mathlib.Tactic.Positivity
import Mathlib.Tactic.Push
import Mathlib.Tactic.Ring

namespace Binary64

/-- The pairs `(mantissa, exponent)` that binary64 represents: a normal number
    has its leading bit set, a subnormal one the least exponent. -/
def Representable (mantissa : Nat) (exponent : Int) : Prop :=
  mantissa < 2 ^ 53 ∧ -1074 ≤ exponent ∧ exponent ≤ 971 ∧ (2 ^ 52 ≤ mantissa ∨ exponent = -1074)

instance (mantissa : Nat) (exponent : Int) : Decidable (Representable mantissa exponent) := by
  unfold Representable; infer_instance

end Binary64

/-- A finite binary64 number, `±mantissa * 2 ^ exponent`. The representation is
    unique, and both zeros are present. -/
structure Binary64 where
  negative : Bool
  mantissa : Nat
  exponent : Int
  representable : Binary64.Representable mantissa exponent
deriving DecidableEq

namespace Binary64

def zero (negative : Bool) : Binary64 := ⟨negative, 0, -1074, by decide⟩

/-- `2 ^ exponent` with both signs of the exponent kept in the naturals. -/
def scale (base : Nat) (exponent : Int) : ℚ :=
  ((base ^ exponent.toNat : Nat) : ℚ) / ((base ^ (-exponent).toNat : Nat) : ℚ)

def magnitude (x : Binary64) : ℚ := x.mantissa * scale 2 x.exponent

def value (x : Binary64) : ℚ := if x.negative then -x.magnitude else x.magnitude

/-- Rounding of `n / d` to the nearest natural, ties to even. -/
def roundHalfEven (n d : Nat) : Nat :=
  if 2 * (n % d) < d then n / d
  else if d < 2 * (n % d) then n / d + 1
  else n / d + n / d % 2

/-- The exponent of the largest power of two not above `n / d`. -/
def floorLog2 (n d : Nat) : Int :=
  let guess : Int := (Nat.log2 n : Int) - Nat.log2 d
  if d * 2 ^ guess.toNat ≤ n * 2 ^ (-guess).toNat then guess else guess - 1

/-- The nearest binary64 number of a nonnegative rational, `none` on overflow. -/
def ofRat (negative : Bool) (q : ℚ) : Option Binary64 :=
  let n := q.num.natAbs
  let d := q.den
  if n = 0 then some (zero negative)
  else
    let exponent := max (-1074) (floorLog2 n d - 52)
    let rounded := roundHalfEven (n * 2 ^ (-exponent).toNat) (d * 2 ^ exponent.toNat)
    let result := if rounded = 2 ^ 53 then (2 ^ 52, exponent + 1) else (rounded, exponent)
    if h : Representable result.1 result.2 then some ⟨negative, result.1, result.2, h⟩ else none

/-- Correctly rounded value of any rational, as the arithmetic operations deliver it. -/
def ofValue (q : ℚ) : Option Binary64 := ofRat (decide (q < 0)) |q|

/-- `digits * 10 ^ exponent`, read as a decimal literal is. -/
def ofDecimal (negative : Bool) (digits : Nat) (exponent : Int) : Option Binary64 :=
  ofRat negative (digits * scale 10 exponent)

theorem scale_eq_zpow {base : Nat} (hbase : base ≠ 0) (exponent : Int) :
    scale base exponent = (base : ℚ) ^ exponent := by
  have hne : (base : ℚ) ≠ 0 := by exact_mod_cast hbase
  unfold scale
  push_cast
  rw [← zpow_natCast, ← zpow_natCast, ← zpow_sub₀ hne]
  congr 1
  omega

theorem scale_pos {base : Nat} (hbase : base ≠ 0) (exponent : Int) : 0 < scale base exponent := by
  rw [scale_eq_zpow hbase]
  have : (0 : ℚ) < base := by exact_mod_cast Nat.pos_of_ne_zero hbase
  positivity

theorem magnitude_nonneg (x : Binary64) : 0 ≤ x.magnitude :=
  mul_nonneg (Nat.cast_nonneg _) (scale_pos (by decide) _).le

theorem log2_bounds {n : Nat} (hn : n ≠ 0) :
    (2 : ℚ) ^ (Nat.log2 n : Int) ≤ n ∧ (n : ℚ) < (2 : ℚ) ^ ((Nat.log2 n : Int) + 1) := by
  have hlow := Nat.log2_self_le hn
  have hhigh : n < 2 ^ (Nat.log2 n + 1) := Nat.lt_log2_self
  refine ⟨by exact_mod_cast hlow, ?_⟩
  rw [show ((Nat.log2 n : Int) + 1) = ((Nat.log2 n + 1 : Nat) : Int) by push_cast; rfl,
    zpow_natCast]
  exact_mod_cast hhigh

private theorem shifted_le_iff {n d : Nat} (hd : d ≠ 0) (exponent : Int) :
    d * 2 ^ exponent.toNat ≤ n * 2 ^ (-exponent).toNat ↔ (2 : ℚ) ^ exponent ≤ n / d := by
  have hdq : (0 : ℚ) < d := by exact_mod_cast Nat.pos_of_ne_zero hd
  have hpow : (0 : ℚ) < ((2 ^ (-exponent).toNat : Nat) : ℚ) := by positivity
  rw [show ((2 : ℚ) ^ exponent) = scale 2 exponent by rw [scale_eq_zpow (by decide)]; norm_cast]
  unfold scale
  rw [div_le_div_iff₀ hpow hdq, mul_comm (((2 ^ exponent.toNat : Nat) : ℚ))]
  norm_cast

/-- `floorLog2` brackets the quotient between consecutive powers of two. -/
theorem floorLog2_bounds {n d : Nat} (hn : n ≠ 0) (hd : d ≠ 0) :
    (2 : ℚ) ^ floorLog2 n d ≤ n / d ∧ (n : ℚ) / d < (2 : ℚ) ^ (floorLog2 n d + 1) := by
  obtain ⟨hnlow, hnhigh⟩ := log2_bounds hn
  obtain ⟨hdlow, hdhigh⟩ := log2_bounds hd
  have hdq : (0 : ℚ) < d := by exact_mod_cast Nat.pos_of_ne_zero hd
  have hnq : (0 : ℚ) < n := by exact_mod_cast Nat.pos_of_ne_zero hn
  have two : (2 : ℚ) ≠ 0 := by norm_num
  have hupper : (n : ℚ) / d < (2 : ℚ) ^ ((Nat.log2 n : Int) - Nat.log2 d + 1) := by
    rw [div_lt_iff₀ hdq]
    calc (n : ℚ) < 2 ^ ((Nat.log2 n : Int) + 1) := hnhigh
      _ = 2 ^ ((Nat.log2 n : Int) - Nat.log2 d + 1) * 2 ^ (Nat.log2 d : Int) := by
        rw [← zpow_add₀ two]; congr 1; ring
      _ ≤ 2 ^ ((Nat.log2 n : Int) - Nat.log2 d + 1) * d := by gcongr
  have hlower : (2 : ℚ) ^ ((Nat.log2 n : Int) - Nat.log2 d - 1) ≤ n / d := by
    rw [le_div_iff₀ hdq]
    calc (2 : ℚ) ^ ((Nat.log2 n : Int) - Nat.log2 d - 1) * d
        ≤ 2 ^ ((Nat.log2 n : Int) - Nat.log2 d - 1) * 2 ^ ((Nat.log2 d : Int) + 1) := by gcongr
      _ = 2 ^ (Nat.log2 n : Int) := by rw [← zpow_add₀ two]; congr 1; ring
      _ ≤ n := hnlow
  unfold floorLog2
  dsimp only
  by_cases hguess : d * 2 ^ ((Nat.log2 n : Int) - Nat.log2 d).toNat ≤
      n * 2 ^ (-((Nat.log2 n : Int) - Nat.log2 d)).toNat
  · rw [if_pos hguess]
    exact ⟨(shifted_le_iff hd _).mp hguess, hupper⟩
  · rw [if_neg hguess]
    have hbelow := mt (shifted_le_iff hd _).mpr hguess
    exact ⟨hlower, by simpa using lt_of_not_ge hbelow⟩

theorem floorLog2_eq {n d : Nat} (hn : n ≠ 0) (hd : d ≠ 0) {exponent : Int}
    (hlow : (2 : ℚ) ^ exponent ≤ n / d) (hhigh : (n : ℚ) / d < (2 : ℚ) ^ (exponent + 1)) :
    floorLog2 n d = exponent := by
  obtain ⟨hl, hh⟩ := floorLog2_bounds hn hd
  have h1 := (zpow_lt_zpow_iff_right₀ (by norm_num : (1 : ℚ) < 2)).mp (lt_of_le_of_lt hl hhigh)
  have h2 := (zpow_lt_zpow_iff_right₀ (by norm_num : (1 : ℚ) < 2)).mp (lt_of_le_of_lt hlow hh)
  omega

theorem roundHalfEven_exact {n d q : Nat} (hd : 0 < d) (h : n = q * d) : roundHalfEven n d = q := by
  subst h
  simp [roundHalfEven, Nat.mul_div_cancel _ hd, hd]

private theorem exponent_of_exact {x : Binary64} {n d : Nat} (hn : n ≠ 0) (hd : d ≠ 0)
    (hvalue : (n : ℚ) / d = x.magnitude) : max (-1074) (floorLog2 n d - 52) = x.exponent := by
  obtain ⟨hmantissa, hleast, _, hnormal⟩ := x.representable
  have hscale : scale 2 x.exponent = (2 : ℚ) ^ x.exponent := scale_eq_zpow (by decide) _
  have hpos : (0 : ℚ) < 2 ^ x.exponent := by positivity
  have two : (2 : ℚ) ≠ 0 := by norm_num
  have hbelow : (n : ℚ) / d < 2 ^ (52 + x.exponent + 1) := by
    rw [hvalue, magnitude, hscale, show (52 + x.exponent + 1) =
      53 + x.exponent by ring, zpow_add₀ two]
    gcongr
    exact_mod_cast hmantissa
  rcases hnormal with hbit | hsubnormal
  · have habove : (2 : ℚ) ^ (52 + x.exponent) ≤ n / d := by
      rw [hvalue, magnitude, hscale, zpow_add₀ two]
      gcongr
      exact_mod_cast hbit
    rw [floorLog2_eq hn hd habove hbelow]
    omega
  · have hlog := (floorLog2_bounds hn hd).1
    have hlt :=
      (zpow_lt_zpow_iff_right₀ (by norm_num : (1 : ℚ) < 2)).mp (lt_of_le_of_lt hlog hbelow)
    omega

/-- Rounding returns a representable magnitude unchanged, sign included. -/
theorem ofRat_magnitude (x : Binary64) : ofRat x.negative x.magnitude = some x := by
  have hnonneg := x.magnitude_nonneg
  have hden : x.magnitude.den ≠ 0 := x.magnitude.den_nz
  have hdenq : (0 : ℚ) < x.magnitude.den := by exact_mod_cast Nat.pos_of_ne_zero hden
  have hnum : ((x.magnitude.num.natAbs : Nat) : ℚ) / x.magnitude.den = x.magnitude := by
    rw [Nat.cast_natAbs, abs_of_nonneg (Rat.num_nonneg.mpr hnonneg), Rat.num_div_den]
  unfold ofRat
  dsimp only
  by_cases hzero : x.magnitude.num.natAbs = 0
  · rw [if_pos hzero]
    have hmag : x.magnitude = 0 := by rw [← hnum, hzero]; simp
    have hmantissa : x.mantissa = 0 := by
      rcases mul_eq_zero.mp hmag with h | h
      · exact_mod_cast h
      · exact absurd h (scale_pos (by decide) _).ne'
    obtain ⟨negative, mantissa, exponent, hrep⟩ := x
    subst hmantissa
    have hexponent : exponent = -1074 := by
      rcases hrep.2.2.2 with h | h
      · exact absurd h (by norm_num)
      · exact h
    subst hexponent
    rfl
  · rw [if_neg hzero]
    have hexp := exponent_of_exact hzero hden hnum
    simp only [hexp]
    have hround : roundHalfEven (x.magnitude.num.natAbs * 2 ^ (-x.exponent).toNat)
        (x.magnitude.den * 2 ^ x.exponent.toNat) = x.mantissa := by
      apply roundHalfEven_exact (by positivity)
      have hpow : ((2 ^ (-x.exponent).toNat : Nat) : ℚ) ≠ 0 := by positivity
      have h : ((x.magnitude.num.natAbs : Nat) : ℚ) * ((2 ^ (-x.exponent).toNat : Nat) : ℚ) =
          x.mantissa * (x.magnitude.den * ((2 ^ x.exponent.toNat : Nat) : ℚ)) := by
        have hval : ((x.magnitude.num.natAbs : Nat) : ℚ) / x.magnitude.den =
            x.mantissa * scale 2 x.exponent := hnum
        unfold scale at hval
        field_simp at hval
        linarith
      exact_mod_cast h
    have hsmall : x.mantissa ≠ 2 ^ 53 := x.representable.1.ne
    simp only [hround, if_neg hsmall, dif_pos x.representable]

theorem roundHalfEven_le {n d m : Nat} (hd : 0 < d) (h : n ≤ m * d) : roundHalfEven n d ≤ m := by
  have hdiv : n / d ≤ m := Nat.div_le_of_le_mul (by rw [mul_comm]; exact h)
  have hsplit := Nat.div_add_mod n d
  by_cases heq : n / d = m
  · have hmod : n % d = 0 := by
      rw [heq, mul_comm] at hsplit
      omega
    rw [roundHalfEven, hmod, if_pos (by omega)]
    exact hdiv
  · have hodd : n / d % 2 ≤ 1 := by omega
    unfold roundHalfEven
    split
    · exact hdiv
    · split <;> omega

theorem le_roundHalfEven {n d m : Nat} (hd : 0 < d) (h : m * d ≤ n) : m ≤ roundHalfEven n d := by
  have hdiv : m ≤ n / d := (Nat.le_div_iff_mul_le hd).mpr h
  unfold roundHalfEven
  split
  · exact hdiv
  · split <;> omega

end Binary64
