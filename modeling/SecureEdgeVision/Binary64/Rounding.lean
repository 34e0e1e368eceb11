import Mathlib.Data.Nat.Log
import Mathlib.Tactic.Ring
import Mathlib.Tactic.Positivity

/-! Finite binary64 values with their canonical significand and scale, and the correctly
rounded conversion of an exact ratio. A value is counted in units of the least positive
subnormal, so every comparison is one of integers. -/
namespace Binary64

/-- The least positive value is `2 ^ -1074`; one is this many units. -/
def unitsPerOne : ℕ := 2 ^ 1074

/-- A finite binary64 value, `± significand * 2 ^ scale` units. Zero keeps its sign. -/
structure Finite where
  negative : Bool
  significand : ℕ
  scale : ℕ
  significand_lt : significand < 2 ^ 53
  scale_le : scale ≤ 2045
  canonical : 2 ^ 52 ≤ significand ∨ scale = 0
deriving DecidableEq

namespace Finite

def magnitude (x : Finite) : ℕ := x.significand * 2 ^ x.scale

/-- The signed number of units. Both zeros count as zero. -/
def units (x : Finite) : ℤ := if x.negative then -(x.magnitude : ℤ) else x.magnitude

instance : LE Finite := ⟨fun x y => x.units ≤ y.units⟩
instance : LT Finite := ⟨fun x y => x.units < y.units⟩
instance : DecidableLE Finite := fun x y => inferInstanceAs (Decidable (x.units ≤ y.units))
instance : DecidableLT Finite := fun x y => inferInstanceAs (Decidable (x.units < y.units))

theorem le_def (x y : Finite) : x ≤ y ↔ x.units ≤ y.units := Iff.rfl
theorem lt_def (x y : Finite) : x < y ↔ x.units < y.units := Iff.rfl

def zero (negative : Bool := false) : Finite :=
  ⟨negative, 0, 0, by decide, by decide, Or.inr rfl⟩

def one : Finite := ⟨false, 2 ^ 52, 1022, by decide, by decide, Or.inl le_rfl⟩

theorem one_magnitude : one.magnitude = unitsPerOne := by
  unfold magnitude unitsPerOne one
  rw [← Nat.pow_add]
  exact congrArg (2 ^ ·) rfl

end Finite

/-- The quotient rounded to the nearest natural number, a tie going to the even one. -/
def roundHalfEven (n d : ℕ) : ℕ :=
  let quotient := n / d
  let twice := 2 * (n % d)
  if d < twice ∨ (twice = d ∧ quotient % 2 = 1) then quotient + 1 else quotient

theorem roundHalfEven_exact {d : ℕ} (hd : 0 < d) (k : ℕ) : roundHalfEven (k * d) d = k := by
  have hmod : k * d % d = 0 := Nat.mul_mod_left k d
  have hdiv : k * d / d = k := Nat.mul_div_cancel k hd
  simp [roundHalfEven, hmod, hdiv, hd.ne]

theorem roundHalfEven_le (n d : ℕ) : roundHalfEven n d ≤ n / d + 1 := by
  unfold roundHalfEven
  dsimp only
  split_ifs <;> omega

theorem le_roundHalfEven (n d : ℕ) : n / d ≤ roundHalfEven n d := by
  unfold roundHalfEven
  dsimp only
  split_ifs <;> omega

/-- Fifty-three significant bits of `units`, or all of them below the normal range. -/
def scaleOf (units : ℕ) : ℕ := units.log2 - 52

theorem div_scaleOf_lt (u : ℕ) : u / 2 ^ scaleOf u < 2 ^ 53 := by
  rw [Nat.div_lt_iff_lt_mul (by positivity), ← Nat.pow_add]
  have hlog : u < 2 ^ (u.log2 + 1) := Nat.lt_log2_self
  exact hlog.trans_le (Nat.pow_le_pow_right (by decide) (by unfold scaleOf; omega))

theorem le_div_scaleOf {u : ℕ} (h : scaleOf u ≠ 0) : 2 ^ 52 ≤ u / 2 ^ scaleOf u := by
  have hne : u ≠ 0 := by rintro rfl; exact h (by decide)
  rw [Nat.le_div_iff_mul_le (by positivity), ← Nat.pow_add]
  have hlog : 2 ^ u.log2 ≤ u := Nat.log2_self_le hne
  refine le_trans (Nat.pow_le_pow_right (by decide) ?_) hlog
  unfold scaleOf at h ⊢
  omega

/-- The rounded significand of `n / d` units, before a carry into the next scale. -/
def significandOf (n d : ℕ) : ℕ := roundHalfEven n (d * 2 ^ scaleOf (n / d))

theorem significandOf_le (n d : ℕ) : significandOf n d ≤ 2 ^ 53 := by
  have hround := roundHalfEven_le n (d * 2 ^ scaleOf (n / d))
  have hlt := div_scaleOf_lt (n / d)
  rw [Nat.div_div_eq_div_mul] at hlt
  unfold significandOf
  omega

theorem le_significandOf {n d : ℕ} (h : scaleOf (n / d) ≠ 0) : 2 ^ 52 ≤ significandOf n d := by
  have hround := le_roundHalfEven n (d * 2 ^ scaleOf (n / d))
  have hle := le_div_scaleOf h
  rw [Nat.div_div_eq_div_mul] at hle
  exact hle.trans hround

/-- Round `n / d` units to the nearest value, a tie going to the even significand; `none`
is an overflow to infinity. -/
def ofUnits (negative : Bool) (n d : ℕ) : Option Finite :=
  let scale := scaleOf (n / d)
  if hcarry : significandOf n d = 2 ^ 53 then
    if hs : scale + 1 ≤ 2045 then
      some ⟨negative, 2 ^ 52, scale + 1, by decide, hs, Or.inl le_rfl⟩
    else none
  else if hs : scale ≤ 2045 then
    some ⟨negative, significandOf n d, scale,
      lt_of_le_of_ne (significandOf_le n d) hcarry, hs,
      or_iff_not_imp_right.mpr le_significandOf⟩
  else none

/-- Round the ratio `n / d`. -/
def ofRatio (negative : Bool) (n d : ℕ) : Option Finite := ofUnits negative (n * unitsPerOne) d

theorem scaleOf_magnitude (x : Finite) : scaleOf x.magnitude = x.scale := by
  unfold scaleOf Finite.magnitude
  rcases x.canonical with hnormal | hzero
  · have hpos : x.significand ≠ 0 := by
      have : 0 < 2 ^ 52 := by decide
      omega
    have hlog : x.significand.log2 = 52 := by
      have hlo := (Nat.le_log2 hpos).mpr hnormal
      have hhi := (Nat.log2_lt hpos).mpr x.significand_lt
      omega
    have hmul : (x.significand * 2 ^ x.scale).log2 = 52 + x.scale := by
      rw [Nat.log2_eq_iff (by positivity)]
      have hlo := Nat.log2_self_le hpos
      have hhi : x.significand < 2 ^ (x.significand.log2 + 1) := Nat.lt_log2_self
      rw [hlog] at hlo hhi
      constructor
      · rw [Nat.pow_add]
        exact Nat.mul_le_mul_right _ hlo
      · rw [show 52 + x.scale + 1 = 52 + 1 + x.scale by omega, Nat.pow_add]
        exact Nat.mul_lt_mul_of_pos_right hhi (by positivity)
    omega
  · rw [hzero, Nat.pow_zero, Nat.mul_one]
    by_cases hz : x.significand = 0
    · simp [hz]
    · have := (Nat.log2_lt hz).mpr x.significand_lt
      omega

/-- Rounding a ratio that a binary64 value equals exactly returns that value. -/
theorem ofUnits_exact {x : Finite} {n d : ℕ} (hd : 0 < d) (h : n = x.magnitude * d) :
    ofUnits x.negative n d = some x := by
  have hdiv : n / d = x.magnitude := by rw [h, Nat.mul_div_cancel _ hd]
  have hsig : significandOf n d = x.significand := by
    unfold significandOf
    rw [hdiv, scaleOf_magnitude, h]
    have hmul : x.magnitude * d = x.significand * (d * 2 ^ x.scale) := by
      unfold Finite.magnitude; ring
    rw [hmul]
    exact roundHalfEven_exact (by positivity) _
  unfold ofUnits
  simp only [hsig, hdiv, scaleOf_magnitude]
  rw [dif_neg x.significand_lt.ne, dif_pos x.scale_le]

/-- `float(n)` of an integer. -/
def ofInt (n : ℤ) : Option Finite := ofRatio (n < 0) n.natAbs 1

namespace Finite

/-- The rounded difference. An exact zero is negative only as `-0.0 - 0.0`. -/
def sub (x y : Finite) : Option Finite :=
  let difference := x.units - y.units
  if difference = 0 then some (zero (x.negative && !y.negative))
  else ofUnits (difference < 0) difference.natAbs 1

/-- The rounded sum. An exact zero is negative only as `-0.0 + -0.0`. -/
def add (x y : Finite) : Option Finite :=
  let sum := x.units + y.units
  if sum = 0 then some (zero (x.negative && y.negative))
  else ofUnits (sum < 0) sum.natAbs 1

/-- The rounded quotient, for a divisor that is not zero. -/
def div (x y : Finite) : Option Finite :=
  ofUnits (x.negative != y.negative) (x.magnitude * unitsPerOne) y.magnitude

/-- The rounded product. -/
def mul (x y : Finite) : Option Finite :=
  ofUnits (x.negative != y.negative) (x.magnitude * y.magnitude) unitsPerOne

def thousand : Finite :=
  ⟨false, 1000 * 2 ^ 43, 1031, by decide, by decide, Or.inl (by decide)⟩

end Finite

theorem ofRatio_exact {x : Finite} {n d : ℕ} (hd : 0 < d)
    (h : n * unitsPerOne = x.magnitude * d) : ofRatio x.negative n d = some x :=
  ofUnits_exact hd h

end Binary64
