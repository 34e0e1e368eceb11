import Mathlib.Algebra.Order.Group.Nat
import Mathlib.Data.Nat.Basic
import Mathlib.Order.Monotone.Basic
import Mathlib.Tactic.IntervalCases

/-! The proleptic Gregorian calendar of `datetime`: ordinals, with 0001-01-01 as day one,
and year, month and day. -/
namespace Python

def isLeap (year : ℕ) : Bool := year % 4 == 0 && (year % 100 != 0 || year % 400 == 0)

/-- The days before January 1st of the year. -/
def daysBeforeYear (year : ℕ) : ℕ :=
  let y := year - 1
  y * 365 + y / 4 - y / 100 + y / 400

def daysInMonth (leap : Bool) (month : ℕ) : ℕ :=
  match month with
  | 2 => if leap then 29 else 28
  | 4 | 6 | 9 | 11 => 30
  | _ => 31

/-- The days of the year before the first day of the month. -/
def daysBeforeMonth (leap : Bool) (month : ℕ) : ℕ :=
  let common :=
    match month with
    | 1 => 0 | 2 => 31 | 3 => 59 | 4 => 90 | 5 => 120 | 6 => 151
    | 7 => 181 | 8 => 212 | 9 => 243 | 10 => 273 | 11 => 304 | _ => 334
  common + if leap && 2 < month then 1 else 0

structure Date where
  year : ℕ
  month : ℕ
  day : ℕ
deriving DecidableEq

/-- The checks of the `date` constructor. -/
def Date.isValid (d : Date) : Bool :=
  1 ≤ d.year && d.year ≤ 9999 && 1 ≤ d.month && d.month ≤ 12 && 1 ≤ d.day &&
    d.day ≤ daysInMonth (isLeap d.year) d.month

def ymdToOrd (d : Date) : ℕ :=
  daysBeforeYear d.year + daysBeforeMonth (isLeap d.year) d.month + d.day

/-- Month and day from the offset in days from January 1st, by an estimate of the month
that is exact or one too large. -/
def monthAndDay (leap : Bool) (n : ℕ) : ℕ × ℕ :=
  let estimate := (n + 50) / 32
  let month := if n < daysBeforeMonth leap estimate then estimate - 1 else estimate
  (month, n - daysBeforeMonth leap month + 1)

/-- Ordinal to date, through the cycles of 400, 100, 4 and 1 years. -/
def ordToYmd (ordinal : ℕ) : Date :=
  let n := ordinal - 1
  let n400 := n / 146097
  let n := n % 146097
  let n100 := n / 36524
  let n := n % 36524
  let n4 := n / 1461
  let n := n % 1461
  let n1 := n / 365
  let n := n % 365
  let year := n400 * 400 + 1 + n100 * 100 + n4 * 4 + n1
  if n1 = 4 ∨ n100 = 4 then ⟨year - 1, 12, 31⟩
  else
    let leap := n1 == 3 && (n4 != 24 || n100 == 3)
    let md := monthAndDay leap n
    ⟨year, md.1, md.2⟩

/-- Every day of a common or a leap year falls in its month. -/
theorem monthAndDay_spec : ∀ leap : Bool, ∀ n < 366, (n < 365 ∨ leap = true) →
    1 ≤ (monthAndDay leap n).1 ∧ (monthAndDay leap n).1 ≤ 12 ∧ 1 ≤ (monthAndDay leap n).2 ∧
      (monthAndDay leap n).2 ≤ daysInMonth leap (monthAndDay leap n).1 ∧
      daysBeforeMonth leap (monthAndDay leap n).1 + (monthAndDay leap n).2 = n + 1 := by
  decide +kernel

/-- The year in its 400, 100, 4 and 1 year cycles. -/
theorem daysBeforeYear_cycles {a b c d : ℕ} (hb : b ≤ 3) (hc : c ≤ 24) (hd : d ≤ 3) :
    daysBeforeYear (a * 400 + 1 + b * 100 + c * 4 + d) =
      a * 146097 + b * 36524 + c * 1461 + d * 365 := by
  unfold daysBeforeYear
  dsimp only
  omega

theorem isLeap_cycles {a b c d : ℕ} (hb : b ≤ 3) (hc : c ≤ 24) (hd : d ≤ 3) :
    isLeap (a * 400 + 1 + b * 100 + c * 4 + d) = (d == 3 && (c != 24 || b == 3)) := by
  rw [Bool.eq_iff_iff]
  simp only [isLeap, Bool.and_eq_true, Bool.or_eq_true, beq_iff_eq, bne_iff_ne]
  omega

/-- What the cycles leave of an ordinal: the last day of a leap year that closes a cycle, or
an offset of less than 365 days into a year. -/
theorem ordToYmd_cases {n : ℕ} (hn : 1 ≤ n) :
    ∃ a b c d, b ≤ 3 ∧ c ≤ 24 ∧ d ≤ 3 ∧
      ((n = a * 146097 + b * 36524 + c * 1461 + d * 365 + 366 ∧
        (d == 3 && (c != 24 || b == 3)) = true ∧
        ordToYmd n = ⟨a * 400 + 1 + b * 100 + c * 4 + d, 12, 31⟩) ∨
      ∃ k < 365, n = a * 146097 + b * 36524 + c * 1461 + d * 365 + k + 1 ∧
        ordToYmd n = ⟨a * 400 + 1 + b * 100 + c * 4 + d,
          (monthAndDay (d == 3 && (c != 24 || b == 3)) k).1,
          (monthAndDay (d == 3 && (c != 24 || b == 3)) k).2⟩) := by
  by_cases hb : (n - 1) % 146097 / 36524 = 4
  · refine ⟨(n - 1) / 146097, 3, 24, 3, by omega, by omega, by omega, Or.inl ⟨by omega, rfl, ?_⟩⟩
    unfold ordToYmd
    dsimp only
    rw [if_pos (Or.inr hb)]
    congr 1
    omega
  · by_cases hd : (n - 1) % 146097 % 36524 % 1461 / 365 = 4
    · refine ⟨(n - 1) / 146097, (n - 1) % 146097 / 36524, (n - 1) % 146097 % 36524 / 1461, 3,
        by omega, by omega, by omega, Or.inl ⟨by omega, ?_, ?_⟩⟩
      · simp only [beq_self_eq_true, Bool.true_and, Bool.or_eq_true, bne_iff_ne, beq_iff_eq]
        omega
      · unfold ordToYmd
        dsimp only
        rw [if_pos (Or.inl hd)]
        congr 1
        omega
    · refine ⟨(n - 1) / 146097, (n - 1) % 146097 / 36524, (n - 1) % 146097 % 36524 / 1461,
        (n - 1) % 146097 % 36524 % 1461 / 365, by omega, by omega, by omega,
        Or.inr ⟨(n - 1) % 146097 % 36524 % 1461 % 365, by omega, by omega, ?_⟩⟩
      unfold ordToYmd
      dsimp only
      rw [if_neg (not_or.mpr ⟨hd, hb⟩)]

/-- Converting an ordinal to a date and back. -/
theorem ymdToOrd_ordToYmd {n : ℕ} (hn : 1 ≤ n) : ymdToOrd (ordToYmd n) = n := by
  obtain ⟨a, b, c, d, hb, hc, hd, ⟨hsum, hleap, hs⟩ | ⟨k, hk, hsum, hs⟩⟩ := ordToYmd_cases hn
  · rw [hs, ymdToOrd, daysBeforeYear_cycles hb hc hd, isLeap_cycles hb hc hd, hleap]
    have hdecember : daysBeforeMonth true 12 = 335 := rfl
    dsimp only
    omega
  · obtain ⟨-, -, -, -, hmonth⟩ := monthAndDay_spec (d == 3 && (c != 24 || b == 3)) k
      (by omega) (Or.inl hk)
    rw [hs, ymdToOrd, daysBeforeYear_cycles hb hc hd, isLeap_cycles hb hc hd]
    dsimp only
    omega

/-- Every ordinal up to 9999-12-31 is a date. -/
theorem ordToYmd_isValid {n : ℕ} (hn : 1 ≤ n) (hle : n ≤ 3652059) :
    (ordToYmd n).isValid = true := by
  obtain ⟨a, b, c, d, hb, hc, hd, ⟨hsum, hleap, hs⟩ | ⟨k, hk, hsum, hs⟩⟩ := ordToYmd_cases hn
  · rw [hs, Date.isValid]
    simp only [Bool.and_eq_true, decide_eq_true_eq, daysInMonth]
    omega
  · obtain ⟨h1, h2, h3, h4, -⟩ := monthAndDay_spec (d == 3 && (c != 24 || b == 3)) k
      (by omega) (Or.inl hk)
    rw [hs, Date.isValid, isLeap_cycles hb hc hd]
    simp only [Bool.and_eq_true, decide_eq_true_eq]
    refine ⟨⟨⟨⟨⟨?_, ?_⟩, h1⟩, h2⟩, h3⟩, h4⟩ <;> omega

theorem daysBeforeMonth_le : ∀ leap : Bool, ∀ month ≤ 12, 1 ≤ month →
    daysBeforeMonth leap month + daysInMonth leap month ≤ 365 + leap.toNat := by
  decide

theorem ymdToOrd_le {d : Date} (h : d.isValid = true) : ymdToOrd d ≤ 3652059 := by
  simp only [Date.isValid, Bool.and_eq_true, decide_eq_true_eq] at h
  obtain ⟨⟨⟨⟨⟨hyear, hyear'⟩, hmonth⟩, hmonth'⟩, -⟩, hday⟩ := h
  have hdays := daysBeforeMonth_le (isLeap d.year) d.month hmonth' hmonth
  have hleap : isLeap d.year = true → d.year ≤ 9996 := by
    simp only [isLeap, Bool.and_eq_true, beq_iff_eq]
    omega
  unfold ymdToOrd daysBeforeYear
  dsimp only
  cases hl : isLeap d.year with
  | false =>
    rw [hl] at hdays hday
    simp only [Bool.toNat_false] at hdays
    omega
  | true =>
    have hbound := hleap hl
    rw [hl] at hdays hday
    simp only [Bool.toNat_true] at hdays
    omega

section Order

/-- The earlier year, month or day. -/
def Date.Before (d e : Date) : Prop :=
  d.year < e.year ∨ d.year = e.year ∧ (d.month < e.month ∨ d.month = e.month ∧ d.day < e.day)

/-- A division steps up where the divisor divides. -/
theorem succ_div_eq (n k : ℕ) : (n + 1) / k = n / k + (decide ((n + 1) % k = 0)).toNat := by
  rw [Nat.succ_div]
  by_cases h : k ∣ n + 1
  · rw [if_pos h, decide_eq_true (Nat.mod_eq_zero_of_dvd h)]
    rfl
  · rw [if_neg h, decide_eq_false (fun he => h (Nat.dvd_of_mod_eq_zero he))]
    rfl

theorem isLeap_toNat (year : ℕ) :
    (isLeap year).toNat + (decide (year % 100 = 0)).toNat =
      (decide (year % 4 = 0)).toNat + (decide (year % 400 = 0)).toNat := by
  unfold isLeap
  by_cases h400 : year % 400 = 0
  · have h100 : year % 100 = 0 := by omega
    have h4 : year % 4 = 0 := by omega
    simp [h400, h100, h4]
  · by_cases h100 : year % 100 = 0
    · have h4 : year % 4 = 0 := by omega
      simp [h400, h100, h4]
    · by_cases h4 : year % 4 = 0
      · simp [h400, h100, h4]
      · simp [h400, h100, h4]

theorem daysBeforeYear_succ (year : ℕ) :
    daysBeforeYear (year + 2) = daysBeforeYear (year + 1) + 365 + (isLeap (year + 1)).toNat := by
  have hcentury : year / 100 ≤ year / 4 := Nat.div_le_div_left (by decide) (by decide)
  have hleap := isLeap_toNat (year + 1)
  have hcentury' : (decide ((year + 1) % 100 = 0)).toNat ≤ (decide ((year + 1) % 4 = 0)).toNat := by
    by_cases h100 : (year + 1) % 100 = 0
    · rw [decide_eq_true (by omega : (year + 1) % 4 = 0)]
      exact Bool.toNat_le _
    · rw [decide_eq_false h100]
      exact Nat.zero_le _
  unfold daysBeforeYear
  rw [show year + 2 - 1 = year + 1 from rfl, Nat.add_sub_cancel]
  dsimp only
  rw [succ_div_eq year 4, succ_div_eq year 100, succ_div_eq year 400]
  omega

theorem daysBeforeYear_mono : Monotone daysBeforeYear := by
  refine monotone_nat_of_le_succ fun year => ?_
  cases year with
  | zero => exact Nat.zero_le _
  | succ year =>
    rw [daysBeforeYear_succ]
    omega

theorem daysBeforeMonth_later : ∀ leap : Bool, ∀ later ≤ 12, ∀ month < later, 1 ≤ month →
    daysBeforeMonth leap month + daysInMonth leap month ≤ daysBeforeMonth leap later := by
  decide

/-- Ordinals follow the calendar. -/
theorem ymdToOrd_lt {d e : Date} (hd : d.isValid = true) (he : e.isValid = true)
    (h : d.Before e) : ymdToOrd d < ymdToOrd e := by
  simp only [Date.isValid, Bool.and_eq_true, decide_eq_true_eq] at hd he
  obtain ⟨⟨⟨⟨⟨hyear, -⟩, hmonth⟩, hmonth'⟩, -⟩, hday⟩ := hd
  obtain ⟨⟨⟨⟨⟨-, -⟩, -⟩, hlater⟩, hfirst⟩, -⟩ := he
  rcases h with h | ⟨hyears, h | ⟨hmonths, h⟩⟩
  · have hend := daysBeforeMonth_le (isLeap d.year) d.month hmonth' hmonth
    obtain ⟨y, hy⟩ := Nat.exists_eq_add_of_le' hyear
    have hnext := daysBeforeYear_succ y
    have hmono := daysBeforeYear_mono (by omega : y + 2 ≤ e.year)
    unfold ymdToOrd
    rw [hy] at hend hday ⊢
    omega
  · have hend := daysBeforeMonth_later (isLeap d.year) e.month hlater d.month h hmonth
    unfold ymdToOrd
    rw [← hyears]
    omega
  · unfold ymdToOrd
    rw [← hyears, ← hmonths]
    omega

theorem Date.before_of_ord {d e : Date} (hd : d.isValid = true) (he : e.isValid = true)
    (h : ymdToOrd d < ymdToOrd e) : d.Before e := by
  by_contra hnot
  have hcases : d = e ∨ e.Before d := by
    obtain ⟨y, m, n⟩ := d
    obtain ⟨y', m', n'⟩ := e
    simp only [Date.Before, Date.mk.injEq] at hnot ⊢
    omega
  rcases hcases with rfl | hbefore
  · exact lt_irrefl _ h
  · exact lt_asymm h (ymdToOrd_lt he hd hbefore)

end Order

end Python
