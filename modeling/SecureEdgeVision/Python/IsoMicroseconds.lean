import SecureEdgeVision.Python.IsoFormat
import Mathlib.Data.String.Basic

/-! `isoformat(timespec="microseconds")`: text of one length, which orders as the times do. -/
namespace Python

/-- `isoformat(timespec="microseconds")` without an offset. -/
def isoformatMicroseconds (d : Datetime) : List Char :=
  dateText d.date ++ 'T' :: clockText d ('.' :: zeroPadded 6 d.microsecond)

theorem fromisoformat_isoformatMicroseconds {d : Datetime} (hd : d.isValid = true)
    {zone : List Char} (hz : IsUtcSuffix zone) :
    fromisoformat (Str.ofChars (isoformatMicroseconds d ++ zone)) =
      some { d with offset := some 0 } := by
  have hsplit : isoformatMicroseconds d ++ zone = dateText d.date ++
      'T' :: (clockText d ('.' :: zeroPadded 6 d.microsecond) ++ zone) := by
    rw [isoformatMicroseconds, List.append_assoc]
    rfl
  rw [hsplit]
  exact fromisoformat_utc hd (Or.inr rfl) hz

theorem mem_isoformatMicroseconds {d : Datetime} {c : Char} (h : c ∈ isoformatMicroseconds d) :
    c.isDigit = true ∨ c = '-' ∨ c = 'T' ∨ c = ':' ∨ c = '.' := by
  rcases List.mem_append.mp h with h | h
  · rcases mem_dateText h with h | h
    · exact Or.inl h
    · exact Or.inr (Or.inl h)
  · rcases List.mem_cons.mp h with h | h
    · exact Or.inr (Or.inr (Or.inl h))
    · rcases mem_clockText (Or.inr rfl) h with h | h
      · exact Or.inl h
      · exact Or.inr (Or.inr (Or.inr h))

theorem isoformatMicroseconds_length (d : Datetime) : (isoformatMicroseconds d).length = 26 := by
  simp [isoformatMicroseconds, dateText, clockText]

section Order

theorem append_lt_append {a b c d : List Char} (hlength : a.length = b.length) (h : a < b) :
    a ++ c < b ++ d := by
  induction a generalizing b with
  | nil =>
    obtain rfl : b = [] := List.eq_nil_of_length_eq_zero hlength.symm
    exact absurd h (List.not_lt_nil _)
  | cons x a ih =>
    obtain _ | ⟨y, b⟩ := b
    · cases hlength
    · rw [List.cons_append, List.cons_append, List.cons_lt_cons_iff]
      rcases List.cons_lt_cons_iff.mp h with h | ⟨hxy, h⟩
      · exact Or.inl h
      · exact Or.inr ⟨hxy, ih (Nat.succ.inj hlength) h⟩

theorem append_lt_append_right {a c d : List Char} (h : c < d) : a ++ c < a ++ d := by
  induction a with
  | nil => exact h
  | cons x a ih => exact List.cons_lt_cons_iff.mpr (Or.inr ⟨rfl, ih⟩)

theorem digitChar_lt {d e : ℕ} (he : e < 10) (h : d < e) : d.digitChar < e.digitChar := by
  interval_cases e <;> interval_cases d <;> decide

/-- Padded numbers of one width compare as numbers. -/
theorem zeroPadded_lt {width m n : ℕ} (hn : n < 10 ^ width) (h : m < n) :
    zeroPadded width m < zeroPadded width n := by
  induction width generalizing m n with
  | zero => omega
  | succ width ih =>
    rw [Nat.pow_succ] at hn
    unfold zeroPadded
    by_cases hhead : m / 10 < n / 10
    · exact append_lt_append (by simp) (ih (by omega) hhead)
    · have hsame : m / 10 = n / 10 := by omega
      rw [hsame]
      refine append_lt_append_right (List.cons_lt_cons_iff.mpr (Or.inl ?_))
      exact digitChar_lt (Nat.mod_lt _ (by decide)) (by omega)

/-- A padded number decides, or the text after it does. -/
theorem zeroPadded_append_lt {width m n : ℕ} {a b : List Char} (hn : n < 10 ^ width)
    (h : m < n ∨ m = n ∧ a < b) : zeroPadded width m ++ a < zeroPadded width n ++ b := by
  rcases h with h | ⟨rfl, h⟩
  · exact append_lt_append (by simp) (zeroPadded_lt hn h)
  · exact append_lt_append_right h

theorem dateText_lt {d e : Date} (he : e.isValid = true) (h : d.Before e) :
    dateText d < dateText e := by
  simp only [Date.isValid, Bool.and_eq_true, decide_eq_true_eq] at he
  have hdays : daysInMonth (isLeap e.year) e.month ≤ 31 := by
    unfold daysInMonth
    split <;> [split_ifs; skip; skip; skip; skip; skip] <;> omega
  unfold dateText
  refine zeroPadded_append_lt (by omega) (h.imp_right (And.imp_right fun h => ?_))
  refine List.cons_lt_cons_iff.mpr (Or.inr ⟨rfl, ?_⟩)
  refine zeroPadded_append_lt (by omega) (h.imp_right (And.imp_right fun h => ?_))
  exact List.cons_lt_cons_iff.mpr (Or.inr ⟨rfl, zeroPadded_lt (by omega) h⟩)

theorem div_lt_or {m n : ℕ} (h : m < n) (k : ℕ) :
    m / k < n / k ∨ m / k = n / k ∧ m % k < n % k := by
  rcases Nat.lt_or_ge (m / k) (n / k) with hlt | hge
  · exact Or.inl hlt
  · have hsame : m / k = n / k := le_antisymm (Nat.div_le_div_right h.le) hge
    refine Or.inr ⟨hsame, ?_⟩
    have hm := Nat.div_add_mod m k
    have hn := Nat.div_add_mod n k
    rw [hsame] at hm
    omega

/-- Of two times on one day the earlier has the smaller hour, minute, second or fraction. -/
theorem clock_lt {m n : ℕ} (h : m < n) (hday : m / 86400000000 = n / 86400000000) :
    m / 3600000000 % 24 < n / 3600000000 % 24 ∨
      m / 3600000000 % 24 = n / 3600000000 % 24 ∧
        (m / 60000000 % 60 < n / 60000000 % 60 ∨ m / 60000000 % 60 = n / 60000000 % 60 ∧
          (m / 1000000 % 60 < n / 1000000 % 60 ∨ m / 1000000 % 60 = n / 1000000 % 60 ∧
            m % 1000000 < n % 1000000)) := by
  have hsplit : ∀ k : ℕ, k / 60000000 = k / 1000000 / 60 ∧ k / 3600000000 = k / 1000000 / 60 / 60 ∧
      k / 86400000000 = k / 1000000 / 60 / 60 / 24 := by
    intro k
    simp only [Nat.div_div_eq_div_mul, Nat.reduceMul, and_self]
  rw [(hsplit m).1, (hsplit n).1, (hsplit m).2.1, (hsplit n).2.1]
  rw [(hsplit m).2.2, (hsplit n).2.2] at hday
  rcases div_lt_or h 1000000 with h | ⟨hseconds, h⟩
  · rcases div_lt_or h 60 with h | ⟨hminutes, h⟩
    · rcases div_lt_or h 60 with h | ⟨hhours, h⟩
      · rcases div_lt_or h 24 with h | ⟨-, h⟩
        · exact absurd hday h.ne
        · exact Or.inl h
      · rw [hhours]
        exact Or.inr ⟨rfl, Or.inl h⟩
    · rw [hminutes]
      exact Or.inr ⟨rfl, Or.inr ⟨rfl, Or.inl h⟩⟩
  · rw [hseconds]
    exact Or.inr ⟨rfl, Or.inr ⟨rfl, Or.inr ⟨rfl, h⟩⟩⟩

/-- The text of an earlier time is smaller. -/
theorem isoformatMicroseconds_lt {m n : ℕ} (hn : n ≤ 315537897599999999) (h : m < n)
    (offset : Option ℤ) :
    isoformatMicroseconds (Datetime.ofMicros m offset) <
      isoformatMicroseconds (Datetime.ofMicros n offset) := by
  have hvalid : ∀ k ≤ n, (ordToYmd (k / 86400000000 + 1)).isValid = true := fun k hk =>
    ordToYmd_isValid (by omega) (by omega)
  unfold isoformatMicroseconds clockText Datetime.ofMicros
  dsimp only
  by_cases hday : m / 86400000000 < n / 86400000000
  · refine append_lt_append (by simp [dateText]) (dateText_lt (hvalid n le_rfl) ?_)
    refine Date.before_of_ord (hvalid m h.le) (hvalid n le_rfl) ?_
    rw [ymdToOrd_ordToYmd (by omega), ymdToOrd_ordToYmd (by omega)]
    omega
  · have hsame : m / 86400000000 = n / 86400000000 := by omega
    rw [hsame]
    refine append_lt_append_right (List.cons_lt_cons_iff.mpr (Or.inr ⟨rfl, ?_⟩))
    have hclock := clock_lt h hsame
    refine zeroPadded_append_lt (by omega) (hclock.imp_right (And.imp_right fun h => ?_))
    refine List.cons_lt_cons_iff.mpr (Or.inr ⟨rfl, ?_⟩)
    refine zeroPadded_append_lt (by omega) (h.imp_right (And.imp_right fun h => ?_))
    refine List.cons_lt_cons_iff.mpr (Or.inr ⟨rfl, ?_⟩)
    refine zeroPadded_append_lt (by omega) (h.imp_right (And.imp_right fun h => ?_))
    exact List.cons_lt_cons_iff.mpr (Or.inr ⟨rfl, zeroPadded_lt (by omega) h⟩)

end Order

end Python
