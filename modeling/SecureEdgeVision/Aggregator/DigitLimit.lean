import SecureEdgeVision.Aggregator.Request
import SecureEdgeVision.Python.Decimal

/-! The comparison of a declared length with its limit, read as a comparison of numbers. -/
namespace SecureEdge

/-- Text that `isascii` and `isdecimal` both admit. -/
def IsAsciiDecimal (raw : List Char) : Prop := raw ≠ [] ∧ ∀ c ∈ raw, c.isDigit = true

instance (raw : List Char) : Decidable (IsAsciiDecimal raw) :=
  inferInstanceAs (Decidable (_ ∧ _))

theorem decimalValue_dropWhile_zero (raw : List Char) :
    Python.decimalValue (raw.dropWhile (· = '0')) = Python.decimalValue raw := by
  induction raw with
  | nil => rfl
  | cons c cs ih =>
    by_cases hc : c = '0'
    · subst hc
      rw [List.dropWhile_cons_of_pos (by simp), ih]
      rfl
    · rw [List.dropWhile_cons_of_neg (by simpa using hc)]

/-- Leading zeros do not count. -/
theorem decimalValue_normalizeDigits (raw : List Char) :
    Python.decimalValue (normalizeDigits raw) = Python.decimalValue raw := by
  rw [← decimalValue_dropWhile_zero raw]
  unfold normalizeDigits
  cases raw.dropWhile (· = '0') with
  | nil => rfl
  | cons c rest => rfl

theorem normalizeDigits_ne_nil (raw : List Char) : normalizeDigits raw ≠ [] := by
  unfold normalizeDigits
  cases raw.dropWhile (· = '0') with
  | nil => exact List.cons_ne_nil _ _
  | cons c rest => exact List.cons_ne_nil _ _

theorem isDigit_of_mem_normalizeDigits {raw : List Char} (h : ∀ c ∈ raw, c.isDigit = true) :
    ∀ c ∈ normalizeDigits raw, c.isDigit = true := by
  intro c hc
  unfold normalizeDigits at hc
  split at hc
  · rw [List.mem_singleton.mp hc]
    rfl
  · next d rest hdrop =>
    rw [← hdrop] at hc
    exact h c (List.dropWhile_subset _ hc)

/-- What is left of the digits has no more of them than the value needs. -/
theorem normalizeDigits_length_le {raw : List Char} (h : ∀ c ∈ raw, c.isDigit = true) {k : ℕ}
    (hk : 0 < k) : (normalizeDigits raw).length ≤ k ↔ Python.decimalValue raw < 10 ^ k := by
  have hdigits := isDigit_of_mem_normalizeDigits h
  rw [← decimalValue_normalizeDigits raw]
  constructor
  · intro hlength
    exact (Python.decimalValue_lt hdigits).trans_le (Nat.pow_le_pow_right (by decide) hlength)
  · intro hvalue
    revert hvalue hdigits
    unfold normalizeDigits
    split
    · intro _ _
      exact hk
    · next c rest hdrop =>
      intro hdigits hvalue
      have hne : c ≠ '0' := by
        have hnonempty : raw.dropWhile (· = '0') ≠ [] := by
          rw [hdrop]
          exact List.cons_ne_nil _ _
        have hhead := List.head_dropWhile_not _ hnonempty
        simpa [hdrop] using hhead
      have hpow : 10 ^ rest.length ≤ Python.decimalValue (c :: rest) :=
        Python.pow_le_decimalValue (hdigits c List.mem_cons_self) hne
      exact (Nat.pow_lt_pow_iff_right (by decide)).mp (hpow.trans_lt hvalue)

/-- The length test and the text comparison together compare the numbers. -/
theorem exceedsDecimal_iff {raw : List Char} (h : ∀ c ∈ raw, c.isDigit = true) (maximum : ℕ) :
    exceedsDecimal (normalizeDigits raw) maximum = true ↔ maximum < Python.decimalValue raw := by
  have hdigits := isDigit_of_mem_normalizeDigits h
  have hmaximum : ∀ c ∈ Python.decimal maximum, c.isDigit = true := fun c hc =>
    Python.isDigit_of_mem_decimal hc
  have hbound : maximum < 10 ^ (Python.decimal maximum).length := by
    simpa using Python.decimalValue_lt hmaximum
  have hlength := normalizeDigits_length_le h (List.length_pos_of_ne_nil
    (Python.decimal_ne_nil maximum))
  simp only [exceedsDecimal, Bool.or_eq_true, Bool.and_eq_true, decide_eq_true_eq]
  rcases Nat.lt_trichotomy (normalizeDigits raw).length (Python.decimal maximum).length with
    hlt | heq | hgt
  · have hshort := Python.decimalValue_lt hdigits
    rw [decimalValue_normalizeDigits] at hshort
    have hnonempty := List.length_pos_of_ne_nil (normalizeDigits_ne_nil raw)
    have hpow : ¬ maximum < 10 ^ (normalizeDigits raw).length := fun hmax =>
      absurd ((Nat.length_toDigits_le_iff (by decide) hnonempty).mpr hmax) (Nat.not_le.mpr hlt)
    omega
  · rw [Python.lt_iff_decimalValue_lt heq.symm hmaximum hdigits, Python.decimalValue_decimal,
      decimalValue_normalizeDigits]
    omega
  · have hvalue : ¬ Python.decimalValue raw < 10 ^ (Python.decimal maximum).length := by omega
    omega

theorem contentLength_invalid {request : HttpRequest} {raw : String}
    (h : request.contentLength = some raw) (hraw : ¬ IsAsciiDecimal raw.toList) (maximum : ℕ) :
    contentLength request maximum = .error .invalidRequest := by
  unfold contentLength
  rw [h]
  refine if_pos ?_
  by_contra hdecimal
  obtain ⟨hne, hall⟩ := not_or.mp hdecimal
  exact hraw ⟨hne, List.all_eq_true.mp (Bool.eq_true_of_not_eq_false hall)⟩

/-- A declared length is compared with the limit, and returned, as the number it writes. -/
theorem contentLength_decimal {request : HttpRequest} {raw : String}
    (h : request.contentLength = some raw) (hraw : IsAsciiDecimal raw.toList) (maximum : ℕ) :
    contentLength request maximum =
      if maximum < Python.decimalValue raw.toList then .error .requestTooLarge
      else .ok (some (Python.decimalValue raw.toList)) := by
  have hdecimal : ¬ (raw.toList = [] ∨ raw.toList.all Char.isDigit = false) := by
    rintro (hempty | hall)
    · exact hraw.1 hempty
    · rw [List.all_eq_true.mpr hraw.2] at hall
      exact Bool.noConfusion hall
  unfold contentLength
  rw [h]
  simp only [if_neg hdecimal, exceedsDecimal_iff hraw.2, decimalValue_normalizeDigits]

end SecureEdge
