import SecureEdgeVision.Aggregator.DigitLimit
import SecureEdgeVision.Monitoring.Queries
import SecureEdgeVision.Runs.Traced

/-! The limit of a list request, and the digit strings that the limits convert to integers. -/
namespace SecureEdge

open Runs (Traced)

/-- `int` of a digit string, on record. -/
def intOfDigits (digits : List Char) : Traced (List Char) RequestFailure ℕ :=
  .call digits (.ok (Python.decimalValue digits))

/-- `_content_length` with its conversions. -/
def contentLengthConversions (request : HttpRequest) (maximum : ℕ) :
    Traced (List Char) RequestFailure (Option ℕ) :=
  match request.contentLength with
  | none => pure none
  | some raw =>
    if raw.toList = [] ∨ raw.toList.all Char.isDigit = false then ⟨[], .error .invalidRequest⟩
    else if exceedsDecimal (normalizeDigits raw.toList) maximum then
      ⟨[], .error .requestTooLarge⟩
    else do
      let length ← intOfDigits (normalizeDigits raw.toList)
      pure (some length)

/-- `_bounded_limit` with its conversions. -/
def boundedLimitConversions (request : HttpRequest) (default maximum : ℕ) :
    Traced (List Char) RequestFailure ℕ :=
  match request.query with
  | [] => pure default
  | [(name, raw)] =>
    if name ≠ "limit" then ⟨[], .error .invalidRequest⟩
    else if raw.toList = [] ∨ raw.toList.all Char.isDigit = false then
      ⟨[], .error .invalidRequest⟩
    else
      let normalized := normalizeDigits raw.toList
      if normalized = ['0'] ∨ exceedsDecimal normalized maximum then
        ⟨[], .error .invalidRequest⟩
      else intOfDigits normalized
  | _ :: _ :: _ => ⟨[], .error .invalidRequest⟩

def boundedLimit (request : HttpRequest) (default maximum : ℕ) : Except RequestFailure ℕ :=
  (boundedLimitConversions request default maximum).result

theorem isAsciiDecimal_iff {raw : List Char} :
    IsAsciiDecimal raw ↔ ¬ (raw = [] ∨ raw.all Char.isDigit = false) := by
  unfold IsAsciiDecimal
  rw [not_or, Bool.not_eq_false, List.all_eq_true]

/-- Recording the conversions changes no outcome. -/
theorem contentLengthConversions_result (request : HttpRequest) (maximum : ℕ) :
    (contentLengthConversions request maximum).result = contentLength request maximum := by
  unfold contentLengthConversions contentLength
  cases request.contentLength with
  | none => rfl
  | some raw =>
    dsimp only
    split_ifs <;> rfl

/-- A text that does not exceed the maximum is no longer than the maximum's. -/
theorem length_le_of_not_exceedsDecimal {normalized : List Char} {maximum : ℕ}
    (h : ¬ exceedsDecimal normalized maximum = true) :
    normalized.length ≤ (Python.decimal maximum).length := by
  simp only [exceedsDecimal, Bool.or_eq_true, not_or, decide_eq_true_eq] at h
  exact Nat.le_of_not_lt h.1

theorem contentLengthConversions_short (request : HttpRequest) (maximum : ℕ) :
    ∀ digits ∈ (contentLengthConversions request maximum).calls,
      digits.length ≤ (Python.decimal maximum).length := by
  unfold contentLengthConversions
  intro digits hdigits
  cases hraw : request.contentLength with
  | none => simp [hraw, Traced.pure_eq] at hdigits
  | some raw =>
    simp only [hraw] at hdigits
    split_ifs at hdigits with hdecimal hexceeds
    · cases hdigits
    · cases hdigits
    · obtain rfl := List.mem_singleton.mp hdigits
      exact length_le_of_not_exceedsDecimal hexceeds

theorem boundedLimitConversions_short (request : HttpRequest) (default maximum : ℕ) :
    ∀ digits ∈ (boundedLimitConversions request default maximum).calls,
      digits.length ≤ (Python.decimal maximum).length := by
  unfold boundedLimitConversions
  intro digits hdigits
  split at hdigits
  · cases hdigits
  · dsimp only at hdigits
    split_ifs at hdigits with hname hdecimal hexceeds
    · cases hdigits
    · cases hdigits
    · cases hdigits
    · obtain rfl := List.mem_singleton.mp hdigits
      exact length_le_of_not_exceedsDecimal (not_or.mp hexceeds).2
  · cases hdigits

/-- What is left of the digits is `0` for the number zero only. -/
theorem normalizeDigits_eq_zero {raw : List Char} (h : IsAsciiDecimal raw) :
    normalizeDigits raw = ['0'] ↔ Python.decimalValue raw = 0 := by
  constructor
  · intro hzero
    rw [← decimalValue_normalizeDigits raw, hzero]
    rfl
  · intro hvalue
    have hdigits := isDigit_of_mem_normalizeDigits h.2
    rw [← decimalValue_normalizeDigits raw] at hvalue
    revert hvalue hdigits
    unfold normalizeDigits
    split
    · exact fun _ _ => rfl
    · next c rest hdrop =>
      intro hvalue hdigits
      have hnonempty : raw.dropWhile (· = '0') ≠ [] := by
        rw [hdrop]
        exact List.cons_ne_nil _ _
      have hne : c ≠ '0' := by
        have hhead := List.head_dropWhile_not _ hnonempty
        simpa [hdrop] using hhead
      have hpow : 10 ^ rest.length ≤ Python.decimalValue (c :: rest) :=
        Python.pow_le_decimalValue (hdigits c List.mem_cons_self) hne
      have hpos : 0 < 10 ^ rest.length := Nat.pow_pos (by decide)
      omega

/-- A limit is compared with its bounds, and returned, as the number it writes. -/
theorem boundedLimit_decimal {request : HttpRequest} {raw : String}
    (h : request.query = [("limit", raw)]) (hraw : IsAsciiDecimal raw.toList)
    (default maximum : ℕ) :
    boundedLimit request default maximum =
      if 1 ≤ Python.decimalValue raw.toList ∧ Python.decimalValue raw.toList ≤ maximum then
        .ok (Python.decimalValue raw.toList)
      else .error .invalidRequest := by
  unfold boundedLimit boundedLimitConversions
  rw [h]
  dsimp only
  rw [if_neg (not_not_intro rfl), if_neg (isAsciiDecimal_iff.mp hraw)]
  by_cases hbounds : 1 ≤ Python.decimalValue raw.toList ∧ Python.decimalValue raw.toList ≤ maximum
  · have hwithin : ¬ (normalizeDigits raw.toList = ['0'] ∨
        exceedsDecimal (normalizeDigits raw.toList) maximum = true) := by
      rw [normalizeDigits_eq_zero hraw, exceedsDecimal_iff hraw.2]
      omega
    rw [if_neg hwithin, if_pos hbounds, ← decimalValue_normalizeDigits raw.toList]
    rfl
  · have houtside : normalizeDigits raw.toList = ['0'] ∨
        exceedsDecimal (normalizeDigits raw.toList) maximum = true := by
      rw [normalizeDigits_eq_zero hraw, exceedsDecimal_iff hraw.2]
      omega
    rw [if_pos houtside, if_neg hbounds]

theorem boundedLimit_invalid {request : HttpRequest} {raw : String}
    (h : request.query = [("limit", raw)]) (hraw : ¬ IsAsciiDecimal raw.toList)
    (default maximum : ℕ) : boundedLimit request default maximum = .error .invalidRequest := by
  unfold boundedLimit boundedLimitConversions
  rw [h]
  dsimp only
  rw [if_neg (not_not_intro rfl), if_pos (not_not.mp (mt isAsciiDecimal_iff.mpr hraw))]

/-- Where `default` is within the bounds, so is every limit that a request gets. -/
theorem boundedLimit_bounds {request : HttpRequest} {default maximum limit : ℕ}
    (hdefault : 1 ≤ default ∧ default ≤ maximum)
    (h : boundedLimit request default maximum = .ok limit) : 1 ≤ limit ∧ limit ≤ maximum := by
  unfold boundedLimit boundedLimitConversions at h
  split at h
  · obtain rfl := Except.ok.inj h
    exact hdefault
  · next name raw hquery =>
    dsimp only at h
    split_ifs at h with hname hdecimal hexceeds
    obtain rfl := Except.ok.inj h
    have hraw := isAsciiDecimal_iff.mpr hdecimal
    rw [normalizeDigits_eq_zero hraw, exceedsDecimal_iff hraw.2] at hexceeds
    rw [decimalValue_normalizeDigits]
    omega
  · cases h

/-- `DEFAULT_MONITORING_QUERY_LIMIT` and `DEFAULT_SECURITY_ALERT_QUERY_LIMIT` -/
def defaultQueryLimit : ℕ := 50

/-- A limit that a list route passes on is one that its view takes. -/
theorem validLimit_of_boundedLimit {request : HttpRequest} {call : ListCall} {limit : ℕ}
    (h : boundedLimit request defaultQueryLimit maxQueryLimit.toNat = .ok limit)
    (hcall : call.limit = limit) : call.validLimit = true := by
  have hbounds := boundedLimit_bounds (by decide) h
  have hmaximum : maxQueryLimit.toNat = 100 := rfl
  rw [hmaximum] at hbounds
  unfold ListCall.validLimit maxQueryLimit
  rw [hcall, Bool.and_eq_true, decide_eq_true_eq, decide_eq_true_eq]
  omega

/-- The digit strings are compared with their limits as the numbers they write. A length within
the maximum is returned as a number, a larger one is too large, and a list limit has to be between
one and the maximum. Any other text is invalid. No text longer than that of the maximum is
converted. -/
theorem digit_limits_compare_numbers (request : HttpRequest) (raw : String)
    (default maximum : ℕ) :
    let sized := { request with contentLength := some raw }
    let limited := { request with query := [("limit", raw)] }
    let value := Python.decimalValue raw.toList
    contentLength sized maximum =
      (if IsAsciiDecimal raw.toList then
        if value ≤ maximum then .ok (some value) else .error .requestTooLarge
      else .error .invalidRequest) ∧
    boundedLimit limited default maximum =
      (if IsAsciiDecimal raw.toList then
        if 1 ≤ value ∧ value ≤ maximum then .ok value else .error .invalidRequest
      else .error .invalidRequest) ∧
    (contentLengthConversions sized maximum).result = contentLength sized maximum ∧
    ∀ digits ∈ (contentLengthConversions sized maximum).calls ++
      (boundedLimitConversions limited default maximum).calls,
        digits.length ≤ (Python.decimal maximum).length := by
  intro sized limited value
  refine ⟨?_, ?_, contentLengthConversions_result sized maximum, ?_⟩
  · split_ifs with hraw hle
    · rw [contentLength_decimal rfl hraw, if_neg (Nat.not_lt.mpr hle)]
    · rw [contentLength_decimal rfl hraw, if_pos (Nat.lt_of_not_le hle)]
    · exact contentLength_invalid rfl hraw maximum
  · by_cases hraw : IsAsciiDecimal raw.toList
    · rw [if_pos hraw]
      exact boundedLimit_decimal rfl hraw default maximum
    · rw [if_neg hraw]
      exact boundedLimit_invalid rfl hraw default maximum
  · intro digits hdigits
    rcases List.mem_append.mp hdigits with hlength | hlimit
    · exact contentLengthConversions_short sized maximum digits hlength
    · exact boundedLimitConversions_short limited default maximum digits hlimit

end SecureEdge
