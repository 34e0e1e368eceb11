import Mathlib.Data.List.Induction
import SecureEdgeVision.Python.IsoMicroseconds

/-! Comparing decimal text. Runs of digits of one length compare as their values, and a longer run
without a leading zero is the larger value. -/
namespace Python

theorem digitChar_of_isDigit {c : Char} (h : c.isDigit = true) :
    c.toNat - '0'.toNat < 10 ∧ (c.toNat - '0'.toNat).digitChar = c := by
  simp only [Char.isDigit, Bool.and_eq_true, decide_eq_true_eq, UInt32.le_iff_toNat_le] at h
  have hlow : 48 ≤ c.toNat := h.1
  have hhigh : c.toNat ≤ 57 := h.2
  have hdigit : c.toNat - '0'.toNat < 10 := by
    show c.toNat - 48 < 10
    omega
  refine ⟨hdigit, ?_⟩
  apply Char.ext
  apply UInt32.toNat_inj.mp
  show ((c.toNat - 48).digitChar).toNat = c.toNat
  obtain ⟨k, hk⟩ : ∃ k, c.toNat = 48 + k := ⟨c.toNat - 48, by omega⟩
  have hk' : k < 10 := by omega
  rw [hk]
  interval_cases k <;> rfl

/-- A run of digits is its value, padded to its length. -/
theorem zeroPadded_decimalValue {cs : List Char} (h : ∀ c ∈ cs, c.isDigit = true) :
    zeroPadded cs.length (decimalValue cs) = cs := by
  induction cs using List.reverseRecOn with
  | nil => rfl
  | append_singleton cs c ih =>
    obtain ⟨hlt, hchar⟩ := digitChar_of_isDigit (h c (by simp))
    have hvalue : decimalValue (cs ++ [c]) = 10 * decimalValue cs + (c.toNat - '0'.toNat) := by
      unfold decimalValue
      rw [Nat.ofDigitChars_append, Nat.ofDigitChars_cons, Nat.ofDigitChars_nil]
    rw [List.length_append, List.length_singleton, zeroPadded, hvalue]
    have hdiv : (10 * decimalValue cs + (c.toNat - '0'.toNat)) / 10 = decimalValue cs := by omega
    have hmod : (10 * decimalValue cs + (c.toNat - '0'.toNat)) % 10 = c.toNat - '0'.toNat := by
      omega
    rw [hdiv, hmod, hchar, ih fun d hd => h d (List.mem_append_left _ hd)]

theorem decimalValue_lt {cs : List Char} (h : ∀ c ∈ cs, c.isDigit = true) :
    decimalValue cs < 10 ^ cs.length := by
  have hlt := ofDigitChars_lt h 0
  rw [Nat.zero_add, Nat.mul_one] at hlt
  exact hlt

theorem le_ofDigitChars (cs : List Char) (init : ℕ) :
    10 ^ cs.length * init ≤ Nat.ofDigitChars 10 cs init := by
  induction cs generalizing init with
  | nil => simp
  | cons c cs ih =>
    rw [Nat.ofDigitChars_cons, List.length_cons, Nat.pow_succ, Nat.mul_assoc]
    exact (Nat.mul_le_mul_left _ (Nat.le_add_right _ _)).trans (ih _)

/-- Without a leading zero every digit counts. -/
theorem pow_le_decimalValue {c : Char} {cs : List Char} (hc : c.isDigit = true) (hne : c ≠ '0') :
    10 ^ cs.length ≤ decimalValue (c :: cs) := by
  obtain ⟨-, hchar⟩ := digitChar_of_isDigit hc
  have hpos : 1 ≤ c.toNat - '0'.toNat := by
    by_contra hzero
    rw [show c.toNat - '0'.toNat = 0 by omega] at hchar
    exact hne hchar.symm
  unfold decimalValue
  rw [Nat.ofDigitChars_cons]
  calc 10 ^ cs.length = 10 ^ cs.length * 1 := (Nat.mul_one _).symm
    _ ≤ 10 ^ cs.length * (10 * 0 + (c.toNat - '0'.toNat)) := Nat.mul_le_mul_left _ (by omega)
    _ ≤ _ := le_ofDigitChars cs _

/-- Runs of digits of one length compare as their values. -/
theorem lt_iff_decimalValue_lt {cs ds : List Char} (hlength : cs.length = ds.length)
    (hcs : ∀ c ∈ cs, c.isDigit = true) (hds : ∀ d ∈ ds, d.isDigit = true) :
    cs < ds ↔ decimalValue cs < decimalValue ds := by
  have hmono : ∀ {as bs : List Char}, as.length = bs.length → (∀ a ∈ as, a.isDigit = true) →
      (∀ b ∈ bs, b.isDigit = true) → decimalValue as < decimalValue bs → as < bs := by
    intro as bs hlen has hbs hlt
    rw [← zeroPadded_decimalValue has, ← zeroPadded_decimalValue hbs, hlen]
    exact zeroPadded_lt (decimalValue_lt hbs) hlt
  constructor
  · intro hlt
    by_contra hge
    rcases Nat.lt_or_eq_of_le (Nat.le_of_not_lt hge) with h | h
    · exact lt_asymm hlt (hmono hlength.symm hds hcs h)
    · rw [← zeroPadded_decimalValue hcs, ← zeroPadded_decimalValue hds, hlength, h] at hlt
      exact lt_irrefl _ hlt
  · exact hmono hlength hcs hds

end Python
