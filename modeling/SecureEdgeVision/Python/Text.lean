import Mathlib.Data.List.Basic
import Mathlib.Data.Option.Basic
import Mathlib.Tactic.IntervalCases

/-! Python text: strings as sequences of code points, lone surrogates included, and the
decimal text of natural numbers. -/
namespace Python

/-- A code point of a `str`: a Unicode scalar value or a lone surrogate. -/
inductive CodePoint where
  | scalar (c : Char)
  | surrogate (offset : Fin 2048)
deriving DecidableEq

abbrev Str := List CodePoint

def CodePoint.isSurrogate : CodePoint → Bool
  | .scalar _ => false
  | .surrogate _ => true

def CodePoint.scalar? : CodePoint → Option Char
  | .scalar c => some c
  | .surrogate _ => none

@[simp] theorem CodePoint.scalar?_scalar (c : Char) : (CodePoint.scalar c).scalar? = some c := rfl

namespace Str

def ofChars (cs : List Char) : Str := cs.map .scalar

def ofString (s : String) : Str := ofChars s.toList

/-- The characters of a string without lone surrogates. -/
def chars? (s : Str) : Option (List Char) := s.mapM CodePoint.scalar?

/-- A string that UTF-8 can encode. -/
def toString? (s : Str) : Option String := (chars? s).map String.ofList

@[simp] theorem chars?_ofChars (cs : List Char) : chars? (ofChars cs) = some cs := by
  induction cs with
  | nil => rfl
  | cons c cs ih =>
    unfold chars? ofChars at ih ⊢
    simp [ih]

@[simp] theorem toString?_ofString (s : String) : toString? (ofString s) = some s := by
  simp [toString?, ofString]

theorem chars?_eq_some {s : Str} {cs : List Char} : chars? s = some cs ↔ s = ofChars cs := by
  constructor
  · intro h
    induction s generalizing cs with
    | nil =>
      obtain rfl := Option.some.inj h
      rfl
    | cons c s ih =>
      unfold chars? at h
      rw [List.mapM_cons] at h
      obtain ⟨a, ha, h⟩ := Option.bind_eq_some_iff.mp h
      obtain ⟨rest, hrest, h⟩ := Option.bind_eq_some_iff.mp h
      obtain rfl := Option.some.inj h
      cases c with
      | scalar b =>
        obtain rfl := Option.some.inj ha
        rw [ih hrest]
        rfl
      | surrogate offset => cases ha
  · rintro rfl
    exact chars?_ofChars cs

theorem toString?_eq_some {s : Str} {t : String} : toString? s = some t ↔ s = ofString t := by
  unfold toString? ofString
  rw [Option.map_eq_some_iff]
  constructor
  · rintro ⟨cs, hcs, rfl⟩
    rw [String.toList_ofList]
    exact chars?_eq_some.mp hcs
  · rintro rfl
    exact ⟨t.toList, chars?_ofChars _, by simp⟩

theorem ofString_injective : Function.Injective ofString := by
  intro a b h
  have := congrArg toString? h
  simpa using this

end Str

/-- The scan of `str.replace`, with the characters of a match that are still to be skipped. -/
def replaceFrom (old new : List Char) : ℕ → List Char → List Char
  | _, [] => []
  | skip + 1, _ :: text => replaceFrom old new skip text
  | 0, c :: text =>
    if old.isPrefixOf (c :: text) then new ++ replaceFrom old new (old.length - 1) text
    else c :: replaceFrom old new 0 text

/-- `text.replace(old, new)` for a text `old` that is not empty. -/
def replace (old new text : List Char) : List Char := replaceFrom old new 0 text

section Replace
variable {o : Char} {old new : List Char}

theorem replaceFrom_skip (old new skipped text : List Char) :
    replaceFrom old new skipped.length (skipped ++ text) = replaceFrom old new 0 text := by
  induction skipped with
  | nil => rfl
  | cons c skipped ih => rw [List.length_cons, List.cons_append, replaceFrom, ih]

/-- Text without the first character of the pattern stays as it is. -/
theorem replace_append {kept : List Char} (h : ∀ c ∈ kept, c ≠ o) (text : List Char) :
    replace (o :: old) new (kept ++ text) = kept ++ replace (o :: old) new text := by
  unfold replace
  induction kept with
  | nil => rfl
  | cons c kept ih =>
    have hc : c ≠ o := h c List.mem_cons_self
    have hprefix : (o :: old).isPrefixOf (c :: (kept ++ text)) = false := by
      simp [List.isPrefixOf, hc.symm]
    rw [List.cons_append, replaceFrom, hprefix, if_neg (by simp),
      ih fun d hd => h d (List.mem_cons_of_mem c hd), List.cons_append]

theorem replace_self (o : Char) (old new : List Char) :
    replace (o :: old) new (o :: old) = new := by
  have hprefix : (o :: old).isPrefixOf (o :: old) = true := by simp
  have hskip := replaceFrom_skip (o :: old) new old []
  unfold replace
  rw [replaceFrom, hprefix, if_pos rfl, List.length_cons, Nat.add_sub_cancel]
  rw [List.append_nil] at hskip
  rw [hskip, replaceFrom, List.append_nil]

end Replace

/-- `str(n)` -/
def decimal (n : ℕ) : List Char := Nat.toDigits 10 n

/-- The value of a run of decimal digits. -/
def decimalValue (cs : List Char) : ℕ := Nat.ofDigitChars 10 cs 0

@[simp] theorem decimalValue_decimal (n : ℕ) : decimalValue (decimal n) = n :=
  Nat.ofDigitChars_ten_toDigits

theorem isDigit_of_mem_decimal {n : ℕ} {c : Char} (h : c ∈ decimal n) : c.isDigit = true :=
  Nat.isDigit_of_mem_toDigits (by decide) (by decide) h

theorem decimal_ne_nil (n : ℕ) : decimal n ≠ [] := Nat.toDigits_ne_nil

theorem decimal_zero : decimal 0 = ['0'] := Nat.toDigits_zero 10

theorem isDigit_digitChar {d : ℕ} (h : d < 10) : d.digitChar.isDigit = true := by
  interval_cases d <;> rfl

/-- Only zero is written with a leading zero. -/
theorem head_decimal {n : ℕ} (h : n ≠ 0) : ∃ c cs, decimal n = c :: cs ∧ c ≠ '0' := by
  induction n using Nat.strong_induction_on with
  | _ n ih =>
    by_cases hlt : n < 10
    · refine ⟨n.digitChar, [], Nat.toDigits_of_lt_base hlt, ?_⟩
      interval_cases n <;> first | exact absurd rfl h | decide
    · obtain ⟨c, cs, hcs, hc⟩ := ih (n / 10) (by omega) (by omega)
      refine ⟨c, cs ++ [(n % 10).digitChar], ?_, hc⟩
      unfold decimal at hcs ⊢
      rw [Nat.toDigits_of_base_le (by decide) (by omega), hcs]
      rfl

theorem ofDigitChars_lt {cs : List Char} (h : ∀ c ∈ cs, c.isDigit = true) (init : ℕ) :
    Nat.ofDigitChars 10 cs init < 10 ^ cs.length * (init + 1) := by
  induction cs generalizing init with
  | nil => simp
  | cons c cs ih =>
    have hc := h c List.mem_cons_self
    simp only [Char.isDigit, Bool.and_eq_true, decide_eq_true_eq, UInt32.le_iff_toNat_le] at hc
    have hdigit : c.toNat - '0'.toNat < 10 := by
      have hupper : c.toNat ≤ 57 := hc.2
      show c.toNat - 48 < 10
      omega
    have htail := ih (fun d hd => h d (List.mem_cons_of_mem c hd))
      (10 * init + (c.toNat - '0'.toNat))
    rw [Nat.ofDigitChars_cons, List.length_cons, Nat.pow_succ, Nat.mul_assoc]
    refine htail.trans_le (Nat.mul_le_mul_left _ ?_)
    omega

/-- A run of digits is a number of no more digits. -/
theorem length_decimal_le {cs : List Char} (h : ∀ c ∈ cs, c.isDigit = true) (hne : cs ≠ []) :
    (decimal (decimalValue cs)).length ≤ cs.length := by
  have hlt := ofDigitChars_lt h 0
  rw [Nat.zero_add, Nat.mul_one] at hlt
  exact (Nat.length_toDigits_le_iff (by decide) (List.length_pos_iff.mpr hne)).mpr hlt

/-- The last `width` decimal digits, zero-padded: `'{:0width}'.format(n)` below `10 ^ width`. -/
def zeroPadded : ℕ → ℕ → List Char
  | 0, _ => []
  | width + 1, n => zeroPadded width (n / 10) ++ [(n % 10).digitChar]

@[simp] theorem zeroPadded_length (width n : ℕ) : (zeroPadded width n).length = width := by
  induction width generalizing n with
  | zero => rfl
  | succ width ih => simp [zeroPadded, ih]

theorem isDigit_of_mem_zeroPadded {width n : ℕ} {c : Char} (h : c ∈ zeroPadded width n) :
    c.isDigit = true := by
  induction width generalizing n with
  | zero => simp [zeroPadded] at h
  | succ width ih =>
    rcases List.mem_append.mp h with h | h
    · exact ih h
    · rw [List.mem_singleton.mp h]
      exact isDigit_digitChar (Nat.mod_lt _ (by decide))

theorem decimalValue_zeroPadded (width n : ℕ) :
    decimalValue (zeroPadded width n) = n % 10 ^ width := by
  induction width generalizing n with
  | zero => simp [zeroPadded, decimalValue, Nat.mod_one]
  | succ width ih =>
    unfold decimalValue at ih ⊢
    rw [zeroPadded, Nat.ofDigitChars_append, ih,
      Nat.ofDigitChars_cons_digitChar_of_lt_ten (Nat.mod_lt _ (by decide)),
      Nat.ofDigitChars_nil, Nat.pow_succ', Nat.mod_mul]
    omega

theorem length_flatMap_le {α β : Type*} {f : α → List β} {n : ℕ} (h : ∀ a, (f a).length ≤ n)
    (l : List α) : (l.flatMap f).length ≤ n * l.length := by
  induction l with
  | nil => simp
  | cons a l ih =>
    have ha := h a
    rw [List.flatMap_cons, List.length_append, List.length_cons, Nat.mul_succ]
    omega

theorem size_toUTF8_le (s : String) : s.toUTF8.size ≤ 4 * s.toList.length := by
  have h : s.toUTF8 = s.toList.utf8Encode := by simp
  rw [h, List.utf8Encode, List.size_toByteArray]
  refine length_flatMap_le (fun c => ?_) _
  rw [String.length_utf8EncodeChar]
  exact c.utf8Size_le_four

end Python
