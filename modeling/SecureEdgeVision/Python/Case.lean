import Mathlib.Data.List.Basic
import Mathlib.Tactic.SplitIfs

/-! `str.lower` and `str.split`. Lower case is taken character by character, apart from the capital
sigma, whose lower case depends on its neighbours. -/
namespace Python

/-- What the character database says of case. Outside ASCII a lower case is made of characters
outside ASCII and of lowercase letters. -/
structure CaseTable where
  lower : Char → List Char
  cased : Char → Bool
  caseIgnorable : Char → Bool
  lower_ascii : ∀ c, c.toNat < 128 → lower c = [c.toLower]
  lower_other : ∀ c, 128 ≤ c.toNat → ∀ d ∈ lower c, 128 ≤ d.toNat ∨ d.isLower = true

namespace CaseTable
variable (table : CaseTable)

/-- A sigma that ends a word: a cased character before it and none after it. -/
def finalSigma (before after : List Char) : Bool :=
  (before.reverse.dropWhile table.caseIgnorable).head?.any table.cased &&
    !(after.dropWhile table.caseIgnorable).head?.any table.cased

/-- The lower case of a text that follows the text `before`. -/
def lowerAfter (before : List Char) : List Char → List Char
  | [] => []
  | c :: after =>
    (if c = 'Σ' then [if table.finalSigma before after then 'ς' else 'σ'] else table.lower c) ++
      lowerAfter (before ++ [c]) after

/-- `text.lower()` -/
def lowerText (text : List Char) : List Char := table.lowerAfter [] text

/-- One letter for the two forms of the small sigma. -/
def medial (c : Char) : Char := if c = 'ς' then 'σ' else c

/-- A character without regard to case. -/
def fold (c : Char) : List Char := if c = 'Σ' then ['σ'] else (table.lower c).map medial

theorem medial_ascii {c : Char} (h : c.toNat < 128) : medial c = c := by
  apply if_neg
  rintro rfl
  exact absurd h (by decide)

theorem toLower_ascii {c : Char} (h : c.toNat < 128) : c.toLower.toNat < 128 := by
  have hall : ∀ n < 128, (Char.ofNat n).toLower.toNat < 128 := by decide
  have hc := hall c.toNat h
  rwa [Char.ofNat_toNat] at hc

theorem toLower_other {c : Char} (h : 128 ≤ c.toNat) : c.toLower = c := by
  have hupper : ¬ (65 ≤ c.val.toNat ∧ c.val.toNat ≤ 90) := by
    change 128 ≤ c.val.toNat at h
    omega
  unfold Char.toLower
  apply dif_neg
  simpa [UInt32.le_iff_toNat_le] using hupper

theorem fold_ascii {c : Char} (h : c.toNat < 128) : table.fold c = [c.toLower] := by
  have hsigma : c ≠ 'Σ' := by
    rintro rfl
    exact absurd h (by decide)
  unfold fold
  rw [if_neg hsigma, table.lower_ascii c h, List.map_singleton, medial_ascii (toLower_ascii h)]

/-- The table that knows the ASCII letters only. -/
def ascii : CaseTable where
  lower c := [c.toLower]
  cased := Char.isAlpha
  caseIgnorable c := c == '\'' || c == '.' || c == ':' || c == '^' || c.toNat == 0x60
  lower_ascii _ _ := rfl
  lower_other c h d hd := by
    rw [List.mem_singleton.mp hd, toLower_other h]
    exact Or.inl h

end CaseTable

/-- `text.split()`, where `space` says which characters separate. -/
def splitWords (space : Char → Bool) (text : List Char) : List (List Char) :=
  (text.splitOnP space).filter (· ≠ [])

end Python
