import SecureEdgeVision.Json.Scan
import SecureEdgeVision.Python.Raise

/-! Arrays and objects as enclosed elements: items, and fields with their keys. -/
namespace Json

open Python (Str)

section Elements
variable {α : Type} (close : Char) (scan : List Char → Except ScanError (α × List Char))

/-- The elements up to the closing character, with a comma between two of them. -/
def scanElements : ℕ → List Char → Except ScanError (List α × List Char)
  | 0, _ => .error .decode
  | fuel + 1, text => do
    let (a, rest) ← scan text
    match skipSpace rest with
    | [] => .error .decode
    | c :: rest =>
      if c = close then pure ([a], rest)
      else if c = ',' then do
        let (elements, rest) ← scanElements fuel (skipSpace rest)
        pure (a :: elements, rest)
      else .error .decode

/-- The elements after the opening character, if there are any. -/
def scanEnclosed (text : List Char) : Except ScanError (List α × List Char) :=
  match skipSpace text with
  | [] => .error .decode
  | c :: rest =>
    if c = close then pure ([], rest) else scanElements close scan text.length (c :: rest)

end Elements

/-- The key of a field, and the text from its value on. -/
def fieldValue (text : List Char) : Option (Str × List Char) :=
  match text with
  | [] => none
  | c :: rest =>
    if c = '"' then
      match scanString rest with
      | none => none
      | some (key, rest) =>
        match skipSpace rest with
        | [] => none
        | c :: rest => if c = ':' then some (key, skipSpace rest) else none
    else none

variable {N : Type}

/-- A field: its key, a colon and its value. -/
def scanField (scan : List Char → Except ScanError (Value Str N × List Char))
    (text : List Char) : Except ScanError ((Str × Value Str N) × List Char) :=
  match fieldValue text with
  | none => .error .decode
  | some (key, text) => (scan text).map fun found => ((key, found.1), found.2)

section Fields
variable {scan : List Char → Except ScanError (Value Str N × List Char)}

theorem fieldValue_eq_some {text item : List Char} {key : Str} :
    fieldValue text = some (key, item) ↔ ∃ body after more, text = '"' :: body ∧
      scanString body = some (key, after) ∧ skipSpace after = ':' :: more ∧
      item = skipSpace more := by
  constructor
  · intro h
    cases text with
    | nil => cases h
    | cons q body =>
      unfold fieldValue at h
      dsimp only at h
      split_ifs at h with hquote
      cases hkey : scanString body with
      | none =>
        rw [hkey] at h
        cases h
      | some found =>
        obtain ⟨key', after⟩ := found
        rw [hkey] at h
        dsimp only at h
        cases hcolon : skipSpace after with
        | nil =>
          rw [hcolon] at h
          cases h
        | cons c more =>
          rw [hcolon] at h
          dsimp only at h
          split_ifs at h with hc
          cases h
          exact ⟨body, after, more, by rw [hquote], hkey, by rw [hcolon, hc], rfl⟩
  · rintro ⟨body, after, more, rfl, hkey, hcolon, rfl⟩
    unfold fieldValue
    dsimp only
    rw [if_pos rfl, hkey]
    dsimp only
    rw [hcolon]
    exact if_pos rfl

theorem scanField_eq_ok {text rest : List Char} {field : Str × Value Str N} :
    scanField scan text = .ok (field, rest) ↔ ∃ item,
      fieldValue text = some (field.1, item) ∧ scan item = .ok (field.2, rest) := by
  obtain ⟨key, v⟩ := field
  unfold scanField
  cases fieldValue text with
  | none => simp
  | some found =>
    obtain ⟨key', item⟩ := found
    dsimp only
    cases hread : scan item with
    | error e => simp [Except.map, hread]
    | ok read => simp [Except.map, hread, Prod.ext_iff, and_assoc]

theorem scanField_eq_recursion {text : List Char} :
    scanField scan text = .error .recursion ↔ ∃ key item,
      fieldValue text = some (key, item) ∧ scan item = .error .recursion := by
  unfold scanField
  cases fieldValue text with
  | none => simp
  | some found =>
    obtain ⟨key, item⟩ := found
    dsimp only
    cases hread : scan item with
    | error e => simp [Except.map, hread]
    | ok read => simp [Except.map, hread]

end Fields

section Containers
variable (scan : List Char → Except ScanError (Value Str N × List Char))

theorem scanItems_eq (fuel : ℕ) (text : List Char) :
    scanItems scan fuel text = scanElements ']' scan fuel text := by
  induction fuel generalizing text with
  | zero => rfl
  | succ fuel ih =>
    rw [scanItems, scanElements]
    apply bind_congr
    rintro ⟨v, rest⟩
    dsimp only
    cases skipSpace rest with
    | nil => rfl
    | cons c more => simp only [ih]

theorem scanArray_eq : scanArray scan = scanEnclosed ']' scan := by
  funext text
  unfold scanArray scanEnclosed
  cases skipSpace text with
  | nil => rfl
  | cons c rest => simp only [scanItems_eq]

theorem scanFields_eq (fuel : ℕ) (text : List Char) :
    scanFields scan fuel text = scanElements '}' (scanField scan) fuel text := by
  induction fuel generalizing text with
  | zero => rfl
  | succ fuel ih =>
    rw [scanElements]
    simp only [← ih]
    conv_lhs => unfold scanFields
    unfold scanField fieldValue
    cases text with
    | nil => rfl
    | cons q body =>
      dsimp only
      split_ifs with hquote
      · cases scanString body with
        | none => rfl
        | some found =>
          obtain ⟨key, after⟩ := found
          dsimp only
          cases skipSpace after with
          | nil => rfl
          | cons c more =>
            dsimp only
            split_ifs with hc
            · dsimp only
              cases scan (skipSpace more) with
              | error e => rfl
              | ok found => rfl
            · rfl
      · rfl

theorem scanObject_eq : scanObject scan = scanEnclosed '}' (scanField scan) := by
  funext text
  unfold scanObject scanEnclosed
  cases skipSpace text with
  | nil => rfl
  | cons c rest => simp only [scanFields_eq]

end Containers

end Json
