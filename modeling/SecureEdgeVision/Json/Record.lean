import SecureEdgeVision.Json.Fields

/-! Strict validation of parsed objects as records: unknown keys are refused, and the order
of the keys does not matter. -/
namespace Json

open Python (Str)
open Value (Reordered)

variable {N α : Type}

/-- An object all of whose keys are known. -/
def closedFields (names : List String) : Value Str N → Option (List (Str × Value Str N))
  | .object fields => if ∀ x ∈ fields, x.1 ∈ names.map Str.ofString then some fields else none
  | _ => none

def required (key : String) (validate : Value Str N → Option α)
    (fields : List (Str × Value Str N)) : Option α :=
  (field? (Str.ofString key) fields).bind validate

def optional (key : String) (default : α) (validate : Value Str N → Option α)
    (fields : List (Str × Value Str N)) : Option α :=
  match field? (Str.ofString key) fields with
  | none => some default
  | some v => validate v

def nullable (validate : Value Str N → Option α) : Value Str N → Option (Option α)
  | .null => some none
  | v => (validate v).map some

def listOf (validate : Value Str N → Option α) : Value Str N → Option (List α)
  | .array items => items.mapM validate
  | _ => none

/-- The validator does not look at the order of keys. -/
def IgnoresOrder (validate : Value Str N → Option α) : Prop :=
  ∀ v w, Reordered v w → validate v = validate w

section Order
variable {validate : Value Str N → Option α} {a c : List (Str × Value Str N)}

theorem field?_forall₂ {S : Type} [DecidableEq S] {a b : List (S × Value S N)}
    (hnames : a.map Prod.fst = b.map Prod.fst)
    (h : List.Forall₂ Reordered (a.map Prod.snd) (b.map Prod.snd)) (key : S) :
    Option.Rel Reordered (field? key a) (field? key b) := by
  induction a generalizing b with
  | nil =>
    obtain rfl : b = [] := by simpa using hnames.symm
    exact .none
  | cons x a ih =>
    obtain ⟨k, v⟩ := x
    obtain _ | ⟨⟨l, w⟩, b⟩ := b
    · cases hnames
    · simp only [List.map_cons, List.cons.injEq] at hnames
      simp only [List.map_cons, List.forall₂_cons] at h
      rw [field?, field?, hnames.1]
      split_ifs
      · exact .some h.1
      · exact ih hnames.2 h.2

theorem field?_reordered (h : Reordered (.object a) (.object c)) (key : Str) :
    Option.Rel Reordered (field? key a) (field? key c) := by
  cases h with
  | @object a b c hkeys hnames h hperm =>
    have hb : (b.map Prod.fst).Nodup := hnames ▸ hkeys
    rw [← field?_perm hb hperm]
    exact field?_forall₂ hnames h key

theorem required_reordered (hvalidate : IgnoresOrder validate)
    (h : Reordered (.object a) (.object c)) (key : String) :
    required key validate a = required key validate c := by
  have hfield := field?_reordered h (Str.ofString key)
  unfold required
  revert hfield
  generalize field? (Str.ofString key) a = v
  generalize field? (Str.ofString key) c = w
  rintro (hvw | _)
  · exact hvalidate _ _ hvw
  · rfl

theorem optional_reordered (hvalidate : IgnoresOrder validate)
    (h : Reordered (.object a) (.object c)) (key : String) (default : α) :
    optional key default validate a = optional key default validate c := by
  have hfield := field?_reordered h (Str.ofString key)
  unfold optional
  revert hfield
  generalize field? (Str.ofString key) a = v
  generalize field? (Str.ofString key) c = w
  rintro (hvw | _)
  · exact hvalidate _ _ hvw
  · rfl

theorem IgnoresOrder.nullable (h : IgnoresOrder validate) : IgnoresOrder (nullable validate) := by
  intro v w hvw
  have hvalue := h v w hvw
  cases hvw <;> simp [Json.nullable, hvalue]

theorem IgnoresOrder.listOf (h : IgnoresOrder validate) : IgnoresOrder (listOf validate) := by
  intro v w hvw
  cases hvw with
  | @array a b hitems =>
    change a.mapM validate = b.mapM validate
    induction hitems with
    | nil => rfl
    | cons hx _ ih => rw [List.mapM_cons, List.mapM_cons, h _ _ hx, ih]
  | _ => rfl

/-- A validator that looks at one scalar only. -/
theorem IgnoresOrder.scalar (harray : ∀ items, validate (.array items) = none)
    (hobject : ∀ fields, validate (.object fields) = none) : IgnoresOrder validate := by
  intro v w hvw
  cases hvw <;> simp [harray, hobject]

/-- A record validator ignores the order when what it does with the fields does. -/
theorem IgnoresOrder.record {names : List String} {build : List (Str × Value Str N) → Option α}
    (h : ∀ a c, Reordered (.object a) (.object c) → build a = build c) :
    IgnoresOrder fun v => (closedFields names v).bind build := by
  intro v w hvw
  cases hvw with
  | @object a b c hkeys hnames hvalues hperm =>
    have hsame : (∀ x ∈ a, x.1 ∈ names.map Str.ofString) ↔
        ∀ x ∈ c, x.1 ∈ names.map Str.ofString := by
      have hmem : ∀ key, key ∈ a.map Prod.fst ↔ key ∈ c.map Prod.fst := by
        intro key
        rw [hnames, (hperm.map Prod.fst).mem_iff]
      rw [← List.forall_mem_map (f := Prod.fst) (P := (· ∈ names.map Str.ofString)),
        ← List.forall_mem_map (f := Prod.fst) (P := (· ∈ names.map Str.ofString))]
      simp only [hmem]
    unfold closedFields
    dsimp only
    by_cases hclosed : ∀ x ∈ a, x.1 ∈ names.map Str.ofString
    · rw [if_pos hclosed, if_pos (hsame.mp hclosed)]
      exact h a c (.object hkeys hnames hvalues hperm)
    · rw [if_neg hclosed, if_neg (mt hsame.mpr hclosed)]
  | _ => rfl

end Order

section Scanned
variable {fields : List (String × Value String N)}

/-- The fields of a document as they are read back. -/
def scannedFields (fields : List (String × Value String N)) : List (Str × Value Str N) :=
  fields.map fun x => (Str.ofString x.1, scanned x.2)

theorem scanned_object (fields : List (String × Value String N)) :
    scanned (.object fields) = .object (scannedFields fields) := by
  rw [scanned, Value.mapStrings, Value.mapFields_eq]
  rfl

theorem scanned_array (items : List (Value String N)) :
    scanned (.array items) = .array (items.map scanned) := by
  rw [scanned, Value.mapStrings, Value.mapItems_eq]
  rfl

theorem closedFields_scanned {names : List String} (h : ∀ x ∈ fields, x.1 ∈ names) :
    closedFields names (scanned (.object fields)) = some (scannedFields fields) := by
  rw [scanned_object, closedFields, if_pos]
  intro y hy
  obtain ⟨x, hx, rfl⟩ := List.mem_map.mp hy
  exact List.mem_map_of_mem (h x hx)

theorem required_scanned {key : String} {v : Value String N} (h : field? key fields = some v)
    (validate : Value Str N → Option α) :
    required key validate (scannedFields fields) = validate (scanned v) := by
  rw [required, scannedFields, field?_map Str.ofString_injective, h]
  rfl

theorem optional_scanned {key : String} {v : Value String N} (h : field? key fields = some v)
    (default : α) (validate : Value Str N → Option α) :
    optional key default validate (scannedFields fields) = validate (scanned v) := by
  rw [optional, scannedFields, field?_map Str.ofString_injective, h]
  rfl

theorem listOf_scanned {validate : Value Str N → Option α} {document : α → Value String N}
    (h : ∀ x, validate (scanned (document x)) = some x) (xs : List α) :
    listOf validate (scanned (.array (xs.map document))) = some xs := by
  rw [scanned_array, listOf, List.map_map]
  induction xs with
  | nil => rfl
  | cons x xs ih =>
    rw [List.map_cons, List.mapM_cons, Function.comp_apply, h, ih]
    rfl

end Scanned

end Json
