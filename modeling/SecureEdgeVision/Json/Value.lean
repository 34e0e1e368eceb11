import SecureEdgeVision.Python.Text
import Mathlib.Data.List.Sort

/-! JSON document trees, objects as ordered key/value lists, and the compact text that
`json.dumps` gives them with `ensure_ascii=False` and `separators=(",", ":")`. -/
namespace Json

/-- A document with strings `S` and numbers `N`. -/
inductive Value (S N : Type) where
  | null
  | bool (b : Bool)
  | number (n : N)
  | string (s : S)
  | array (items : List (Value S N))
  | object (fields : List (S × Value S N))

variable {S T N M : Type}

namespace Value

mutual
/-- How deep arrays and objects nest. -/
def nesting : Value S N → ℕ
  | .array items => nestingItems items + 1
  | .object fields => nestingFields fields + 1
  | _ => 0
def nestingItems : List (Value S N) → ℕ
  | [] => 0
  | v :: items => max (nesting v) (nestingItems items)
def nestingFields : List (S × Value S N) → ℕ
  | [] => 0
  | f :: fields => max (nesting f.2) (nestingFields fields)
end

mutual
/-- Convert every string, keys included. -/
def mapStrings (f : S → T) : Value S N → Value T N
  | .null => .null
  | .bool b => .bool b
  | .number n => .number n
  | .string s => .string (f s)
  | .array items => .array (mapItems f items)
  | .object fields => .object (mapFields f fields)
def mapItems (f : S → T) : List (Value S N) → List (Value T N)
  | [] => []
  | v :: items => mapStrings f v :: mapItems f items
def mapFields (f : S → T) : List (S × Value S N) → List (T × Value T N)
  | [] => []
  | (k, v) :: fields => (f k, mapStrings f v) :: mapFields f fields
end

mutual
/-- Convert every number. -/
def mapNumbers (f : N → M) : Value S N → Value S M
  | .null => .null
  | .bool b => .bool b
  | .number n => .number (f n)
  | .string s => .string s
  | .array items => .array (mapNumbersItems f items)
  | .object fields => .object (mapNumbersFields f fields)
def mapNumbersItems (f : N → M) : List (Value S N) → List (Value S M)
  | [] => []
  | v :: items => mapNumbers f v :: mapNumbersItems f items
def mapNumbersFields (f : N → M) : List (S × Value S N) → List (S × Value S M)
  | [] => []
  | (k, v) :: fields => (k, mapNumbers f v) :: mapNumbersFields f fields
end

mutual
/-- The numbers of the document, in order. -/
def numbers : Value S N → List N
  | .number n => [n]
  | .array items => numbersItems items
  | .object fields => numbersFields fields
  | _ => []
def numbersItems : List (Value S N) → List N
  | [] => []
  | v :: items => numbers v ++ numbersItems items
def numbersFields : List (S × Value S N) → List N
  | [] => []
  | f :: fields => numbers f.2 ++ numbersFields fields
end

mutual
/-- `sort_keys=True`: every object's fields in the order of their keys. -/
def sortKeys [LE S] [DecidableLE S] : Value S N → Value S N
  | .array items => .array (sortItems items)
  | .object fields => .object ((sortFields fields).insertionSort fun a b => a.1 ≤ b.1)
  | .null => .null
  | .bool b => .bool b
  | .number n => .number n
  | .string s => .string s
def sortItems [LE S] [DecidableLE S] : List (Value S N) → List (Value S N)
  | [] => []
  | v :: items => sortKeys v :: sortItems items
def sortFields [LE S] [DecidableLE S] : List (S × Value S N) → List (S × Value S N)
  | [] => []
  | (k, v) :: fields => (k, sortKeys v) :: sortFields fields
end

theorem mapItems_eq (f : S → T) (items : List (Value S N)) :
    mapItems f items = items.map (mapStrings f) := by
  induction items with
  | nil => rfl
  | cons v items ih => rw [mapItems, ih, List.map_cons]

theorem mapFields_eq (f : S → T) (fields : List (S × Value S N)) :
    mapFields f fields = fields.map fun x => (f x.1, mapStrings f x.2) := by
  induction fields with
  | nil => rfl
  | cons x fields ih => rw [mapFields, ih, List.map_cons]

theorem mapNumbersItems_eq (f : N → M) (items : List (Value S N)) :
    mapNumbersItems f items = items.map (mapNumbers f) := by
  induction items with
  | nil => rfl
  | cons v items ih => rw [mapNumbersItems, ih, List.map_cons]

theorem mapNumbersFields_eq (f : N → M) (fields : List (S × Value S N)) :
    mapNumbersFields f fields = fields.map fun x => (x.1, mapNumbers f x.2) := by
  induction fields with
  | nil => rfl
  | cons x fields ih => rw [mapNumbersFields, ih, List.map_cons]

mutual
/-- Converting every string there and back. -/
theorem mapStrings_leftInverse {f : S → T} {g : T → S} (h : Function.LeftInverse g f) :
    ∀ v : Value S N, (v.mapStrings f).mapStrings g = v
  | .null => rfl
  | .bool _ => rfl
  | .number _ => rfl
  | .string s => by rw [mapStrings, mapStrings, h s]
  | .array items => by rw [mapStrings, mapStrings, mapItems_leftInverse h items]
  | .object fields => by rw [mapStrings, mapStrings, mapFields_leftInverse h fields]
theorem mapItems_leftInverse {f : S → T} {g : T → S} (h : Function.LeftInverse g f) :
    ∀ items : List (Value S N), mapItems g (mapItems f items) = items
  | [] => rfl
  | v :: items => by
    rw [mapItems, mapItems, mapStrings_leftInverse h v, mapItems_leftInverse h items]
theorem mapFields_leftInverse {f : S → T} {g : T → S} (h : Function.LeftInverse g f) :
    ∀ fields : List (S × Value S N), mapFields g (mapFields f fields) = fields
  | [] => rfl
  | (k, v) :: fields => by
    rw [mapFields, mapFields, h k, mapStrings_leftInverse h v, mapFields_leftInverse h fields]
end

mutual
/-- Converting every number there and back. -/
theorem mapNumbers_leftInverse {f : N → M} {g : M → N} (h : Function.LeftInverse g f) :
    ∀ v : Value S N, (v.mapNumbers f).mapNumbers g = v
  | .null => rfl
  | .bool _ => rfl
  | .number n => by rw [mapNumbers, mapNumbers, h n]
  | .string _ => rfl
  | .array items => by rw [mapNumbers, mapNumbers, mapNumbersItems_leftInverse h items]
  | .object fields => by rw [mapNumbers, mapNumbers, mapNumbersFields_leftInverse h fields]
theorem mapNumbersItems_leftInverse {f : N → M} {g : M → N} (h : Function.LeftInverse g f) :
    ∀ items : List (Value S N), mapNumbersItems g (mapNumbersItems f items) = items
  | [] => rfl
  | v :: items => by
    rw [mapNumbersItems, mapNumbersItems, mapNumbers_leftInverse h v,
      mapNumbersItems_leftInverse h items]
theorem mapNumbersFields_leftInverse {f : N → M} {g : M → N} (h : Function.LeftInverse g f) :
    ∀ fields : List (S × Value S N), mapNumbersFields g (mapNumbersFields f fields) = fields
  | [] => rfl
  | (k, v) :: fields => by
    rw [mapNumbersFields, mapNumbersFields, mapNumbers_leftInverse h v,
      mapNumbersFields_leftInverse h fields]
end

mutual
theorem numbers_mapNumbers (f : N → M) :
    ∀ v : Value S N, (v.mapNumbers f).numbers = v.numbers.map f
  | .null => rfl
  | .bool _ => rfl
  | .number _ => rfl
  | .string _ => rfl
  | .array items => by rw [mapNumbers, numbers, numbers, numbersItems_mapNumbers f items]
  | .object fields => by rw [mapNumbers, numbers, numbers, numbersFields_mapNumbers f fields]
theorem numbersItems_mapNumbers (f : N → M) :
    ∀ items : List (Value S N), numbersItems (mapNumbersItems f items) = (numbersItems items).map f
  | [] => rfl
  | v :: items => by
    rw [mapNumbersItems, numbersItems, numbersItems, List.map_append, numbers_mapNumbers f v,
      numbersItems_mapNumbers f items]
theorem numbersFields_mapNumbers (f : N → M) : ∀ fields : List (S × Value S N),
    numbersFields (mapNumbersFields f fields) = (numbersFields fields).map f
  | [] => rfl
  | (k, v) :: fields => by
    rw [mapNumbersFields, numbersFields, numbersFields, List.map_append, numbers_mapNumbers f v,
      numbersFields_mapNumbers f fields]
end

mutual
/-- Strings and numbers are converted independently. -/
theorem mapStrings_mapNumbers (f : S → T) (g : N → M) :
    ∀ v : Value S N, (v.mapNumbers g).mapStrings f = (v.mapStrings f).mapNumbers g
  | .null => rfl
  | .bool _ => rfl
  | .number _ => rfl
  | .string _ => rfl
  | .array items => by
    rw [mapNumbers, mapStrings, mapStrings, mapNumbers, mapItems_mapNumbers f g items]
  | .object fields => by
    rw [mapNumbers, mapStrings, mapStrings, mapNumbers, mapFields_mapNumbers f g fields]
theorem mapItems_mapNumbers (f : S → T) (g : N → M) : ∀ items : List (Value S N),
    mapItems f (mapNumbersItems g items) = mapNumbersItems g (mapItems f items)
  | [] => rfl
  | v :: items => by
    rw [mapNumbersItems, mapItems, mapItems, mapNumbersItems, mapStrings_mapNumbers f g v,
      mapItems_mapNumbers f g items]
theorem mapFields_mapNumbers (f : S → T) (g : N → M) : ∀ fields : List (S × Value S N),
    mapFields f (mapNumbersFields g fields) = mapNumbersFields g (mapFields f fields)
  | [] => rfl
  | (k, v) :: fields => by
    rw [mapNumbersFields, mapFields, mapFields, mapNumbersFields, mapStrings_mapNumbers f g v,
      mapFields_mapNumbers f g fields]
end

theorem nestingItems_le {items : List (Value S N)} {n : ℕ} (h : ∀ v ∈ items, nesting v ≤ n) :
    nestingItems items ≤ n := by
  induction items with
  | nil => exact Nat.zero_le n
  | cons v items ih =>
    rw [nestingItems]
    exact max_le (h v List.mem_cons_self) (ih fun w hw => h w (List.mem_cons_of_mem v hw))

theorem nestingFields_le {fields : List (S × Value S N)} {n : ℕ}
    (h : ∀ x ∈ fields, nesting x.2 ≤ n) : nestingFields fields ≤ n := by
  induction fields with
  | nil => exact Nat.zero_le n
  | cons x fields ih =>
    rw [nestingFields]
    exact max_le (h x List.mem_cons_self) (ih fun y hy => h y (List.mem_cons_of_mem x hy))

theorem nesting_le_items {v : Value S N} {items : List (Value S N)} (h : v ∈ items) :
    nesting v ≤ nestingItems items := by
  induction items with
  | nil => simp at h
  | cons w items ih =>
    rw [nestingItems]
    rcases List.mem_cons.mp h with rfl | h
    · exact le_max_left _ _
    · exact (ih h).trans (le_max_right _ _)

theorem nesting_le_fields {x : S × Value S N} {fields : List (S × Value S N)} (h : x ∈ fields) :
    nesting x.2 ≤ nestingFields fields := by
  induction fields with
  | nil => simp at h
  | cons y fields ih =>
    rw [nestingFields]
    rcases List.mem_cons.mp h with rfl | h
    · exact le_max_left _ _
    · exact (ih h).trans (le_max_right _ _)

/-- A document whose objects never repeat a key and whose numbers satisfy the predicate. -/
inductive Clean (P : N → Prop) : Value S N → Prop where
  | null : Clean P .null
  | bool (b : Bool) : Clean P (.bool b)
  | number {n : N} (hn : P n) : Clean P (.number n)
  | string (s : S) : Clean P (.string s)
  | array {items : List (Value S N)} (hitems : ∀ v ∈ items, Clean P v) : Clean P (.array items)
  | object {fields : List (S × Value S N)} (hkeys : (fields.map Prod.fst).Nodup)
      (hfields : ∀ x ∈ fields, Clean P x.2) : Clean P (.object fields)

theorem Clean.imp {P Q : N → Prop} (h : ∀ n, P n → Q n) {v : Value S N} (hv : Clean P v) :
    Clean Q v := by
  induction hv with
  | null => exact .null
  | bool b => exact .bool b
  | number hn => exact .number (h _ hn)
  | string s => exact .string s
  | array _ ih => exact .array ih
  | object hkeys _ ih => exact .object hkeys ih

theorem numbersItems_eq (items : List (Value S N)) :
    numbersItems items = items.flatMap numbers := by
  induction items with
  | nil => rfl
  | cons v items ih => rw [numbersItems, ih, List.flatMap_cons]

theorem numbersFields_eq (fields : List (S × Value S N)) :
    numbersFields fields = fields.flatMap fun x => numbers x.2 := by
  induction fields with
  | nil => rfl
  | cons x fields ih => rw [numbersFields, ih, List.flatMap_cons]

theorem Clean.of_numbers {P : N → Prop} {v : Value S N} (hv : v.Clean fun _ => True)
    (h : ∀ n ∈ v.numbers, P n) : v.Clean P := by
  induction hv with
  | null => exact .null
  | bool b => exact .bool b
  | number _ => exact .number (h _ List.mem_cons_self)
  | string s => exact .string s
  | @array items _ ih =>
    rw [numbers, numbersItems_eq] at h
    exact .array fun w hw => ih w hw fun n hn => h n (List.mem_flatMap_of_mem hw hn)
  | @object fields hkeys _ ih =>
    rw [numbers, numbersFields_eq] at h
    exact .object hkeys fun x hx => ih x hx fun n hn => h n (List.mem_flatMap_of_mem hx hn)

theorem Clean.of_mem_numbers {P : N → Prop} {v : Value S N} (hv : v.Clean P) :
    ∀ n ∈ v.numbers, P n := by
  induction hv with
  | null => simp [numbers]
  | bool b => simp [numbers]
  | string s => simp [numbers]
  | number hn => simpa [numbers] using hn
  | array _ ih =>
    intro n hn
    rw [numbers, numbersItems_eq] at hn
    obtain ⟨w, hw, hn⟩ := List.mem_flatMap.mp hn
    exact ih w hw n hn
  | object _ _ ih =>
    intro n hn
    rw [numbers, numbersFields_eq] at hn
    obtain ⟨x, hx, hn⟩ := List.mem_flatMap.mp hn
    exact ih x hx n hn

end Value

/-- A lower-case hexadecimal digit. -/
def hexDigit (d : ℕ) : Char := d.digitChar

/-- The text of one character inside a string literal. -/
def escapeChar (c : Char) : List Char :=
  if c = '"' then ['\\', '"']
  else if c = '\\' then ['\\', '\\']
  else if c = '\n' then ['\\', 'n']
  else if c = '\r' then ['\\', 'r']
  else if c = '\t' then ['\\', 't']
  else if c = '\x0c' then ['\\', 'f']
  else if c = '\x08' then ['\\', 'b']
  else if c.toNat < 32 then
    ['\\', 'u', '0', '0', hexDigit (c.toNat / 16), hexDigit (c.toNat % 16)]
  else [c]

def quote (s : String) : List Char := '"' :: (s.toList.flatMap escapeChar ++ ['"'])

theorem length_escapeChar_le (c : Char) : (escapeChar c).length ≤ 6 := by
  unfold escapeChar
  split_ifs <;> simp

theorem length_quote_le (s : String) : (quote s).length ≤ 6 * s.toList.length + 2 := by
  have h := Python.length_flatMap_le length_escapeChar_le s.toList
  simp only [quote, List.length_cons, List.length_append, List.length_nil]
  omega

mutual
/-- The compact text of a document. -/
def render (number : N → List Char) : Value String N → List Char
  | .null => ['n', 'u', 'l', 'l']
  | .bool true => ['t', 'r', 'u', 'e']
  | .bool false => ['f', 'a', 'l', 's', 'e']
  | .number n => number n
  | .string s => quote s
  | .array [] => ['[', ']']
  | .array (v :: items) => '[' :: (render number v ++ (renderItems number items ++ [']']))
  | .object [] => ['{', '}']
  | .object ((k, v) :: fields) =>
    '{' :: (quote k ++ ':' :: (render number v ++ (renderFields number fields ++ ['}'])))
def renderItems (number : N → List Char) : List (Value String N) → List Char
  | [] => []
  | v :: items => ',' :: (render number v ++ renderItems number items)
def renderFields (number : N → List Char) : List (String × Value String N) → List Char
  | [] => []
  | (k, v) :: fields =>
    ',' :: (quote k ++ ':' :: (render number v ++ renderFields number fields))
end

mutual
/-- Converting numbers while rendering, or beforehand. -/
theorem render_mapNumbers {M : Type} (g : M → List Char) (f : N → M) :
    ∀ v : Value String N, render g (v.mapNumbers f) = render (fun n => g (f n)) v
  | .null => rfl
  | .bool b => by cases b <;> rfl
  | .number _ => rfl
  | .string _ => rfl
  | .array [] => rfl
  | .array (v :: items) => by
    rw [Value.mapNumbers, Value.mapNumbersItems, render, render, render_mapNumbers g f v,
      renderItems_mapNumbers g f items]
  | .object [] => rfl
  | .object ((k, v) :: fields) => by
    rw [Value.mapNumbers, Value.mapNumbersFields, render, render, render_mapNumbers g f v,
      renderFields_mapNumbers g f fields]
theorem renderItems_mapNumbers {M : Type} (g : M → List Char) (f : N → M) :
    ∀ items : List (Value String N),
      renderItems g (Value.mapNumbersItems f items) = renderItems (fun n => g (f n)) items
  | [] => rfl
  | v :: items => by
    rw [Value.mapNumbersItems, renderItems, renderItems, render_mapNumbers g f v,
      renderItems_mapNumbers g f items]
theorem renderFields_mapNumbers {M : Type} (g : M → List Char) (f : N → M) :
    ∀ fields : List (String × Value String N),
      renderFields g (Value.mapNumbersFields f fields) = renderFields (fun n => g (f n)) fields
  | [] => rfl
  | (k, v) :: fields => by
    rw [Value.mapNumbersFields, renderFields, renderFields, render_mapNumbers g f v,
      renderFields_mapNumbers g f fields]
end

end Json
