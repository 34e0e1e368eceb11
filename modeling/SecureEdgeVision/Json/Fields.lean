import SecureEdgeVision.Json.RoundTrip
import Mathlib.Data.List.Forall2
import Mathlib.Data.List.Sort

/-! Objects by their fields: lookups that ignore the order of the keys, canonical forms,
and the strict validation of records. -/
namespace Json

open Python (Str)

variable {S N M α β : Type}

/-- The value of a key. -/
def field? [DecidableEq S] (key : S) : List (S × Value S N) → Option (Value S N)
  | [] => none
  | (k, v) :: fields => if k = key then some v else field? key fields

section Lookup
variable [DecidableEq S] {fields fields' : List (S × Value S N)}

theorem field?_eq_some (hkeys : (fields.map Prod.fst).Nodup) {key : S} {v : Value S N} :
    field? key fields = some v ↔ (key, v) ∈ fields := by
  induction fields with
  | nil => simp [field?]
  | cons x fields ih =>
    obtain ⟨hx, htail⟩ := List.nodup_cons.mp hkeys
    by_cases hkey : x.1 = key
    · have hrest : (key, v) ∉ fields := fun h =>
        hx (hkey ▸ List.mem_map_of_mem (f := Prod.fst) h)
      obtain ⟨k, w⟩ := x
      subst hkey
      simp [field?, hrest, eq_comm]
    · obtain ⟨k, w⟩ := x
      rw [field?, if_neg hkey, ih htail, List.mem_cons, Prod.mk.injEq]
      exact ⟨Or.inr, fun h => h.resolve_left fun h => hkey h.1.symm⟩

theorem field?_perm (hkeys : (fields.map Prod.fst).Nodup) (h : fields.Perm fields') (key : S) :
    field? key fields = field? key fields' := by
  have hkeys' := (h.map Prod.fst).nodup_iff.mp hkeys
  apply Option.ext
  intro v
  rw [field?_eq_some hkeys, field?_eq_some hkeys', h.mem_iff]

theorem field?_map {T : Type} [DecidableEq T] {g : S → T} (hg : Function.Injective g)
    (f : Value S N → Value T M) (key : S) :
    field? (g key) (fields.map fun x => (g x.1, f x.2)) = (field? key fields).map f := by
  induction fields with
  | nil => rfl
  | cons x fields ih =>
    rw [List.map_cons, field?, field?, ih]
    split_ifs with h h' h'
    · rfl
    · exact absurd (hg h) h'
    · exact absurd (congrArg g h') h
    · rfl

end Lookup

namespace Value

theorem sortItems_eq [LE S] [DecidableLE S] (items : List (Value S N)) :
    sortItems items = items.map sortKeys := by
  induction items with
  | nil => rfl
  | cons v items ih => rw [sortItems, ih, List.map_cons]

theorem sortFields_eq [LE S] [DecidableLE S] (fields : List (S × Value S N)) :
    sortFields fields = fields.map fun x => (x.1, sortKeys x.2) := by
  induction fields with
  | nil => rfl
  | cons x fields ih => rw [sortFields, ih, List.map_cons]

/-- Keys sorted, then numbers written as text. -/
def canonical [LE S] [DecidableLE S] (text : N → M) (v : Value S N) : Value S M :=
  v.sortKeys.mapNumbers text

section Canonical
variable [LE S] [DecidableLE S] {text : N → M}

@[simp] theorem canonical_string (s : S) :
    (string s : Value S N).canonical text = string s := rfl
@[simp] theorem canonical_number (n : N) :
    (number n : Value S N).canonical text = number (text n) := rfl

theorem canonical_array (items : List (Value S N)) :
    (array items).canonical text = array (items.map (canonical text)) := by
  rw [canonical, sortKeys, mapNumbers, sortItems_eq, mapNumbersItems_eq, List.map_map]
  rfl

/-- The fields of a canonical object are the canonical fields in another order. -/
theorem canonical_object (text : N → M) (fields : List (S × Value S N)) :
    ∃ sorted, (object fields).canonical text = object sorted ∧
      sorted.Perm (fields.map fun x => (x.1, x.2.canonical text)) := by
  refine ⟨_, by rw [canonical, sortKeys, mapNumbers], ?_⟩
  rw [mapNumbersFields_eq, sortFields_eq]
  have hperm := (List.perm_insertionSort (fun a b : S × Value S N => a.1 ≤ b.1)
    (fields.map fun x => (x.1, sortKeys x.2))).map fun x => (x.1, mapNumbers text x.2)
  rwa [List.map_map] at hperm

/-- Objects with the same canonical form have the same canonical fields. -/
theorem field?_of_canonical_eq [DecidableEq S] {fields fields' : List (S × Value S N)}
    (hkeys : (fields.map Prod.fst).Nodup)
    (h : (object fields).canonical text = (object fields').canonical text) (key : S) :
    (field? key fields).map (canonical text) = (field? key fields').map (canonical text) := by
  obtain ⟨sorted, hsorted, hperm⟩ := canonical_object text fields
  obtain ⟨sorted', hsorted', hperm'⟩ := canonical_object text fields'
  rw [hsorted, hsorted', object.injEq] at h
  subst h
  have hnodup : ((fields.map fun x => (x.1, x.2.canonical text)).map Prod.fst).Nodup := by
    rwa [List.map_map]
  rw [← field?_map Function.injective_id (canonical text) key,
    ← field?_map Function.injective_id (canonical text) key]
  exact field?_perm hnodup (hperm.symm.trans hperm') key

end Canonical

/-- The numbers of a document with distinct keys, written as text. -/
theorem Clean.canonical [LE S] [DecidableLE S] {P : N → Prop} {Q : M → Prop} {text : N → M}
    (h : ∀ n, P n → Q (text n)) {v : Value S N} (hv : v.Clean P) : (v.canonical text).Clean Q := by
  induction hv with
  | null => exact .null
  | bool b => exact .bool b
  | number hn => exact .number (h _ hn)
  | string s => exact .string s
  | @array items _ ih =>
    rw [canonical_array]
    refine .array fun w hw => ?_
    obtain ⟨v, hv, rfl⟩ := List.mem_map.mp hw
    exact ih v hv
  | @object fields hkeys _ ih =>
    obtain ⟨sorted, hsorted, hperm⟩ := canonical_object text fields
    rw [hsorted]
    refine .object ?_ fun y hy => ?_
    · rw [(hperm.map Prod.fst).nodup_iff, List.map_map]
      exact hkeys
    · obtain ⟨x, hx, rfl⟩ := List.mem_map.mp (hperm.mem_iff.mp hy)
      exact ih x hx

theorem Clean.nesting_canonical [LE S] [DecidableLE S] {P : N → Prop} {text : N → M}
    {v : Value S N} (hv : v.Clean P) : (v.canonical text).nesting ≤ v.nesting := by
  induction hv with
  | null => rfl
  | bool b => rfl
  | number hn => rfl
  | string s => rfl
  | @array items _ ih =>
    rw [canonical_array, nesting, nesting]
    refine Nat.succ_le_succ (nestingItems_le fun w hw => ?_)
    obtain ⟨v, hv, rfl⟩ := List.mem_map.mp hw
    exact (ih v hv).trans (nesting_le_items hv)
  | @object fields _ _ ih =>
    obtain ⟨sorted, hsorted, hperm⟩ := canonical_object text fields
    rw [hsorted, nesting, nesting]
    refine Nat.succ_le_succ (nestingFields_le fun y hy => ?_)
    obtain ⟨x, hx, rfl⟩ := List.mem_map.mp (hperm.mem_iff.mp hy)
    exact (ih x hx).trans (nesting_le_fields hx)

mutual
/-- Sorting moves the numbers, but neither adds nor drops one. -/
theorem numbers_sortKeys [LE S] [DecidableLE S] :
    ∀ v : Value S N, v.sortKeys.numbers.Perm v.numbers
  | .null => .refl _
  | .bool _ => .refl _
  | .number _ => .refl _
  | .string _ => .refl _
  | .array items => by
    rw [sortKeys, numbers, numbers]
    exact numbers_sortItems items
  | .object fields => by
    rw [sortKeys, numbers, numbers]
    refine .trans ?_ (numbers_sortFields fields)
    rw [numbersFields_eq, numbersFields_eq]
    exact (List.perm_insertionSort _ _).flatMap_right _
theorem numbers_sortItems [LE S] [DecidableLE S] : ∀ items : List (Value S N),
    (numbersItems (sortItems items)).Perm (numbersItems items)
  | [] => .refl _
  | v :: items => by
    rw [sortItems, numbersItems, numbersItems]
    exact (numbers_sortKeys v).append (numbers_sortItems items)
theorem numbers_sortFields [LE S] [DecidableLE S] : ∀ fields : List (S × Value S N),
    (numbersFields (sortFields fields)).Perm (numbersFields fields)
  | [] => .refl _
  | (k, v) :: fields => by
    rw [sortFields, numbersFields, numbersFields]
    exact (numbers_sortKeys v).append (numbers_sortFields fields)
end

/-- The same document with distinct keys in another order. -/
inductive Reordered : Value S N → Value S N → Prop where
  | null : Reordered .null .null
  | bool (b : Bool) : Reordered (.bool b) (.bool b)
  | number (n : N) : Reordered (.number n) (.number n)
  | string (s : S) : Reordered (.string s) (.string s)
  | array {a b : List (Value S N)} (h : List.Forall₂ Reordered a b) :
    Reordered (.array a) (.array b)
  | object {a b c : List (S × Value S N)} (hkeys : (a.map Prod.fst).Nodup)
    (hnames : a.map Prod.fst = b.map Prod.fst)
    (h : List.Forall₂ Reordered (a.map Prod.snd) (b.map Prod.snd)) (hperm : b.Perm c) :
    Reordered (.object a) (.object c)

/-- A document with sorted keys is the same document. -/
theorem Clean.reordered_sortKeys [LE S] [DecidableLE S] {T : Type} {f : S → T}
    (hf : Function.Injective f) {P : N → Prop} {v : Value S N} (hv : v.Clean P) :
    Reordered (v.mapStrings f) (v.sortKeys.mapStrings f) := by
  induction hv with
  | null => exact .null
  | bool b => exact .bool b
  | number hn => exact .number _
  | string s => exact .string _
  | @array items _ ih =>
    rw [sortKeys, mapStrings, mapStrings, mapItems_eq, mapItems_eq, sortItems_eq, List.map_map]
    refine .array (List.forall₂_map_left_iff.mpr (List.forall₂_map_right_iff.mpr ?_))
    exact List.forall₂_same.mpr ih
  | @object fields hkeys _ ih =>
    have hperm : (fields.map fun x => (f x.1, (sortKeys x.2).mapStrings f)).Perm
        (mapFields f ((sortFields fields).insertionSort fun a b => a.1 ≤ b.1)) := by
      rw [mapFields_eq, sortFields_eq]
      refine .trans ?_ ((List.perm_insertionSort _ _).map _).symm
      rw [List.map_map]
      exact .refl _
    rw [sortKeys, mapStrings, mapStrings]
    refine .object (b := fields.map fun x => (f x.1, (sortKeys x.2).mapStrings f)) ?_ ?_ ?_ hperm
    · rw [mapFields_eq, List.map_map]
      have hnodup := hkeys.map hf
      rwa [List.map_map] at hnodup
    · rw [mapFields_eq, List.map_map, List.map_map]
      rfl
    · rw [mapFields_eq, List.map_map, List.map_map]
      refine List.forall₂_map_left_iff.mpr (List.forall₂_map_right_iff.mpr ?_)
      exact List.forall₂_same.mpr ih

end Value

end Json
