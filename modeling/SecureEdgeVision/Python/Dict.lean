import Mathlib.Data.List.Induction
import Mathlib.Data.List.Nodup

/-! The built-in mapping: one entry for each key, in the order in which keys first came. -/
namespace Python

variable {K V : Type} [DecidableEq K]

namespace Entries

def get? (key : K) : List (K × V) → Option V
  | [] => none
  | (k, v) :: entries => if k = key then some v else get? key entries

/-- A new value keeps the place of its key. -/
def set (key : K) (value : V) : List (K × V) → List (K × V)
  | [] => [(key, value)]
  | (k, v) :: entries =>
    if k = key then (key, value) :: entries else (k, v) :: set key value entries

theorem mem_keys_set {key k : K} {value : V} {entries : List (K × V)} :
    k ∈ (set key value entries).map Prod.fst ↔ k = key ∨ k ∈ entries.map Prod.fst := by
  induction entries with
  | nil => simp [set]
  | cons x entries ih =>
    obtain ⟨l, v⟩ := x
    unfold set
    split_ifs with h
    · subst h
      simp
    · rw [List.map_cons, List.mem_cons, ih, List.map_cons, List.mem_cons]
      exact or_left_comm

theorem nodup_keys_set {key : K} {value : V} {entries : List (K × V)}
    (h : (entries.map Prod.fst).Nodup) : ((set key value entries).map Prod.fst).Nodup := by
  induction entries with
  | nil => simp [set]
  | cons x entries ih =>
    obtain ⟨l, v⟩ := x
    obtain ⟨hl, htail⟩ := List.nodup_cons.mp h
    unfold set
    split_ifs with hkey
    · subst hkey
      exact List.nodup_cons.mpr ⟨hl, htail⟩
    · refine List.nodup_cons.mpr ⟨fun hmem => ?_, ih htail⟩
      rcases mem_keys_set.mp hmem with h | h
      · exact hkey h
      · exact hl h

theorem get?_set {key k : K} {value : V} {entries : List (K × V)} :
    get? k (set key value entries) = if key = k then some value else get? k entries := by
  induction entries with
  | nil => simp [set, get?]
  | cons x entries ih =>
    obtain ⟨l, v⟩ := x
    unfold set
    split_ifs with hl hk hk
    · rw [get?, if_pos hk]
    · rw [get?, get?, if_neg hk, hl, if_neg hk]
    · rw [get?, ih, if_pos hk, if_neg (hk ▸ hl)]
    · rw [get?, get?, ih, if_neg hk]

theorem set_of_not_mem {key : K} {value : V} {entries : List (K × V)}
    (h : key ∉ entries.map Prod.fst) : set key value entries = entries ++ [(key, value)] := by
  induction entries with
  | nil => rfl
  | cons x entries ih =>
    obtain ⟨hx, hentries⟩ := not_or.mp (mt List.mem_cons.mpr h)
    rw [set, if_neg (Ne.symm hx), ih hentries, List.cons_append]

theorem mem_of_get? {key : K} {value : V} {entries : List (K × V)}
    (h : get? key entries = some value) : (key, value) ∈ entries := by
  induction entries with
  | nil => cases h
  | cons x entries ih =>
    obtain ⟨l, v⟩ := x
    unfold get? at h
    split_ifs at h with hl
    · obtain rfl := Option.some.inj h
      exact hl ▸ List.mem_cons_self
    · exact List.mem_cons_of_mem _ (ih h)

theorem get?_of_mem {key : K} {value : V} {entries : List (K × V)}
    (hkeys : (entries.map Prod.fst).Nodup) (h : (key, value) ∈ entries) :
    get? key entries = some value := by
  induction entries with
  | nil => cases h
  | cons x entries ih =>
    obtain ⟨l, v⟩ := x
    obtain ⟨hl, htail⟩ := List.nodup_cons.mp hkeys
    unfold get?
    rcases List.mem_cons.mp h with h | h
    · obtain ⟨rfl, rfl⟩ := Prod.mk.inj h
      exact if_pos rfl
    · have hmem : key ∈ entries.map Prod.fst := List.mem_map_of_mem (f := Prod.fst) h
      rw [if_neg (ne_of_mem_of_not_mem hmem hl).symm]
      exact ih htail h

end Entries

/-- A `dict`. -/
structure Dict (K V : Type) where
  entries : List (K × V)
  keys_nodup : (entries.map Prod.fst).Nodup

namespace Dict

def empty : Dict K V := ⟨[], List.nodup_nil⟩

def get? (d : Dict K V) (key : K) : Option V := Entries.get? key d.entries

def set (d : Dict K V) (key : K) (value : V) : Dict K V :=
  ⟨Entries.set key value d.entries, Entries.nodup_keys_set d.keys_nodup⟩

/-- `dict(pairs)`: the last value of a key stands. -/
def ofPairs (pairs : List (K × V)) : Dict K V := pairs.foldl (fun d x => d.set x.1 x.2) empty

/-- Pairs without a repeated key are the entries. -/
theorem entries_ofPairs {pairs : List (K × V)} (h : (pairs.map Prod.fst).Nodup) :
    (ofPairs pairs).entries = pairs := by
  suffices hfold : ∀ (pairs : List (K × V)) (d : Dict K V),
      ((d.entries ++ pairs).map Prod.fst).Nodup →
        (pairs.foldl (fun d x => d.set x.1 x.2) d).entries = d.entries ++ pairs from hfold pairs _ h
  intro pairs
  induction pairs with
  | nil => exact fun d _ => (List.append_nil _).symm
  | cons x pairs ih =>
    intro d hnodup
    have hfresh : x.1 ∉ d.entries.map Prod.fst := by
      intro hmem
      rw [List.map_append, List.map_cons] at hnodup
      exact (List.nodup_append.mp hnodup).2.2 x.1 hmem x.1 List.mem_cons_self rfl
    have hset : (d.set x.1 x.2).entries = d.entries ++ [x] := Entries.set_of_not_mem hfresh
    rw [List.foldl_cons, ih _ (by rw [hset, List.append_assoc]; exact hnodup), hset,
      List.append_assoc]
    rfl

@[simp] theorem get?_empty (key : K) : (empty : Dict K V).get? key = none := rfl

theorem get?_set (d : Dict K V) (key k : K) (value : V) :
    (d.set key value).get? k = if key = k then some value else d.get? k := Entries.get?_set

theorem get?_eq_some {d : Dict K V} {key : K} {value : V} :
    d.get? key = some value ↔ (key, value) ∈ d.entries :=
  ⟨Entries.mem_of_get?, Entries.get?_of_mem d.keys_nodup⟩

end Dict

end Python
