import Mathlib.Data.List.AList
import Mathlib.Data.List.Induction
import Mathlib.Order.Lattice

/-! Tables of keys that stay reserved through an inclusive horizon. A table is pruned
lazily; the ledger of every grant ever made is what the table is measured against. -/
namespace Expiry

variable {K T : Type*}

/-- What one grant reserved: some keys, from an instant, through one horizon. -/
structure Grant (K T : Type*) where
  keys : List K
  grantedAt : T
  horizon : T

/-- The instant of the latest grant. -/
def latest (ledger : List (Grant K T)) : Option T := ledger.getLast?.map Grant.grantedAt

@[simp] theorem latest_append (ledger : List (Grant K T)) (g : Grant K T) :
    latest (ledger ++ [g]) = some g.grantedAt := by simp [latest]

section Ledger
variable [LinearOrder T]

/-- Some grant of the ledger still protects the key. -/
def Protected (ledger : List (Grant K T)) (k : K) (now : T) : Prop :=
  ∃ g ∈ ledger, k ∈ g.keys ∧ now ≤ g.horizon

/-- Grants are made in time order, and a key is granted again only strictly after
every earlier horizon it was under. -/
def Sound (ledger : List (Grant K T)) : Prop :=
  ledger.Pairwise fun g g' =>
    g.grantedAt ≤ g'.grantedAt ∧ ∀ k ∈ g.keys, k ∈ g'.keys → g.horizon < g'.grantedAt

theorem Sound.le_latest {ledger : List (Grant K T)} (hs : Sound ledger) {g : Grant K T}
    (hg : g ∈ ledger) : ∃ m ∈ latest ledger, g.grantedAt ≤ m := by
  induction ledger using List.reverseRecOn with
  | nil => simp at hg
  | append_singleton ledger last _ =>
    refine ⟨last.grantedAt, by simp, ?_⟩
    rcases List.mem_append.mp hg with hg | hg
    · exact ((List.pairwise_append.mp hs).2.2 g hg last (by simp)).1
    · rw [List.mem_singleton.mp hg]

/-- Granting keys that nothing protects any more keeps the ledger sound. -/
theorem Sound.append {ledger : List (Grant K T)} (hs : Sound ledger) {g : Grant K T}
    (htime : ∀ m ∈ latest ledger, m ≤ g.grantedAt)
    (hfree : ∀ k ∈ g.keys, ¬ Protected ledger k g.grantedAt) : Sound (ledger ++ [g]) := by
  refine List.pairwise_append.mpr ⟨hs, List.pairwise_singleton _ _, ?_⟩
  intro a ha b hb
  obtain rfl := List.mem_singleton.mp hb
  constructor
  · obtain ⟨m, hm, hle⟩ := hs.le_latest ha
    exact hle.trans (htime m hm)
  · intro k hka hkb
    by_contra hlt
    exact hfree k hkb ⟨a, ha, hka, not_lt.mp hlt⟩

/-- The grant's horizon has not passed the latest grant. -/
def Grant.isLive (mark : Option T) (g : Grant K T) : Bool :=
  mark.all fun m => decide (m ≤ g.horizon)

theorem Grant.isLive_iff {mark : Option T} {g : Grant K T} :
    g.isLive mark = true ↔ ∀ m ∈ mark, m ≤ g.horizon := by
  cases mark <;> simp [isLive]

end Ledger

/-- One horizon for each key. -/
abbrev Table (K T : Type*) := AList (fun _ : K => T)

variable [DecidableEq K]

theorem mem_iff_lookup (table : Table K T) (k : K) : k ∈ table ↔ ∃ h, table.lookup k = some h := by
  rw [← AList.lookup_isSome, Option.isSome_iff_exists]

/-- Reserve every listed key through one horizon, replacing what the key held. -/
def reserve (keys : List K) (horizon : T) (table : Table K T) : Table K T :=
  keys.foldl (fun t k => t.insert k horizon) table

theorem lookup_reserve (keys : List K) (horizon : T) (table : Table K T) (k : K) :
    (reserve keys horizon table).lookup k =
      if k ∈ keys then some horizon else table.lookup k := by
  induction keys generalizing table with
  | nil => simp [reserve]
  | cons a keys ih =>
    have hstep : reserve (a :: keys) horizon table =
      reserve keys horizon (table.insert a horizon) := rfl
    rw [hstep, ih]
    by_cases hk : k ∈ keys
    · simp [hk]
    · by_cases ha : k = a
      · subst k; simp [hk]
      · simp [hk, ha, AList.lookup_insert_ne ha]

variable [LinearOrder T]

/-- Keep exactly the entries whose horizon has not passed. -/
def prune (now : T) (table : Table K T) : Table K T where
  entries := table.entries.filter fun entry => decide (now ≤ entry.2)
  nodupKeys := table.nodupKeys.sublist List.filter_sublist

@[simp] theorem lookup_prune (now : T) (table : Table K T) (k : K) (h : T) :
    (prune now table).lookup k = some h ↔ table.lookup k = some h ∧ now ≤ h := by
  rw [← Option.mem_def, ← Option.mem_def, AList.mem_lookup_iff, AList.mem_lookup_iff]
  simp [prune]

/-- The table holds exactly the keys of the grants whose horizon has not passed the
latest grant, each under its grant's horizon. -/
structure Represents (mark : Option T) (table : Table K T) (ledger : List (Grant K T)) :
    Prop where
  lookup_iff : ∀ k h, table.lookup k = some h ↔
    ∃ g ∈ ledger, k ∈ g.keys ∧ g.horizon = h ∧ ∀ m ∈ mark, m ≤ h
  mark_eq : mark = latest ledger
  sound : Sound ledger

theorem represents_empty : Represents (none : Option T) (∅ : Table K T) [] where
  lookup_iff := by simp
  mark_eq := rfl
  sound := List.Pairwise.nil

variable {mark : Option T} {table : Table K T} {ledger : List (Grant K T)} {now : T}

/-- Pruning at any instant from the latest grant on leaves what the ledger protects. -/
theorem Represents.lookup_prune_iff (hr : Represents mark table ledger)
    (hnow : ∀ m ∈ mark, m ≤ now) (k : K) (h : T) :
    (prune now table).lookup k = some h ↔
      ∃ g ∈ ledger, k ∈ g.keys ∧ g.horizon = h ∧ now ≤ h := by
  rw [lookup_prune, hr.lookup_iff]
  constructor
  · rintro ⟨⟨g, hg, hk, hh, -⟩, hle⟩
    exact ⟨g, hg, hk, hh, hle⟩
  · rintro ⟨g, hg, hk, hh, hle⟩
    exact ⟨⟨g, hg, hk, hh, fun m hm => (hnow m hm).trans hle⟩, hle⟩

theorem Represents.mem_prune_iff (hr : Represents mark table ledger)
    (hnow : ∀ m ∈ mark, m ≤ now) (k : K) : k ∈ prune now table ↔ Protected ledger k now := by
  rw [mem_iff_lookup]
  constructor
  · rintro ⟨h, hh⟩
    obtain ⟨g, hg, hk, rfl, hle⟩ := (hr.lookup_prune_iff hnow k h).mp hh
    exact ⟨g, hg, hk, hle⟩
  · rintro ⟨g, hg, hk, hle⟩
    exact ⟨g.horizon, (hr.lookup_prune_iff hnow k _).mpr ⟨g, hg, hk, rfl, hle⟩⟩

/-- Pruning, then reserving free keys, represents the ledger with the new grant. -/
theorem Represents.grant (hr : Represents mark table ledger) {g : Grant K T}
    (htime : ∀ m ∈ mark, m ≤ g.grantedAt) (hhorizon : g.grantedAt ≤ g.horizon)
    (hfree : ∀ k ∈ g.keys, k ∉ prune g.grantedAt table) :
    Represents (some g.grantedAt) (reserve g.keys g.horizon (prune g.grantedAt table))
      (ledger ++ [g]) where
  lookup_iff k h := by
    have hold := hr.lookup_prune_iff htime k h
    rw [lookup_reserve]
    split_ifs with hk
    · have hnone : ¬ ∃ g' ∈ ledger, k ∈ g'.keys ∧ g'.horizon = h ∧ g.grantedAt ≤ h := fun hex =>
        hfree k hk ((mem_iff_lookup _ _).mpr ⟨h, hold.mpr hex⟩)
      constructor
      · intro he
        obtain rfl := Option.some.inj he
        exact ⟨g, by simp, hk, rfl, by simpa using hhorizon⟩
      · rintro ⟨g', hg', hk', hh, hle⟩
        rcases List.mem_append.mp hg' with hg' | hg'
        · exact absurd ⟨g', hg', hk', hh, hle _ rfl⟩ hnone
        · rw [← hh, List.mem_singleton.mp hg']
    · rw [hold]
      constructor
      · rintro ⟨g', hg', hk', hh, hle⟩
        exact ⟨g', by simp [hg'], hk', hh, by simpa using hle⟩
      · rintro ⟨g', hg', hk', hh, hle⟩
        rcases List.mem_append.mp hg' with hg' | hg'
        · exact ⟨g', hg', hk', hh, hle _ rfl⟩
        · rw [List.mem_singleton.mp hg'] at hk'
          exact absurd hk' hk
  mark_eq := by simp
  sound := by
    apply hr.sound.append
    · rw [← hr.mark_eq]; exact htime
    · intro k hk hp
      exact hfree k hk ((hr.mem_prune_iff htime k).mpr hp)

/-- Of two live grants the later one reserved no key of the earlier one. -/
theorem Represents.live_disjoint (hr : Represents mark table ledger) :
    (ledger.filter (Grant.isLive mark)).Pairwise fun g g' => g.keys.Disjoint g'.keys := by
  have hsound := hr.sound
  unfold Sound at hsound
  refine (hsound.sublist List.filter_sublist).imp_of_mem ?_
  intro g g' hg hg' hpair k hk hk'
  obtain ⟨-, hlive⟩ := List.mem_filter.mp hg
  obtain ⟨hmem, -⟩ := List.mem_filter.mp hg'
  obtain ⟨m, hm, hle⟩ := hr.sound.le_latest hmem
  have hhorizon := Grant.isLive_iff.mp hlive m (hr.mark_eq ▸ hm)
  exact absurd (hpair.2 k hk hk') (not_lt.mpr (hle.trans hhorizon))

/-- The table has one entry for each key of each live grant. -/
theorem Represents.keys_perm (hr : Represents mark table ledger)
    (hnodup : ∀ g ∈ ledger, g.keys.Nodup) :
    table.keys.Perm ((ledger.filter (Grant.isLive mark)).flatMap Grant.keys) := by
  have hlive : ((ledger.filter (Grant.isLive mark)).flatMap Grant.keys).Nodup := by
    rw [List.nodup_flatMap]
    refine ⟨fun g hg => hnodup g (List.mem_of_mem_filter hg), ?_⟩
    exact hr.live_disjoint
  rw [List.perm_ext_iff_of_nodup table.keys_nodup hlive]
  intro k
  have hmem : k ∈ table.keys ↔ ∃ h, table.lookup k = some h :=
    AList.mem_keys.symm.trans (mem_iff_lookup table k)
  rw [hmem, List.mem_flatMap]
  constructor
  · rintro ⟨h, hlookup⟩
    obtain ⟨g, hg, hk, rfl, hm⟩ := (hr.lookup_iff k h).mp hlookup
    exact ⟨g, List.mem_filter.mpr ⟨hg, Grant.isLive_iff.mpr hm⟩, hk⟩
  · rintro ⟨g, hg, hk⟩
    obtain ⟨hg, hm⟩ := List.mem_filter.mp hg
    exact ⟨g.horizon, (hr.lookup_iff k _).mpr ⟨g, hg, hk, rfl, Grant.isLive_iff.mp hm⟩⟩

end Expiry
