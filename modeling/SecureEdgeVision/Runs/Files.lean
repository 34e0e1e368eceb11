import Mathlib.Data.Set.Card

/-! A directory and the files behind its entries. Changes to it are recorded, and those that concern
only what is new leave every entry and every file that was there as it was. -/
namespace Files

/-- What tells a file from every other file: its device and its number there. -/
structure FileId where
  device : ℕ
  inode : ℕ
deriving DecidableEq

inductive Node where
  | regular (content : List UInt8)
  | symlink (target : String)
  | other
deriving DecidableEq

structure Inode where
  node : Node
  links : ℕ
deriving DecidableEq

/-- With other content, where it has any. -/
def Inode.rewrite (content : List UInt8) (inode : Inode) : Inode :=
  match inode.node with
  | .regular _ => { inode with node := .regular content }
  | _ => inode

/-- What is left of a file when one of its links goes. -/
def Inode.dropLink (inode : Inode) : Option Inode :=
  if inode.links ≤ 1 then none else some { inode with links := inode.links - 1 }

theorem Inode.links_rewrite (content : List UInt8) (inode : Inode) :
    (inode.rewrite content).links = inode.links := by
  obtain ⟨node, links⟩ := inode
  cases node <;> rfl

/-- How many links a file has, in this directory or elsewhere. -/
def linkCount (inodes : FileId → Option Inode) (id : FileId) : ℕ := (inodes id).elim 0 Inode.links

/-- A file has at least the links that the directory has to it. -/
@[ext]
structure FileSystem where
  entries : String → Option FileId
  inodes : FileId → Option Inode
  counted : ∀ id, {name | entries name = some id}.encard ≤ linkCount inodes id

inductive Change where
  | create (name : String) (id : FileId)
  | store (id : FileId) (content : List UInt8)
  | remove (name : String)
deriving DecidableEq

namespace FileSystem
variable {fs later : FileSystem} {name : String} {id : FileId} {content : List UInt8}

/-- The file that a name stands for, links not followed. -/
def lstat (fs : FileSystem) (name : String) : Option (FileId × Node) :=
  (fs.entries name).bind fun id => (fs.inodes id).map fun inode => (id, inode.node)

theorem exists_inode (h : fs.entries name = some id) : ∃ inode, fs.inodes id = some inode := by
  have hcounted := fs.counted id
  have hpos : 1 ≤ {name | fs.entries name = some id}.encard :=
    Set.one_le_encard_iff_nonempty.mpr ⟨name, h⟩
  have hlinks : 1 ≤ linkCount fs.inodes id := by exact_mod_cast hpos.trans hcounted
  unfold linkCount at hlinks
  cases hinode : fs.inodes id with
  | none => simp [hinode] at hlinks
  | some inode => exact ⟨inode, rfl⟩

theorem lstat_eq_none : fs.lstat name = none ↔ fs.entries name = none := by
  unfold lstat
  cases hentry : fs.entries name with
  | none => simp
  | some id =>
    obtain ⟨inode, hinode⟩ := exists_inode hentry
    simp [hinode]

/-- Neither the name nor the file is in use. -/
def Free (fs : FileSystem) (name : String) (id : FileId) : Prop :=
  fs.entries name = none ∧ fs.inodes id = none

instance : Decidable (fs.Free name id) := inferInstanceAs (Decidable (_ ∧ _))

theorem entries_ne_of_unused (h : fs.inodes id = none) : fs.entries name ≠ some id := by
  intro hentry
  obtain ⟨inode, hinode⟩ := exists_inode hentry
  rw [h] at hinode
  cases hinode

/-- With one more regular file. -/
def addFile (fs : FileSystem) (name : String) (id : FileId) (content : List UInt8)
    (free : fs.Free name id) : FileSystem where
  entries := Function.update fs.entries name (some id)
  inodes := Function.update fs.inodes id (some ⟨.regular content, 1⟩)
  counted k := by
    by_cases hk : k = id
    · subst hk
      have hset : {n | Function.update fs.entries name (some k) n = some k} ⊆ {name} := by
        intro n hn
        by_contra hne
        rw [Set.mem_ofPred_eq, Function.update_of_ne hne] at hn
        exact entries_ne_of_unused free.2 hn
      simpa [linkCount] using Set.encard_le_encard hset
    · have hset : {n | Function.update fs.entries name (some id) n = some k} ⊆
          {n | fs.entries n = some k} := by
        intro n hn
        rw [Set.mem_ofPred_eq, Function.update_apply] at hn
        split_ifs at hn
        · exact absurd (Option.some.inj hn).symm hk
        · exact hn
      rw [linkCount, Function.update_of_ne hk]
      exact (Set.encard_le_encard hset).trans (fs.counted k)

/-- With other content in a regular file. -/
def setContent (fs : FileSystem) (id : FileId) (content : List UInt8) : FileSystem where
  entries := fs.entries
  inodes := Function.update fs.inodes id ((fs.inodes id).map (Inode.rewrite content))
  counted k := by
    have hcount : linkCount (Function.update fs.inodes id
        ((fs.inodes id).map (Inode.rewrite content))) k = linkCount fs.inodes k := by
      unfold linkCount
      rw [Function.update_apply]
      split_ifs with hk
      · subst hk
        cases fs.inodes k with
        | none => rfl
        | some inode => exact Inode.links_rewrite content inode
      · rfl
    rw [hcount]
    exact fs.counted k

theorem encard_dropLink {names : Set String} {inode : Inode} (hmem : name ∈ names)
    (hcounted : names.encard ≤ inode.links) :
    (names \ {name}).encard ≤ (inode.dropLink.elim 0 Inode.links : ℕ) := by
  have hless : (names \ {name}).encard ≤ ((inode.links - 1 : ℕ) : ℕ∞) := by
    rw [Set.encard_sdiff_singleton_of_mem hmem, ENat.natCast_sub, ENat.natCast_one]
    exact tsub_le_tsub_right hcounted 1
  unfold Inode.dropLink
  split_ifs with hlinks
  · simpa [Nat.sub_eq_zero_of_le hlinks] using hless
  · exact hless

/-- Without a name. A file whose last link goes is gone. -/
def dropEntry (fs : FileSystem) (name : String) : FileSystem where
  entries := Function.update fs.entries name none
  inodes := (fs.entries name).elim fs.inodes fun id =>
    Function.update fs.inodes id ((fs.inodes id).bind Inode.dropLink)
  counted k := by
    have hset : {n | Function.update fs.entries name none n = some k} =
        {n | fs.entries n = some k} \ {name} := by
      ext n
      by_cases hn : n = name <;> simp [Function.update_apply, hn]
    rw [hset]
    by_cases hentry : fs.entries name = some k
    · obtain ⟨inode, hinode⟩ := exists_inode hentry
      have hcounted := fs.counted k
      rw [linkCount, hinode] at hcounted
      rw [linkCount, hentry, Option.elim_some, Function.update_self, hinode]
      exact encard_dropLink hentry hcounted
    · have hcount : linkCount ((fs.entries name).elim fs.inodes fun id =>
          Function.update fs.inodes id ((fs.inodes id).bind Inode.dropLink)) k =
            linkCount fs.inodes k := by
        cases hname : fs.entries name with
        | none => rfl
        | some id =>
          have hk : k ≠ id := by
            rintro rfl
            exact hentry hname
          rw [Option.elim_some, linkCount, Function.update_of_ne hk, linkCount]
      rw [hcount]
      exact (Set.encard_le_encard Set.sdiff_subset).trans (fs.counted k)

/-- A change that cannot be made changes nothing. -/
def apply (fs : FileSystem) : Change → FileSystem
  | .create name id => if free : fs.Free name id then fs.addFile name id [] free else fs
  | .store id content => fs.setContent id content
  | .remove name => fs.dropEntry name

def run (fs : FileSystem) (changes : List Change) : FileSystem := changes.foldl apply fs

theorem run_concat (fs : FileSystem) (changes : List Change) (change : Change) :
    fs.run (changes ++ [change]) = (fs.run changes).apply change := List.foldl_concat ..

section AddFile
variable (free : fs.Free name id)

theorem lstat_addFile : (fs.addFile name id content free).lstat name =
    some (id, .regular content) := by simp [lstat, addFile]

/-- What is stored in a new file is its content. -/
theorem setContent_addFile (content' : List UInt8) :
    (fs.addFile name id content free).setContent id content' =
      fs.addFile name id content' free := by
  simp [addFile, setContent, Inode.rewrite]

/-- Removing a new file takes everything back. -/
theorem dropEntry_addFile : (fs.addFile name id content free).dropEntry name = fs := by
  obtain ⟨hname, hid⟩ := free
  apply FileSystem.ext
  · simp [addFile, dropEntry, ← hname]
  · simp [addFile, dropEntry, Inode.dropLink, ← hid]

end AddFile

end FileSystem

/-- A change that concerns nothing of the file system: neither an entry nor a file that is there. -/
def Change.Avoids (fs : FileSystem) : Change → Prop
  | .create name id => fs.Free name id
  | .store id _ => fs.inodes id = none
  | .remove name => fs.entries name = none

/-- Every entry and every file is still as it was, and new entries are for new files. -/
structure Keeps (fs later : FileSystem) : Prop where
  entries : ∀ name id, fs.entries name = some id → later.entries name = some id
  inodes : ∀ id inode, fs.inodes id = some inode → later.inodes id = some inode
  fresh : ∀ name id, later.entries name = some id →
    fs.entries name = some id ∨ fs.inodes id = none

namespace Keeps
variable {fs later : FileSystem} {change : Change}

theorem refl (fs : FileSystem) : Keeps fs fs := ⟨fun _ _ h => h, fun _ _ h => h, fun _ _ => .inl⟩

theorem of_update {k : FileId} {inode : Option Inode} (h : Keeps fs later)
    (hk : fs.inodes k = none) (id : FileId) (old : Inode) (hold : fs.inodes id = some old) :
    Function.update later.inodes k inode id = some old := by
  have hne : id ≠ k := by
    rintro rfl
    rw [hk] at hold
    cases hold
  rw [Function.update_of_ne hne]
  exact h.inodes id old hold

theorem entry_of_update {target : String} {entry : Option FileId} (h : Keeps fs later)
    (htarget : fs.entries target = none) (name : String) (id : FileId)
    (hname : fs.entries name = some id) :
    Function.update later.entries target entry name = some id := by
  have hne : name ≠ target := by
    rintro rfl
    rw [htarget] at hname
    cases hname
  rw [Function.update_of_ne hne]
  exact h.entries name id hname

theorem apply (h : Keeps fs later) (havoids : change.Avoids fs) :
    Keeps fs (later.apply change) := by
  cases change with
  | create target k =>
    unfold FileSystem.apply
    dsimp only
    split_ifs with hfree
    · refine ⟨h.entry_of_update havoids.1, h.of_update havoids.2, fun name id hname => ?_⟩
      unfold FileSystem.addFile at hname
      dsimp only at hname
      rw [Function.update_apply] at hname
      split_ifs at hname
      · cases hname
        exact .inr havoids.2
      · exact h.fresh name id hname
    · exact h
  | store k content => exact ⟨h.entries, h.of_update havoids, h.fresh⟩
  | remove target =>
    refine ⟨h.entry_of_update havoids, fun id old hold => ?_, fun name id hname => ?_⟩
    · show (later.entries target).elim later.inodes _ id = some old
      cases htarget : later.entries target with
      | none => exact h.inodes id old hold
      | some k =>
        have hnew := h.fresh target k htarget
        rw [havoids] at hnew
        exact h.of_update (hnew.resolve_left nofun) id old hold
    · unfold FileSystem.apply FileSystem.dropEntry at hname
      dsimp only at hname
      rw [Function.update_apply] at hname
      split_ifs at hname
      exact h.fresh name id hname

/-- However far a run of such changes has come. -/
theorem run {changes : List Change} (havoids : ∀ change ∈ changes, change.Avoids fs) :
    Keeps fs (fs.run changes) := by
  induction changes using List.reverseRecOn with
  | nil => exact refl fs
  | append_singleton changes change ih =>
    rw [FileSystem.run_concat]
    refine (ih fun c hc => havoids c (List.mem_append_left _ hc)).apply ?_
    exact havoids change (List.mem_append_right _ (List.mem_singleton_self change))

theorem unused {id : FileId} (h : Keeps fs later) (hid : later.inodes id = none) :
    fs.inodes id = none := by
  cases hold : fs.inodes id with
  | none => rfl
  | some inode =>
    rw [h.inodes id inode hold] at hid
    cases hid

theorem no_entry {name : String} (h : Keeps fs later) (hname : later.entries name = none) :
    fs.entries name = none := by
  cases hold : fs.entries name with
  | none => rfl
  | some id =>
    rw [h.entries name id hold] at hname
    cases hname

end Keeps

end Files
