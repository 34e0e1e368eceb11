import SecureEdgeVision.Json.Elements
import SecureEdgeVision.Json.Number

/-! Documents as they are written, and the hooks of a scanner as a fold over them: scanning
with hooks is scanning without them, followed by the fold. -/
namespace Json

open Python (Str)

/-- A number as it is written, or one of the constants `NaN`, `Infinity` and `-Infinity`. -/
inductive Literal where
  | number (token : NumberToken)
  | constant (name : String)
deriving DecidableEq

/-- A document tree as it is written, repeated keys included. -/
abbrev Tree := Value Str Literal

/-- The scanner without hooks. -/
def treeScanner : Scanner Literal where
  number text := (matchNumber text).map fun x => (.ok (.number x.1), x.2)
  constant name := .ok (.number (.constant name))
  object fields := .ok (.object fields)

variable {N : Type}

/-- The conversion of number literals that a scanner uses. -/
def Scanner.Converts (s : Scanner N) (convert : NumberToken → Except ScanError N) : Prop :=
  ∀ text, s.number text = (matchNumber text).map fun x => (convert x.1, x.2)

/-- What the hooks make of a literal. -/
def Scanner.literal (s : Scanner N) (convert : NumberToken → Except ScanError N) :
    Literal → Except ScanError (Value Str N)
  | .number token => (convert token).map .number
  | .constant name => s.constant name

section Fold
variable (literal : Literal → Except ScanError (Value Str N))
  (object : List (Str × Value Str N) → Except ScanError (Value Str N))

mutual
/-- The hooks applied to a tree, innermost first and in the order of the text. -/
def applyHooks : Tree → Except ScanError (Value Str N)
  | .null => .ok .null
  | .bool b => .ok (.bool b)
  | .number n => literal n
  | .string s => .ok (.string s)
  | .array items => do
    let items ← applyItems items
    .ok (.array items)
  | .object fields => do
    let fields ← applyFields fields
    object fields
def applyItems : List Tree → Except ScanError (List (Value Str N))
  | [] => .ok []
  | v :: items => do
    let v ← applyHooks v
    let items ← applyItems items
    .ok (v :: items)
def applyFields : List (Str × Tree) → Except ScanError (List (Str × Value Str N))
  | [] => .ok []
  | (key, v) :: fields => do
    let v ← applyHooks v
    let fields ← applyFields fields
    .ok ((key, v) :: fields)
end

end Fold

section Fusion
variable {s : Scanner N} {convert : NumberToken → Except ScanError N}

/-- The hooks of the scanner applied to a tree. -/
def Scanner.hooks (s : Scanner N) (convert : NumberToken → Except ScanError N) :
    Tree → Except ScanError (Value Str N) := applyHooks (s.literal convert) s.object

/-- A scan with hooks does what the scan of the tree does, and then applies the hooks. Where
there is no tree it fails as well, though a hook may fail first. -/
structure Follows (s : Scanner N) (convert : NumberToken → Except ScanError N)
    (tree : List Char → Except ScanError (Tree × List Char))
    (scan : List Char → Except ScanError (Value Str N × List Char)) : Prop where
  ok : ∀ text v rest, tree text = .ok (v, rest) →
    scan text = (s.hooks convert v).map fun v => (v, rest)
  error : ∀ text e, tree text = .error e → ∃ e', scan text = .error e'

section Elements
variable {α β : Type} {close : Char} {apply : α → Except ScanError β}
  {tree : List Char → Except ScanError (α × List Char)}
  {scan : List Char → Except ScanError (β × List Char)}

/-- The second scan does what the first one does, and then applies the function. Where the first
one fails it fails as well, though maybe with another error. -/
structure FollowsBy (apply : α → Except ScanError β)
    (tree : List Char → Except ScanError (α × List Char))
    (scan : List Char → Except ScanError (β × List Char)) : Prop where
  ok : ∀ text a rest, tree text = .ok (a, rest) → scan text = (apply a).map fun b => (b, rest)
  error : ∀ text e, tree text = .error e → ∃ e', scan text = .error e'

theorem FollowsBy.elements (h : FollowsBy apply tree scan) (fuel : ℕ) :
    FollowsBy (List.mapM apply) (scanElements close tree fuel) (scanElements close scan fuel) := by
  induction fuel with
  | zero => exact ⟨nofun, fun _ _ _ => ⟨_, rfl⟩⟩
  | succ fuel ih =>
    constructor
    · intro text elements rest helements
      rw [scanElements] at helements ⊢
      obtain ⟨⟨a, after⟩, ha, helements⟩ := Python.bind_eq_ok.mp helements
      rw [h.ok text a after ha]
      dsimp only at helements
      cases hskip : skipSpace after with
      | nil =>
        rw [hskip] at helements
        cases helements
      | cons c more =>
        rw [hskip] at helements
        dsimp only at helements
        split_ifs at helements with hclose hcomma
        · obtain ⟨rfl, rfl⟩ := Prod.mk.inj (Except.ok.inj helements)
          rw [List.mapM_cons, List.mapM_nil]
          cases apply a with
          | error e => rfl
          | ok b =>
            rw [Python.map_ok, Python.ok_bind]
            dsimp only
            rw [hskip]
            exact if_pos hclose
        · obtain ⟨⟨tail, rest'⟩, htail, he⟩ := Python.bind_eq_ok.mp helements
          obtain ⟨rfl, rfl⟩ := Prod.mk.inj (Except.ok.inj he)
          rw [List.mapM_cons]
          cases apply a with
          | error e => rfl
          | ok b =>
            rw [Python.map_ok, Python.ok_bind]
            dsimp only
            rw [hskip]
            dsimp only
            rw [if_neg hclose, if_pos hcomma, ih.ok _ _ _ htail]
            cases List.mapM apply tail <;> rfl
    · intro text e helements
      rw [scanElements] at helements ⊢
      cases ha : tree text with
      | error e =>
        obtain ⟨e', he'⟩ := h.error text e ha
        exact ⟨e', by rw [he']; rfl⟩
      | ok found =>
        obtain ⟨a, after⟩ := found
        rw [ha, Python.ok_bind] at helements
        rw [h.ok text a after ha]
        dsimp only at helements
        cases apply a with
        | error e => exact ⟨e, rfl⟩
        | ok b =>
          rw [Python.map_ok, Python.ok_bind]
          dsimp only
          cases hskip : skipSpace after with
          | nil => exact ⟨_, rfl⟩
          | cons c more =>
            rw [hskip] at helements
            dsimp only at helements ⊢
            split_ifs at helements ⊢ with hclose hcomma
            · cases helements
            · cases htail : scanElements close tree fuel (skipSpace more) with
              | error e =>
                obtain ⟨e', he'⟩ := ih.error _ e htail
                exact ⟨e', by rw [he']; rfl⟩
              | ok tail =>
                rw [htail] at helements
                cases helements
            · exact ⟨_, rfl⟩

theorem FollowsBy.enclosed (h : FollowsBy apply tree scan) :
    FollowsBy (List.mapM apply) (scanEnclosed close tree) (scanEnclosed close scan) := by
  constructor
  · intro text elements rest helements
    unfold scanEnclosed at helements ⊢
    cases hskip : skipSpace text with
    | nil =>
      rw [hskip] at helements
      cases helements
    | cons c more =>
      rw [hskip] at helements
      dsimp only at helements ⊢
      split_ifs at helements ⊢ with hclose
      · obtain ⟨rfl, rfl⟩ := Prod.mk.inj (Except.ok.inj helements)
        rfl
      · exact (h.elements _).ok _ _ _ helements
  · intro text e helements
    unfold scanEnclosed at helements ⊢
    cases hskip : skipSpace text with
    | nil => exact ⟨_, rfl⟩
    | cons c more =>
      rw [hskip] at helements
      dsimp only at helements ⊢
      split_ifs at helements ⊢ with hclose
      · cases helements
      · exact (h.elements _).error _ _ helements

end Elements

section Containers
variable {tree : List Char → Except ScanError (Tree × List Char)}
  {scan : List Char → Except ScanError (Value Str N × List Char)}

theorem applyItems_eq (literal : Literal → Except ScanError (Value Str N))
    (object : List (Str × Value Str N) → Except ScanError (Value Str N)) (items : List Tree) :
    applyItems literal object items = items.mapM (applyHooks literal object) := by
  induction items with
  | nil => rfl
  | cons v items ih =>
    rw [applyItems, List.mapM_cons, ih]
    rfl

theorem applyFields_eq (literal : Literal → Except ScanError (Value Str N))
    (object : List (Str × Value Str N) → Except ScanError (Value Str N))
    (fields : List (Str × Tree)) :
    applyFields literal object fields = fields.mapM fun field =>
      (applyHooks literal object field.2).map fun v => (field.1, v) := by
  induction fields with
  | nil => rfl
  | cons field fields ih =>
    rw [applyFields, List.mapM_cons, ih]
    cases applyHooks literal object field.2 <;> rfl

theorem Follows.field (h : Follows s convert tree scan) :
    FollowsBy (fun field => (s.hooks convert field.2).map fun v => (field.1, v))
      (scanField tree) (scanField scan) := by
  constructor
  · intro text field rest hfield
    obtain ⟨item, hitem, hv⟩ := scanField_eq_ok.mp hfield
    unfold scanField
    rw [hitem]
    dsimp only
    rw [h.ok item _ rest hv]
    cases s.hooks convert field.2 <;> rfl
  · intro text e hfield
    unfold scanField at hfield ⊢
    cases hitem : fieldValue text with
    | none => exact ⟨_, rfl⟩
    | some found =>
      rw [hitem] at hfield
      dsimp only at hfield ⊢
      cases hv : tree found.2 with
      | error e =>
        obtain ⟨e', he'⟩ := h.error _ e hv
        exact ⟨e', by rw [he']; rfl⟩
      | ok read =>
        rw [hv] at hfield
        cases hfield

theorem scanArray_follows (h : Follows s convert tree scan) :
    FollowsBy (applyItems (s.literal convert) s.object) (scanArray tree) (scanArray scan) := by
  rw [scanArray_eq, scanArray_eq, funext (applyItems_eq (s.literal convert) s.object)]
  exact FollowsBy.enclosed ⟨h.ok, h.error⟩

theorem scanObject_follows (h : Follows s convert tree scan) :
    FollowsBy (applyFields (s.literal convert) s.object) (scanObject tree) (scanObject scan) := by
  rw [scanObject_eq, scanObject_eq, funext (applyFields_eq (s.literal convert) s.object)]
  exact h.field.enclosed

end Containers

/-- Literals and numbers, once the scalar is known. -/
theorem scanScalar_follows (hs : s.Converts convert) :
    Follows s convert (scanScalar treeScanner) (scanScalar s) := by
  suffices h : ∀ text,
      (∃ e, scanScalar treeScanner text = .error e ∧ scanScalar s text = .error e) ∨
      ∃ v rest, scanScalar treeScanner text = .ok (v, rest) ∧
        scanScalar s text = (s.hooks convert v).map fun v => (v, rest) by
    constructor
    · intro text v rest hv
      rcases h text with ⟨e, he, -⟩ | ⟨v', rest', hv', hs'⟩
      · rw [hv] at he
        cases he
      · rw [hv] at hv'
        obtain ⟨rfl, rfl⟩ := Prod.mk.inj (Except.ok.inj hv')
        exact hs'
    · intro text e he
      rcases h text with ⟨e', -, he'⟩ | ⟨v, rest, hv, -⟩
      · exact ⟨e', he'⟩
      · rw [he] at hv
        cases hv
  intro text
  unfold scanScalar
  rw [hs text]
  dsimp only [treeScanner]
  cases stripPrefix "null".toList text with
  | some rest => exact Or.inr ⟨_, _, rfl, rfl⟩
  | none =>
  cases stripPrefix "true".toList text with
  | some rest => exact Or.inr ⟨_, _, rfl, rfl⟩
  | none =>
  cases stripPrefix "false".toList text with
  | some rest => exact Or.inr ⟨_, _, rfl, rfl⟩
  | none =>
  cases stripPrefix "NaN".toList text with
  | some rest => exact Or.inr ⟨_, _, rfl, rfl⟩
  | none =>
  cases stripPrefix "Infinity".toList text with
  | some rest => exact Or.inr ⟨_, _, rfl, rfl⟩
  | none =>
  cases stripPrefix "-Infinity".toList text with
  | some rest => exact Or.inr ⟨_, _, rfl, rfl⟩
  | none =>
  cases matchNumber text with
  | none => exact Or.inl ⟨_, rfl, rfl⟩
  | some found =>
    refine Or.inr ⟨_, _, rfl, ?_⟩
    show (convert found.1).map _ = _
    rw [Scanner.hooks, applyHooks, Scanner.literal]
    cases convert found.1 <;> rfl

/-- Strings, containers and scalars, given the scan of what a container holds. -/
theorem scanValue_follows_step (hs : s.Converts convert) {depth : ℕ}
    (h : ∀ inner, depth = inner + 1 →
      Follows s convert (scanValue treeScanner inner) (scanValue s inner)) :
    Follows s convert (scanValue treeScanner depth) (scanValue s depth) := by
  constructor
  · intro text v rest hv
    unfold scanValue at hv ⊢
    cases text with
    | nil => cases hv
    | cons c body =>
      dsimp only at hv ⊢
      split_ifs at hv ⊢ with hquote hbrace hbracket
      · cases hstring : scanString body with
        | none =>
          rw [hstring] at hv
          cases hv
        | some found =>
          rw [hstring] at hv
          obtain ⟨rfl, rfl⟩ := Prod.mk.inj (Except.ok.inj hv)
          rfl
      · cases depth with
        | zero => cases hv
        | succ depth =>
          obtain ⟨⟨fields, after⟩, hfields, hv⟩ := Python.bind_eq_ok.mp hv
          obtain ⟨rfl, rfl⟩ := Prod.mk.inj (Except.ok.inj hv)
          dsimp only
          rw [(scanObject_follows (h depth rfl)).ok _ _ _ hfields, Scanner.hooks, applyHooks]
          cases applyFields (s.literal convert) s.object fields with
          | error e => rfl
          | ok fields =>
            rw [Python.map_ok, Python.ok_bind, Python.ok_bind]
            cases s.object fields <;> rfl
      · cases depth with
        | zero => cases hv
        | succ depth =>
          obtain ⟨⟨items, after⟩, hitems, hv⟩ := Python.bind_eq_ok.mp hv
          obtain ⟨rfl, rfl⟩ := Prod.mk.inj (Except.ok.inj hv)
          dsimp only
          rw [(scanArray_follows (h depth rfl)).ok _ _ _ hitems, Scanner.hooks, applyHooks]
          cases applyItems (s.literal convert) s.object items <;> rfl
      · exact (scanScalar_follows hs).ok _ v rest hv
  · intro text e he
    unfold scanValue at he ⊢
    cases text with
    | nil => exact ⟨_, rfl⟩
    | cons c body =>
      dsimp only at he ⊢
      split_ifs at he ⊢ with hquote hbrace hbracket
      · cases hstring : scanString body with
        | none => exact ⟨_, rfl⟩
        | some found =>
          rw [hstring] at he
          cases he
      · cases depth with
        | zero => exact ⟨_, rfl⟩
        | succ depth =>
          dsimp only at he ⊢
          cases hfields : scanObject (scanValue treeScanner depth) body with
          | error e =>
            obtain ⟨e', he'⟩ := (scanObject_follows (h depth rfl)).error _ e hfields
            exact ⟨e', by rw [he']; rfl⟩
          | ok found =>
            rw [hfields] at he
            cases he
      · cases depth with
        | zero => exact ⟨_, rfl⟩
        | succ depth =>
          dsimp only at he ⊢
          cases hitems : scanArray (scanValue treeScanner depth) body with
          | error e =>
            obtain ⟨e', he'⟩ := (scanArray_follows (h depth rfl)).error _ e hitems
            exact ⟨e', by rw [he']; rfl⟩
          | ok found =>
            rw [hitems] at he
            cases he
      · exact (scanScalar_follows hs).error _ e he

/-- Scanning with hooks is scanning the tree and applying the hooks. -/
theorem scanValue_follows (hs : s.Converts convert) (depth : ℕ) :
    Follows s convert (scanValue treeScanner depth) (scanValue s depth) := by
  induction depth with
  | zero => exact scanValue_follows_step hs fun inner h => by cases h
  | succ depth ih =>
    refine scanValue_follows_step hs fun inner h => ?_
    obtain rfl := Nat.succ.inj h
    exact ih

theorem loads_follows (hs : s.Converts convert) {depth : ℕ} {text : List Char} {tree : Tree}
    (h : loads treeScanner depth text = .ok tree) :
    loads s depth text = s.hooks convert tree := by
  unfold loads at h ⊢
  split_ifs at h ⊢ with hmark
  obtain ⟨⟨v, rest⟩, hv, h⟩ := Python.bind_eq_ok.mp h
  rw [(scanValue_follows hs depth).ok _ v rest hv]
  dsimp only at h
  split_ifs at h with hend
  obtain rfl := Except.ok.inj h
  cases s.hooks convert v with
  | error e => rfl
  | ok w => exact if_pos hend

/-- What is read with hooks is a tree to which the hooks were applied. -/
theorem exists_tree (hs : s.Converts convert) {depth : ℕ} {text : List Char} {v : Value Str N}
    (h : loads s depth text = .ok v) :
    ∃ tree, loads treeScanner depth text = .ok tree ∧ s.hooks convert tree = .ok v := by
  cases htree : loads treeScanner depth text with
  | ok tree => exact ⟨tree, rfl, (loads_follows hs htree).symm.trans h⟩
  | error e =>
    exfalso
    unfold loads at h htree
    split_ifs at h htree with hmark
    obtain ⟨⟨w, rest⟩, hw, h⟩ := Python.bind_eq_ok.mp h
    cases hscan : scanValue treeScanner depth (skipSpace text) with
    | error e =>
      obtain ⟨e', he'⟩ := (scanValue_follows hs depth).error _ e hscan
      rw [hw] at he'
      cases he'
    | ok found =>
      obtain ⟨tree, rest'⟩ := found
      have hfollow := (scanValue_follows hs depth).ok _ tree rest' hscan
      rw [hw] at hfollow
      cases hooked : s.hooks convert tree with
      | error e =>
        rw [hooked] at hfollow
        cases hfollow
      | ok w' =>
        rw [hooked] at hfollow
        obtain ⟨-, rfl⟩ := Prod.mk.inj (Except.ok.inj hfollow)
        rw [hscan, Python.ok_bind] at htree
        dsimp only at h htree
        split_ifs at h htree with hend
        cases htree

end Fusion

section Strict
variable {s : Scanner N} {convert : NumberToken → Except ScanError N} {read : Literal → Option N}

/-- Hooks that refuse repeated keys and the literals that have no value. -/
structure Strict (s : Scanner N) (convert : NumberToken → Except ScanError N)
    (read : Literal → Option N) : Prop where
  literal : ∀ n, s.literal convert n =
    match read n with
    | none => .error .value
    | some m => .ok (.number m)
  object : ∀ fields, s.object fields =
    if (fields.map Prod.fst).Nodup then .ok (.object fields) else .error .value

/-- The same tree with its literals read. -/
def Represents (read : Literal → Option N) (tree : Tree) (data : Value Str N) : Prop :=
  tree.mapNumbers read = data.mapNumbers some

theorem keys_of_mapNumbers {fields : List (Str × Tree)} {values : List (Str × Value Str N)}
    (h : Value.mapNumbersFields read fields = Value.mapNumbersFields some values) :
    fields.map Prod.fst = values.map Prod.fst := by
  rw [Value.mapNumbersFields_eq, Value.mapNumbersFields_eq] at h
  have hkeys := congrArg (List.map Prod.fst) h
  rw [List.map_map, List.map_map] at hkeys
  exact hkeys

mutual
/-- Strict hooks keep exactly the clean trees, as they are. -/
theorem strict_cases (hs : Strict s convert read) : ∀ tree : Tree,
    (s.hooks convert tree = .error .value ∧ ¬ tree.Clean fun n => (read n).isSome) ∨
    ∃ data, s.hooks convert tree = .ok data ∧ (tree.Clean fun n => (read n).isSome) ∧
      Represents read tree data
  | .null => Or.inr ⟨.null, rfl, .null, rfl⟩
  | .bool b => Or.inr ⟨.bool b, rfl, .bool b, rfl⟩
  | .string string => Or.inr ⟨.string string, rfl, .string string, rfl⟩
  | .number n => by
    unfold Scanner.hooks applyHooks
    rw [hs.literal]
    cases hread : read n with
    | none =>
      refine Or.inl ⟨rfl, fun h => ?_⟩
      cases h with
      | number hn => rw [hread] at hn; cases hn
    | some m =>
      refine Or.inr ⟨.number m, rfl, .number (by rw [hread]; rfl), ?_⟩
      rw [Represents, Value.mapNumbers, Value.mapNumbers, hread]
  | .array items => by
    unfold Scanner.hooks applyHooks
    rcases strict_items hs items with ⟨he, hbad⟩ | ⟨values, hvalues, hclean, hsame⟩
    · rw [he]
      refine Or.inl ⟨rfl, fun h => hbad ?_⟩
      cases h with
      | array hitems => exact hitems
    · rw [hvalues]
      refine Or.inr ⟨.array values, rfl, .array hclean, ?_⟩
      rw [Represents, Value.mapNumbers, Value.mapNumbers, hsame]
  | .object fields => by
    unfold Scanner.hooks applyHooks
    rcases strict_fields hs fields with ⟨he, hbad⟩ | ⟨values, hvalues, hclean, hsame⟩
    · rw [he]
      refine Or.inl ⟨rfl, fun h => hbad ?_⟩
      cases h with
      | object _ hfields => exact hfields
    · rw [hvalues, Python.ok_bind, hs.object, ← keys_of_mapNumbers hsame]
      by_cases hkeys : (fields.map Prod.fst).Nodup
      · rw [if_pos hkeys]
        refine Or.inr ⟨.object values, rfl, .object hkeys hclean, ?_⟩
        rw [Represents, Value.mapNumbers, Value.mapNumbers, hsame]
      · rw [if_neg hkeys]
        refine Or.inl ⟨rfl, fun h => hkeys ?_⟩
        cases h with
        | object hnodup _ => exact hnodup
theorem strict_items (hs : Strict s convert read) : ∀ items : List Tree,
    (applyItems (s.literal convert) s.object items = .error .value ∧
      ¬ ∀ v ∈ items, v.Clean fun n => (read n).isSome) ∨
    ∃ values, applyItems (s.literal convert) s.object items = .ok values ∧
      (∀ v ∈ items, v.Clean fun n => (read n).isSome) ∧
      Value.mapNumbersItems read items = Value.mapNumbersItems some values
  | [] => Or.inr ⟨[], rfl, by simp, rfl⟩
  | v :: items => by
    unfold applyItems
    have hhead := strict_cases hs v
    unfold Scanner.hooks at hhead
    rcases hhead with ⟨he, hbad⟩ | ⟨data, hdata, hclean, hsame⟩
    · rw [he]
      exact Or.inl ⟨rfl, fun h => hbad (h v List.mem_cons_self)⟩
    · rw [hdata, Python.ok_bind]
      rcases strict_items hs items with ⟨he, hbad⟩ | ⟨values, hvalues, hcleans, hsames⟩
      · rw [he]
        exact Or.inl ⟨rfl, fun h => hbad fun w hw => h w (List.mem_cons_of_mem v hw)⟩
      · rw [hvalues]
        refine Or.inr ⟨data :: values, rfl, List.forall_mem_cons.mpr ⟨hclean, hcleans⟩, ?_⟩
        rw [Value.mapNumbersItems, Value.mapNumbersItems, hsames, hsame]
theorem strict_fields (hs : Strict s convert read) : ∀ fields : List (Str × Tree),
    (applyFields (s.literal convert) s.object fields = .error .value ∧
      ¬ ∀ x ∈ fields, x.2.Clean fun n => (read n).isSome) ∨
    ∃ values, applyFields (s.literal convert) s.object fields = .ok values ∧
      (∀ x ∈ fields, x.2.Clean fun n => (read n).isSome) ∧
      Value.mapNumbersFields read fields = Value.mapNumbersFields some values
  | [] => Or.inr ⟨[], rfl, by simp, rfl⟩
  | (key, v) :: fields => by
    unfold applyFields
    have hhead := strict_cases hs v
    unfold Scanner.hooks at hhead
    rcases hhead with ⟨he, hbad⟩ | ⟨data, hdata, hclean, hsame⟩
    · rw [he]
      exact Or.inl ⟨rfl, fun h => hbad (h (key, v) List.mem_cons_self)⟩
    · rw [hdata, Python.ok_bind]
      rcases strict_fields hs fields with ⟨he, hbad⟩ | ⟨values, hvalues, hcleans, hsames⟩
      · rw [he]
        exact Or.inl ⟨rfl, fun h => hbad fun y hy => h y (List.mem_cons_of_mem _ hy)⟩
      · rw [hvalues]
        refine Or.inr ⟨(key, data) :: values, rfl, List.forall_mem_cons.mpr ⟨hclean, hcleans⟩, ?_⟩
        rw [Value.mapNumbersFields, Value.mapNumbersFields, hsames, hsame]
end

end Strict

end Json
