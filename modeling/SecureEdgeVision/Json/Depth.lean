import SecureEdgeVision.Json.Elements
import SecureEdgeVision.Json.Number

/-! When a text uses up the recursion budget of the scan: where the scan reaches a container
inside too many open ones. Everything that it reads before is read with any budget alike. -/
namespace Json

open Python (Str)

/-- A scan that takes something of the text, and fails with a syntax error at its end. -/
structure Consumes {α : Type} (scan : List Char → Except ScanError (α × List Char)) : Prop where
  length : ∀ text v rest, scan text = .ok (v, rest) → rest.length < text.length
  nil : scan [] = .error .decode

section Length

theorem skipSpace_length (text : List Char) : (skipSpace text).length ≤ text.length :=
  (List.dropWhile_sublist _).length_le

theorem length_of_skipSpace {text more : List Char} {c : Char} (h : skipSpace text = c :: more) :
    more.length < text.length := by
  have hlength := skipSpace_length text
  rw [h, List.length_cons] at hlength
  omega

theorem scanUnits_length {mode : StringMode} {text rest : List Char} {units : Str}
    (h : scanUnits mode text = some (units, rest)) : rest.length < text.length := by
  induction text generalizing mode units with
  | nil => cases mode <;> cases h
  | cons c text ih =>
    have hplain : ∀ {unit : Python.CodePoint},
        (scanUnits .plain text).map (fun r => (unit :: r.1, r.2)) = some (units, rest) →
          rest.length < (c :: text).length := by
      intro unit hmap
      obtain ⟨⟨tail, rest'⟩, htail, he⟩ := Option.map_eq_some_iff.mp hmap
      obtain ⟨-, rfl⟩ := Prod.mk.inj he
      exact Nat.lt_succ_of_lt (ih htail)
    rcases mode with - | - | ⟨- | remaining, value⟩ <;> rw [scanUnits] at h
    · split_ifs at h with hquote hescape hcontrol
      · obtain ⟨-, rfl⟩ := Prod.mk.inj (Option.some.inj h)
        exact Nat.lt_succ_self _
      · exact Nat.lt_succ_of_lt (ih h)
      · exact hplain h
    · split_ifs at h with hhex
      · exact Nat.lt_succ_of_lt (ih h)
      · obtain ⟨unit, -, h⟩ := Option.bind_eq_some_iff.mp h
        exact hplain h
    · obtain ⟨d, -, h⟩ := Option.bind_eq_some_iff.mp h
      exact hplain h
    · obtain ⟨d, -, h⟩ := Option.bind_eq_some_iff.mp h
      exact Nat.lt_succ_of_lt (ih h)

theorem scanString_length {text rest : List Char} {string : Str}
    (h : scanString text = some (string, rest)) : rest.length < text.length := by
  obtain ⟨⟨units, rest'⟩, hunits, he⟩ := Option.map_eq_some_iff.mp h
  obtain ⟨-, rfl⟩ := Prod.mk.inj he
  exact scanUnits_length hunits

theorem stripPrefix_length {word text rest : List Char} (h : stripPrefix word text = some rest) :
    rest.length + word.length = text.length := by
  induction word generalizing text with
  | nil => rw [← Option.some.inj h, List.length_nil, Nat.add_zero]
  | cons w word ih =>
    cases text with
    | nil => cases h
    | cons c text =>
      rw [stripPrefix] at h
      split_ifs at h
      rw [List.length_cons, List.length_cons, ← ih h]
      rfl

theorem matchWhole_length {text whole rest : List Char} (h : matchWhole text = some (whole, rest)) :
    rest.length < text.length := by
  cases text with
  | nil => cases h
  | cons c text =>
    rw [matchWhole] at h
    have hdrop : (text.dropWhile Char.isDigit).length ≤ text.length :=
      (List.dropWhile_sublist _).length_le
    split_ifs at h <;> obtain ⟨-, rfl⟩ := Prod.mk.inj (Option.some.inj h) <;>
      simp only [List.length_cons] <;> omega

theorem matchFraction_length (text : List Char) :
    (matchFraction text).2.length ≤ text.length := by
  cases text with
  | nil => rfl
  | cons c text =>
    have hdrop : (text.dropWhile Char.isDigit).length ≤ text.length :=
      (List.dropWhile_sublist _).length_le
    rw [matchFraction]
    split_ifs
    · exact Nat.le_succ_of_le hdrop
    · rfl

theorem matchSign_length (text : List Char) : (matchSign text).2.length ≤ text.length := by
  cases text with
  | nil => rfl
  | cons c text =>
    rw [matchSign]
    split_ifs
    · exact Nat.le_succ _
    · rfl

theorem matchExponent_length (text : List Char) :
    (matchExponent text).2.length ≤ text.length := by
  cases text with
  | nil => rfl
  | cons c text =>
    have hsign := matchSign_length text
    have hdrop : ((matchSign text).2.dropWhile Char.isDigit).length ≤ (matchSign text).2.length :=
      (List.dropWhile_sublist _).length_le
    rw [matchExponent]
    split_ifs
    · exact Nat.le_succ_of_le (hdrop.trans hsign)
    · rfl

theorem matchNumber_length {text rest : List Char} {token : NumberToken}
    (h : matchNumber text = some (token, rest)) : rest.length < text.length := by
  obtain ⟨⟨whole, p⟩, hwhole, he⟩ := Option.map_eq_some_iff.mp h
  have hrest : (matchExponent (matchFraction p).2).2 = rest := congrArg Prod.snd he
  have hlength := matchWhole_length hwhole
  have hfraction := matchFraction_length p
  have hexponent := matchExponent_length (matchFraction p).2
  have htail : text.tail.length ≤ text.length := by
    rw [List.length_tail]
    omega
  rw [← hrest]
  split_ifs at hlength <;> omega

end Length

section Extends
variable {α β : Type}

/-- The second result is the first one, unless that is a recursion error. -/
def Extends (x y : Except ScanError α) : Prop := x ≠ .error .recursion → y = x

theorem Extends.refl (x : Except ScanError α) : Extends x x := fun _ => rfl

theorem Extends.bind {x y : Except ScanError α} {f g : α → Except ScanError β}
    (h : Extends x y) (hf : ∀ a, Extends (f a) (g a)) : Extends (x >>= f) (y >>= g) := by
  intro hne
  cases x with
  | error e =>
    rw [h fun he => hne (by rw [he]; rfl)]
    rfl
  | ok a =>
    rw [h fun he => by cases he]
    exact hf a hne

end Extends

section Elements
variable {α : Type} {close : Char} {scan scan' : List Char → Except ScanError (α × List Char)}

/-- Where the scan of elements, from the first one on, reaches an element. -/
inductive ElementAt (scan : List Char → Except ScanError (α × List Char)) :
    List Char → List Char → Prop
  | here (text : List Char) : ElementAt scan text text
  | next {text rest more element : List Char} {a : α} (ha : scan text = .ok (a, rest))
      (hcomma : skipSpace rest = ',' :: more) (h : ElementAt scan (skipSpace more) element) :
      ElementAt scan text element

theorem scanElements_extends (h : ∀ text, Extends (scan text) (scan' text)) (fuel : ℕ)
    (text : List Char) :
    Extends (scanElements close scan fuel text) (scanElements close scan' fuel text) := by
  induction fuel generalizing text with
  | zero => exact Extends.refl _
  | succ fuel ih =>
    rw [scanElements, scanElements]
    refine (h text).bind fun x => ?_
    obtain ⟨a, rest⟩ := x
    dsimp only
    cases skipSpace rest with
    | nil => exact Extends.refl _
    | cons c more =>
      dsimp only
      split_ifs
      · exact Extends.refl _
      · exact (ih _).bind fun _ => Extends.refl _
      · exact Extends.refl _

theorem scanEnclosed_extends (h : ∀ text, Extends (scan text) (scan' text)) (text : List Char) :
    Extends (scanEnclosed close scan text) (scanEnclosed close scan' text) := by
  unfold scanEnclosed
  cases skipSpace text with
  | nil => exact Extends.refl _
  | cons c more =>
    dsimp only
    split_ifs
    · exact Extends.refl _
    · exact scanElements_extends h _ _

theorem scanElements_length (h : Consumes scan) {fuel : ℕ} {text rest : List Char}
    {elements : List α} (helements : scanElements close scan fuel text = .ok (elements, rest)) :
    rest.length < text.length := by
  induction fuel generalizing text rest elements with
  | zero => cases helements
  | succ fuel ih =>
    rw [scanElements] at helements
    obtain ⟨⟨a, after⟩, ha, helements⟩ := Python.bind_eq_ok.mp helements
    have hlength := h.length text a after ha
    dsimp only at helements
    cases hskip : skipSpace after with
    | nil =>
      rw [hskip] at helements
      cases helements
    | cons c more =>
      rw [hskip] at helements
      dsimp only at helements
      have hmore := length_of_skipSpace hskip
      split_ifs at helements with hclose hcomma
      · obtain ⟨-, rfl⟩ := Prod.mk.inj (Except.ok.inj helements)
        omega
      · obtain ⟨⟨tail, rest'⟩, htail, he⟩ := Python.bind_eq_ok.mp helements
        obtain ⟨-, rfl⟩ := Prod.mk.inj (Except.ok.inj he)
        have hrest := ih htail
        have hspace := skipSpace_length more
        show rest'.length < text.length
        omega

theorem scanEnclosed_length (h : Consumes scan) {text rest : List Char} {elements : List α}
    (helements : scanEnclosed close scan text = .ok (elements, rest)) :
    rest.length < text.length := by
  unfold scanEnclosed at helements
  cases hskip : skipSpace text with
  | nil =>
    rw [hskip] at helements
    cases helements
  | cons c more =>
    rw [hskip] at helements
    dsimp only at helements
    have hmore := length_of_skipSpace hskip
    split_ifs at helements with hclose
    · obtain ⟨-, rfl⟩ := Prod.mk.inj (Except.ok.inj helements)
      exact hmore
    · have hlength := scanElements_length h helements
      rw [List.length_cons] at hlength
      omega

theorem ElementAt.length_le (h : Consumes scan) {text element : List Char}
    (helement : ElementAt scan text element) : element.length ≤ text.length := by
  induction helement with
  | here text => rfl
  | @next text rest more element a ha hcomma _ ih =>
    have hlength := h.length text a rest ha
    have hmore := length_of_skipSpace hcomma
    have hspace := skipSpace_length more
    omega

/-- A scan of elements exceeds the recursion budget at an element that it reaches. -/
theorem scanElements_recursion (h : Consumes scan) (hclose : close ≠ ',') {fuel : ℕ}
    {text : List Char} (hfuel : text.length ≤ fuel) :
    scanElements close scan fuel text = .error .recursion ↔
      ∃ element, ElementAt scan text element ∧ scan element = .error .recursion := by
  induction fuel generalizing text with
  | zero =>
    obtain rfl := List.eq_nil_of_length_eq_zero (Nat.le_zero.mp hfuel)
    refine iff_of_false (fun h => by cases h) ?_
    rintro ⟨element, helement, hrecursion⟩
    obtain rfl := List.eq_nil_of_length_eq_zero (Nat.le_zero.mp (helement.length_le h))
    rw [h.nil] at hrecursion
    cases hrecursion
  | succ fuel ih =>
    rw [scanElements, Python.bind_eq_error]
    constructor
    · rintro (hrecursion | ⟨⟨a, rest⟩, ha, hrest⟩)
      · exact ⟨text, .here text, hrecursion⟩
      · have hlength := h.length text a rest ha
        dsimp only at hrest
        cases hskip : skipSpace rest with
        | nil =>
          rw [hskip] at hrest
          cases hrest
        | cons c more =>
          rw [hskip] at hrest
          dsimp only at hrest
          have hmore := length_of_skipSpace hskip
          have hspace := skipSpace_length more
          split_ifs at hrest with hclosed hcomma
          · cases hrest
          · subst hcomma
            rcases Python.bind_eq_error.mp hrest with helements | ⟨_, _, he⟩
            · obtain ⟨element, helement, hrecursion⟩ := (ih (by omega)).mp helements
              exact ⟨element, .next ha hskip helement, hrecursion⟩
            · cases he
          · cases hrest
    · rintro ⟨element, helement, hrecursion⟩
      cases helement with
      | here => exact Or.inl hrecursion
      | @next _ rest more element a ha hcomma helement =>
        have hlength := h.length text a rest ha
        have hmore := length_of_skipSpace hcomma
        have hspace := skipSpace_length more
        refine Or.inr ⟨(a, rest), ha, ?_⟩
        dsimp only
        rw [hcomma]
        dsimp only
        rw [if_neg hclose.symm, if_pos rfl, (ih (by omega)).mpr ⟨element, helement, hrecursion⟩]
        rfl

theorem scanEnclosed_recursion (h : Consumes scan) (hclose : close ≠ ',') {text : List Char} :
    scanEnclosed close scan text = .error .recursion ↔ ∃ c more element,
      skipSpace text = c :: more ∧ c ≠ close ∧ ElementAt scan (c :: more) element ∧
        scan element = .error .recursion := by
  unfold scanEnclosed
  cases hskip : skipSpace text with
  | nil =>
    refine iff_of_false (fun he => by cases he) ?_
    rintro ⟨c, more, element, he, -⟩
    cases he
  | cons c more =>
    have hmore := length_of_skipSpace hskip
    dsimp only
    by_cases hclosed : c = close
    · rw [if_pos hclosed]
      refine iff_of_false (fun he => by cases he) ?_
      rintro ⟨c', more', element, he, hopen, -⟩
      exact hopen ((List.cons.inj he).1 ▸ hclosed)
    · rw [if_neg hclosed, scanElements_recursion h hclose (by rw [List.length_cons]; omega)]
      constructor
      · rintro ⟨element, helement, hrecursion⟩
        exact ⟨c, more, element, rfl, hclosed, helement, hrecursion⟩
      · rintro ⟨c', more', element, he, -, helement, hrecursion⟩
        obtain ⟨rfl, rfl⟩ := List.cons.inj he
        exact ⟨element, helement, hrecursion⟩

end Elements

variable {N : Type}

section Containers
variable {scan scan' : List Char → Except ScanError (Value Str N × List Char)}

/-- Where the scan of an array, from its first item on, reaches an item. -/
inductive ItemAt (scan : List Char → Except ScanError (Value Str N × List Char)) :
    List Char → List Char → Prop
  | here (text : List Char) : ItemAt scan text text
  | next {text rest more item : List Char} {v : Value Str N} (hv : scan text = .ok (v, rest))
      (hcomma : skipSpace rest = ',' :: more) (h : ItemAt scan (skipSpace more) item) :
      ItemAt scan text item

/-- Where the scan of an object, from its first key on, reaches the value of a field. -/
inductive FieldAt (scan : List Char → Except ScanError (Value Str N × List Char)) :
    List Char → List Char → Prop
  | here {body after more : List Char} {key : Str} (hkey : scanString body = some (key, after))
      (hcolon : skipSpace after = ':' :: more) : FieldAt scan ('"' :: body) (skipSpace more)
  | next {body after more rest tail item : List Char} {key : Str} {v : Value Str N}
      (hkey : scanString body = some (key, after)) (hcolon : skipSpace after = ':' :: more)
      (hv : scan (skipSpace more) = .ok (v, rest)) (hcomma : skipSpace rest = ',' :: tail)
      (h : FieldAt scan (skipSpace tail) item) : FieldAt scan ('"' :: body) item

theorem fieldValue_length {text item : List Char} {key : Str}
    (h : fieldValue text = some (key, item)) : item.length < text.length := by
  obtain ⟨body, after, more, rfl, hkey, hcolon, rfl⟩ := fieldValue_eq_some.mp h
  have hafter := scanString_length hkey
  have hmore := length_of_skipSpace hcolon
  have hspace := skipSpace_length more
  rw [List.length_cons]
  omega

theorem scanField_extends (h : ∀ text, Extends (scan text) (scan' text)) (text : List Char) :
    Extends (scanField scan text) (scanField scan' text) := by
  unfold scanField
  cases fieldValue text with
  | none => exact Extends.refl _
  | some found =>
    intro hne
    dsimp only at hne ⊢
    rw [h found.2 fun he => hne (by rw [he]; rfl)]

theorem scanField_consumes (h : Consumes scan) : Consumes (scanField scan) := by
  refine ⟨fun text field rest hfield => ?_, rfl⟩
  obtain ⟨item, hitem, hscan⟩ := scanField_eq_ok.mp hfield
  exact (h.length item _ rest hscan).trans (fieldValue_length hitem)

theorem itemAt_iff {text item : List Char} :
    ItemAt scan text item ↔ ElementAt scan text item := by
  constructor <;> intro h
  · induction h with
    | here text => exact .here text
    | next hv hcomma _ ih => exact .next hv hcomma ih
  · induction h with
    | here text => exact .here text
    | next hv hcomma _ ih => exact .next hv hcomma ih

theorem fieldAt_iff {text item : List Char} : FieldAt scan text item ↔
    ∃ field key, ElementAt (scanField scan) text field ∧
      fieldValue field = some (key, item) := by
  constructor
  · intro h
    induction h with
    | @here body after more key hkey hcolon =>
      exact ⟨_, key, .here _, fieldValue_eq_some.mpr ⟨body, after, more, rfl, hkey, hcolon, rfl⟩⟩
    | @next body after more rest tail item key v hkey hcolon hv hcomma _ ih =>
      obtain ⟨field, key', hfield, hitem⟩ := ih
      have hvalue := fieldValue_eq_some.mpr ⟨body, after, more, rfl, hkey, hcolon, rfl⟩
      have hfirst : scanField scan ('"' :: body) = .ok ((key, v), rest) :=
        scanField_eq_ok.mpr ⟨skipSpace more, hvalue, hv⟩
      exact ⟨field, key', .next hfirst hcomma hfield, hitem⟩
  · rintro ⟨field, key, hfield, hitem⟩
    induction hfield with
    | here text =>
      obtain ⟨body, after, more, rfl, hkey, hcolon, rfl⟩ := fieldValue_eq_some.mp hitem
      exact .here hkey hcolon
    | next hfirst hcomma _ ih =>
      obtain ⟨value, hvalue, hv⟩ := scanField_eq_ok.mp hfirst
      obtain ⟨body, after, more, rfl, hkey, hcolon, rfl⟩ := fieldValue_eq_some.mp hvalue
      exact .next hkey hcolon hv hcomma (ih hitem)

theorem scanArray_extends (h : ∀ text, Extends (scan text) (scan' text)) (text : List Char) :
    Extends (scanArray scan text) (scanArray scan' text) := by
  rw [scanArray_eq, scanArray_eq]
  exact scanEnclosed_extends h text

theorem scanObject_extends (h : ∀ text, Extends (scan text) (scan' text)) (text : List Char) :
    Extends (scanObject scan text) (scanObject scan' text) := by
  rw [scanObject_eq, scanObject_eq]
  exact scanEnclosed_extends (scanField_extends h) text

theorem scanArray_length (h : Consumes scan) {text rest : List Char} {items : List (Value Str N)}
    (hitems : scanArray scan text = .ok (items, rest)) : rest.length < text.length := by
  rw [scanArray_eq] at hitems
  exact scanEnclosed_length h hitems

theorem scanObject_length (h : Consumes scan) {text rest : List Char}
    {fields : List (Str × Value Str N)} (hfields : scanObject scan text = .ok (fields, rest)) :
    rest.length < text.length := by
  rw [scanObject_eq] at hfields
  exact scanEnclosed_length (scanField_consumes h) hfields

/-- An array's scan exceeds the recursion budget at an item that it reaches. -/
theorem scanArray_recursion (h : Consumes scan) {text : List Char} :
    scanArray scan text = .error .recursion ↔ ∃ c more item, skipSpace text = c :: more ∧
      c ≠ ']' ∧ ItemAt scan (c :: more) item ∧ scan item = .error .recursion := by
  rw [scanArray_eq, scanEnclosed_recursion h (by decide)]
  simp only [itemAt_iff]

/-- An object's scan exceeds the recursion budget at the value of a field that it reaches. -/
theorem scanObject_recursion (h : Consumes scan) {text : List Char} :
    scanObject scan text = .error .recursion ↔ ∃ c more item, skipSpace text = c :: more ∧
      c ≠ '}' ∧ FieldAt scan (c :: more) item ∧ scan item = .error .recursion := by
  rw [scanObject_eq, scanEnclosed_recursion (scanField_consumes h) (by decide)]
  apply exists_congr
  intro c
  apply exists_congr
  intro more
  constructor
  · rintro ⟨field, hskip, hopen, hfield, hrecursion⟩
    obtain ⟨key, item, hvalue, hitem⟩ := scanField_eq_recursion.mp hrecursion
    exact ⟨item, hskip, hopen, fieldAt_iff.mpr ⟨field, key, hfield, hvalue⟩, hitem⟩
  · rintro ⟨item, hskip, hopen, hfield, hrecursion⟩
    obtain ⟨field, key, hfield, hvalue⟩ := fieldAt_iff.mp hfield
    exact ⟨field, hskip, hopen, hfield, scanField_eq_recursion.mpr ⟨key, item, hvalue, hrecursion⟩⟩

theorem ItemAt.length_le (h : Consumes scan) {text item : List Char}
    (hitem : ItemAt scan text item) : item.length ≤ text.length :=
  (itemAt_iff.mp hitem).length_le h

theorem FieldAt.length_le (h : Consumes scan) {text item : List Char}
    (hitem : FieldAt scan text item) : item.length ≤ text.length := by
  obtain ⟨field, key, hfield, hvalue⟩ := fieldAt_iff.mp hitem
  exact (fieldValue_length hvalue).le.trans (hfield.length_le (scanField_consumes h))

theorem ItemAt.mono (h : ∀ text v rest, scan text = .ok (v, rest) → scan' text = .ok (v, rest))
    {text item : List Char} (hitem : ItemAt scan text item) : ItemAt scan' text item := by
  induction hitem with
  | here text => exact .here text
  | next hv hcomma _ ih => exact .next (h _ _ _ hv) hcomma ih

theorem FieldAt.mono (h : ∀ text v rest, scan text = .ok (v, rest) → scan' text = .ok (v, rest))
    {text item : List Char} (hitem : FieldAt scan text item) : FieldAt scan' text item := by
  induction hitem with
  | here hkey hcolon => exact .here hkey hcolon
  | next hkey hcolon hv hcomma _ ih => exact .next hkey hcolon (h _ _ _ hv) hcomma ih

/-- Where a larger budget reaches an item that exceeds the smaller one, the smaller one is
exceeded there or earlier. -/
theorem ItemAt.of_extends (h : ∀ text, Extends (scan text) (scan' text)) {text item : List Char}
    (hitem : ItemAt scan' text item) (hrecursion : scan item = .error .recursion) :
    ∃ item, ItemAt scan text item ∧ scan item = .error .recursion := by
  induction hitem with
  | here text => exact ⟨text, .here text, hrecursion⟩
  | @next text rest more item v hv hcomma _ ih =>
    by_cases hfirst : scan text = .error .recursion
    · exact ⟨text, .here text, hfirst⟩
    · obtain ⟨item, hitem, hrecursion⟩ := ih hrecursion
      exact ⟨item, .next ((h text hfirst).symm.trans hv) hcomma hitem, hrecursion⟩

theorem FieldAt.of_extends (h : ∀ text, Extends (scan text) (scan' text)) {text item : List Char}
    (hitem : FieldAt scan' text item) (hrecursion : scan item = .error .recursion) :
    ∃ item, FieldAt scan text item ∧ scan item = .error .recursion := by
  induction hitem with
  | here hkey hcolon => exact ⟨_, .here hkey hcolon, hrecursion⟩
  | @next body after more rest tail item key v hkey hcolon hv hcomma _ ih =>
    by_cases hfirst : scan (skipSpace more) = .error .recursion
    · exact ⟨_, .here hkey hcolon, hfirst⟩
    · obtain ⟨item, hitem, hrecursion⟩ := ih hrecursion
      exact ⟨item, .next hkey hcolon ((h _ hfirst).symm.trans hv) hcomma hitem, hrecursion⟩

end Containers

/-- A scanner whose hooks raise no recursion error and whose numbers are not empty. -/
structure Scanner.Ordinary (s : Scanner N) : Prop where
  number : ∀ text rest, s.number text ≠ some (.error .recursion, rest)
  number_length : ∀ text n rest, s.number text = some (n, rest) → rest.length < text.length
  constant : ∀ name, s.constant name ≠ .error .recursion
  object : ∀ fields, s.object fields ≠ .error .recursion

/-- The scan of a text with more recursion budget than the text can use up. -/
def scanUnbounded (s : Scanner N) (text : List Char) :
    Except ScanError (Value Str N × List Char) := scanValue s text.length text

/-- The scan of the text reaches a container inside this many open ones: everything before it
is read without an error. -/
inductive OpensBeyond (s : Scanner N) : ℕ → List Char → Prop
  | array (rest : List Char) : OpensBeyond s 0 ('[' :: rest)
  | object (rest : List Char) : OpensBeyond s 0 ('{' :: rest)
  | item {depth : ℕ} {rest more item : List Char} {c : Char} (hfirst : skipSpace rest = c :: more)
      (hopen : c ≠ ']') (hitem : ItemAt (scanUnbounded s) (c :: more) item)
      (h : OpensBeyond s depth item) : OpensBeyond s (depth + 1) ('[' :: rest)
  | field {depth : ℕ} {rest more item : List Char} {c : Char} (hfirst : skipSpace rest = c :: more)
      (hopen : c ≠ '}') (hitem : FieldAt (scanUnbounded s) (c :: more) item)
      (h : OpensBeyond s depth item) : OpensBeyond s (depth + 1) ('{' :: rest)

section Values
variable {s : Scanner N}

theorem scanValue_nil (s : Scanner N) (depth : ℕ) : scanValue s depth [] = .error .decode := by
  rw [scanValue]

theorem scanValue_bracket (s : Scanner N) (depth : ℕ) (rest : List Char) :
    scanValue s (depth + 1) ('[' :: rest) =
      (do let (items, rest) ← scanArray (scanValue s depth) rest
          pure (.array items, rest)) := by
  rw [scanValue, if_neg (by decide), if_neg (by decide), if_pos rfl]

theorem scanValue_brace (s : Scanner N) (depth : ℕ) (rest : List Char) :
    scanValue s (depth + 1) ('{' :: rest) =
      (do let (fields, rest) ← scanObject (scanValue s depth) rest
          let v ← s.object fields
          pure (v, rest)) := by
  rw [scanValue, if_neg (by decide), if_pos rfl]

/-- A text that opens no container reads alike with every budget. -/
theorem scanValue_leaf (s : Scanner N) {c : Char} (hobject : c ≠ '{') (harray : c ≠ '[')
    (depth depth' : ℕ) (rest : List Char) :
    scanValue s depth (c :: rest) = scanValue s depth' (c :: rest) := by
  unfold scanValue
  dsimp only
  rw [if_neg hobject, if_neg harray, if_neg hobject, if_neg harray]

theorem scanValue_extends (s : Scanner N) {depth depth' : ℕ} (h : depth ≤ depth')
    (text : List Char) : Extends (scanValue s depth text) (scanValue s depth' text) := by
  induction depth generalizing depth' text with
  | zero =>
    cases text with
    | nil =>
      rw [scanValue_nil, scanValue_nil]
      exact Extends.refl _
    | cons c rest =>
      by_cases hobject : c = '{'
      · intro hne
        exact absurd (by rw [hobject, scanValue, if_neg (by decide), if_pos rfl]) hne
      · by_cases harray : c = '['
        · intro hne
          exact absurd (by rw [harray, scanValue, if_neg (by decide), if_neg (by decide),
            if_pos rfl]) hne
        · rw [scanValue_leaf s hobject harray 0 depth']
          exact Extends.refl _
  | succ depth ih =>
    obtain ⟨depth', rfl⟩ : ∃ d, depth' = d + 1 := ⟨depth' - 1, by omega⟩
    have hle : depth ≤ depth' := Nat.le_of_succ_le_succ h
    cases text with
    | nil =>
      rw [scanValue_nil, scanValue_nil]
      exact Extends.refl _
    | cons c rest =>
      by_cases hobject : c = '{'
      · subst hobject
        rw [scanValue_brace, scanValue_brace]
        exact (scanObject_extends (fun text => ih hle text) rest).bind fun _ => Extends.refl _
      · by_cases harray : c = '['
        · subst harray
          rw [scanValue_bracket, scanValue_bracket]
          exact (scanArray_extends (fun text => ih hle text) rest).bind fun _ => Extends.refl _
        · rw [scanValue_leaf s hobject harray (depth + 1) (depth' + 1)]
          exact Extends.refl _

theorem scanScalar_ordinary (hs : s.Ordinary) (text : List Char) :
    scanScalar s text ≠ .error .recursion ∧
      ∀ v rest, scanScalar s text = .ok (v, rest) → rest.length < text.length := by
  have hprefix : ∀ {word rest : List Char} {v : Value Str N}, stripPrefix word text = some rest →
      0 < word.length → ∀ v' rest', Except.ok (ε := ScanError) (v, rest) = .ok (v', rest') →
        rest'.length < text.length := by
    intro word rest v hword hpos v' rest' he
    obtain ⟨-, rfl⟩ := Prod.mk.inj (Except.ok.inj he)
    have hlength := stripPrefix_length hword
    omega
  have hconstant : ∀ {name : String} {word rest : List Char}, stripPrefix word text = some rest →
      0 < word.length → (s.constant name).map (fun v => (v, rest)) ≠ .error .recursion ∧
      ∀ v' rest', (s.constant name).map (fun v => (v, rest)) = .ok (v', rest') →
        rest'.length < text.length := by
    intro name word rest hword hpos
    cases hname : s.constant name with
    | error e =>
      refine ⟨fun he => hs.constant name ?_, fun _ _ he => by cases he⟩
      rw [hname, Except.error.inj he]
    | ok v => exact ⟨fun he => (by cases he), hprefix hword hpos⟩
  unfold scanScalar
  dsimp only
  cases hnull : stripPrefix "null".toList text with
  | some rest => exact ⟨fun he => (by cases he), hprefix hnull (by decide)⟩
  | none =>
  cases htrue : stripPrefix "true".toList text with
  | some rest => exact ⟨fun he => (by cases he), hprefix htrue (by decide)⟩
  | none =>
  cases hfalse : stripPrefix "false".toList text with
  | some rest => exact ⟨fun he => (by cases he), hprefix hfalse (by decide)⟩
  | none =>
  cases hnan : stripPrefix "NaN".toList text with
  | some rest => exact hconstant hnan (by decide)
  | none =>
  cases hinf : stripPrefix "Infinity".toList text with
  | some rest => exact hconstant hinf (by decide)
  | none =>
  cases hneg : stripPrefix "-Infinity".toList text with
  | some rest => exact hconstant hneg (by decide)
  | none =>
  dsimp only
  cases hnumber : s.number text with
  | none => exact ⟨fun he => (by cases he), fun _ _ he => by cases he⟩
  | some found =>
    obtain ⟨n, rest⟩ := found
    cases n with
    | error e =>
      refine ⟨fun he => hs.number text rest ?_, fun _ _ he => by cases he⟩
      rw [hnumber, Except.error.inj he]
    | ok n =>
      refine ⟨fun he => (by cases he), fun v' rest' he => ?_⟩
      obtain ⟨-, rfl⟩ := Prod.mk.inj (Except.ok.inj he)
      exact hs.number_length text _ rest hnumber

theorem scanValue_leaf_ordinary (hs : s.Ordinary) {c : Char} (hobject : c ≠ '{')
    (harray : c ≠ '[') (depth : ℕ) (rest : List Char) :
    scanValue s depth (c :: rest) ≠ .error .recursion ∧
      ∀ v rest', scanValue s depth (c :: rest) = .ok (v, rest') →
        rest'.length < (c :: rest).length := by
  unfold scanValue
  dsimp only
  by_cases hquote : c = '"'
  · rw [if_pos hquote]
    cases hstring : scanString rest with
    | none => exact ⟨fun he => (by cases he), fun _ _ he => by cases he⟩
    | some found =>
      obtain ⟨string, after⟩ := found
      refine ⟨fun he => (by cases he), fun v rest' he => ?_⟩
      obtain ⟨-, rfl⟩ := Prod.mk.inj (Except.ok.inj he)
      exact Nat.lt_succ_of_lt (scanString_length hstring)
  · rw [if_neg hquote, if_neg hobject, if_neg harray]
    exact scanScalar_ordinary hs (c :: rest)

theorem scanValue_consumes (hs : s.Ordinary) (depth : ℕ) : Consumes (scanValue s depth) := by
  induction depth with
  | zero =>
    refine ⟨fun text v rest hv => ?_, scanValue_nil s 0⟩
    cases text with
    | nil =>
      rw [scanValue_nil] at hv
      cases hv
    | cons c body =>
      by_cases hobject : c = '{'
      · rw [hobject, scanValue, if_neg (by decide), if_pos rfl] at hv
        cases hv
      · by_cases harray : c = '['
        · rw [harray, scanValue, if_neg (by decide), if_neg (by decide), if_pos rfl] at hv
          cases hv
        · exact (scanValue_leaf_ordinary hs hobject harray 0 body).2 v rest hv
  | succ depth ih =>
    refine ⟨fun text v rest hv => ?_, scanValue_nil s (depth + 1)⟩
    cases text with
    | nil =>
      rw [scanValue_nil] at hv
      cases hv
    | cons c body =>
      by_cases hobject : c = '{'
      · subst hobject
        rw [scanValue_brace] at hv
        obtain ⟨⟨fields, after⟩, hfields, hv⟩ := Python.bind_eq_ok.mp hv
        obtain ⟨w, -, hv⟩ := Python.bind_eq_ok.mp hv
        obtain ⟨-, rfl⟩ := Prod.mk.inj (Except.ok.inj hv)
        exact Nat.lt_succ_of_lt (scanObject_length ih hfields)
      · by_cases harray : c = '['
        · subst harray
          rw [scanValue_bracket] at hv
          obtain ⟨⟨items, after⟩, hitems, hv⟩ := Python.bind_eq_ok.mp hv
          obtain ⟨-, rfl⟩ := Prod.mk.inj (Except.ok.inj hv)
          exact Nat.lt_succ_of_lt (scanArray_length ih hitems)
        · exact (scanValue_leaf_ordinary hs hobject harray (depth + 1) body).2 v rest hv

theorem scanValue_bracket_recursion (s : Scanner N) (depth : ℕ) (rest : List Char) :
    scanValue s (depth + 1) ('[' :: rest) = .error .recursion ↔
      scanArray (scanValue s depth) rest = .error .recursion := by
  rw [scanValue_bracket, Python.bind_eq_error]
  refine or_iff_left ?_
  rintro ⟨_, _, he⟩
  cases he

theorem scanValue_brace_recursion (hs : s.Ordinary) (depth : ℕ) (rest : List Char) :
    scanValue s (depth + 1) ('{' :: rest) = .error .recursion ↔
      scanObject (scanValue s depth) rest = .error .recursion := by
  rw [scanValue_brace, Python.bind_eq_error]
  refine or_iff_left ?_
  rintro ⟨⟨fields, after⟩, -, he⟩
  rcases Python.bind_eq_error.mp he with he | ⟨_, _, he⟩
  · exact hs.object fields he
  · cases he

/-- A budget of the text's length is never used up. -/
theorem lt_length_of_recursion (hs : s.Ordinary) {depth : ℕ} {text : List Char}
    (h : scanValue s depth text = .error .recursion) : depth < text.length := by
  induction depth generalizing text with
  | zero =>
    cases text with
    | nil =>
      rw [scanValue_nil] at h
      cases h
    | cons c rest => exact Nat.succ_pos _
  | succ depth ih =>
    have hconsumes := scanValue_consumes hs depth
    cases text with
    | nil =>
      rw [scanValue_nil] at h
      cases h
    | cons c rest =>
      by_cases hobject : c = '{'
      · subst hobject
        rw [scanValue_brace_recursion hs, scanObject_recursion hconsumes] at h
        obtain ⟨c, more, item, hskip, -, hitem, hrecursion⟩ := h
        have hdepth := ih hrecursion
        have hlength := hitem.length_le hconsumes
        have hmore := length_of_skipSpace hskip
        rw [List.length_cons] at hlength ⊢
        omega
      · by_cases harray : c = '['
        · subst harray
          rw [scanValue_bracket_recursion, scanArray_recursion hconsumes] at h
          obtain ⟨c, more, item, hskip, -, hitem, hrecursion⟩ := h
          have hdepth := ih hrecursion
          have hlength := hitem.length_le hconsumes
          have hmore := length_of_skipSpace hskip
          rw [List.length_cons] at hlength ⊢
          omega
        · exact absurd h (scanValue_leaf_ordinary hs hobject harray (depth + 1) rest).1

/-- Within its budget a scan reads what the unbounded one reads. -/
theorem scanUnbounded_extends (hs : s.Ordinary) (depth : ℕ) (text : List Char) :
    Extends (scanValue s depth text) (scanUnbounded s text) := by
  rcases Nat.le_total depth text.length with h | h
  · exact scanValue_extends s h text
  · intro _
    refine (scanValue_extends s h text fun hrecursion => ?_).symm
    exact Nat.lt_irrefl _ (lt_length_of_recursion hs hrecursion)

/-- The scan exceeds its recursion budget exactly on the texts that open too many containers. -/
theorem scanValue_recursion_iff (hs : s.Ordinary) {depth : ℕ} {text : List Char} :
    scanValue s depth text = .error .recursion ↔ OpensBeyond s depth text := by
  induction depth generalizing text with
  | zero =>
    constructor
    · intro h
      cases text with
      | nil =>
        rw [scanValue_nil] at h
        cases h
      | cons c rest =>
        by_cases hobject : c = '{'
        · exact hobject ▸ .object rest
        · by_cases harray : c = '['
          · exact harray ▸ .array rest
          · exact absurd h (scanValue_leaf_ordinary hs hobject harray 0 rest).1
    · intro h
      cases h with
      | array rest => rw [scanValue, if_neg (by decide), if_neg (by decide), if_pos rfl]
      | object rest => rw [scanValue, if_neg (by decide), if_pos rfl]
  | succ depth ih =>
    have hconsumes := scanValue_consumes hs depth
    have hextends := scanUnbounded_extends hs depth
    have hok : ∀ text v rest, scanValue s depth text = .ok (v, rest) →
        scanUnbounded s text = .ok (v, rest) := by
      intro text v rest hv
      exact (hextends text (by rw [hv]; exact fun he => by cases he)).trans hv
    constructor
    · intro h
      cases text with
      | nil =>
        rw [scanValue_nil] at h
        cases h
      | cons c rest =>
        by_cases hobject : c = '{'
        · subst hobject
          rw [scanValue_brace_recursion hs, scanObject_recursion hconsumes] at h
          obtain ⟨c, more, item, hskip, hopen, hitem, hrecursion⟩ := h
          exact .field hskip hopen (hitem.mono hok) (ih.mp hrecursion)
        · by_cases harray : c = '['
          · subst harray
            rw [scanValue_bracket_recursion, scanArray_recursion hconsumes] at h
            obtain ⟨c, more, item, hskip, hopen, hitem, hrecursion⟩ := h
            exact .item hskip hopen (hitem.mono hok) (ih.mp hrecursion)
          · exact absurd h (scanValue_leaf_ordinary hs hobject harray (depth + 1) rest).1
    · intro h
      cases h with
      | @item _ rest more item c hskip hopen hitem h =>
        obtain ⟨first, hfirst, hrecursion⟩ := hitem.of_extends hextends (ih.mpr h)
        rw [scanValue_bracket_recursion, scanArray_recursion hconsumes]
        exact ⟨c, more, first, hskip, hopen, hfirst, hrecursion⟩
      | @field _ rest more item c hskip hopen hitem h =>
        obtain ⟨first, hfirst, hrecursion⟩ := hitem.of_extends hextends (ih.mpr h)
        rw [scanValue_brace_recursion hs, scanObject_recursion hconsumes]
        exact ⟨c, more, first, hskip, hopen, hfirst, hrecursion⟩

/-- `json.loads` exceeds the recursion limit exactly on the texts whose value opens too many
containers. -/
theorem loads_recursion_iff (hs : s.Ordinary) {depth : ℕ} {text : List Char} :
    loads s depth text = .error .recursion ↔ OpensBeyond s depth (skipSpace text) := by
  rw [← scanValue_recursion_iff hs]
  unfold loads
  by_cases hmark : text.head? = some '\ufeff'
  · rw [if_pos hmark]
    obtain ⟨rest, rfl⟩ := List.head?_eq_some_iff.mp hmark
    rw [skipSpace_cons rest (by decide)]
    exact iff_of_false (fun he => by cases he)
      (scanValue_leaf_ordinary hs (by decide) (by decide) depth rest).1
  · rw [if_neg hmark, Python.bind_eq_error]
    refine or_iff_left ?_
    rintro ⟨⟨v, rest⟩, -, he⟩
    dsimp only at he
    split_ifs at he <;> cases he

/-- Brackets alone: one more than the budget allows. -/
theorem opensBeyond_brackets (s : Scanner N) (depth : ℕ) (rest : List Char) :
    OpensBeyond s depth (List.replicate (depth + 1) '[' ++ rest) := by
  induction depth with
  | zero => exact .array rest
  | succ depth ih =>
    have hskip : skipSpace (List.replicate (depth + 1) '[' ++ rest) =
        '[' :: (List.replicate depth '[' ++ rest) := skipSpace_cons _ rfl
    exact .item hskip (by decide) (.here _) ih

end Values

end Json
