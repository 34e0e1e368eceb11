import SecureEdgeVision.Json.Scan

/-! Scanning inverts rendering, for any way of writing numbers that the scanner's number
grammar reads back. Hence rendered text determines its document. -/
namespace Json

open Python (CodePoint Str)

variable {N : Type} {s : Scanner N} {number : N → List Char}

/-- The characters of a number in any notation. -/
def isNumberChar (c : Char) : Bool :=
  c.isDigit || c == '+' || c == '-' || c == '.' || c == 'e' || c == 'E'

/-- What may follow a value inside a rendered document. -/
def Delimited (rest : List Char) : Prop :=
  ∀ c cs, rest = c :: cs → c = ',' ∨ c = ']' ∨ c = '}'

theorem delimited_nil : Delimited [] := fun _ _ h => by cases h

theorem delimited_cons {c : Char} {cs : List Char} (h : c = ',' ∨ c = ']' ∨ c = '}') :
    Delimited (c :: cs) := by
  intro d ds hd
  obtain ⟨rfl, -⟩ := List.cons.inj hd
  exact h

/-- The number is written with number characters only, and the scanner reads it back. -/
structure Reads (s : Scanner N) (number : N → List Char) (n : N) : Prop where
  ne_nil : number n ≠ []
  chars : ∀ c ∈ number n, isNumberChar c = true
  scan : ∀ rest, Delimited rest → s.number (number n ++ rest) = some (.ok n, rest)

/-- The hook keeps an object without repeated keys as it is. -/
def KeepsObjects (s : Scanner N) : Prop :=
  ∀ fields : List (Str × Value Str N), (fields.map Prod.fst).Nodup →
    s.object fields = .ok (.object fields)

section Strings

theorem hexValue?_hexDigit : ∀ d < 16, hexValue? (hexDigit d) = some d := by decide

theorem codePoint_of_lt {n : ℕ} (h : n < 32) : codePoint n = .scalar (Char.ofNat n) := by
  rw [codePoint, if_neg (by omega)]

/-- An escaped character is read back as itself. -/
theorem scanUnits_escapeChar (c : Char) (rest : List Char) :
    scanUnits .plain (escapeChar c ++ rest) =
      (scanUnits .plain rest).map fun r => (.scalar c :: r.1, r.2) := by
  unfold escapeChar
  split_ifs with h1 h2 h3 h4 h5 h6 h7 h8
  · subst h1; simp [scanUnits, simpleEscape]
  · subst h2; simp [scanUnits, simpleEscape]
  · subst h3; simp [scanUnits, simpleEscape]
  · subst h4; simp [scanUnits, simpleEscape]
  · subst h5; simp [scanUnits, simpleEscape]
  · subst h6; simp [scanUnits, simpleEscape]
  · subst h7; simp [scanUnits, simpleEscape]
  · have hd1 := hexValue?_hexDigit (c.toNat / 16) (by omega)
    have hd2 := hexValue?_hexDigit (c.toNat % 16) (by omega)
    have hd0 : hexValue? '0' = some 0 := rfl
    have hunit : codePoint (c.toNat / 16 * 16 + c.toNat % 16) = .scalar c := by
      rw [show c.toNat / 16 * 16 + c.toNat % 16 = c.toNat by omega, codePoint_of_lt h8,
        Char.ofNat_toNat]
    simp [scanUnits, hd0, hd1, hd2, hunit]
  · simp [scanUnits, h1, h2, h8]

theorem scanUnits_flatMap (cs : List Char) (rest : List Char) :
    scanUnits .plain (cs.flatMap escapeChar ++ '"' :: rest) = some (Str.ofChars cs, rest) := by
  induction cs with
  | nil => simp [scanUnits, Str.ofChars]
  | cons c cs ih =>
    rw [List.flatMap_cons, List.append_assoc, scanUnits_escapeChar, ih]
    rfl

theorem joinSurrogates_ofChars (cs : List Char) :
    joinSurrogates (Str.ofChars cs) = Str.ofChars cs := by
  induction cs with
  | nil => rfl
  | cons c cs ih =>
    unfold joinSurrogates Str.ofChars at ih ⊢
    rw [List.map_cons, List.foldr_cons, ih]
    rfl

theorem scanString_quote (string : String) (rest : List Char) :
    ∃ body, quote string ++ rest = '"' :: body ∧
      scanString body = some (Str.ofString string, rest) := by
  refine ⟨string.toList.flatMap escapeChar ++ '"' :: rest, by simp [quote], ?_⟩
  rw [scanString, scanUnits_flatMap, Option.map_some, joinSurrogates_ofChars]
  rfl

end Strings

/-- A rendered value starts with no space, no closing bracket and no byte order mark. -/
theorem render_head (v : Value String N) (h : v.Clean fun n => Reads s number n) :
    ∃ c cs, render number v = c :: cs ∧ isSpace c = false ∧ c ≠ ']' ∧ c ≠ '\ufeff' := by
  cases h with
  | null => exact ⟨_, _, rfl, rfl, by decide, by decide⟩
  | bool b => cases b <;> exact ⟨_, _, rfl, rfl, by decide, by decide⟩
  | @number n hn =>
    obtain ⟨c, cs, hcs⟩ := List.exists_cons_of_ne_nil hn.ne_nil
    have hc := hn.chars c (by rw [hcs]; exact List.mem_cons_self)
    refine ⟨c, cs, hcs, ?_, ?_, ?_⟩
    · by_contra hspace
      simp only [isSpace, Bool.or_eq_true, beq_iff_eq, Bool.not_eq_false] at hspace
      rcases hspace with ((rfl | rfl) | rfl) | rfl <;> exact absurd hc (by decide)
    · rintro rfl; exact absurd hc (by decide)
    · rintro rfl; exact absurd hc (by decide)
  | string string => exact ⟨_, _, rfl, rfl, by decide, by decide⟩
  | @array items hitems =>
    cases items <;> exact ⟨_, _, by rw [render], rfl, by decide, by decide⟩
  | @object fields hkeys hfields =>
    rcases fields with _ | ⟨⟨k, v⟩, fields⟩ <;>
      exact ⟨_, _, by rw [render], rfl, by decide, by decide⟩

theorem skipSpace_cons {c : Char} (cs : List Char) (h : isSpace c = false) :
    skipSpace (c :: cs) = c :: cs := by
  simp [skipSpace, h]

theorem skipSpace_render (v : Value String N) (h : v.Clean fun n => Reads s number n)
    (rest : List Char) : skipSpace (render number v ++ rest) = render number v ++ rest := by
  obtain ⟨c, cs, hcs, hspace, -⟩ := render_head v h
  rw [hcs, List.cons_append, skipSpace_cons _ hspace]

theorem skipSpace_quote (string : String) (rest : List Char) :
    skipSpace (quote string ++ rest) = quote string ++ rest := by
  simp [quote, skipSpace_cons, isSpace]

/-- Text that starts with a number character is no literal. -/
theorem stripPrefix_eq_none {w c : Char} {word text : List Char} (h : w ≠ c) :
    stripPrefix (w :: word) (c :: text) = none := if_neg h

theorem scanScalar_number {n : N} (hn : Reads s number n) {rest : List Char}
    (hrest : Delimited rest) :
    scanScalar s (number n ++ rest) = .ok (.number n, rest) := by
  obtain ⟨c, cs, hcs⟩ := List.exists_cons_of_ne_nil hn.ne_nil
  have hc := hn.chars c (by rw [hcs]; exact List.mem_cons_self)
  have hscan := hn.scan rest hrest
  have hne : ∀ d, isNumberChar d = false → d ≠ c := by
    rintro d hd rfl
    rw [hd] at hc
    cases hc
  have hminus : stripPrefix "-Infinity".toList (number n ++ rest) = none := by
    rw [hcs]
    by_cases hm : '-' = c
    · subst hm
      cases cs with
      | nil =>
        rcases rest with _ | ⟨d, rest⟩
        · rfl
        · obtain rfl | rfl | rfl := hrest d rest rfl <;> rfl
      | cons d cs =>
        have hd := hn.chars d (by rw [hcs]; simp)
        have hI : 'I' ≠ d := by rintro rfl; exact absurd hd (by decide)
        change (if '-' = '-' then if 'I' = d then _ else none else none) = none
        rw [if_pos rfl, if_neg hI]
    · exact stripPrefix_eq_none hm
  have hliteral : ∀ w word, isNumberChar w = false →
      stripPrefix (w :: word) (number n ++ rest) = none := by
    intro w word hw
    rw [hcs]
    exact stripPrefix_eq_none (hne w hw)
  unfold scanScalar
  rw [show "null".toList = 'n' :: ['u', 'l', 'l'] from rfl,
    show "true".toList = 't' :: ['r', 'u', 'e'] from rfl,
    show "false".toList = 'f' :: ['a', 'l', 's', 'e'] from rfl,
    show "NaN".toList = 'N' :: ['a', 'N'] from rfl,
    show "Infinity".toList = 'I' :: ['n', 'f', 'i', 'n', 'i', 't', 'y'] from rfl]
  simp only [hliteral _ _ (rfl : isNumberChar 'n' = false),
    hliteral _ _ (rfl : isNumberChar 't' = false), hliteral _ _ (rfl : isNumberChar 'f' = false),
    hliteral _ _ (rfl : isNumberChar 'N' = false), hliteral _ _ (rfl : isNumberChar 'I' = false),
    hminus, hscan]
  rfl

/-- The document as the scanner builds it. -/
def scanned (v : Value String N) : Value Str N := v.mapStrings Str.ofString

/-- The scan reads the rendered value back and stops right after it. -/
def ReadsBack (number : N → List Char)
    (scan : List Char → Except ScanError (Value Str N × List Char))
    (v : Value String N) : Prop :=
  ∀ rest, Delimited rest → scan (render number v ++ rest) = .ok (scanned v, rest)

section Containers
variable {scan : List Char → Except ScanError (Value Str N × List Char)}

theorem scanItems_last {text rest : List Char} {v : Value Str N} {fuel : ℕ}
    (hv : scan text = .ok (v, ']' :: rest)) :
    scanItems scan (fuel + 1) text = .ok ([v], rest) := by
  rw [scanItems, hv]
  rfl

theorem scanItems_comma {text rest rest' : List Char} {v : Value Str N}
    {items : List (Value Str N)} {fuel : ℕ} (hv : scan text = .ok (v, ',' :: rest))
    (hitems : scanItems scan fuel (skipSpace rest) = .ok (items, rest')) :
    scanItems scan (fuel + 1) text = .ok (v :: items, rest') := by
  rw [scanItems, hv]
  change (scanItems scan fuel (skipSpace rest) >>= _) = _
  rw [hitems]
  rfl

theorem scanFields_last {body rest after : List Char} {key : Str} {v : Value Str N} {fuel : ℕ}
    (hkey : scanString body = some (key, ':' :: after))
    (hv : scan (skipSpace after) = .ok (v, '}' :: rest)) :
    scanFields scan (fuel + 1) ('"' :: body) = .ok ([(key, v)], rest) := by
  rw [scanFields, if_pos rfl, hkey]
  change (scan (skipSpace after) >>= _) = _
  rw [hv]
  rfl

theorem scanFields_comma {body rest rest' after : List Char} {key : Str} {v : Value Str N}
    {fields : List (Str × Value Str N)} {fuel : ℕ}
    (hkey : scanString body = some (key, ':' :: after))
    (hv : scan (skipSpace after) = .ok (v, ',' :: rest))
    (hfields : scanFields scan fuel (skipSpace rest) = .ok (fields, rest')) :
    scanFields scan (fuel + 1) ('"' :: body) = .ok ((key, v) :: fields, rest') := by
  rw [scanFields, if_pos rfl, hkey]
  change (scan (skipSpace after) >>= _) = _
  rw [hv]
  change (scanFields scan fuel (skipSpace rest) >>= _) = _
  rw [hfields]
  rfl

theorem scanItems_render {v : Value String N} {items : List (Value String N)}
    (hclean : ∀ w ∈ v :: items, w.Clean fun n => Reads s number n)
    (hscan : ∀ w ∈ v :: items, ReadsBack number scan w) {fuel : ℕ} (hfuel : items.length < fuel)
    (rest : List Char) :
    scanItems scan fuel (render number v ++ (renderItems number items ++ ']' :: rest)) =
      .ok (scanned v :: items.map scanned, rest) := by
  induction items generalizing v fuel with
  | nil =>
    obtain ⟨fuel, rfl⟩ := Nat.exists_eq_add_one_of_ne_zero (by omega : fuel ≠ 0)
    exact scanItems_last (hscan v List.mem_cons_self (']' :: rest) (delimited_cons (by decide)))
  | cons w items ih =>
    obtain ⟨fuel, rfl⟩ := Nat.exists_eq_add_one_of_ne_zero (by omega : fuel ≠ 0)
    have hfuel' : items.length < fuel := by rw [List.length_cons] at hfuel; omega
    have htail := ih (v := w) (fun x hx => hclean x (List.mem_cons_of_mem v hx))
      (fun x hx => hscan x (List.mem_cons_of_mem v hx)) hfuel'
    rw [← skipSpace_render w (hclean w (by simp))] at htail
    have hv := hscan v List.mem_cons_self
      (',' :: (render number w ++ (renderItems number items ++ ']' :: rest)))
      (delimited_cons (by decide))
    simp only [renderItems, List.cons_append, List.append_assoc]
    exact scanItems_comma hv htail

theorem scanFields_render {k : String} {v : Value String N}
    {fields : List (String × Value String N)}
    (hclean : ∀ x ∈ (k, v) :: fields, x.2.Clean fun n => Reads s number n)
    (hscan : ∀ x ∈ (k, v) :: fields, ReadsBack number scan x.2) {fuel : ℕ}
    (hfuel : fields.length < fuel) (rest : List Char) :
    scanFields scan fuel
        (quote k ++ ':' :: (render number v ++ (renderFields number fields ++ '}' :: rest))) =
      .ok ((Str.ofString k, scanned v) ::
        fields.map fun x => (Str.ofString x.1, scanned x.2), rest) := by
  induction fields generalizing k v fuel with
  | nil =>
    obtain ⟨fuel, rfl⟩ := Nat.exists_eq_add_one_of_ne_zero (by omega : fuel ≠ 0)
    have hv := hscan (k, v) List.mem_cons_self ('}' :: rest) (delimited_cons (by decide))
    rw [← skipSpace_render v (hclean (k, v) List.mem_cons_self)] at hv
    obtain ⟨body, hbody, hkey⟩ := scanString_quote k
      (':' :: (render number v ++ (renderFields number [] ++ '}' :: rest)))
    rw [hbody]
    exact scanFields_last hkey hv
  | cons x fields ih =>
    obtain ⟨k', w⟩ := x
    obtain ⟨fuel, rfl⟩ := Nat.exists_eq_add_one_of_ne_zero (by omega : fuel ≠ 0)
    have hfuel' : fields.length < fuel := by rw [List.length_cons] at hfuel; omega
    have htail := ih (fun y hy => hclean y (List.mem_cons_of_mem _ hy))
      (fun y hy => hscan y (List.mem_cons_of_mem _ hy)) hfuel'
    rw [← skipSpace_quote] at htail
    have hv := hscan (k, v) List.mem_cons_self
      (',' :: (quote k' ++ ':' :: (render number w ++ (renderFields number fields ++ '}' :: rest))))
      (delimited_cons (by decide))
    rw [← skipSpace_render v (hclean (k, v) List.mem_cons_self)] at hv
    obtain ⟨body, hbody, hkey⟩ := scanString_quote k
      (':' :: (render number v ++ (',' :: (quote k' ++ ':' :: (render number w ++
        (renderFields number fields ++ '}' :: rest))))))
    simp only [renderFields, List.cons_append, List.append_assoc]
    rw [hbody]
    exact scanFields_comma hkey hv htail

/-- Every item takes at least one character. -/
theorem length_le_renderItems (items : List (Value String N)) :
    items.length ≤ (renderItems number items).length := by
  induction items with
  | nil => simp
  | cons v items ih => simp only [renderItems, List.length_cons, List.length_append]; omega

theorem length_le_renderFields (fields : List (String × Value String N)) :
    fields.length ≤ (renderFields number fields).length := by
  induction fields with
  | nil => simp
  | cons x fields ih => simp only [renderFields, List.length_cons, List.length_append]; omega

theorem scanArray_render {items : List (Value String N)}
    (hclean : ∀ w ∈ items, w.Clean fun n => Reads s number n)
    (hscan : ∀ w ∈ items, ReadsBack number scan w) (rest : List Char) :
    ∃ body, render number (.array items) ++ rest = '[' :: body ∧
      scanArray scan body = .ok (items.map scanned, rest) := by
  cases items with
  | nil => exact ⟨']' :: rest, rfl, rfl⟩
  | cons v items =>
    refine ⟨render number v ++ (renderItems number items ++ ']' :: rest), by simp [render], ?_⟩
    obtain ⟨c, cs, hcs, hspace, hclose, -⟩ := render_head v (hclean v List.mem_cons_self)
    have hskip := skipSpace_render v (hclean v List.mem_cons_self)
      (renderItems number items ++ ']' :: rest)
    have hfuel : items.length <
        (render number v ++ (renderItems number items ++ ']' :: rest)).length := by
      have hlength : items.length ≤ (renderItems number items).length := length_le_renderItems items
      simp only [List.length_append, List.length_cons]
      omega
    have hitems := scanItems_render hclean hscan hfuel rest
    rw [hcs, List.cons_append] at hskip hitems ⊢
    unfold scanArray
    rw [hskip]
    dsimp only
    rw [if_neg hclose, hitems]
    rfl

theorem scanObject_render {fields : List (String × Value String N)}
    (hclean : ∀ x ∈ fields, x.2.Clean fun n => Reads s number n)
    (hscan : ∀ x ∈ fields, ReadsBack number scan x.2) (rest : List Char) :
    ∃ body, render number (.object fields) ++ rest = '{' :: body ∧
      scanObject scan body =
        .ok (fields.map fun x => (Str.ofString x.1, scanned x.2), rest) := by
  rcases fields with _ | ⟨⟨k, v⟩, fields⟩
  · exact ⟨'}' :: rest, rfl, rfl⟩
  · refine ⟨quote k ++ ':' :: (render number v ++ (renderFields number fields ++ '}' :: rest)),
      by simp [render], ?_⟩
    have hskip := skipSpace_quote k
      (':' :: (render number v ++ (renderFields number fields ++ '}' :: rest)))
    have hfuel : fields.length < (quote k ++ ':' :: (render number v ++
        (renderFields number fields ++ '}' :: rest))).length := by
      have hlength : fields.length ≤ (renderFields number fields).length :=
        length_le_renderFields fields
      simp only [List.length_append, List.length_cons]
      omega
    have hfields := scanFields_render hclean hscan hfuel rest
    rw [quote, List.cons_append] at hskip hfields ⊢
    unfold scanObject
    rw [hskip]
    dsimp only
    rw [if_neg (by decide), hfields]
    rfl

end Containers

/-- The keys of a clean object stay distinct as Python strings. -/
theorem scanned_keys_nodup {fields : List (String × Value String N)}
    (h : (fields.map Prod.fst).Nodup) :
    ((fields.map fun x => (Str.ofString x.1, scanned x.2)).map Prod.fst).Nodup := by
  have hkeys : (fields.map fun x => (Str.ofString x.1, scanned x.2)).map Prod.fst =
      (fields.map Prod.fst).map Str.ofString := by simp
  rw [hkeys]
  exact h.map Str.ofString_injective

/-- Anything that opens neither a string nor a container is a literal or a number. -/
theorem scanValue_scalar {c : Char} {cs : List Char} (depth : ℕ) (h1 : c ≠ '"') (h2 : c ≠ '{')
    (h3 : c ≠ '[') : scanValue s depth (c :: cs) = scanScalar s (c :: cs) := by
  rw [scanValue.eq_def]
  dsimp only
  rw [if_neg h1, if_neg h2, if_neg h3]

theorem scanValue_number (depth : ℕ) {n : N} (hn : Reads s number n) :
    ReadsBack number (scanValue s depth) (.number n) := by
  intro rest hrest
  have hscan := scanScalar_number hn hrest
  obtain ⟨c, cs, hcs⟩ := List.exists_cons_of_ne_nil hn.ne_nil
  have hc := hn.chars c (by rw [hcs]; exact List.mem_cons_self)
  have hne : ∀ d, isNumberChar d = false → c ≠ d := by
    rintro d hd rfl
    rw [hd] at hc
    cases hc
  rw [render]
  rw [hcs, List.cons_append] at hscan ⊢
  rw [scanValue_scalar depth (hne _ rfl) (hne _ rfl) (hne _ rfl), hscan]
  rfl

theorem scanValue_string (depth : ℕ) (string : String) :
    ReadsBack number (scanValue s depth) (.string string) := by
  intro rest _
  obtain ⟨body, hbody, hstring⟩ := scanString_quote string rest
  rw [render, hbody, scanValue.eq_def]
  dsimp only
  rw [if_pos rfl, hstring]
  rfl

theorem scanValue_array {depth : ℕ} {items : List (Value String N)}
    (hclean : ∀ w ∈ items, w.Clean fun n => Reads s number n)
    (hscan : ∀ w ∈ items, ReadsBack number (scanValue s depth) w) :
    ReadsBack number (scanValue s (depth + 1)) (.array items) := by
  intro rest _
  obtain ⟨body, hbody, harray⟩ := scanArray_render hclean hscan rest
  have hscanned : scanned (.array items) = .array (items.map scanned) := by
    rw [scanned, Value.mapStrings, Value.mapItems_eq]
    rfl
  rw [hbody, scanValue, if_neg (by decide), if_neg (by decide), if_pos rfl, harray, hscanned]
  rfl

theorem scanValue_object (hobject : KeepsObjects s) {depth : ℕ}
    {fields : List (String × Value String N)} (hkeys : (fields.map Prod.fst).Nodup)
    (hclean : ∀ x ∈ fields, x.2.Clean fun n => Reads s number n)
    (hscan : ∀ x ∈ fields, ReadsBack number (scanValue s depth) x.2) :
    ReadsBack number (scanValue s (depth + 1)) (.object fields) := by
  intro rest _
  obtain ⟨body, hbody, hfields⟩ := scanObject_render hclean hscan rest
  have hscanned : scanned (.object fields) =
      .object (fields.map fun x => (Str.ofString x.1, scanned x.2)) := by
    rw [scanned, Value.mapStrings, Value.mapFields_eq]
    rfl
  have hkeep := hobject _ (scanned_keys_nodup hkeys)
  rw [hbody, scanValue, if_neg (by decide), if_pos rfl, hfields, hscanned]
  change (s.object _ >>= _) = _
  rw [hkeep]
  rfl

/-- Scanning a rendered value gives the value and the text after it, within any budget that
covers its nesting. The induction is on the budget. -/
theorem scanValue_render (hobject : KeepsObjects s) (depth : ℕ) (v : Value String N)
    (hclean : v.Clean fun n => Reads s number n) (hdepth : v.nesting ≤ depth) :
    ReadsBack number (scanValue s depth) v := by
  induction depth generalizing v with
  | zero =>
    cases hclean with
    | null => exact fun rest _ => rfl
    | bool b => cases b <;> exact fun rest _ => rfl
    | number hn => exact scanValue_number 0 hn
    | string string => exact scanValue_string 0 string
    | array hitems => simp [Value.nesting] at hdepth
    | object hkeys hfields => simp [Value.nesting] at hdepth
  | succ depth ih =>
    cases hclean with
    | null => exact fun rest _ => rfl
    | bool b => cases b <;> exact fun rest _ => rfl
    | number hn => exact scanValue_number _ hn
    | string string => exact scanValue_string _ string
    | array hitems =>
      rw [Value.nesting] at hdepth
      refine scanValue_array hitems fun w hw => ih w (hitems w hw) ?_
      exact (Value.nesting_le_items hw).trans (by omega)
    | object hkeys hfields =>
      rw [Value.nesting] at hdepth
      refine scanValue_object hobject hkeys hfields fun x hx => ih x.2 (hfields x hx) ?_
      exact (Value.nesting_le_fields hx).trans (by omega)

/-- `json.loads` reads a rendered document back. -/
theorem loads_render (hobject : KeepsObjects s) {depth : ℕ} {v : Value String N}
    (hclean : v.Clean fun n => Reads s number n) (hdepth : v.nesting ≤ depth) :
    loads s depth (render number v) = .ok (scanned v) := by
  obtain ⟨c, cs, hcs, -, -, hmark⟩ := render_head v hclean
  have hskip := skipSpace_render v hclean []
  have hscan := scanValue_render hobject depth v hclean hdepth [] delimited_nil
  rw [List.append_nil] at hskip hscan
  have hhead : (render number v).head? ≠ some '\ufeff' := by
    rw [hcs, List.head?_cons]
    exact fun h => hmark (Option.some.inj h)
  rw [loads, if_neg hhead, hskip, hscan]
  rfl

theorem scanned_injective {v w : Value String N} (h : scanned v = scanned w) : v = w := by
  have hinverse : Function.LeftInverse (fun s => (Str.toString? s).getD "") Str.ofString :=
    fun s => by simp
  rw [← Value.mapStrings_leftInverse hinverse v, ← Value.mapStrings_leftInverse hinverse w]
  exact congrArg _ h

/-- Rendered text determines its document. -/
theorem render_injective {s : Scanner N} (hobject : KeepsObjects s) {v w : Value String N}
    (hv : v.Clean fun n => Reads s number n) (hw : w.Clean fun n => Reads s number n)
    (h : render number v = render number w) : v = w := by
  have hscan := loads_render hobject hv (le_max_left v.nesting w.nesting)
  rw [h, loads_render hobject hw (le_max_right v.nesting w.nesting)] at hscan
  exact scanned_injective (Except.ok.inj hscan).symm

section NumberTexts

/-- A number's own text as a number: the longest run of number characters. -/
def textScanner : Scanner (List Char) where
  number text :=
    let run := text.takeWhile isNumberChar
    if run = [] then none else some (.ok run, text.drop run.length)
  constant _ := .error .value
  object fields := .ok (.object fields)

/-- A non-empty run of number characters. -/
def IsNumberText (text : List Char) : Prop := text ≠ [] ∧ ∀ c ∈ text, isNumberChar c = true

theorem reads_numberText {text : List Char} (h : IsNumberText text) :
    Reads textScanner id text where
  ne_nil := h.1
  chars := h.2
  scan rest hrest := by
    have hrun : (text ++ rest).takeWhile isNumberChar = text := by
      rw [List.takeWhile_append_of_pos h.2]
      cases rest with
      | nil => simp
      | cons c cs => rcases hrest c cs rfl with rfl | rfl | rfl <;> simp [isNumberChar]
    unfold textScanner
    dsimp only [id]
    rw [hrun, if_neg h.1, List.drop_left]

/-- Documents of number texts are determined by their rendered text. -/
theorem render_injective_numberTexts {v w : Value String (List Char)}
    (hv : v.Clean IsNumberText) (hw : w.Clean IsNumberText) (h : render id v = render id w) :
    v = w :=
  render_injective (s := textScanner) (fun _ _ => rfl)
    (hv.imp fun _ => reads_numberText) (hw.imp fun _ => reads_numberText) h

end NumberTexts

end Json
