import SecureEdgeVision.Binary64.Rounding
import SecureEdgeVision.Json.Fields

/-! Python numbers in JSON text: the number grammar, the conversions of `int` and `float`,
and the literals that are read back as the number they were written for. -/
namespace Json

open Binary64 (Finite)
open Python (decimal decimalValue Str)

/-- An `int` or a finite `float`. -/
inductive PyNumber where
  | int (n : ℤ)
  | float (x : Finite)
deriving DecidableEq

structure Exponent where
  marker : Char
  sign : List Char
  digits : List Char
deriving DecidableEq

/-- A number literal, part by part. -/
structure NumberToken where
  negative : Bool
  whole : List Char
  fraction : List Char
  exponent : Option Exponent
deriving DecidableEq

namespace NumberToken

/-- A fraction or an exponent makes the literal a `float`. -/
def isFloat (t : NumberToken) : Bool := t.fraction ≠ [] || t.exponent.isSome

def fractionText (t : NumberToken) : List Char :=
  if t.fraction = [] then [] else '.' :: t.fraction

def exponentText (t : NumberToken) : List Char :=
  match t.exponent with
  | none => []
  | some e => e.marker :: (e.sign ++ e.digits)

def text (t : NumberToken) : List Char :=
  (if t.negative then ['-'] else []) ++ (t.whole ++ (t.fractionText ++ t.exponentText))

/-- The literal conforms to the grammar. -/
structure Valid (t : NumberToken) : Prop where
  whole : t.whole = ['0'] ∨ ∃ c cs, t.whole = c :: cs ∧ c ≠ '0'
  whole_digits : ∀ c ∈ t.whole, c.isDigit = true
  fraction_digits : ∀ c ∈ t.fraction, c.isDigit = true
  exponent : ∀ e ∈ t.exponent, (e.marker = 'e' ∨ e.marker = 'E') ∧
    (e.sign = [] ∨ e.sign = ['+'] ∨ e.sign = ['-']) ∧ e.digits ≠ [] ∧
      ∀ c ∈ e.digits, c.isDigit = true

/-- The most digits `int` converts from or to text. -/
def maxStrDigits : ℕ := 4300

/-- `int(text)`; `none` is a `ValueError` for too many digits. -/
def toInt? (t : NumberToken) : Option ℤ :=
  if maxStrDigits < t.whole.length then none
  else some (if t.negative then -(decimalValue t.whole : ℤ) else decimalValue t.whole)

/-- The power of ten that scales the digits of the literal. -/
def scale (t : NumberToken) : ℤ :=
  (match t.exponent with
  | none => 0
  | some e => if e.sign = ['-'] then -(decimalValue e.digits : ℤ) else decimalValue e.digits) -
    t.fraction.length

/-- `float(text)`, correctly rounded; `none` is an infinity. -/
def toFloat? (t : NumberToken) : Option Finite :=
  let digits := decimalValue (t.whole ++ t.fraction)
  if 0 ≤ t.scale then Binary64.ofRatio t.negative (digits * 10 ^ t.scale.toNat) 1
  else Binary64.ofRatio t.negative digits (10 ^ (-t.scale).toNat)

end NumberToken

def matchWhole : List Char → Option (List Char × List Char)
  | [] => none
  | c :: p =>
    if c = '0' then some (['0'], p)
    else if c.isDigit then some (c :: p.takeWhile Char.isDigit, p.dropWhile Char.isDigit)
    else none

/-- A fraction needs a digit after its point. -/
def matchFraction (p : List Char) : List Char × List Char :=
  match p with
  | [] => ([], [])
  | c :: q =>
    if c = '.' ∧ q.takeWhile Char.isDigit ≠ [] then
      (q.takeWhile Char.isDigit, q.dropWhile Char.isDigit)
    else ([], c :: q)

def matchSign : List Char → List Char × List Char
  | [] => ([], [])
  | c :: q => if c = '+' ∨ c = '-' then ([c], q) else ([], c :: q)

/-- An exponent needs a digit after its marker and sign. -/
def matchExponent (p : List Char) : Option Exponent × List Char :=
  match p with
  | [] => (none, [])
  | c :: q =>
    if (c = 'e' ∨ c = 'E') ∧ (matchSign q).2.takeWhile Char.isDigit ≠ [] then
      (some ⟨c, (matchSign q).1, (matchSign q).2.takeWhile Char.isDigit⟩,
        (matchSign q).2.dropWhile Char.isDigit)
    else (none, c :: q)

/-- `_match_number`: the longest number literal the text starts with. -/
def matchNumber (text : List Char) : Option (NumberToken × List Char) :=
  let negative : Bool := text.head? = some '-'
  let p := if negative then text.tail else text
  (matchWhole p).map fun (whole, p) =>
    let (fraction, p) := matchFraction p
    let (exponent, p) := matchExponent p
    (⟨negative, whole, fraction, exponent⟩, p)

theorem matchWhole_digits {p whole rest : List Char} (h : matchWhole p = some (whole, rest)) :
    whole ≠ [] ∧ ∀ c ∈ whole, c.isDigit = true := by
  cases p with
  | nil => cases h
  | cons c p =>
    rw [matchWhole] at h
    split_ifs at h with hzero hdigit
    · obtain ⟨rfl, -⟩ := Prod.mk.inj (Option.some.inj h)
      exact ⟨by simp, by simp⟩
    · obtain ⟨rfl, -⟩ := Prod.mk.inj (Option.some.inj h)
      refine ⟨by simp, List.forall_mem_cons.mpr ⟨hdigit, ?_⟩⟩
      exact fun d hd => List.all_eq_true.mp List.all_takeWhile d hd

/-- The whole part of a literal that was matched is a run of digits. -/
theorem matchNumber_whole {text rest : List Char} {token : NumberToken}
    (h : matchNumber text = some (token, rest)) :
    token.whole ≠ [] ∧ ∀ c ∈ token.whole, c.isDigit = true := by
  obtain ⟨⟨whole, p⟩, hwhole, he⟩ := Option.map_eq_some_iff.mp h
  have hsame : whole = token.whole := congrArg (fun x => x.1.whole) he
  exact hsame ▸ matchWhole_digits hwhole

/-- `float(text)` for a number literal. -/
def floatOfLiteral (text : List Char) : Option Finite :=
  match matchNumber text with
  | some (t, []) => t.toFloat?
  | _ => none

section Grammar
variable {rest : List Char}

/-- Digits stop where a delimiter, a point or an exponent marker stands. -/
theorem takeWhile_digits {ds : List Char} (hds : ∀ c ∈ ds, c.isDigit = true)
    (hrest : ∀ c ∈ rest.head?, c.isDigit = false) :
    (ds ++ rest).takeWhile Char.isDigit = ds ∧ (ds ++ rest).dropWhile Char.isDigit = rest := by
  have htake : rest.takeWhile Char.isDigit = [] := by
    cases rest with
    | nil => rfl
    | cons c rest => simp [hrest c (by simp)]
  have hdrop : rest.dropWhile Char.isDigit = rest := by
    cases rest with
    | nil => rfl
    | cons c rest => simp [hrest c (by simp)]
  constructor
  · rw [List.takeWhile_append_of_pos hds, htake, List.append_nil]
  · rw [List.dropWhile_append_of_pos hds, hdrop]

theorem Delimited.head (h : Delimited rest) :
    ∀ c ∈ rest.head?, c = ',' ∨ c = ']' ∨ c = '}' := by
  cases rest with
  | nil => simp
  | cons c cs => simpa using h c cs rfl

theorem matchExponent_text {t : NumberToken} (ht : t.Valid) (hrest : Delimited rest) :
    matchExponent (t.exponentText ++ rest) = (t.exponent, rest) := by
  have hdigit : ∀ c ∈ rest.head?, c.isDigit = false := by
    intro c hc
    rcases hrest.head c hc with rfl | rfl | rfl <;> rfl
  unfold NumberToken.exponentText
  cases he : t.exponent with
  | none =>
    cases rest with
    | nil => rfl
    | cons c cs => rcases hrest c cs rfl with rfl | rfl | rfl <;> simp [matchExponent]
  | some e =>
    obtain ⟨hmarker, hsign, hne, hdigits⟩ := ht.exponent e he
    obtain ⟨htake, hdrop⟩ := takeWhile_digits hdigits hdigit
    have hmatch : matchSign (e.sign ++ (e.digits ++ rest)) = (e.sign, e.digits ++ rest) := by
      rcases hsign with hs | hs | hs
      · obtain ⟨d, ds, hd⟩ := List.exists_cons_of_ne_nil hne
        have hdd := hdigits d (by rw [hd]; exact List.mem_cons_self)
        have h1 : d ≠ '+' := by rintro rfl; exact absurd hdd (by decide)
        have h2 : d ≠ '-' := by rintro rfl; exact absurd hdd (by decide)
        simp [hs, hd, matchSign, h1, h2]
      · simp [hs, matchSign]
      · simp [hs, matchSign]
    simp only [List.cons_append, List.append_assoc, matchExponent, hmatch, htake, hdrop]
    rw [if_pos ⟨hmarker, hne⟩]

theorem matchFraction_text {t : NumberToken} (ht : t.Valid) (hrest : Delimited rest) :
    matchFraction (t.fractionText ++ (t.exponentText ++ rest)) =
      (t.fraction, t.exponentText ++ rest) := by
  have hhead : ∀ c ∈ (t.exponentText ++ rest).head?,
      c = 'e' ∨ c = 'E' ∨ c = ',' ∨ c = ']' ∨ c = '}' := by
    unfold NumberToken.exponentText
    cases he : t.exponent with
    | none => exact fun c hc => Or.inr (Or.inr (hrest.head c hc))
    | some e =>
      obtain ⟨hmarker, -⟩ := ht.exponent e he
      intro c hc
      obtain rfl : e.marker = c := by simpa using hc
      tauto
  have hdigit : ∀ c ∈ (t.exponentText ++ rest).head?, c.isDigit = false := by
    intro c hc
    rcases hhead c hc with rfl | rfl | rfl | rfl | rfl <;> rfl
  unfold NumberToken.fractionText
  split_ifs with hfraction
  · rw [hfraction, List.nil_append]
    cases htext : t.exponentText ++ rest with
    | nil => rfl
    | cons c cs =>
      have hc := hhead c (by simp [htext])
      have hne : c ≠ '.' := by rcases hc with rfl | rfl | rfl | rfl | rfl <;> decide
      simp [matchFraction, hne]
  · obtain ⟨htake, hdrop⟩ := takeWhile_digits ht.fraction_digits hdigit
    simp only [List.cons_append, matchFraction, htake, hdrop]
    rw [if_pos ⟨trivial, hfraction⟩]

theorem matchWhole_text {t : NumberToken} (ht : t.Valid) (hrest : Delimited rest) :
    matchWhole (t.whole ++ (t.fractionText ++ (t.exponentText ++ rest))) =
      some (t.whole, t.fractionText ++ (t.exponentText ++ rest)) := by
  have hdigit : ∀ c ∈ (t.fractionText ++ (t.exponentText ++ rest)).head?, c.isDigit = false := by
    unfold NumberToken.fractionText NumberToken.exponentText
    intro c hc
    split_ifs at hc with hfraction
    · cases he : t.exponent with
      | none =>
        rw [he] at hc
        rcases hrest.head c hc with rfl | rfl | rfl <;> rfl
      | some e =>
        rw [he] at hc
        obtain ⟨hmarker, -⟩ := ht.exponent e he
        obtain rfl : e.marker = c := by simpa using hc
        rcases hmarker with hmarker | hmarker <;> rw [hmarker] <;> rfl
    · obtain rfl : '.' = c := by simpa using hc
      rfl
  rcases ht.whole with hzero | ⟨c, cs, hcs, hc⟩
  · simp [hzero, matchWhole]
  · have hall : ∀ d ∈ cs, d.isDigit = true := fun d hd =>
      ht.whole_digits d (by rw [hcs]; exact List.mem_cons_of_mem c hd)
    have hfirst := ht.whole_digits c (by rw [hcs]; exact List.mem_cons_self)
    obtain ⟨htake, hdrop⟩ := takeWhile_digits hall hdigit
    simp only [hcs, List.cons_append, matchWhole, htake, hdrop, if_neg hc, if_pos hfirst]

/-- A valid literal is matched as a whole. -/
theorem matchNumber_text {t : NumberToken} (ht : t.Valid) (hrest : Delimited rest) :
    matchNumber (t.text ++ rest) = some (t, rest) := by
  have hwhole := matchWhole_text ht hrest
  obtain ⟨c, cs, hcs⟩ : ∃ c cs, t.whole = c :: cs := by
    rcases ht.whole with h | ⟨c, cs, h, -⟩ <;> exact ⟨_, _, h⟩
  have hminus : c ≠ '-' := by
    rintro rfl
    exact absurd (ht.whole_digits '-' (by rw [hcs]; exact List.mem_cons_self)) (by decide)
  have hparts : matchNumber (t.text ++ rest) =
      (matchWhole (t.whole ++ (t.fractionText ++ (t.exponentText ++ rest)))).map fun x =>
        (⟨t.negative, x.1, (matchFraction x.2).1, (matchExponent (matchFraction x.2).2).1⟩,
          (matchExponent (matchFraction x.2).2).2) := by
    unfold matchNumber NumberToken.text
    cases hneg : t.negative with
    | true => simp
    | false => simp [hcs, hminus]
  rw [hparts, hwhole, Option.map_some]
  dsimp only
  rw [matchFraction_text ht hrest, matchExponent_text ht hrest]

end Grammar

section Numbers

/-- `int.__repr__` -/
def intText (n : ℤ) : List Char := (if n < 0 then ['-'] else []) ++ decimal n.natAbs

/-- The text `json.dumps` writes for a number, given `float.__repr__`. -/
def numberText (reprFloat : Finite → String) : PyNumber → List Char
  | .int n => intText n
  | .float x => (reprFloat x).toList

/-- `int.__repr__` refuses an integer of too many digits. -/
def PyNumber.printable : PyNumber → Bool
  | .int n => (decimal n.natAbs).length ≤ NumberToken.maxStrDigits
  | .float _ => true

/-- What `int` reads of a run of digits, it can write. -/
theorem printable_of_toInt? {t : NumberToken}
    (hdigits : t.whole ≠ [] ∧ ∀ c ∈ t.whole, c.isDigit = true) {n : ℤ} (h : t.toInt? = some n) :
    (PyNumber.int n).printable = true := by
  unfold NumberToken.toInt? at h
  split_ifs at h with hlong hnegative <;> (
    have habs : n.natAbs = decimalValue t.whole := by
      rw [← Option.some.inj h]
      omega
    have hlength := Python.length_decimal_le hdigits.2 hdigits.1
    rw [PyNumber.printable, habs, decide_eq_true_eq]
    omega)

/-- The number hook of a scanner with the built-in `int` and a `float` that refuses
infinities. -/
def scanNumber (text : List Char) : Option (Except ScanError PyNumber × List Char) :=
  (matchNumber text).map fun (t, rest) =>
    (if t.isFloat then
      match t.toFloat? with
      | some x => .ok (.float x)
      | none => .error .value
    else
      match t.toInt? with
      | some n => .ok (.int n)
      | none => .error .value, rest)

/-- What is documented of `float.__repr__`: a literal of the number grammar with a fraction
or an exponent, which `float` converts back to the same value. -/
structure FloatRepr (reprFloat : Finite → String) : Prop where
  literal : ∀ x, ∃ t : NumberToken, t.Valid ∧ t.isFloat = true ∧ (reprFloat x).toList = t.text
  float_repr : ∀ x, floatOfLiteral (reprFloat x).toList = some x

/-- What injectivity needs of `float.__repr__`. -/
structure InjectiveRepr (reprFloat : Finite → String) : Prop where
  injective : Function.Injective reprFloat
  isNumberText : ∀ x, IsNumberText (reprFloat x).toList

def intToken (n : ℤ) : NumberToken := ⟨n < 0, decimal n.natAbs, [], none⟩

theorem intToken_valid (n : ℤ) : (intToken n).Valid where
  whole := by
    by_cases hn : n.natAbs = 0
    · exact Or.inl (by rw [intToken, hn, Python.decimal_zero])
    · exact Or.inr (Python.head_decimal hn)
  whole_digits _ := Python.isDigit_of_mem_decimal
  fraction_digits := by simp [intToken]
  exponent := by simp [intToken]

theorem intToken_text (n : ℤ) : (intToken n).text = intText n := by
  simp [NumberToken.text, NumberToken.fractionText, NumberToken.exponentText, intToken, intText]

theorem intToken_toInt? {n : ℤ} (h : (PyNumber.int n).printable = true) :
    (intToken n).toInt? = some n := by
  have hlength : ¬ NumberToken.maxStrDigits < (decimal n.natAbs).length := by
    simpa [PyNumber.printable] using h
  simp only [NumberToken.toInt?, intToken, if_neg hlength, Python.decimalValue_decimal,
    decide_eq_true_eq]
  split_ifs <;> congr 1 <;> omega

theorem NumberToken.Valid.isNumberText {t : NumberToken} (ht : t.Valid) : IsNumberText t.text := by
  have hdigit : ∀ {c : Char}, c.isDigit = true → isNumberChar c = true := fun hc => by
    simp [isNumberChar, hc]
  constructor
  · rcases ht.whole with h | ⟨c, cs, h, -⟩ <;> simp [text, h]
  · intro c hc
    simp only [text, List.mem_append] at hc
    rcases hc with hc | hc | hc | hc
    · split_ifs at hc
      · rw [List.mem_singleton.mp hc]; rfl
      · simp at hc
    · exact hdigit (ht.whole_digits c hc)
    · unfold fractionText at hc
      split_ifs at hc
      · simp at hc
      · rcases List.mem_cons.mp hc with rfl | hc
        · rfl
        · exact hdigit (ht.fraction_digits c hc)
    · unfold exponentText at hc
      cases he : t.exponent with
      | none => simp [he] at hc
      | some e =>
        obtain ⟨hmarker, hsign, -, hdigits⟩ := ht.exponent e he
        simp only [he, List.mem_cons, List.mem_append] at hc
        rcases hc with rfl | hc | hc
        · rcases hmarker with h | h <;> rw [h] <;> rfl
        · rcases hsign with h | h | h <;> rw [h] at hc
          · simp at hc
          · rw [List.mem_singleton.mp hc]; rfl
          · rw [List.mem_singleton.mp hc]; rfl
        · exact hdigit (hdigits c hc)

theorem intText_isNumberText (n : ℤ) : IsNumberText (intText n) :=
  intToken_text n ▸ (intToken_valid n).isNumberText

theorem intText_injective : Function.Injective intText := by
  intro a b h
  rw [← intToken_text, ← intToken_text] at h
  have hmatch := matchNumber_text (intToken_valid a) delimited_nil
  rw [List.append_nil, h] at hmatch
  have hmatch' := matchNumber_text (intToken_valid b) delimited_nil
  rw [List.append_nil, hmatch, Option.some.injEq, Prod.mk.injEq] at hmatch'
  have htoken := hmatch'.1
  have hvalue := congrArg decimalValue (congrArg NumberToken.whole htoken)
  have hsign := congrArg NumberToken.negative htoken
  simp only [intToken, Python.decimalValue_decimal, decide_eq_decide] at hvalue hsign
  omega

theorem FloatRepr.injectiveRepr {reprFloat : Finite → String} (h : FloatRepr reprFloat) :
    InjectiveRepr reprFloat where
  injective x y hxy := by
    have hx := h.float_repr x
    rw [hxy, h.float_repr y] at hx
    exact (Option.some.inj hx).symm
  isNumberText x := by
    obtain ⟨t, ht, -, htext⟩ := h.literal x
    exact htext ▸ ht.isNumberText

theorem numberText_isNumberText {reprFloat : Finite → String} (h : InjectiveRepr reprFloat)
    (n : PyNumber) : IsNumberText (numberText reprFloat n) := by
  cases n with
  | int n => exact intText_isNumberText n
  | float x => exact h.isNumberText x

/-- A printable number is read back by a scanner with this number hook. -/
theorem reads_number {s : Scanner PyNumber} (hs : s.number = scanNumber)
    {reprFloat : Finite → String} (h : FloatRepr reprFloat) {n : PyNumber}
    (hn : n.printable = true) : Reads s (numberText reprFloat) n where
  ne_nil := (numberText_isNumberText h.injectiveRepr n).1
  chars := (numberText_isNumberText h.injectiveRepr n).2
  scan rest hrest := by
    rw [hs]
    cases n with
    | int n =>
      have hfloat : (intToken n).isFloat = false := by simp [NumberToken.isFloat, intToken]
      rw [numberText, ← intToken_text, scanNumber, matchNumber_text (intToken_valid n) hrest]
      simp [hfloat, intToken_toInt? hn]
    | float x =>
      obtain ⟨t, ht, hfloat, htext⟩ := h.literal x
      have hvalue := h.float_repr x
      have hmatch := matchNumber_text ht delimited_nil
      rw [List.append_nil] at hmatch
      rw [htext, floatOfLiteral, hmatch] at hvalue
      rw [numberText, htext, scanNumber, matchNumber_text ht hrest]
      simp only at hvalue
      simp [hfloat, hvalue]

/-- `json.dumps` with compact separators and no escaping beyond JSON's own; `none` is a
`ValueError`. -/
def dumps (reprFloat : Finite → String) (v : Value String PyNumber) : Option String :=
  if ∀ n ∈ v.numbers, n.printable = true then
    some (String.ofList (render (numberText reprFloat) v))
  else none

theorem dumps_eq_some {reprFloat : Finite → String} {v : Value String PyNumber} {text : String} :
    dumps reprFloat v = some text ↔ (∀ n ∈ v.numbers, n.printable = true) ∧
      text.toList = render (numberText reprFloat) v := by
  unfold dumps
  split_ifs with h
  · rw [Option.some.injEq, ← String.toList_inj, String.toList_ofList]
    exact ⟨fun he => ⟨h, he.symm⟩, fun he => he.2.symm⟩
  · simp [h]

/-- What `dumps` writes, `loads` reads back. -/
theorem loads_dumps {s : Scanner PyNumber} (hs : s.number = scanNumber) (hobject : KeepsObjects s)
    {reprFloat : Finite → String} (h : FloatRepr reprFloat) {v : Value String PyNumber}
    (hclean : v.Clean fun _ => True) {depth : ℕ} (hdepth : v.nesting ≤ depth) {text : String}
    (htext : dumps reprFloat v = some text) : loads s depth text.toList = .ok (scanned v) := by
  obtain ⟨hprintable, htext⟩ := dumps_eq_some.mp htext
  rw [htext]
  exact loads_render hobject
    (hclean.of_numbers fun n hn => reads_number hs h (hprintable n hn)) hdepth

/-- Texts of sorted documents determine the canonical forms of these. -/
theorem canonical_eq_of_dumps {reprFloat : Finite → String} (h : InjectiveRepr reprFloat)
    {v w : Value String PyNumber} (hv : v.Clean fun _ => True) (hw : w.Clean fun _ => True)
    {text : String} (hvtext : dumps reprFloat v.sortKeys = some text)
    (hwtext : dumps reprFloat w.sortKeys = some text) :
    v.canonical (numberText reprFloat) = w.canonical (numberText reprFloat) := by
  have hrender : render id (v.canonical (numberText reprFloat)) =
      render id (w.canonical (numberText reprFloat)) := by
    rw [Value.canonical, Value.canonical, render_mapNumbers, render_mapNumbers]
    exact (dumps_eq_some.mp hvtext).2.symm.trans (dumps_eq_some.mp hwtext).2
  exact render_injective_numberTexts (hv.canonical fun n _ => numberText_isNumberText h n)
    (hw.canonical fun n _ => numberText_isNumberText h n) hrender

end Numbers

section ExactRepr

/-- How many of `10 ^ -1074` one unit is. -/
def decimalUnits : ℕ := 5 ^ 1074

/-- A value as an exact decimal literal, counted in units of `10 ^ -1074`. -/
def exactToken (x : Finite) : NumberToken :=
  ⟨x.negative, decimal (x.magnitude * decimalUnits), [], some ⟨'e', ['-'], decimal 1074⟩⟩

/-- Zero and one as Python writes them, other values exactly. -/
def reprToken (x : Finite) : NumberToken :=
  if x = .one then ⟨false, ['1'], ['0'], none⟩
  else if x = .zero then ⟨false, ['0'], ['0'], none⟩
  else exactToken x

/-- A float text that `float` reads back, for concrete runs. -/
def exactRepr (x : Finite) : String := String.ofList (reprToken x).text

theorem exactToken_valid (x : Finite) : (exactToken x).Valid where
  whole := by
    by_cases hn : x.magnitude * decimalUnits = 0
    · exact Or.inl (by rw [exactToken, hn, Python.decimal_zero])
    · exact Or.inr (Python.head_decimal hn)
  whole_digits _ := Python.isDigit_of_mem_decimal
  fraction_digits := by simp [exactToken]
  exponent := by
    intro e he
    have hdigits : e.digits = decimal 1074 := by rw [← Option.some.inj he]
    rw [hdigits]
    refine ⟨Or.inl ?_, Or.inr (Or.inr ?_), Python.decimal_ne_nil 1074,
      fun c => Python.isDigit_of_mem_decimal⟩
    · rw [← Option.some.inj he]
    · rw [← Option.some.inj he]

theorem toFloat?_of_scale {t : NumberToken} {n : ℕ} (hn : 0 < n) (h : t.scale = -(n : ℤ)) :
    t.toFloat? = Binary64.ofRatio t.negative (decimalValue (t.whole ++ t.fraction)) (10 ^ n) := by
  unfold NumberToken.toFloat?
  rw [h, if_neg (by omega), Int.neg_neg, Int.toNat_natCast]

theorem exactToken_toFloat? (x : Finite) : (exactToken x).toFloat? = some x := by
  have hscale : (exactToken x).scale = -((1074 : ℕ) : ℤ) := by
    simp [NumberToken.scale, exactToken]
  have hten : ∀ n : ℕ, 5 ^ n * 2 ^ n = 10 ^ n := fun n => by rw [← Nat.mul_pow]
  have hunits : x.magnitude * decimalUnits * Binary64.unitsPerOne = x.magnitude * 10 ^ 1074 := by
    rw [Binary64.unitsPerOne, decimalUnits, Nat.mul_assoc, hten]
  have hdigits : decimalValue ((exactToken x).whole ++ (exactToken x).fraction) =
      x.magnitude * decimalUnits := by
    rw [exactToken, List.append_nil, Python.decimalValue_decimal]
  have hpos : ∀ n : ℕ, 0 < 10 ^ n := fun n => Nat.pow_pos (by decide)
  rw [toFloat?_of_scale (by decide) hscale, hdigits]
  exact Binary64.ofRatio_exact (hpos _) hunits

/-- A literal with one digit before and one after the point counts tenths. -/
theorem toFloat?_tenths {a b : Char} {x : Finite}
    (h : decimalValue [a, b] * Binary64.unitsPerOne = x.magnitude * 10) (hx : x.negative = false) :
    (NumberToken.mk false [a] [b] none).toFloat? = some x := by
  have hscale : (NumberToken.mk false [a] [b] none).scale = -((1 : ℕ) : ℤ) := rfl
  have hratio := Binary64.ofRatio_exact (x := x) (d := 10) (by decide) h
  rw [hx] at hratio
  rw [toFloat?_of_scale (by decide) hscale, Nat.pow_one]
  exact hratio

theorem tenthsToken_valid {a b : Char} (ha : a.isDigit = true) (hb : b.isDigit = true) :
    (NumberToken.mk false [a] [b] none).Valid where
  whole := by
    by_cases hzero : a = '0'
    · exact Or.inl (by rw [hzero])
    · exact Or.inr ⟨a, [], rfl, hzero⟩
  whole_digits := List.forall_mem_singleton.mpr ha
  fraction_digits := List.forall_mem_singleton.mpr hb
  exponent := by simp

theorem reprToken_spec (x : Finite) :
    (reprToken x).Valid ∧ (reprToken x).isFloat = true ∧ (reprToken x).toFloat? = some x := by
  unfold reprToken
  split_ifs with hone hzero
  · have hunits : decimalValue ['1', '0'] * Binary64.unitsPerOne = Finite.one.magnitude * 10 := by
      have hten : decimalValue ['1', '0'] = 10 := by decide
      rw [Finite.one_magnitude, hten, Nat.mul_comm]
    subst hone
    exact ⟨tenthsToken_valid rfl rfl, rfl, toFloat?_tenths hunits rfl⟩
  · have hunits : decimalValue ['0', '0'] * Binary64.unitsPerOne = Finite.zero.magnitude * 10 := by
      have hnone : decimalValue ['0', '0'] = 0 := by decide
      have hzero : Finite.zero.magnitude = 0 := Nat.zero_mul _
      rw [hnone, hzero, Nat.zero_mul, Nat.zero_mul]
    subst hzero
    exact ⟨tenthsToken_valid rfl rfl, rfl, toFloat?_tenths hunits rfl⟩
  · exact ⟨exactToken_valid x, by simp [NumberToken.isFloat, exactToken], exactToken_toFloat? x⟩

theorem exactRepr_floatRepr : FloatRepr exactRepr where
  literal x := ⟨reprToken x, (reprToken_spec x).1, (reprToken_spec x).2.1, by simp [exactRepr]⟩
  float_repr x := by
    have hmatch := matchNumber_text (reprToken_spec x).1 delimited_nil
    rw [List.append_nil] at hmatch
    rw [exactRepr, String.toList_ofList, floatOfLiteral, hmatch]
    exact (reprToken_spec x).2.2

end ExactRepr

end Json
