import SecureEdgeVision.Python.Calendar
import SecureEdgeVision.Python.Text

/-! `datetime.isoformat` and `datetime.fromisoformat`. The parser follows the C
implementation, which walks the UTF-8 bytes of a NUL-terminated string. -/
namespace Python

/-- A `datetime`, with its offset from UTC in microseconds if it is aware. -/
structure Datetime where
  date : Date
  hour : ℕ
  minute : ℕ
  second : ℕ
  microsecond : ℕ
  offset : Option ℤ
deriving DecidableEq

/-- The range checks of the constructor. -/
def Datetime.isValid (d : Datetime) : Bool :=
  d.date.isValid && d.hour < 24 && d.minute < 60 && d.second < 60 && d.microsecond < 1000000

/-- The microseconds of the fields since `datetime.min`. -/
def Datetime.micros (d : Datetime) : ℕ :=
  (((ymdToOrd d.date - 1) * 24 + d.hour) * 60 + d.minute) * 60 * 1000000 +
    (d.second * 1000000 + d.microsecond)

/-- The fields of the instant this many microseconds after `datetime.min`. -/
def Datetime.ofMicros (micros : ℕ) (offset : Option ℤ) : Datetime where
  date := ordToYmd (micros / 86400000000 + 1)
  hour := micros / 3600000000 % 24
  minute := micros / 60000000 % 60
  second := micros / 1000000 % 60
  microsecond := micros % 1000000
  offset := offset

theorem Datetime.micros_ofMicros (micros : ℕ) (offset : Option ℤ) :
    (ofMicros micros offset).micros = micros := by
  unfold Datetime.micros ofMicros
  dsimp only
  rw [ymdToOrd_ordToYmd (by omega)]
  omega

theorem Datetime.micros_le {d : Datetime} (h : d.isValid = true) :
    d.micros ≤ 315537897599999999 := by
  simp only [isValid, Bool.and_eq_true, decide_eq_true_eq] at h
  obtain ⟨⟨⟨⟨hdate, hhour⟩, hminute⟩, hsecond⟩, hmicro⟩ := h
  have hord := ymdToOrd_le hdate
  unfold micros
  omega

theorem Datetime.isValid_ofMicros {micros : ℕ} (h : micros ≤ 315537897599999999)
    (offset : Option ℤ) : (ofMicros micros offset).isValid = true := by
  unfold isValid ofMicros
  dsimp only
  rw [ordToYmd_isValid (by omega) (by omega)]
  simp only [Bool.true_and, Bool.and_eq_true, decide_eq_true_eq]
  omega

/-- The text of a fraction, or nothing for zero. -/
def fractionText (micros : ℕ) : List Char :=
  if micros = 0 then [] else '.' :: zeroPadded 6 micros

/-- `YYYY-MM-DD` -/
def dateText (d : Date) : List Char :=
  zeroPadded 4 d.year ++ '-' :: (zeroPadded 2 d.month ++ '-' :: zeroPadded 2 d.day)

/-- `HH:MM:SS[.ffffff]` -/
def timeText (d : Datetime) : List Char :=
  zeroPadded 2 d.hour ++ ':' :: (zeroPadded 2 d.minute ++ ':' :: (zeroPadded 2 d.second ++
    fractionText d.microsecond))

/-- `isoformat()` without an offset. -/
def isoformat (d : Datetime) : List Char := dateText d.date ++ 'T' :: timeText d

/-- An ASCII character as a byte. -/
def ascii (c : Char) : UInt8 := c.val.toUInt8

def isDigitByte (b : UInt8) : Bool := 48 ≤ b && b ≤ 57

/-- `parse_digits` -/
def parseDigits : ℕ → ℕ → List UInt8 → Option (ℕ × List UInt8)
  | 0, acc, p => some (acc, p)
  | count + 1, acc, b :: p =>
    if isDigitByte b then parseDigits count (acc * 10 + (b.toNat - 48)) p else none
  | _ + 1, _, [] => none

/-- `_find_isoformat_datetime_separator`; past its end the string reads as NUL. -/
def findSeparator (s : List UInt8) : Option ℕ :=
  if s.length = 7 then some 7
  else if s.getD 4 0 = ascii '-' then
    if s.getD 5 0 = ascii 'W' then
      if 8 < s.length ∧ s.getD 8 0 = ascii '-' then
        if s.length = 9 then none
        else if 10 < s.length ∧ isDigitByte (s.getD 10 0) then some 8
        else some 10
      else some 8
    else some 10
  else if s.getD 4 0 = ascii 'W' then
    let pos := 7 + ((s.drop 7).takeWhile isDigitByte).length
    if pos < 9 then some pos else if pos % 2 = 0 then some 7 else some 8
  else some 8

/-- `iso_to_ymd` -/
def isoToYmd (year week day : ℕ) : Option Date :=
  if year < 1 ∨ 9999 < year then none
  else
    let firstDay := ymdToOrd ⟨year, 1, 1⟩
    let firstWeekday := (firstDay + 6) % 7
    let long := firstWeekday = 3 ∨ firstWeekday = 2 ∧ isLeap year
    if week = 0 ∨ 53 < week ∨ week = 53 ∧ ¬ long then none
    else if day = 0 ∨ 7 < day then none
    else
      let monday := firstDay - firstWeekday + if 3 < firstWeekday then 7 else 0
      some (ordToYmd (monday + ((week - 1) * 7 + day - 1)))

/-- `parse_isoformat_date` of the first `len` bytes. -/
def parseIsoDate (s : List UInt8) (len : ℕ) : Option Date := do
  let (year, p) ← parseDigits 4 0 s
  let usesSeparator := p.headD 0 = ascii '-'
  let p := if usesSeparator then p.tail else p
  if p.headD 0 = ascii 'W' then
    let (week, p) ← parseDigits 2 0 p.tail
    if s.length - p.length < len then
      if usesSeparator ∧ p.headD 0 ≠ ascii '-' then none
      else
        let (day, _) ← parseDigits 1 0 (if usesSeparator then p.tail else p)
        isoToYmd year week day
    else isoToYmd year week 1
  else
    let (month, p) ← parseDigits 2 0 p
    if usesSeparator ∧ p.headD 0 ≠ ascii '-' then none
    else
      let (day, _) ← parseDigits 2 0 (if usesSeparator then p.tail else p)
      some ⟨year, month, day⟩

/-- The time of day that `parse_hh_mm_ss_ff` found, and whether text was left over. -/
structure ParsedTime where
  hour : ℕ
  minute : ℕ
  second : ℕ
  microsecond : ℕ
  leftOver : Bool

/-- The fraction: up to six digits count, more digits are skipped. -/
def parseFraction (p : List UInt8) (next : UInt8) : Option (ℕ × Bool) := do
  let toParse := min 6 p.length
  let (value, p) ← parseDigits toParse 0 p
  some (value * 10 ^ (6 - toParse), (p.dropWhile isDigitByte).headD next ≠ 0)

/-- What follows a component of the time. -/
inductive AfterComponent where
  | done (leftOver : Bool)
  | component (p : List UInt8)
  | fraction (p : List UInt8)

/-- One turn of the loop in `parse_hh_mm_ss_ff`, after the digits. The segment ends at an
offset or at the end of the string, where `next` stands. -/
def afterComponent (hasSeparator : Bool) (p : List UInt8) (next : UInt8) :
    Option AfterComponent :=
  let c := p.headD next
  if p.length ≤ 1 then some (.done (c ≠ 0))
  else if hasSeparator ∧ c = ascii ':' then some (.component p.tail)
  else if c = ascii '.' ∨ c = ascii ',' then some (.fraction p.tail)
  else if ¬ hasSeparator then some (.component p)
  else none

/-- `parse_hh_mm_ss_ff` -/
def parseTime (segment : List UInt8) (next : UInt8) : Option ParsedTime := do
  let (hour, p) ← parseDigits 2 0 segment
  let hasSeparator := p.headD next = ascii ':'
  match ← afterComponent hasSeparator p next with
  | .done leftOver => some ⟨hour, 0, 0, 0, leftOver⟩
  | .fraction p =>
    let (micros, leftOver) ← parseFraction p next
    some ⟨hour, 0, 0, micros, leftOver⟩
  | .component p =>
    let (minute, p) ← parseDigits 2 0 p
    match ← afterComponent hasSeparator p next with
    | .done leftOver => some ⟨hour, minute, 0, 0, leftOver⟩
    | .fraction p =>
      let (micros, leftOver) ← parseFraction p next
      some ⟨hour, minute, 0, micros, leftOver⟩
    | .component p =>
      let (second, p) ← parseDigits 2 0 p
      match ← afterComponent hasSeparator p next with
      | .done leftOver => some ⟨hour, minute, second, 0, leftOver⟩
      | .fraction p | .component p =>
        let (micros, leftOver) ← parseFraction p next
        some ⟨hour, minute, second, micros, leftOver⟩

def isOffsetStart (b : UInt8) : Bool := b == ascii '+' || b == ascii '-' || b == ascii 'Z'

/-- `parse_isoformat_time`, with the offset in seconds and microseconds if there is one. -/
def parseIsoTime (s : List UInt8) : Option (ParsedTime × Option (ℤ × ℤ)) := do
  let segment := s.takeWhile fun b => !isOffsetStart b
  let rest := s.drop segment.length
  let time ← parseTime segment (rest.headD 0)
  match rest with
  | [] => if time.leftOver then none else some (time, none)
  | sign :: zone =>
    if sign = ascii 'Z' then
      if zone.headD 0 = 0 then some (time, some (0, 0)) else none
    else do
      let offset ← parseTime zone 0
      if offset.leftOver then none
      else
        let direction : ℤ := if sign = ascii '-' then -1 else 1
        some (time, some (direction * (offset.hour * 3600 + offset.minute * 60 + offset.second),
          direction * offset.microsecond))

/-- `tzinfo_from_isoformat_results`: an offset of no whole second is UTC; others have to lie
strictly within a day. -/
def offsetMicros : ℤ × ℤ → Option ℤ
  | (seconds, micros) =>
    if seconds = 0 then some 0
    else
      let total := seconds * 1000000 + micros
      if -86400000000 < total ∧ total < 86400000000 then some total else none

/-- A lone surrogate is allowed as the separator, where it reads as `T`. -/
def sanitize (s : Str) : Str :=
  match [7, 8, 10].find? fun pos => s[pos]?.any CodePoint.isSurrogate with
  | some pos => s.set pos (.scalar 'T')
  | none => s

/-- The bytes of the separator, from its first one. -/
def separatorLength (lead : UInt8) : ℕ :=
  if lead < 0x80 then 1 else if lead &&& 0xf0 = 0xe0 then 3 else if lead &&& 0xf0 = 0xf0 then 4
  else 2

/-- The time and offset part, after the separator. -/
def parseAfterDate (date : Date) (rest : List UInt8) : Option Datetime :=
  match rest with
  | [] => some ⟨date, 0, 0, 0, 0, none⟩
  | lead :: _ => do
    let (time, offset) ← parseIsoTime (rest.drop (separatorLength lead))
    let datetime (offset : Option ℤ) : Datetime :=
      ⟨date, time.hour, time.minute, time.second, time.microsecond, offset⟩
    match offset with
    | none => some (datetime none)
    | some parts => (offsetMicros parts).map fun micros => datetime (some micros)

/-- `datetime.fromisoformat`; `none` is a `ValueError`. -/
def fromisoformat (s : Str) : Option Datetime := do
  if s.length < 7 then none
  else
    let chars ← Str.chars? (sanitize s)
    let bytes := chars.flatMap String.utf8EncodeChar
    let separator ← findSeparator bytes
    let date ← parseIsoDate bytes separator
    let datetime ← parseAfterDate date (bytes.drop separator)
    if datetime.isValid then some datetime else none

theorem fromisoformat_isValid {s : Str} {d : Datetime} (h : fromisoformat s = some d) :
    d.isValid = true := by
  unfold fromisoformat at h
  split_ifs at h
  obtain ⟨chars, -, h⟩ := Option.bind_eq_some_iff.mp h
  obtain ⟨separator, -, h⟩ := Option.bind_eq_some_iff.mp h
  obtain ⟨date, -, h⟩ := Option.bind_eq_some_iff.mp h
  obtain ⟨datetime, -, h⟩ := Option.bind_eq_some_iff.mp h
  split_ifs at h with hvalid
  obtain rfl := Option.some.inj h
  exact hvalid

theorem isDigitByte_ascii {c : Char} (h : c.isDigit = true) : isDigitByte (ascii c) = true := by
  simp only [Char.isDigit, Bool.and_eq_true, decide_eq_true_eq] at h
  simp only [isDigitByte, ascii, Bool.and_eq_true, decide_eq_true_eq, UInt8.le_iff_toNat_le,
    UInt32.toNat_toUInt8]
  have h1 := UInt32.le_iff_toNat_le.mp h.1
  have h2 := UInt32.le_iff_toNat_le.mp h.2
  simp at h1 h2 ⊢
  omega

theorem toNat_ascii {c : Char} (h : c.toNat < 128) : (ascii c).toNat = c.toNat := by
  simp only [ascii, UInt32.toNat_toUInt8, Char.toNat_val] at *
  omega

theorem toNat_lt_of_isDigit {c : Char} (h : c.isDigit = true) : c.toNat < 128 := by
  simp only [Char.isDigit, Bool.and_eq_true, decide_eq_true_eq] at h
  have h2 := UInt32.le_iff_toNat_le.mp h.2
  simp at h2
  omega

/-- ASCII text is its own encoding. -/
theorem flatMap_utf8EncodeChar {l : List Char} (h : ∀ c ∈ l, c.toNat < 128) :
    l.flatMap String.utf8EncodeChar = l.map ascii := by
  induction l with
  | nil => rfl
  | cons c l ih =>
    have hc : c.utf8Size = 1 := by
      rw [Char.utf8Size_eq_one_iff]
      have := h c List.mem_cons_self
      rw [UInt32.le_iff_toNat_le]
      simp
      omega
    rw [List.flatMap_cons, String.utf8EncodeChar_eq_singleton hc,
      ih fun d hd => h d (List.mem_cons_of_mem c hd)]
    rfl

theorem parseDigits_map (l : List Char) (h : ∀ c ∈ l, c.isDigit = true) (acc : ℕ)
    (rest : List UInt8) :
    parseDigits l.length acc (l.map ascii ++ rest) = some (Nat.ofDigitChars 10 l acc, rest) := by
  induction l generalizing acc with
  | nil => rfl
  | cons c l ih =>
    have hc := h c List.mem_cons_self
    have hstep : acc * 10 + ((ascii c).toNat - 48) = 10 * acc + (c.toNat - '0'.toNat) := by
      rw [toNat_ascii (toNat_lt_of_isDigit hc)]
      have : '0'.toNat = 48 := rfl
      omega
    rw [List.map_cons, List.cons_append, List.length_cons, parseDigits,
      if_pos (isDigitByte_ascii hc), hstep, ih fun d hd => h d (List.mem_cons_of_mem c hd),
      Nat.ofDigitChars_cons]

theorem parseDigits_zeroPadded (width n : ℕ) (rest : List UInt8) :
    parseDigits width 0 ((zeroPadded width n).map ascii ++ rest) =
      some (n % 10 ^ width, rest) := by
  have h := parseDigits_map (zeroPadded width n) (fun c => isDigit_of_mem_zeroPadded) 0 rest
  rw [zeroPadded_length] at h
  rw [h, ← decimalValue_zeroPadded]
  rfl

/-- A digit is none of the punctuation the parser looks for. -/
theorem ascii_digitChar_ne {d : ℕ} (h : d < 10) (c : Char)
    (hc : c = 'W' ∨ c = '-' ∨ c = '+' ∨ c = 'Z') : ascii d.digitChar ≠ ascii c := by
  rcases hc with rfl | rfl | rfl | rfl <;> interval_cases d <;> decide

theorem findSeparator_dashes (year month : ℕ) {rest : List UInt8} (h : 2 < rest.length) :
    findSeparator ((zeroPadded 4 year).map ascii ++ ascii '-' ::
      ((zeroPadded 2 month).map ascii ++ rest)) = some 10 := by
  have hW := ascii_digitChar_ne (Nat.mod_lt (month / 10) (by decide : 0 < 10)) 'W' (Or.inl rfl)
  simp only [zeroPadded, List.nil_append, List.cons_append, List.map_cons, List.map_nil,
    findSeparator, List.length_cons, List.getD_cons_succ, List.getD_cons_zero]
  rw [if_neg (by omega), if_pos trivial, if_neg hW]

theorem parseIsoDate_dashes (d : Date) (hd : d.isValid = true) (rest : List UInt8) :
    parseIsoDate ((zeroPadded 4 d.year).map ascii ++ ascii '-' ::
      ((zeroPadded 2 d.month).map ascii ++ ascii '-' ::
        ((zeroPadded 2 d.day).map ascii ++ rest))) 10 = some d := by
  obtain ⟨hyear, hmonth, hday⟩ : d.year < 10000 ∧ d.month < 100 ∧ d.day < 100 := by
    simp only [Date.isValid, Bool.and_eq_true, decide_eq_true_eq] at hd
    have hdim : ∀ leap m, daysInMonth leap m ≤ 31 := by
      intro leap m
      unfold daysInMonth
      split <;> [split_ifs; skip; skip; skip; skip; skip] <;> omega
    have := hdim (isLeap d.year) d.month
    omega
  have hW := ascii_digitChar_ne (Nat.mod_lt (d.month / 10) (by decide : 0 < 10)) 'W' (Or.inl rfl)
  have hhead : ((zeroPadded 2 d.month).map ascii ++ ascii '-' ::
      ((zeroPadded 2 d.day).map ascii ++ rest)).headD 0 ≠ ascii 'W' := by
    simpa [zeroPadded] using hW
  have hy : d.year % 10 ^ 4 = d.year := Nat.mod_eq_of_lt hyear
  have hm : d.month % 10 ^ 2 = d.month := Nat.mod_eq_of_lt hmonth
  have hd' : d.day % 10 ^ 2 = d.day := Nat.mod_eq_of_lt hday
  unfold parseIsoDate
  simp only [parseDigits_zeroPadded, Option.bind_eq_bind, Option.bind_some, List.headD_cons,
    ↓reduceIte, List.tail_cons, hhead, ne_eq, not_true_eq_false, and_false, hy, hm, hd']

theorem afterComponent_nil (hasSeparator : Bool) (next : UInt8) :
    afterComponent hasSeparator [] next = some (.done (next ≠ 0)) := by
  simp [afterComponent]

theorem afterComponent_colon {p : List UInt8} (hp : p ≠ []) (next : UInt8) :
    afterComponent true (ascii ':' :: p) next = some (.component p) := by
  simp [afterComponent, hp]

theorem afterComponent_dot {p : List UInt8} (hasSeparator : Bool) (hp : p ≠ []) (next : UInt8) :
    afterComponent hasSeparator (ascii '.' :: p) next = some (.fraction p) := by
  have hne : ascii '.' ≠ ascii ':' := by decide
  simp [afterComponent, hne, hp]

theorem parseFraction_six {n : ℕ} (hn : n < 1000000) (next : UInt8) :
    parseFraction ((zeroPadded 6 n).map ascii) next = some (n, decide (next ≠ 0)) := by
  have h := parseDigits_zeroPadded 6 n []
  rw [List.append_nil, show n % 10 ^ 6 = n from Nat.mod_eq_of_lt hn] at h
  unfold parseFraction
  simp only [List.length_map, zeroPadded_length, Nat.min_self, h, Option.bind_eq_bind,
    Option.bind_some, Nat.sub_self, Nat.pow_zero, Nat.mul_one, List.dropWhile_nil,
    List.headD_nil]
  rfl

/-- `HH:MM:SS` before a fraction. -/
def clockText (d : Datetime) (fraction : List Char) : List Char :=
  zeroPadded 2 d.hour ++ ':' :: (zeroPadded 2 d.minute ++ ':' :: (zeroPadded 2 d.second ++
    fraction))

/-- A fraction that stands for the microseconds: six digits, or nothing for zero. -/
def IsFractionOf (micros : ℕ) (fraction : List Char) : Prop :=
  fraction = [] ∧ micros = 0 ∨ fraction = '.' :: zeroPadded 6 micros

theorem isFractionOf_fractionText (micros : ℕ) : IsFractionOf micros (fractionText micros) := by
  unfold fractionText IsFractionOf
  split_ifs with h
  · exact Or.inl ⟨rfl, h⟩
  · exact Or.inr rfl

section Clock
variable {d : Datetime} {fraction : List Char}

/-- A clock parses to its fields, whatever offset follows. -/
theorem parseTime_clockText (hd : d.isValid = true) (hf : IsFractionOf d.microsecond fraction)
    (next : UInt8) :
    ∃ leftOver, parseTime ((clockText d fraction).map ascii) next =
      some ⟨d.hour, d.minute, d.second, d.microsecond, leftOver⟩ := by
  simp only [Datetime.isValid, Bool.and_eq_true, decide_eq_true_eq] at hd
  obtain ⟨⟨⟨⟨-, hhour⟩, hminute⟩, hsecond⟩, hmicro⟩ := hd
  have hh : d.hour % 10 ^ 2 = d.hour := Nat.mod_eq_of_lt (by omega)
  have hm : d.minute % 10 ^ 2 = d.minute := Nat.mod_eq_of_lt (by omega)
  have hs : d.second % 10 ^ 2 = d.second := Nat.mod_eq_of_lt (by omega)
  have hne : ∀ (n : ℕ) (rest : List UInt8), (zeroPadded 2 n).map ascii ++ rest ≠ [] := by
    intro n rest
    simp [zeroPadded]
  refine ⟨decide (next ≠ 0), ?_⟩
  unfold parseTime clockText
  simp only [List.map_append, List.map_cons, parseDigits_zeroPadded]
  simp only [Option.bind_eq_bind, Option.bind_some, List.headD_cons, decide_true,
    afterComponent_colon (hne _ _), parseDigits_zeroPadded, hh, hm, hs]
  rcases hf with ⟨rfl, hzero⟩ | rfl
  · simp only [List.map_nil, afterComponent_nil, Option.bind_some, hzero]
  · have hdigits : (zeroPadded 6 d.microsecond).map ascii ≠ [] := by simp [zeroPadded]
    simp only [List.map_cons, afterComponent_dot _ hdigits, parseFraction_six hmicro,
      Option.bind_some]

theorem mem_clockText (hf : IsFractionOf d.microsecond fraction) {c : Char}
    (h : c ∈ clockText d fraction) : c.isDigit = true ∨ c = ':' ∨ c = '.' := by
  have hpad : ∀ {width n}, c ∈ zeroPadded width n → c.isDigit = true := isDigit_of_mem_zeroPadded
  have hfraction : c ∈ fraction → c.isDigit = true ∨ c = '.' := by
    rcases hf with ⟨rfl, -⟩ | rfl
    · simp
    · exact fun hc => (List.mem_cons.mp hc).symm.imp_left hpad
  simp only [clockText, List.mem_append, List.mem_cons] at h
  rcases h with h | h | h | h | h | h
  · exact Or.inl (hpad h)
  · exact Or.inr (Or.inl h)
  · exact Or.inl (hpad h)
  · exact Or.inr (Or.inl h)
  · exact Or.inl (hpad h)
  · exact (hfraction h).imp_right Or.inr

theorem mem_dateText {d : Date} {c : Char} (h : c ∈ dateText d) : c.isDigit = true ∨ c = '-' := by
  simp only [dateText, List.mem_append, List.mem_cons] at h
  rcases h with h | h | h | h | h
  · exact Or.inl (isDigit_of_mem_zeroPadded h)
  · exact Or.inr h
  · exact Or.inl (isDigit_of_mem_zeroPadded h)
  · exact Or.inr h
  · exact Or.inl (isDigit_of_mem_zeroPadded h)

theorem sanitize_ofChars (l : List Char) : sanitize (Str.ofChars l) = Str.ofChars l := by
  have hnone : ∀ pos : ℕ, (Str.ofChars l)[pos]?.any CodePoint.isSurrogate = false := by
    intro pos
    unfold Str.ofChars
    rw [List.getElem?_map]
    cases l[pos]? <;> rfl
  simp [sanitize, hnone]

theorem not_isOffsetStart (hf : IsFractionOf d.microsecond fraction) {b : UInt8}
    (h : b ∈ (clockText d fraction).map ascii) : (!isOffsetStart b) = true := by
  obtain ⟨c, hc, rfl⟩ := List.mem_map.mp h
  rcases mem_clockText hf hc with hdigit | rfl | rfl
  · have hrange := isDigitByte_ascii hdigit
    simp only [isDigitByte, Bool.and_eq_true, decide_eq_true_eq] at hrange
    have hplus : ascii c ≠ ascii '+' := fun he => absurd (he ▸ hrange.1) (by decide)
    have hminus : ascii c ≠ ascii '-' := fun he => absurd (he ▸ hrange.1) (by decide)
    have hzulu : ascii c ≠ ascii 'Z' := fun he => absurd (he ▸ hrange.2) (by decide)
    simp [isOffsetStart, hplus, hminus, hzulu]
  · decide
  · decide

/-- The two ways in which UTC is written after a clock. -/
def IsUtcSuffix (zone : List Char) : Prop := zone = ['Z'] ∨ zone = ['+', '0', '0', ':', '0', '0']

theorem IsUtcSuffix.toNat_lt {zone : List Char} (hz : IsUtcSuffix zone) :
    ∀ c ∈ zone, c.toNat < 128 := by
  rcases hz with rfl | rfl
  · simp
  · simp

theorem parseIsoTime_utc (hd : d.isValid = true) (hf : IsFractionOf d.microsecond fraction)
    {zone : List Char} (hz : IsUtcSuffix zone) :
    ∃ leftOver, parseIsoTime ((clockText d fraction).map ascii ++ zone.map ascii) =
      some (⟨d.hour, d.minute, d.second, d.microsecond, leftOver⟩, some (0, 0)) := by
  obtain ⟨leftOver, htime⟩ := parseTime_clockText hd hf ((zone.map ascii).headD 0)
  refine ⟨leftOver, ?_⟩
  have hstop : (zone.map ascii).takeWhile (fun b => !isOffsetStart b) = [] := by
    rcases hz with rfl | rfl <;> decide
  have hsegment : ((clockText d fraction).map ascii ++ zone.map ascii).takeWhile
      (fun b => !isOffsetStart b) = (clockText d fraction).map ascii := by
    rw [List.takeWhile_append_of_pos fun b => not_isOffsetStart hf, hstop, List.append_nil]
  unfold parseIsoTime
  rw [hsegment]
  simp only [List.drop_left, htime, Option.bind_eq_bind, Option.bind_some]
  rcases hz with rfl | rfl
  · simp only [List.map_cons, List.map_nil, ↓reduceIte, List.headD_nil]
  · have hplus : ascii '+' ≠ ascii 'Z' := by decide
    have hzone : parseTime [ascii '0', ascii '0', ascii ':', ascii '0', ascii '0'] 0 =
        some ⟨0, 0, 0, 0, false⟩ := rfl
    simp only [List.map_cons, List.map_nil, hplus, ↓reduceIte, hzone, Option.bind_some]
    rfl

/-- Reading back a UTC time in either spelling. -/
theorem fromisoformat_utc (hd : d.isValid = true) (hf : IsFractionOf d.microsecond fraction)
    {zone : List Char} (hz : IsUtcSuffix zone) :
    fromisoformat (Str.ofChars (dateText d.date ++ 'T' :: (clockText d fraction ++ zone))) =
      some { d with offset := some 0 } := by
  obtain ⟨leftOver, htime⟩ := parseIsoTime_utc hd hf hz
  have hdate : d.date.isValid = true := by
    simp only [Datetime.isValid, Bool.and_eq_true] at hd
    exact hd.1.1.1.1
  have hlong : ¬ (Str.ofChars (dateText d.date ++ 'T' :: (clockText d fraction ++ zone))).length
      < 7 := by
    simp only [Str.ofChars, List.length_map, List.length_append, List.length_cons, dateText,
      zeroPadded_length]
    omega
  have hascii : ∀ c ∈ dateText d.date ++ 'T' :: (clockText d fraction ++ zone),
      c.toNat < 128 := by
    intro c hc
    rcases List.mem_append.mp hc with hc | hc
    · rcases mem_dateText hc with hc | rfl
      · exact toNat_lt_of_isDigit hc
      · decide
    rcases List.mem_cons.mp hc with rfl | hc
    · decide
    rcases List.mem_append.mp hc with hc | hc
    · rcases mem_clockText hf hc with hc | rfl | rfl
      · exact toNat_lt_of_isDigit hc
      · decide
      · decide
    · exact hz.toNat_lt c hc
  have hbytes : (dateText d.date ++ 'T' :: (clockText d fraction ++ zone)).map ascii =
      (dateText d.date).map ascii ++
        (ascii 'T' :: ((clockText d fraction).map ascii ++ zone.map ascii)) := by
    simp only [List.map_append, List.map_cons]
  have hfind : findSeparator ((dateText d.date).map ascii ++
      (ascii 'T' :: ((clockText d fraction).map ascii ++ zone.map ascii))) = some 10 := by
    have hlength : 2 < (ascii '-' :: ((zeroPadded 2 d.date.day).map ascii ++
        (ascii 'T' :: ((clockText d fraction).map ascii ++ zone.map ascii)))).length := by
      simp only [List.length_cons, List.length_append, List.length_map, zeroPadded_length]
      omega
    simpa only [dateText, List.map_append, List.map_cons, List.append_assoc, List.cons_append]
      using findSeparator_dashes d.date.year d.date.month hlength
  have hparse : parseIsoDate ((dateText d.date).map ascii ++
      (ascii 'T' :: ((clockText d fraction).map ascii ++ zone.map ascii))) 10 = some d.date := by
    simpa only [dateText, List.map_append, List.map_cons, List.append_assoc, List.cons_append]
      using parseIsoDate_dashes d.date hdate
        (ascii 'T' :: ((clockText d fraction).map ascii ++ zone.map ascii))
  have hdrop : ((dateText d.date).map ascii ++
      (ascii 'T' :: ((clockText d fraction).map ascii ++ zone.map ascii))).drop 10 =
      ascii 'T' :: ((clockText d fraction).map ascii ++ zone.map ascii) := by
    rw [List.drop_left' (by simp [dateText])]
  have hseparator : separatorLength (ascii 'T') = 1 := by decide
  have hafter : parseAfterDate d.date
      (ascii 'T' :: ((clockText d fraction).map ascii ++ zone.map ascii)) =
      some { d with offset := some 0 } := by
    unfold parseAfterDate
    simp only [hseparator, List.drop_one, List.tail_cons, htime, Option.bind_eq_bind,
      Option.bind_some, offsetMicros, ↓reduceIte, Option.map_some]
  have hvalid : ({ d with offset := some 0 } : Datetime).isValid = true := hd
  unfold fromisoformat
  rw [if_neg hlong, sanitize_ofChars, Str.chars?_ofChars]
  simp only [Option.bind_eq_bind, Option.bind_some]
  rw [flatMap_utf8EncodeChar hascii, hbytes]
  simp only [hfind, hparse, hdrop, hafter, Option.bind_some, hvalid, ↓reduceIte]

end Clock

/-- Reading back a UTC time written by `isoformat` with `Z`. -/
theorem fromisoformat_isoformat {d : Datetime} (hd : d.isValid = true) :
    fromisoformat (Str.ofChars (isoformat d ++ ['Z'])) = some { d with offset := some 0 } := by
  have hsplit : isoformat d ++ ['Z'] = dateText d.date ++
      'T' :: (clockText d (fractionText d.microsecond) ++ ['Z']) := by
    rw [isoformat, List.append_assoc]
    rfl
  rw [hsplit]
  exact fromisoformat_utc hd (isFractionOf_fractionText _) (Or.inl rfl)

end Python
