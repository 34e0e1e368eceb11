import SecureEdgeVision.Json.Value

/-! The scanner of `json.loads`, following its C implementation. The recursion budget is
what the interpreter leaves for nested arrays and objects. -/
namespace Json

open Python (CodePoint Str)

/-- `JSONDecodeError`, a `ValueError` of a hook or a conversion, or `RecursionError`. -/
inductive ScanError where
  | decode | value | recursion
deriving DecidableEq

variable {N : Type}

/-- What `json.loads` is configured with: the number grammar with its conversions,
`parse_constant` and `object_pairs_hook`. -/
structure Scanner (N : Type) where
  number : List Char → Option (Except ScanError N × List Char)
  constant : String → Except ScanError (Value Str N)
  object : List (Str × Value Str N) → Except ScanError (Value Str N)

def isSpace (c : Char) : Bool := c == ' ' || c == '\t' || c == '\n' || c == '\r'

def skipSpace (text : List Char) : List Char := text.dropWhile isSpace

def hexValue? (c : Char) : Option ℕ :=
  if '0' ≤ c ∧ c ≤ '9' then some (c.toNat - 48)
  else if 'a' ≤ c ∧ c ≤ 'f' then some (c.toNat - 87)
  else if 'A' ≤ c ∧ c ≤ 'F' then some (c.toNat - 55)
  else none

/-- The code point of four hexadecimal digits. -/
def codePoint (n : ℕ) : CodePoint :=
  if 0xd800 ≤ n ∧ n < 0xe000 then .surrogate (Fin.ofNat 2048 (n - 0xd800))
  else .scalar (Char.ofNat n)

/-- The one-character escapes. -/
def simpleEscape (c : Char) : Option Char :=
  if c = '"' then some '"'
  else if c = '\\' then some '\\'
  else if c = '/' then some '/'
  else if c = 'b' then some '\x08'
  else if c = 'f' then some '\x0c'
  else if c = 'n' then some '\n'
  else if c = 'r' then some '\r'
  else if c = 't' then some '\t'
  else none

/-- Where the scanner stands in a string literal: between characters, after a backslash, or
inside a `\u` escape with this many digits still to come after the next one. -/
inductive StringMode where
  | plain
  | escape
  | hex (remaining value : ℕ)

/-- The rest of a string literal after its opening quote, escapes decoded one by one. -/
def scanUnits : StringMode → List Char → Option (Str × List Char)
  | _, [] => none
  | .plain, c :: rest =>
    if c = '"' then some ([], rest)
    else if c = '\\' then scanUnits .escape rest
    else if c.toNat < 32 then none
    else (scanUnits .plain rest).map fun r => (.scalar c :: r.1, r.2)
  | .escape, c :: rest =>
    if c = 'u' then scanUnits (.hex 3 0) rest
    else do
      let unit ← simpleEscape c
      (scanUnits .plain rest).map fun r => (.scalar unit :: r.1, r.2)
  | .hex 0 value, c :: rest => do
    let d ← hexValue? c
    (scanUnits .plain rest).map fun r => (codePoint (value * 16 + d) :: r.1, r.2)
  | .hex (remaining + 1) value, c :: rest => do
    let d ← hexValue? c
    scanUnits (.hex remaining (value * 16 + d)) rest

/-- The scalar that a high and a low surrogate make. -/
def combine (high low : Fin 2048) : Char := Char.ofNat (0x10000 + high * 1024 + (low - 1024))

def joinCons (p : CodePoint) (rest : Str) : Str :=
  match p, rest with
  | .surrogate high, .surrogate low :: tail =>
    if high < 1024 ∧ 1024 ≤ low then .scalar (combine high low) :: tail else p :: rest
  | _, _ => p :: rest

/-- A high surrogate and the low one after it are one scalar; others stay alone. No two
such pairs overlap, so joining from the end finds the same ones. -/
def joinSurrogates (units : Str) : Str := units.foldr joinCons []

/-- `scanstring` after the opening quote. -/
def scanString (text : List Char) : Option (Str × List Char) :=
  (scanUnits .plain text).map fun r => (joinSurrogates r.1, r.2)

def stripPrefix : List Char → List Char → Option (List Char)
  | [], text => some text
  | _ :: _, [] => none
  | w :: word, c :: text => if w = c then stripPrefix word text else none

section Containers
variable (scan : List Char → Except ScanError (Value Str N × List Char))

/-- The items up to the closing bracket; each one takes at least one character, so the
length of the text bounds their number. -/
def scanItems : ℕ → List Char → Except ScanError (List (Value Str N) × List Char)
  | 0, _ => .error .decode
  | fuel + 1, text => do
    let (v, rest) ← scan text
    match skipSpace rest with
    | [] => .error .decode
    | c :: rest =>
      if c = ']' then pure ([v], rest)
      else if c = ',' then do
        let (items, rest) ← scanItems fuel (skipSpace rest)
        pure (v :: items, rest)
      else .error .decode

/-- `_parse_array` after the opening bracket. -/
def scanArray (text : List Char) : Except ScanError (List (Value Str N) × List Char) :=
  match skipSpace text with
  | [] => .error .decode
  | c :: rest => if c = ']' then pure ([], rest) else scanItems scan text.length (c :: rest)

/-- The fields up to the closing brace. -/
def scanFields : ℕ → List Char → Except ScanError (List (Str × Value Str N) × List Char)
  | 0, _ => .error .decode
  | fuel + 1, text =>
    match text with
    | [] => .error .decode
    | c :: rest =>
      if c = '"' then
        match scanString rest with
        | none => .error .decode
        | some (key, rest) =>
          match skipSpace rest with
          | [] => .error .decode
          | c :: rest =>
            if c = ':' then do
              let (v, rest) ← scan (skipSpace rest)
              match skipSpace rest with
              | [] => .error .decode
              | c :: rest =>
                if c = '}' then pure ([(key, v)], rest)
                else if c = ',' then do
                  let (fields, rest) ← scanFields fuel (skipSpace rest)
                  pure ((key, v) :: fields, rest)
                else .error .decode
            else .error .decode
      else .error .decode

/-- `_parse_object` after the opening brace, before the hook. -/
def scanObject (text : List Char) : Except ScanError (List (Str × Value Str N) × List Char) :=
  match skipSpace text with
  | [] => .error .decode
  | c :: rest => if c = '}' then pure ([], rest) else scanFields scan text.length (c :: rest)

end Containers

/-- Literals and numbers. -/
def scanScalar (s : Scanner N) (text : List Char) : Except ScanError (Value Str N × List Char) :=
  let constant (name : String) (rest : List Char) := (s.constant name).map fun v => (v, rest)
  match stripPrefix "null".toList text, stripPrefix "true".toList text,
    stripPrefix "false".toList text, stripPrefix "NaN".toList text,
    stripPrefix "Infinity".toList text, stripPrefix "-Infinity".toList text with
  | some rest, _, _, _, _, _ => .ok (.null, rest)
  | _, some rest, _, _, _, _ => .ok (.bool true, rest)
  | _, _, some rest, _, _, _ => .ok (.bool false, rest)
  | _, _, _, some rest, _, _ => constant "NaN" rest
  | _, _, _, _, some rest, _ => constant "Infinity" rest
  | _, _, _, _, _, some rest => constant "-Infinity" rest
  | none, none, none, none, none, none =>
    match s.number text with
    | none => .error .decode
    | some (n, rest) => n.map fun n => (.number n, rest)

/-- `scan_once` with a recursion budget. -/
def scanValue (s : Scanner N) : ℕ → List Char → Except ScanError (Value Str N × List Char)
  | depth, text =>
    match text with
    | [] => .error .decode
    | c :: rest =>
      if c = '"' then
        match scanString rest with
        | none => .error .decode
        | some (string, rest) => .ok (.string string, rest)
      else if c = '{' then
        match depth with
        | 0 => .error .recursion
        | depth + 1 => do
          let (fields, rest) ← scanObject (scanValue s depth) rest
          let v ← s.object fields
          pure (v, rest)
      else if c = '[' then
        match depth with
        | 0 => .error .recursion
        | depth + 1 => do
          let (items, rest) ← scanArray (scanValue s depth) rest
          pure (.array items, rest)
      else scanScalar s text

/-- `json.loads` of a string without lone surrogates. -/
def loads (s : Scanner N) (depth : ℕ) (text : List Char) : Except ScanError (Value Str N) :=
  if text.head? = some '\ufeff' then .error .decode
  else do
    let (v, rest) ← scanValue s depth (skipSpace text)
    if skipSpace rest = [] then pure v else .error .decode

end Json
