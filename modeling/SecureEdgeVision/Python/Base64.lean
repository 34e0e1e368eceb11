import Mathlib.Data.List.Basic
import Mathlib.Data.Nat.Notation

/-! Standard base64: `base64.b64encode`, and the strict decoder behind
`base64.b64decode(validate=True)` with the bits it leaves unchecked. -/
namespace Python.Base64

def alphabet : List Char :=
  "ABCDEFGHIJKLMNOPQRSTUVWXYZabcdefghijklmnopqrstuvwxyz0123456789+/".toList

def sextetChar (n : ℕ) : Char := alphabet.getD n '='

def sextet? (c : Char) : Option ℕ := alphabet.idxOf? c

/-- `base64.b64encode` -/
def b64encode : List UInt8 → List Char
  | [] => []
  | [a] => [sextetChar (a.toNat / 4), sextetChar (a.toNat % 4 * 16), '=', '=']
  | [a, b] =>
    [sextetChar (a.toNat / 4), sextetChar (a.toNat % 4 * 16 + b.toNat / 16),
      sextetChar (b.toNat % 16 * 4), '=']
  | a :: b :: c :: rest =>
    sextetChar (a.toNat / 4) :: sextetChar (a.toNat % 4 * 16 + b.toNat / 16) ::
      sextetChar (b.toNat % 16 * 4 + c.toNat / 64) :: sextetChar (c.toNat % 64) :: b64encode rest

theorem length_b64encode_le (bytes : List UInt8) :
    (b64encode bytes).length ≤ 4 * bytes.length := by
  fun_induction b64encode bytes with
  | case1 => simp
  | case2 => simp
  | case3 => simp
  | case4 a b c rest ih =>
    simp only [List.length_cons]
    omega

/-- How many characters of a group of four came so far, with the bits that no byte holds yet. -/
inductive Quad where
  | start
  | one (left : ℕ)
  | two (left : ℕ)
  | three (left : ℕ)
deriving DecidableEq

/-- The loop of `binascii.a2b_base64` in strict mode. A pad that completes a group ends the
data; other pads are skipped, but no character may follow them. The bits left over by a
padded group are not looked at. -/
def a2bLoop : Quad → ℕ → Bool → List Char → Option (List UInt8)
  | .start, _, _, [] => some []
  | _, _, _, [] => none
  | quad, pads, padded, c :: rest =>
    if c = '=' then
      match quad with
      | .two _ =>
        if 4 ≤ 2 + (pads + 1) then (if rest = [] then some [] else none)
        else a2bLoop quad (pads + 1) true rest
      | .three _ => if rest = [] then some [] else none
      | _ => a2bLoop quad pads true rest
    else do
      let value ← sextet? c
      if padded then none
      else
        match quad with
        | .start => a2bLoop (.one value) 0 false rest
        | .one left =>
          (a2bLoop (.two (value % 16)) 0 false rest).map
            (UInt8.ofNat (left * 4 + value / 16) :: ·)
        | .two left =>
          (a2bLoop (.three (value % 4)) 0 false rest).map
            (UInt8.ofNat (left * 16 + value / 4) :: ·)
        | .three left =>
          (a2bLoop .start 0 false rest).map (UInt8.ofNat (left * 64 + value) :: ·)

/-- `base64.b64decode(text, validate=True)`; `none` is a `ValueError`. -/
def b64decode (text : List Char) : Option (List UInt8) :=
  if text.head? = some '=' then none else a2bLoop .start 0 false text

theorem sextet?_sextetChar : ∀ n < 64, sextet? (sextetChar n) = some n := by
  decide +kernel

theorem sextetChar_ne_pad : ∀ n < 64, sextetChar n ≠ '=' := by decide +kernel

section Loop
variable {n pads : ℕ} (hn : n < 64) (rest : List Char)
include hn

theorem a2bLoop_start : a2bLoop .start pads false (sextetChar n :: rest) =
    a2bLoop (.one n) 0 false rest := by
  simp [a2bLoop, sextetChar_ne_pad n hn, sextet?_sextetChar n hn]

theorem a2bLoop_one (left : ℕ) : a2bLoop (.one left) pads false (sextetChar n :: rest) =
    (a2bLoop (.two (n % 16)) 0 false rest).map (UInt8.ofNat (left * 4 + n / 16) :: ·) := by
  simp [a2bLoop, sextetChar_ne_pad n hn, sextet?_sextetChar n hn]

theorem a2bLoop_two (left : ℕ) : a2bLoop (.two left) pads false (sextetChar n :: rest) =
    (a2bLoop (.three (n % 4)) 0 false rest).map (UInt8.ofNat (left * 16 + n / 4) :: ·) := by
  simp [a2bLoop, sextetChar_ne_pad n hn, sextet?_sextetChar n hn]

theorem a2bLoop_three (left : ℕ) : a2bLoop (.three left) pads false (sextetChar n :: rest) =
    (a2bLoop .start 0 false rest).map (UInt8.ofNat (left * 64 + n) :: ·) := by
  simp [a2bLoop, sextetChar_ne_pad n hn, sextet?_sextetChar n hn]

end Loop

/-- Bits of two sextets that make up a byte. -/
theorem ofNat_eq {n : ℕ} {b : UInt8} (h : n = b.toNat) : UInt8.ofNat n = b := by
  rw [h, UInt8.ofNat_toNat]

/-- The decoder reads back what the encoder wrote. -/
theorem a2bLoop_b64encode (bytes : List UInt8) (pads : ℕ) :
    a2bLoop .start pads false (b64encode bytes) = some bytes := by
  fun_induction b64encode bytes generalizing pads with
  | case1 => rfl
  | case2 a =>
    have ha := a.toNat_lt
    rw [a2bLoop_start (by omega), a2bLoop_one (by omega), ofNat_eq (b := a) (by omega)]
    rfl
  | case3 a b =>
    have ha := a.toNat_lt
    have hb := b.toNat_lt
    rw [a2bLoop_start (by omega), a2bLoop_one (by omega), a2bLoop_two (by omega),
      ofNat_eq (b := a) (by omega), ofNat_eq (b := b) (by omega)]
    rfl
  | case4 a b c rest ih =>
    have ha := a.toNat_lt
    have hb := b.toNat_lt
    have hc := c.toNat_lt
    rw [a2bLoop_start (by omega), a2bLoop_one (by omega), a2bLoop_two (by omega),
      a2bLoop_three (by omega), ih, ofNat_eq (b := a) (by omega), ofNat_eq (b := b) (by omega),
      ofNat_eq (b := c) (by omega)]
    rfl

theorem head?_b64encode (bytes : List UInt8) : (b64encode bytes).head? ≠ some '=' := by
  have hne : ∀ a : UInt8, sextetChar (a.toNat / 4) ≠ '=' := fun a =>
    sextetChar_ne_pad _ (by have := a.toNat_lt; omega)
  fun_cases b64encode bytes <;> simp [hne]

theorem b64decode_b64encode (bytes : List UInt8) : b64decode (b64encode bytes) = some bytes := by
  rw [b64decode, if_neg (head?_b64encode bytes), a2bLoop_b64encode]

/-- Why a text is not the canonical base64 of so many bytes. -/
inductive CanonicalError where
  | invalid | wrongLength | notCanonical
deriving DecidableEq

/-- The decoding of a text that is also the encoding of what it decodes to. -/
def decodeCanonical (byteLength : ℕ) (text : List Char) : Except CanonicalError (List UInt8) :=
  match b64decode text with
  | none => .error .invalid
  | some decoded =>
    if decoded.length ≠ byteLength then .error .wrongLength
    else if b64encode decoded ≠ text then .error .notCanonical
    else .ok decoded

/-- Exactly the encodings of byte strings of the right length are canonical. -/
theorem decodeCanonical_eq_ok {byteLength : ℕ} {text : List Char} {bytes : List UInt8} :
    decodeCanonical byteLength text = .ok bytes ↔
      bytes.length = byteLength ∧ b64encode bytes = text := by
  constructor
  · intro h
    unfold decodeCanonical at h
    split at h
    · cases h
    · split_ifs at h with hlength htext
      obtain rfl := Except.ok.inj h
      exact ⟨not_not.mp hlength, not_not.mp htext⟩
  · rintro ⟨rfl, rfl⟩
    simp [decodeCanonical, b64decode_b64encode]

end Python.Base64
