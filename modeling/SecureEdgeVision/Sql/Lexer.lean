import Mathlib.Data.List.Basic
import Mathlib.Data.List.TakeWhile
import Mathlib.Tactic.SplitIfs

/-! The lexical structure of SQLite text. Keywords, identifiers and operators count without regard
to case, string literals exactly, blanks and comments not at all. -/
namespace Sql

/-- What a lexeme is. Words, numbers, operators and quoted names are plain. -/
inductive Kind where
  | blank | comment | literal | plain
deriving DecidableEq

def isBlank (c : Char) : Bool :=
  c == ' ' || c == '\t' || c == '\n' || c == '\r' || c.toNat == 0xc

def isWordChar (c : Char) : Bool :=
  c.isAlphanum || c == '_' || c == '$' || decide (128 ≤ c.toNat)

/-- The text after a closing quote; a doubled one does not close. -/
def afterQuote (quote : Char) : List Char → List Char
  | [] => []
  | [_] => []
  | c :: d :: rest =>
    if c = quote then if d = quote then afterQuote quote rest else d :: rest
    else afterQuote quote (d :: rest)

/-- The text after `*/`. -/
def afterBlockComment : List Char → List Char
  | [] => []
  | [_] => []
  | c :: d :: rest => if c = '*' ∧ d = '/' then rest else afterBlockComment (d :: rest)

def afterFraction : List Char → List Char
  | [] => []
  | c :: rest => if c = '.' then rest.dropWhile Char.isDigit else c :: rest

def afterExponent : List Char → List Char
  | e :: d :: rest =>
    let signed := (d = '+' ∨ d = '-') ∧ rest.head?.any Char.isDigit = true
    if (e = 'e' ∨ e = 'E') ∧ (d.isDigit = true ∨ signed) then rest.dropWhile Char.isDigit
    else e :: d :: rest
  | text => text

/-- The text after a number, and after the word characters that run on from it. -/
def afterNumber (text : List Char) : List Char :=
  (afterExponent (afterFraction (text.dropWhile Char.isDigit))).dropWhile isWordChar

/-- The operators of more than one character, a longer one before its beginnings. -/
def operators : List (List Char) :=
  ["->>".toList, "->".toList, "<=".toList, "<>".toList, "<<".toList, ">=".toList, ">>".toList,
    "==".toList, "!=".toList, "||".toList]

/-- The text after a plain lexeme that begins with `c`. -/
def afterPlain (c : Char) (rest : List Char) : List Char :=
  if c = '"' ∨ c.toNat = 0x60 then afterQuote c rest
  else if c = '[' then (rest.dropWhile (· ≠ ']')).tail
  else if (c = 'x' ∨ c = 'X') ∧ rest.head? = some '\'' then afterQuote '\'' rest.tail
  else if c.isDigit = true ∨ c = '.' ∧ rest.head?.any Char.isDigit = true then
    afterNumber (c :: rest)
  else if isWordChar c = true ∨ c = '?' ∨ c = '@' ∨ c = ':' ∨ c = '#' then
    rest.dropWhile isWordChar
  else
    match operators.find? fun operator => operator.isPrefixOf (c :: rest) with
    | some operator => (c :: rest).drop operator.length
    | none => rest

/-- The kind of the first lexeme, and the text after it. -/
def firstLexeme (c : Char) (rest : List Char) : Kind × List Char :=
  if isBlank c then (.blank, rest.dropWhile isBlank)
  else if c = '-' ∧ rest.head? = some '-' then (.comment, rest.dropWhile (· ≠ '\n'))
  else if c = '/' ∧ rest.head? = some '*' ∧ rest.tail ≠ [] then
    (.comment, afterBlockComment rest.tail)
  else if c = '\'' then (.literal, afterQuote c rest)
  else (.plain, afterPlain c rest)

/-- The lexemes of a text, at most so many. -/
def lexemesWithin : ℕ → List Char → List (Kind × List Char)
  | _, [] => []
  | 0, _ :: _ => []
  | n + 1, c :: rest =>
    let first := firstLexeme c rest
    let length := rest.length - first.2.length
    (first.1, c :: rest.take length) :: lexemesWithin n (rest.drop length)

/-- Each lexeme takes at least one character. -/
def lexemes (text : List Char) : List (Kind × List Char) := lexemesWithin text.length text

theorem flatMap_lexemesWithin {n : ℕ} {text : List Char} (h : text.length ≤ n) :
    (lexemesWithin n text).flatMap Prod.snd = text := by
  induction n generalizing text with
  | zero =>
    obtain rfl := List.eq_nil_of_length_eq_zero (Nat.le_zero.mp h)
    rfl
  | succ n ih =>
    cases text with
    | nil => rfl
    | cons c rest =>
      have hrest : rest.length ≤ n := Nat.le_of_succ_le_succ h
      rw [lexemesWithin, List.flatMap_cons, ih ((List.drop_sublist _ _).length_le.trans hrest)]
      simp

/-- The lexemes are the text. -/
theorem flatMap_lexemes (text : List Char) : (lexemes text).flatMap Prod.snd = text :=
  flatMap_lexemesWithin (Nat.le_refl _)

theorem mem_of_mem_lexeme {text : List Char} {lexeme : Kind × List Char}
    (hlexeme : lexeme ∈ lexemes text) {c : Char} (hc : c ∈ lexeme.2) : c ∈ text := by
  rw [← flatMap_lexemes text]
  exact List.mem_flatMap.mpr ⟨lexeme, hlexeme, hc⟩

/-- A token: a literal as it is written, or anything else without regard to case. -/
inductive Token where
  | literal (text : List Char)
  | plain (text : List Char)
deriving DecidableEq

/-- The lexemes that count, as tokens. -/
def token? (fold : Char → List Char) : Kind × List Char → Option Token
  | (.literal, text) => some (.literal text)
  | (.plain, text) => some (.plain (text.flatMap fold))
  | _ => none

def tokens (fold : Char → List Char) (text : List Char) : List Token :=
  (lexemes text).filterMap (token? fold)

/-- Only the characters of the text matter. -/
theorem tokens_congr {fold fold' : Char → List Char} {text : List Char}
    (h : ∀ c ∈ text, fold c = fold' c) : tokens fold text = tokens fold' text := by
  unfold tokens
  apply List.filterMap_congr
  rintro ⟨kind, lexeme⟩ hlexeme
  have hsub : ∀ c ∈ lexeme, c ∈ text := fun _ => mem_of_mem_lexeme hlexeme
  cases kind with
  | blank => rfl
  | comment => rfl
  | literal => rfl
  | plain =>
    show some (Token.plain (lexeme.flatMap fold)) = some (Token.plain (lexeme.flatMap fold'))
    rw [List.flatMap_congr fun c hc => h c (hsub c hc)]

section Squeezing
variable (fold : Char → List Char) (space : Char → Bool)

/-- The text without case and without spaces, those in literals included. -/
def squeeze (text : List Char) : List Char := (text.flatMap fold).filter fun c => !space c

def Token.squeezed : Token → List Char
  | literal text => squeeze fold space text
  | plain text => text.filter fun c => !space c

/-- Where the lexemes that count end, in characters that are no spaces. -/
def endsFrom (n : ℕ) : List (Kind × List Char) → List ℕ
  | [] => []
  | (.blank, _) :: rest => endsFrom n rest
  | (.comment, _) :: rest => endsFrom n rest
  | (_, text) :: rest =>
    let next := n + (squeeze fold space text).length
    next :: endsFrom next rest

/-- The literals, and the other lexemes with a space inside, as they are written but for the case of
the latter. Each has its place among the lexemes that count. -/
def writtenFrom (k : ℕ) : List (Kind × List Char) → List (ℕ × Token)
  | [] => []
  | (.blank, _) :: rest => writtenFrom k rest
  | (.comment, _) :: rest => writtenFrom k rest
  | (.literal, text) :: rest => (k, .literal text) :: writtenFrom (k + 1) rest
  | (.plain, text) :: rest =>
    if (text.flatMap fold).any space then
      (k, .plain (text.flatMap fold)) :: writtenFrom (k + 1) rest
    else writtenFrom (k + 1) rest

def ends (text : List Char) : List ℕ := endsFrom fold space 0 (lexemes text)

variable {fold space}

/-- Text without spaces is kept. -/
theorem squeezed_plain {text : List Char} (h : ∀ c ∈ text, space c = false) :
    (Token.plain text).squeezed fold space = text := by
  apply List.filter_eq_self.mpr
  intro c hc
  rw [h c hc]
  rfl

namespace Token

/-- The tokens that squeezing can change. -/
def delicate (space : Char → Bool) : Token → Bool
  | literal _ => true
  | plain text => text.any space

/-- Any other token is what squeezing leaves of it. -/
theorem eq_of_squeezed {a b : Token} (ha : a.delicate space = false) (hb : b.delicate space = false)
    (h : a.squeezed fold space = b.squeezed fold space) : a = b := by
  have hkeep : ∀ text : List Char, (Token.plain text).delicate space = false →
      (Token.plain text).squeezed fold space = text := fun text htext =>
    squeezed_plain fun c hc => Bool.eq_false_iff.mpr (List.any_eq_false.mp htext c hc)
  cases a with
  | literal text => cases ha
  | plain text =>
    cases b with
    | literal text' => cases hb
    | plain text' => rw [← hkeep text ha, ← hkeep text' hb, h]

variable (fold space) in
/-- Where the tokens end. -/
def endsFrom (n : ℕ) : List Token → List ℕ
  | [] => []
  | token :: rest =>
    (n + (token.squeezed fold space).length) ::
      endsFrom (n + (token.squeezed fold space).length) rest

variable (space) in
def writtenFrom (k : ℕ) : List Token → List (ℕ × Token)
  | [] => []
  | token :: rest =>
    if token.delicate space then (k, token) :: writtenFrom (k + 1) rest
    else writtenFrom (k + 1) rest

end Token

end Squeezing

end Sql
