import SecureEdgeVision.Sql.Lexer
import Mathlib.Data.Rat.Defs
import Mathlib.Data.List.Lex
import Mathlib.Order.Lattice

/-! Check constraints: conditions on the columns of one row, in three-valued logic, with their
tokens. A row is refused only where its condition is false. -/
namespace Sql

/-- A value of a column. Integers and reals compare as numbers. -/
inductive Value where
  | null
  | number (value : ℚ)
  | text (value : List Char)
  | blob (bytes : List ℕ)
deriving DecidableEq

/-- The names of a table's columns of text and of its columns of numbers. -/
structure Columns where
  texts : List (List Char)
  numbers : List (List Char)

def Columns.names (columns : Columns) : List (List Char) := columns.texts ++ columns.numbers

/-- The columns of a row by their names. -/
abbrev Row := List Char → Value

section Order
variable {α : Type} [DecidableEq α] [LT α] [DecidableLT α]

def order (a b : α) : Ordering := if a = b then .eq else if a < b then .lt else .gt

end Order

namespace Value

/-- Numbers before text before blobs; a comparison with null is unknown. -/
def compare? : Value → Value → Option Ordering
  | null, _ => none
  | _, null => none
  | number a, number b => some (order a b)
  | number _, _ => some .lt
  | text _, number _ => some .gt
  | text a, text b => some (order a b)
  | text _, blob _ => some .lt
  | blob a, blob b => some (order a b)
  | blob _, _ => some .gt

end Value

inductive Comparison where
  | eq | ne | lt | le | gt | ge
deriving DecidableEq

namespace Comparison

def symbol : Comparison → List Char
  | eq => ['=']
  | ne => ['<', '>']
  | lt => ['<']
  | le => ['<', '=']
  | gt => ['>']
  | ge => ['>', '=']

def holds : Comparison → Ordering → Bool
  | eq, o => o == .eq
  | ne, o => o != .eq
  | lt, o => o == .lt
  | le, o => o != .gt
  | gt, o => o == .gt
  | ge, o => o != .lt

section Linear
variable {α : Type} [LinearOrder α] (a b : α)

end Linear

end Comparison

inductive Connective where
  | and | or
deriving DecidableEq

def Connective.word : Connective → List Char
  | .and => ['a', 'n', 'd']
  | .or => ['o', 'r']

/-- Every quote doubled. -/
def escape (value : List Char) : List Char :=
  value.flatMap fun c => if c = '\'' then ['\'', '\''] else [c]

/-- A text literal. -/
def quoted (value : List Char) : List Char := '\'' :: escape value ++ ['\'']

/-- The tokens of the values of a list after the first. -/
def listTokens (values : List (List Char)) : List Token :=
  values.flatMap fun value => [.plain [','], .literal (quoted value)]

/-- A comparison, a null test (in two words or in one) or a membership test. -/
inductive Term where
  | compareText (column : List Char) (comparison : Comparison) (value : List Char)
  | compareInteger (column : List Char) (comparison : Comparison) (digits : List Char)
  | isNull (column : List Char) (joined : Bool)
  | isIn (column : List Char) (first : List Char) (rest : List (List Char))
deriving DecidableEq

/-- Terms under connectives; `AND` binds tighter. -/
structure Check where
  head : Term
  tail : List (Connective × Term)
deriving DecidableEq

namespace Term

def column : Term → List Char
  | compareText column _ _ => column
  | compareInteger column _ _ => column
  | isNull column _ => column
  | isIn column _ _ => column

/-- The text literals, in order. -/
def literals : Term → List (List Char)
  | compareText _ _ value => [value]
  | isIn _ first rest => first :: rest
  | _ => []

def tokens : Term → List Token
  | compareText column comparison value =>
    [.plain column, .plain comparison.symbol, .literal (quoted value)]
  | compareInteger column comparison digits =>
    [.plain column, .plain comparison.symbol, .plain digits]
  | isNull column joined =>
    .plain column :: if joined then [.plain "isnull".toList]
      else [.plain "is".toList, .plain "null".toList]
  | isIn column first rest =>
    .plain column :: .plain "in".toList :: .plain ['('] :: .literal (quoted first) ::
      (listTokens rest ++ [.plain [')']])

/-- The truth of the term; `none` is unknown. -/
def eval (row : Row) : Term → Option Bool
  | compareText column comparison value =>
    ((row column).compare? (.text value)).map comparison.holds
  | compareInteger column comparison digits =>
    ((row column).compare? (.number (Nat.ofDigitChars 10 digits 0))).map comparison.holds
  | isNull column _ => some (row column = .null)
  | isIn column first rest =>
    if row column = .null then none
    else some (decide (∃ value ∈ first :: rest, row column = .text value))

/-- A column of the table and of the literal's type, so that nothing is converted, and an integer
that has digits. -/
def WellFormed (columns : Columns) : Term → Prop
  | compareText column _ _ => column ∈ columns.texts
  | compareInteger column _ digits =>
    column ∈ columns.numbers ∧ digits ≠ [] ∧ digits.all Char.isDigit = true
  | isNull column _ => column ∈ columns.names
  | isIn column _ _ => column ∈ columns.texts

instance (columns : Columns) (term : Term) : Decidable (term.WellFormed columns) := by
  cases term <;> unfold WellFormed <;> infer_instance

end Term

def and? : Option Bool → Option Bool → Option Bool
  | some false, _ => some false
  | _, some false => some false
  | some true, some true => some true
  | _, _ => none

def or? : Option Bool → Option Bool → Option Bool
  | some true, _ => some true
  | _, some true => some true
  | some false, some false => some false
  | _, _ => none

namespace Check

def terms (check : Check) : List Term := check.head :: check.tail.map Prod.snd

def literals (check : Check) : List (List Char) := check.terms.flatMap Term.literals

def tokens (check : Check) : List Token :=
  check.head.tokens ++ check.tail.flatMap fun x => .plain x.1.word :: x.2.tokens

/-- The rest of a condition, given the truth of the conjunction before it. -/
def evalAfter (row : Row) (value : Option Bool) : List (Connective × Term) → Option Bool
  | [] => value
  | (.and, term) :: rest => evalAfter row (and? value (term.eval row)) rest
  | (.or, term) :: rest => or? value (evalAfter row (term.eval row) rest)

def eval (row : Row) (check : Check) : Option Bool :=
  evalAfter row (check.head.eval row) check.tail

/-- The row is not refused. -/
def passes (check : Check) (row : Row) : Bool := check.eval row != some false

def WellFormed (columns : Columns) (check : Check) : Prop :=
  ∀ term ∈ check.terms, term.WellFormed columns

instance (columns : Columns) (check : Check) : Decidable (check.WellFormed columns) :=
  inferInstanceAs (Decidable (∀ term ∈ check.terms, term.WellFormed columns))

end Check

end Sql
