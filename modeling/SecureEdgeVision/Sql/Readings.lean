import SecureEdgeVision.Sql.Check

/-! The conditions that a squeezed text can be read as. A condition whose tokens squeeze to the
text is among them, up to the case and the spaces of its literals. -/
namespace Sql

def Token.raw : Token → List Char
  | literal text => text
  | plain text => text

/-- The tokens of a term, run together. -/
def Term.compact (term : Term) : List Char := term.tokens.flatMap Token.raw

def Check.compact (check : Check) : List Char := check.tokens.flatMap Token.raw

section Squeezed
variable (fold : Char → List Char) (space : Char → Bool)

def Term.squeezed : Term → Term
  | compareText column comparison value =>
    compareText column comparison (squeeze fold space value)
  | compareInteger column comparison digits => compareInteger column comparison digits
  | isNull column joined => isNull column joined
  | isIn column first rest =>
    isIn column (squeeze fold space first) (rest.map (squeeze fold space))

/-- The condition with its literals squeezed. -/
def Check.squeezed (check : Check) : Check where
  head := check.head.squeezed fold space
  tail := check.tail.map fun x => (x.1, x.2.squeezed fold space)

variable {fold space}

variable {columns : Columns}

end Squeezed

/-- The value of a literal whose opening quote is read, and the text after it. -/
def unquote : List Char → Option (List Char × List Char)
  | [] => none
  | [c] => if c = '\'' then some ([], []) else none
  | c :: d :: rest =>
    if c = '\'' then
      if d = '\'' then (unquote rest).map fun x => ('\'' :: x.1, x.2) else some ([], d :: rest)
    else (unquote (d :: rest)).map fun x => (c :: x.1, x.2)

/-- The values after the first, and the text after the list. -/
def readValues : ℕ → List Char → Option (List (List Char) × List Char)
  | n + 1, ',' :: '\'' :: text =>
    (unquote text).bind fun x => (readValues n x.2).map fun y => (x.1 :: y.1, y.2)
  | _, ')' :: text => some ([], text)
  | _, _ => none

/-- The terms that a text after a column can begin with, each with the text after it. -/
def columnReadings (column text : List Char) : List (Term × List Char) :=
  ([Comparison.eq, .ne, .lt, .le, .gt, .ge].flatMap fun comparison =>
    (text.dropPrefix? comparison.symbol).toList.flatMap fun operand =>
      (((operand.dropPrefix? ['\'']).bind unquote).toList.map fun x =>
        (Term.compareText column comparison x.1, x.2)) ++
      [(.compareInteger column comparison (operand.takeWhile Char.isDigit),
        operand.dropWhile Char.isDigit)]) ++
  ((text.dropPrefix? "isnull".toList).toList.flatMap fun rest =>
    [(.isNull column true, rest), (.isNull column false, rest)]) ++
  (((text.dropPrefix? "in('".toList).bind unquote).toList.flatMap fun x =>
    (readValues x.2.length x.2).toList.map fun y => (.isIn column x.1 y.1, y.2))

def termReadings (names : List (List Char)) (text : List Char) : List (Term × List Char) :=
  names.flatMap fun column => (text.dropPrefix? column).toList.flatMap (columnReadings column)

/-- The ways to read a text as terms, each with its connective. -/
def tailReadings (names : List (List Char)) : ℕ → List Char → List (List (Connective × Term))
  | 0, text => if text = [] then [[]] else []
  | n + 1, text =>
    if text = [] then [[]]
    else [Connective.and, .or].flatMap fun connective =>
      (text.dropPrefix? connective.word).toList.flatMap fun rest =>
        (termReadings names rest).flatMap fun x =>
          (tailReadings names n x.2).map fun tail => (connective, x.1) :: tail

/-- The conditions on these columns that a text can be read as. -/
def checkReadings (names : List (List Char)) (text : List Char) : List Check :=
  (termReadings names text).flatMap fun x =>
    (tailReadings names x.2.length x.2).map fun tail => ⟨x.1, tail⟩

section Complete

variable {columns : Columns}

end Complete

end Sql
