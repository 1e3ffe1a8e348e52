import BoolTensor.Cnf.Basic
import BoolTensor.Text.Digits

/-!
# The DIMACS text of a formula

A header with the numbers of variables and clauses, then one line for each clause: its literals and
a closing zero, separated by blanks.

## Main definitions

* `Dimacs.write`, `Dimacs.writeWords`: the text of a formula, and of clauses as words
* `Dimacs.read?`: the numbers of the header and the clauses of a text

## Design notes

The reader takes the integers after the header and cuts them at every zero; line ends count as
blanks. So it needs no zero among the literals, and it reads back what `write` writes.
-/

namespace BoolTensor.Dimacs

/-- The decimal digits of an integer, after a minus sign where it is below zero. -/
def integer (value : Int) : List Char :=
  if value < 0 then '-' :: Nat.toDigits 10 value.natAbs else Nat.toDigits 10 value.natAbs

/-- The line of a clause: the word of each literal with a blank after it, the zero, and the line's
end. -/
def line (clause : List (List Char)) : List Char :=
  clause.flatMap (· ++ [' ']) ++ ['0', '\n']

/-- The first line: the numbers of variables and clauses. -/
def header (variableCount clauseCount : Nat) : List Char :=
  "p cnf ".toList ++ Nat.toDigits 10 variableCount ++ ' ' :: Nat.toDigits 10 clauseCount ++ ['\n']

/-- The characters of the text of clauses over so many variables, each clause as the words of its
literals. -/
def writeWords (variableCount : Nat) (clauses : List (List (List Char))) : List Char :=
  header variableCount clauses.length ++ clauses.flatMap line

/-- The characters of the text of a formula over so many variables. -/
def write (variableCount : Nat) (formula : Formula) : List Char :=
  writeWords variableCount (formula.map (·.map integer))

/-! ### Reading -/

def isBlank (c : Char) : Bool :=
  c = ' ' || c = '\n'

/-- The words of a text; `word` holds the letters of the current one, last letter first. -/
def wordsFrom (word : List Char) : List Char → List (List Char)
  | [] => if word.isEmpty then [] else [word.reverse]
  | c :: rest =>
    if isBlank c then
      if word.isEmpty then wordsFrom [] rest else word.reverse :: wordsFrom [] rest
    else wordsFrom (c :: word) rest

def words (text : List Char) : List (List Char) :=
  wordsFrom [] text

/-- Integers cut at every zero; what follows the last zero is no clause. -/
def cut (clause : Clause) : List Int → Formula
  | [] => []
  | value :: rest =>
    if value = 0 then clause :: cut [] rest else cut (clause ++ [value]) rest

/-- The numbers of the header and the clauses of a text. -/
def read? (text : List Char) : Option (Nat × Nat × Formula) :=
  match words text with
  | ['p'] :: ['c', 'n', 'f'] :: variableCount :: clauseCount :: rest => do
    let variableCount ← Text.natural? variableCount
    let clauseCount ← Text.natural? clauseCount
    let values ← rest.mapM Text.signed?
    return (variableCount, clauseCount, cut [] values)
  | _ => none

end BoolTensor.Dimacs
