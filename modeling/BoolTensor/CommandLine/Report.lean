import BoolTensor.CommandLine.Options
import BoolTensor.Puzzle.Addends
import BoolTensor.Puzzle.Derangement
import BoolTensor.Text.Case
import BoolTensor.Text.Document

/-!
# Reports of model searches

A run searches a derangement and a pair of addends, tells what it finds, and keeps the results as a
document.

## Main definitions

* `logLevels`, `logLayout`, `logLayouts`, `checkLogLevel`: the names of levels, and other names
* `Findings`, `Config.directory`, `Config.run`: the directory for the results, and what a run finds
* `Report.transcript`: what the run tells
* `Report.document`: what it keeps
-/

namespace BoolTensor.CommandLine

def logLevels : List String :=
  ["CRITICAL", "FATAL", "ERROR", "WARN", "WARNING", "INFO", "DEBUG", "NOTSET"]

/-- The name in the vocabulary of logging that stands for a layout of messages, and the layout. -/
def logLayout : String × String :=
  ("BASIC_FORMAT", "%(levelname)s:%(name)s:%(message)s")

/-- The name in the vocabulary of logging that stands for a table of layouts, and the table. -/
def logLayouts : String × String :=
  ("_STYLES",
    "\x7b'%': (<class 'logging.PercentStyle'>, '%(levelname)s:%(name)s:%(message)s'), "
      ++ "'\x7b': (<class 'logging.StrFormatStyle'>, "
      ++ "'\x7blevelname\x7d:\x7bname\x7d:\x7bmessage\x7d'), "
      ++ "'$': (<class 'logging.StringTemplateStyle'>, "
      ++ "'$\x7blevelname\x7d:$\x7bname\x7d:$\x7bmessage\x7d')\x7d")

/-- Refuses what is not the name of a level; the case of its letters does not matter. -/
def checkLogLevel (level : String) : Except Error Unit :=
  let name := Text.upperCase level
  if logLevels.contains name then .ok ()
  else if name = logLayout.1 then .error (.layoutAsLogLevel logLayout.2)
  else if name = logLayouts.1 then .error (.tableAsLogLevel logLayouts.2)
  else .error (.unknownLogLevel name)

structure Findings where
  /-- The permutation, if there is one, and the statistics of its search. -/
  derangement : Option (List Nat) × Statistics
  /-- The two addends, if there are such, and the statistics of their search. -/
  addends : Option (Nat × Nat) × Statistics

/-- The value of an option; what is done first with the value fails where there is none. -/
def required {β : Type} (failure : Error) : Option β → Except Error β
  | some value => .ok value
  | none => .error failure

def Config.directory (config : Config) : Except Error String :=
  required (.pathType .list) config.outputDir

/-- The search for addends. Numbers without bits have any sum modulo one, also where none is
given. -/
def Config.searchAddends (config : Config) (engine : Engine) :
    Except Error (Option (Nat × Nat) × Statistics) := do
  let bits ← required (.unordered "<" .list .int) config.bits
  let target ←
    if bits ≤ 0 then pure (config.target.getD 0)
    else required (.operandTypes ">>" .list .int) config.target
  Addends.solve engine bits target

def Config.run (config : Config) (engine : Engine) : Except Error Findings := do
  checkLogLevel (← required (.noOperation ElementType.list.title "upper") config.logLevel)
  let _ ← config.directory
  let size ← required (.unordered "<" .list .int) config.size
  let derangement ← Derangement.solve engine size
  let addends ← config.searchAddends engine
  return ⟨derangement, addends⟩

namespace Report

/-- The integer value of an option in a line; in the place of none stand empty brackets. -/
def optionText : Option Int → String
  | none => bracketed []
  | some value => toString value

/-- The value of an option as it is kept; in the place of none stands the empty list. -/
def optionDocument {β : Type} (document : β → Document) : Option β → Document
  | none => .list []
  | some value => document value

def rule : String :=
  String.ofList (List.replicate 60 '=')

def banner (title : String) : List String :=
  [rule, " " ++ title, rule]

def permutationText : Option (List Nat) → String
  | none => "None"
  | some images => bracketed (images.map toString)

def pairText : Option (Nat × Nat) → String
  | none => "None"
  | some (a, b) => "(" ++ toString a ++ ", " ++ toString b ++ ")"

/-- A directory without the parts of its path that lead nowhere; the empty path is the current
directory. -/
def normalPath (path : String) : String :=
  let parts := (path.splitOn "/").filter fun part => part ≠ "" && part ≠ "."
  let root :=
    if beginsWith path "//" && !beginsWith path "///" then "//"
    else if beginsWith path "/" then "/" else ""
  if parts.isEmpty && root = "" then "." else root ++ "/".intercalate parts

/-- A file in a directory; only the root directory ends with the sign that separates them. -/
def inDirectory (directory file : String) : String :=
  if directory = "." then file
  else if beginsWith (String.ofList directory.toList.reverse) "/" then directory ++ file
  else directory ++ "/" ++ file

/-- All lines that a run tells. -/
def lines (config : Config) (directory : String) (findings : Findings) : List String :=
  banner "Tensor SAT Model Search"
    ++ ["Output: " ++ directory, "",
      "Searching derangement of " ++ optionText config.size ++ " elements...",
      "Permutation: " ++ permutationText findings.derangement.1,
      findings.derangement.2.render, "",
      "Searching " ++ optionText config.bits ++ "-bit a < b with a + b == "
        ++ optionText config.target ++ "...",
      "Pair: " ++ pairText findings.addends.1,
      findings.addends.2.render, ""]
    ++ banner "Search Complete"
    ++ ["Results saved to: " ++ inDirectory directory "results.json"]

/-- What a run tells. -/
def transcript (config : Config) (directory : String) (findings : Findings) : String :=
  String.join ((lines config directory findings).map (· ++ "\n"))

def statisticsDocument (stats : Statistics) : Document :=
  .fields [("variables", .integer stats.variableCount), ("clauses", .integer stats.clauseCount),
    ("mean_clause_len", .number stats.meanClauseLength),
    ("max_clause_len", .integer stats.maxClauseLength), ("has_model", .truth stats.hasModel)]

def numbersDocument (numbers : List Nat) : Document :=
  .list (numbers.map fun (number : Nat) => .integer number)

/-- What a run keeps. -/
def document (config : Config) (findings : Findings) : Document :=
  .fields [
    ("config", .fields [("size", optionDocument .integer config.size),
      ("bits", optionDocument .integer config.bits),
      ("target", optionDocument .integer config.target),
      ("output_dir", optionDocument .text config.outputDir),
      ("log_level", optionDocument .text config.logLevel)]),
    ("derangement", .fields [
      ("permutation", (findings.derangement.1.map numbersDocument).getD .null),
      ("stats", statisticsDocument findings.derangement.2)]),
    ("sum", .fields [
      ("pair", (findings.addends.1.map fun (a, b) => numbersDocument [a, b]).getD .null),
      ("stats", statisticsDocument findings.addends.2)])]

end Report

end BoolTensor.CommandLine
