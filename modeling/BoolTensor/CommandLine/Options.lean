import BoolTensor.Cell
import BoolTensor.Text.Integer

/-!
# Command-line options

Options are named in full or by any beginning of their name that fits no other one, and take their
value from the same argument, after an equals sign, or from the next one. Two hyphens after the
equals sign are no value; the option is then given without one. Where an option is given twice the
last one counts.

## Main definitions

* `Config`: the values of all options
* `attachedValue`: what stands after an equals sign
* `Opt`, `Argument`: the options, and the kinds of arguments
* `Argument.classify`: what an argument is
* `Config.parse`: the configuration that arguments ask for, or why there is none
* `UsageError.message`, `usageText`, `helpText`: what the user is told
-/

namespace BoolTensor.CommandLine

/-- The values of all options, as far as they are given with one. -/
structure Config where
  /-- The number of elements to permute. -/
  size : Option Int := some 5
  /-- The number of bits of the two summands. -/
  bits : Option Int := some 6
  /-- Their sum. -/
  target : Option Int := some 21
  outputDir : Option String := some "results"
  logLevel : Option String := some "INFO"
  deriving DecidableEq, Repr

inductive Opt where
  | help
  | size
  | bits
  | target
  | outputDir
  | logLevel
  deriving DecidableEq, Repr

def optionNames : List (String × Opt) :=
  [("-h", .help), ("--help", .help), ("--size", .size), ("--bits", .bits), ("--target", .target),
    ("--output_dir", .outputDir), ("--log_level", .logLevel)]

/-- Why arguments are refused. -/
inductive UsageError where
  /-- Several options have names with this beginning. -/
  | ambiguous (text : String) (names : List String)
  | expectedArgument (name : String)
  | ignoredValue (value : String)
  | invalidInteger (name value : String)
  | unrecognized (arguments : List String)
  deriving DecidableEq, Repr

def UsageError.message : UsageError → String
  | ambiguous text names =>
    "ambiguous option: " ++ text ++ " could match " ++ ", ".intercalate names
  | expectedArgument name => "argument " ++ name ++ ": expected one argument"
  | ignoredValue value =>
    "argument -h/--help: ignored explicit argument " ++ Text.quotedText value
  | invalidInteger name value =>
    "argument " ++ name ++ ": invalid int value: " ++ Text.quotedText value
  | unrecognized arguments => "unrecognized arguments: " ++ " ".intercalate arguments

/-- How a run ends before it starts. -/
inductive Stop where
  | help
  | usage (error : UsageError)
  deriving DecidableEq, Repr

inductive Argument where
  /-- A value, or an argument that nothing takes. -/
  | plain (text : String)
  /-- Two hyphens: all that follows are values. -/
  | separator
  /-- An option, with the value in the same argument if there is one. -/
  | option (name : String) (opt : Opt) (value : Option String)
  | unknown (text : String)
  deriving DecidableEq, Repr

/-- A text before the first equals sign, and the text after it. -/
def cutAtEquals (text : String) : Option (String × String) :=
  let chars := text.toList
  let name := chars.takeWhile (· ≠ '=')
  if name.length < chars.length then
    some (String.ofList name, String.ofList (chars.drop (name.length + 1)))
  else none

def beginsWith (text start : String) : Bool :=
  start.toList.isPrefixOf text.toList

/-- Whether an argument is a number below zero: digits, or digits with a point before the last
ones. A line's end may follow. -/
def isNegativeNumber (text : String) : Bool :=
  let isDigit (c : Char) : Bool := (Text.digitValue? c).isSome
  match text.toList with
  | '-' :: rest =>
    let number := if rest.getLast? = some '\n' then rest.dropLast else rest
    let afterWhole := number.dropWhile isDigit
    match afterWhole with
    | [] => !number.isEmpty
    | '.' :: fraction => !fraction.isEmpty && fraction.all isDigit
    | _ => false
  | _ => false

/-- The options whose names an argument abbreviates, with the value in the same argument. -/
def abbreviated (text : String) : List (String × Opt × Option String) :=
  let (start, value) := match cutAtEquals text with
    | some (start, value) => (start, some value)
    | none => (text, none)
  (optionNames.filter fun (name, _) => beginsWith name start).map fun (name, opt) =>
    (name, opt, value)

/-- What an argument is that names no option. -/
def Argument.classifyUnnamed (text : String) : Argument :=
  if isNegativeNumber text || text.toList.contains ' ' then .plain text else .unknown text

/-- What an argument is that starts with a hyphen and names no option in full. Two hyphens introduce
the beginning of a name, a single one introduces one letter. -/
def Argument.classifyOther (text : String) : Except UsageError Argument :=
  if beginsWith text "--" then
    match abbreviated text with
    | [] => .ok (classifyUnnamed text)
    | [(name, opt, value)] => .ok (.option name opt value)
    | several => .error (.ambiguous text (several.map (·.1)))
  else
    match text.toList with
    | '-' :: 'h' :: attached => .ok (.option "-h" .help (some (String.ofList attached)))
    | _ => .ok (classifyUnnamed text)

/-- What an argument is. -/
def Argument.classify (text : String) : Except UsageError Argument :=
  -- A hyphen by itself is a value.
  if !beginsWith text "-" || text = "-" then .ok (.plain text)
  else
    match optionNames.lookup text with
    | some opt => .ok (.option text opt none)
    | none =>
      match cutAtEquals text with
      | none => classifyOther text
      | some (name, value) =>
        match optionNames.lookup name with
        | some opt => .ok (.option name opt (some value))
        | none => classifyOther text

/-- What the arguments are; two hyphens make values of all that follow. -/
def classifyAll : List String → Except UsageError (List Argument)
  | [] => .ok []
  | text :: rest =>
    if text = "--" then .ok (.separator :: rest.map .plain)
    else do
      let argument ← Argument.classify text
      return argument :: (← classifyAll rest)

/-- The value after the equals sign of an option; two hyphens are none. -/
def attachedValue (text : String) : Option String :=
  if text = "--" then none else some text

/-- An integer value of an option, if there is a value. -/
def integerValue (name : String) : Option String → Except Stop (Option Int)
  | none => .ok none
  | some value =>
    match Text.integerOf? value with
    | some number => .ok (some number)
    | none => .error (.usage (.invalidInteger name value))

/-- The configuration after an option with its value, if there is one. -/
def Config.assign (config : Config) (name : String) (opt : Opt) (value : Option String) :
    Except Stop Config :=
  match opt with
  | .help => .error .help
  | .size => (integerValue name value).map fun number => { config with size := number }
  | .bits => (integerValue name value).map fun number => { config with bits := number }
  | .target => (integerValue name value).map fun number => { config with target := number }
  | .outputDir => .ok { config with outputDir := value }
  | .logLevel => .ok { config with logLevel := value }

/-- How a call for help ends, which takes no value. To the short option more short options may be
attached, with an equals sign or without: there are no others than itself. -/
def helpStop (name : String) : Option String → Stop
  | none => .help
  | some value =>
    if name = "-h" ∧ value ≠ "" ∧ value.toList.all (· = 'h') then .help
    else .usage (.ignoredValue value)

/-- The configuration after all arguments; `extras` are those so far that nothing takes. -/
def Config.consume (config : Config) (extras : List String) :
    List Argument → Except Stop Config
  | [] => if extras.isEmpty then .ok config else .error (.usage (.unrecognized extras))
  | .plain text :: rest => config.consume (extras ++ [text]) rest
  | .separator :: rest => config.consume (extras ++ ["--"]) rest
  | .unknown text :: rest => config.consume (extras ++ [text]) rest
  | .option name .help value :: _ => .error (helpStop name value)
  | .option name opt (some text) :: rest => do
    (← config.assign name opt (attachedValue text)).consume extras rest
  | .option name opt none :: .plain value :: rest => do
    (← config.assign name opt (some value)).consume extras rest
  | .option name _ none :: _ => .error (.usage (.expectedArgument name))

/-- The configuration that arguments ask for. -/
def Config.parse (arguments : List String) : Except Stop Config :=
  match classifyAll arguments with
  | .error error => .error (.usage error)
  | .ok arguments => Config.consume {} [] arguments

def usageText : String :=
  "usage: booltensor [-h] [--size SIZE] [--bits BITS] [--target TARGET]\n"
    ++ "                  [--output_dir OUTPUT_DIR] [--log_level LOG_LEVEL]\n"

def helpText : String :=
  usageText ++ "\nSearch for a derangement and for a pair of addends\n\noptions:\n"
    ++ "  -h, --help            show this help message and exit\n"
    ++ "  --size SIZE\n  --bits BITS\n  --target TARGET\n"
    ++ "  --output_dir OUTPUT_DIR\n  --log_level LOG_LEVEL\n"

end BoolTensor.CommandLine
