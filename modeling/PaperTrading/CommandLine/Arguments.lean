import PaperTrading.Text.Blank
import PaperTrading.Text.Quoted
import PaperTrading.Value.Reading

/-!
# Command-line arguments

An argument is an option, which may be shortened as long as it stays unambiguous and may carry its
value behind an equals sign, or else a value.  After a double dash everything is a value.

* `Flag`: the options.
* `Word.classify`: what a single argument is.
* `Arguments.parse`: the options of a command line, or the reason why it ends there.
-/

namespace PaperTrading.CommandLine

open PaperTrading.Text

/-- **The options.** -/
inductive Flag where
  | help
  | mode
  | env
  | strategyId
  | candles
  | capital
  deriving DecidableEq, Repr

/-- What the program does. -/
inductive Mode where
  | serve
  | replay
  deriving DecidableEq, Repr

/-- Why a command line cannot be used. -/
inductive UsageError where
  | ambiguous (argument : String) (matching : List String)
  | ignoredValue (flag : Flag) (value : String)
  | missingValue (flag : Flag)
  | invalidNumber (flag : Flag) (value : String)
  | invalidMode (value : String)
  | unrecognized (arguments : List String)
  | incompleteReplay
  deriving DecidableEq, Repr

namespace Flag

/-- The spellings of all options, in the order in which they are listed. -/
def spellings : List (String × Flag) :=
  [("-h", help), ("--help", help), ("--mode", mode), ("--env", env), ("--strategy-id", strategyId),
    ("--candles", candles), ("--capital", capital)]

/-- The option of an exact spelling. -/
def ofName? (s : String) : Option Flag := (spellings.find? (·.1 == s)).map (·.2)

/-- All spellings of an option. -/
def names (f : Flag) : List String := (spellings.filter (·.2 == f)).map (·.1)

end Flag

namespace Mode

def all : List Mode := [serve, replay]

def name : Mode → String
  | serve => "serve"
  | replay => "replay"

/-- The mode of a given name. -/
def ofName? (s : String) : Option Mode := all.find? (·.name == s)

end Mode

/-- **The wording of a usage error.** -/
def UsageError.message : UsageError → String
  | ambiguous argument matching =>
    "ambiguous option: " ++ argument ++ " could match " ++ ", ".intercalate matching
  | ignoredValue flag value => about flag ++ "ignored explicit argument " ++ quote value
  | missingValue flag => about flag ++ "expected one argument"
  | invalidNumber flag value => about flag ++ "invalid float value: " ++ quote value
  | invalidMode value =>
    about .mode ++ "invalid choice: " ++ quote value ++ " (choose from "
      ++ ", ".intercalate (Mode.all.map fun m => quote m.name) ++ ")"
  | unrecognized arguments => "unrecognized arguments: " ++ " ".intercalate arguments
  | incompleteReplay => "--mode replay requires --strategy-id and --candles"
where
  /-- The option that a message is about. -/
  about (flag : Flag) : String := "argument " ++ "/".intercalate flag.names ++ ": "

/-- How the program is called. -/
def usage : String :=
  "usage: [--mode serve|replay] [--env FILE] [--strategy-id ID] [--candles FILE] [--capital NUMBER]"

/-! ### Single arguments -/

/-- What an argument is; a plain one is a value, or belongs to no option. -/
inductive Word where
  | plain (s : String)
  /-- An option with the value that is attached to it; `long` tells two dashes from one. -/
  | flag (f : Flag) (long : Bool) (attached : Option String)
  /-- An option that nobody knows. -/
  | unknown (s : String)
  /-- A double dash. -/
  | separator

namespace Word

/-- A number with a minus sign, which is a value and not an option; a line feed may end it. -/
def isNegativeNumber : List Char → Bool
  | '-' :: cs =>
    let isDigit (c : Char) : Bool := (digit? c).isSome
    let isEnd (cs : List Char) : Bool := cs == [] || cs == ['\n']
    match cs.dropWhile isDigit with
    | '.' :: ds => ds.head?.any isDigit && isEnd (ds.dropWhile isDigit)
    | rest => cs.head?.any isDigit && isEnd rest
  | _ => false

/-- An argument divided at its first equals sign. -/
def splitValue (cs : List Char) : String × Option String :=
  (String.ofList (cs.takeWhile (· != '=')),
    match cs.dropWhile (· != '=') with
    | [] => none
    | _ :: value => some (String.ofList value))

/-- The options whose spelling an argument with two dashes may begin. -/
def longMatches (cs : List Char) : List (String × Flag × Option String) :=
  let (start, value) := splitValue cs
  (Flag.spellings.filter fun s => start.toList.isPrefixOf s.1.toList).map fun s =>
    (s.1, s.2, value)

/-- The options that an argument with one dash may begin, or whose letter it carries a value to. -/
def shortMatches (cs : List Char) : List (String × Flag × Option String) :=
  Flag.spellings.filterMap fun s =>
    if s.1.toList = cs.take 2 then some (s.1, s.2, some (String.ofList (cs.drop 2)))
    else if cs.isPrefixOf s.1.toList then some (s.1, s.2, none)
    else none

/-- An argument that starts with a dash and has more after it. -/
def classifyOption (s : String) : Except UsageError Word :=
  let cs := s.toList
  let isLong := cs[1]? == some '-'
  let (start, value) := splitValue cs
  match Flag.ofName? s, Flag.ofName? start, value with
  | some f, _, _ => .ok (flag f isLong none)
  | none, some f, some v => .ok (flag f isLong (some v))
  | _, _, _ =>
    match if isLong then longMatches cs else shortMatches cs with
    | [] =>
      .ok (if isNegativeNumber cs || cs.contains ' ' then plain s else unknown s)
    | [(_, f, v)] => .ok (flag f isLong v)
    | several => .error (.ambiguous s (several.map (·.1)))

/-- **What a single argument is.** -/
def classify (s : String) : Except UsageError Word :=
  match s.toList with
  | '-' :: _ :: _ => if s = "--" then .ok separator else classifyOption s
  | _ => .ok (plain s)

/-- What the arguments of a command line are; behind a double dash all are values. -/
def classifyAll : List String → Except UsageError (List Word)
  | [] => .ok []
  | s :: rest => do
    match ← classify s with
    | separator => return separator :: rest.map plain
    | word => return word :: (← classifyAll rest)

end Word

/-! ### Command lines -/

/-- **The options of a command line.** -/
structure Arguments (α : Type) where
  mode : Mode
  env : Option String
  strategyId : Option String
  candles : Option String
  capital : Option α

/-- Why the reading of a command line ends early. -/
inductive Stop where
  | help
  | usage (e : UsageError)
  deriving DecidableEq, Repr

namespace Arguments

variable {α : Type}

/-- The options when none is given. -/
def standard : Arguments α := ⟨.serve, none, none, none, none⟩

variable [Arith α]

/-- The options with one of them set. -/
def set (a : Arguments α) (f : Flag) (value : String) : Except Stop (Arguments α) :=
  match f with
  | .help => .error (.usage (.ignoredValue .help value))
  | .mode => match Mode.ofName? value with
    | some mode => .ok { a with mode }
    | none => .error (.usage (.invalidMode value))
  | .env => .ok { a with env := some value }
  | .strategyId => .ok { a with strategyId := some value }
  | .candles => .ok { a with candles := some value }
  | .capital => match (Value.text value : Value α).toNumber with
    | .ok x => .ok { a with capital := some x }
    | .error _ => .error (.usage (.invalidNumber .capital value))

/-- Reads words from the left: the options, and the words that belong to none of them. -/
def readWords (a : Arguments α) : List Word → Except Stop (Arguments α × List String)
  | [] => .ok (a, [])
  | .plain s :: ws | .unknown s :: ws => do
    let (a, rest) ← readWords a ws
    return (a, s :: rest)
  | .separator :: ws => do
    let (a, rest) ← readWords a ws
    return (a, "--" :: rest)
  | .flag .help _ none :: _ => .error .help
  | .flag .help long (some v) :: _ =>
    let rest := if long then v.toList else v.toList.dropWhile (· == 'h')
    .error (if v ≠ "" && rest.isEmpty then .help
      else .usage (.ignoredValue .help (String.ofList rest)))
  | .flag f _ (some v) :: ws => do readWords (← a.set f v) ws
  | .flag f _ none :: .plain v :: ws => do readWords (← a.set f v) ws
  | .flag f _ none :: _ => .error (.usage (.missingValue f))

/-- **The options of a command line,** or the reason why it ends there. -/
def parse (args : List String) : Except Stop (Arguments α) := do
  let words ← (Word.classifyAll args).mapError .usage
  let (a, rest) ← readWords standard words
  if rest.isEmpty then return a else throw (.usage (.unrecognized rest))

end Arguments

end PaperTrading.CommandLine
